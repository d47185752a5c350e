import CaddyPanel.Lib.Text

/-!
# Handler chains of the web server

A route holds matcher sets and a chain of handlers; a handler answers the request or hands it, maybe
changed, to the next one. A `subroute` compiles its routes into the chain, a terminal route ends it,
and a `reverse_proxy` with a matching `handle_response` runs that response's routes on the original
request and then continues. `Env` stands for what the configuration cannot decide: the matchers'
data, the placeholders, and the answers of other servers.
-/

namespace Caddy

open Text (Str)

/-! ### Configuration -/

/-- One condition of a matcher set. -/
inductive Cond where
  | host (hosts : List Str)
  | path (patterns : List Str)
  | method (methods : List Str)
  | header (name : Str) (values : List Str)
  | protocol (scheme : Str)
  | remoteIP (ranges : List Str)
  | vars (key : Str) (values : List Str)
  | geo (dbPath : Str) (allow deny : List Str)
  | not (sets : List (List Cond))

/-- A header operation: `add`, `set`, `delete`, `replace` are applied in this order. -/
structure HeaderOps where
  add : List (Str × List Str) := []
  set : List (Str × List Str) := []
  delete : List Str := []
  /-- field, and what is searched and replaced in its values -/
  replace : List (Str × Str × Str) := []
  deferred : Bool := false

structure StaticResponse where
  status : Nat := 200
  headers : List (Str × List Str) := []
  body : Str := []
  abort : Bool := false
  deriving DecidableEq

structure Upstream where
  dial : Str
  maxRequests : Option Int := none
  deriving DecidableEq

structure DynamicUpstreams where
  source : Str
  name : Str
  port : Str
  resolver : List Str
  refresh : Str
  deriving DecidableEq

structure Tls where
  serverName : Option Str := none
  insecureSkipVerify : Bool := false
  deriving DecidableEq

structure Transport where
  dialTimeout : Option Str := none
  responseHeaderTimeout : Option Str := none
  tls : Option Tls := none
  localAddress : Option Str := none
  deriving DecidableEq

structure LoadBalancing where
  policy : Str
  field : Option Str := none
  key : Option Str := none
  choose : Option Nat := none
  name : Option Str := none
  secret : Option Str := none
  weights : List Int := []
  tryDuration : Str
  tryInterval : Str
  deriving DecidableEq

structure ActiveHealth where
  uri : Str
  interval : Str
  timeout : Str
  expectStatus : Option Int := none
  fails : Option Int := none
  deriving DecidableEq

structure PassiveHealth where
  failDuration : Str
  maxFails : Option Int := none
  unhealthyStatus : List Nat
  deriving DecidableEq

/-- What a `reverse_proxy` dials, and how. -/
structure Proxy where
  upstreams : List Upstream := []
  dynamicUpstreams : Option DynamicUpstreams := none
  flushInterval : Option Int := none
  streamCloseDelay : Option Str := none
  transport : Option Transport := none
  setHeaders : List (Str × List Str) := []
  deleteHeaders : List Str := []
  loadBalancing : Option LoadBalancing := none
  activeHealth : Option ActiveHealth := none
  passiveHealth : Option PassiveHealth := none
  requestBuffers : Option Nat := none
  /-- method and URI of the subrequest -/
  rewrite : Option (Str × Str) := none
  deriving DecidableEq

inductive Rewrite where
  | uri (uri : Str)
  | pathRegexp (find replace : Str)
  /-- any other `rewrite` object -/
  | other (config : Str)

mutual

inductive Handler where
  | staticResponse (response : StaticResponse)
  | headers (request response : HeaderOps)
  | reverseProxy (proxy : Proxy) (handleResponse : List Response)
  | subroute (routes : List Route)
  | waf (directives : Str)
  | rateLimit (zone key window : Str) (maxEvents : Int)
  | cache (ttl stale : Str) (keyHeaders : List Str)
  | encode (config : Str)
  | authentication (accounts : List (Str × Str))
  | rewrite (rewrite : Rewrite)
  | vars (config : Str)
  | requestBody (config : Str)

inductive Route where
  | mk (sets : List (List Cond)) (handle : List Handler) (terminal : Bool)

/-- An entry of `handle_response`: the class of status codes it takes, if it names one. -/
inductive Response where
  | mk (statusClass : Option Nat) (routes : List Route)

end

/-! ### Requests -/

structure Header where
  name : Str
  value : Str
  /-- the value is the one the client sent -/
  fromClient : Bool
  deriving DecidableEq

structure Request where
  method : Str
  scheme : Str
  host : Str
  path : Str
  remoteIP : Str
  headers : List Header
  deriving DecidableEq

/-- Header names are compared without case. -/
def sameName (a b : Str) : Bool :=
  Text.toLower a = Text.toLower b

def Request.values (req : Request) (name : Str) : List Str :=
  (req.headers.filter fun h => sameName h.name name).map Header.value

/-- What other servers answer and what the node looks up. -/
structure Env where
  hostMatches : List Str → Str → Bool
  pathMatches : List Str → Str → Bool
  headerMatches : List Str → List Str → Bool
  ipMatches : List Str → Str → Bool
  varMatches : Str → List Str → Request → Bool
  geoPermits : Str → List Str → List Str → Str → Bool
  /-- the replacer -/
  expand : Str → Request → Str
  substitute : Str → Str → Str → Str
  rewrite : Rewrite → Request → Request
  /-- the status code with which the proxied server answers -/
  status : Proxy → Request → Nat
  authenticates : List (Str × Str) → Request → Bool
  /-- the status code of a blocked request -/
  wafBlocks : Str → Request → Option Nat
  rateLimited : Str → Request → Bool
  cached : List Str → Request → Bool

/-! ### Matchers -/

mutual

def Cond.holds (env : Env) : Cond → Request → Bool
  | .host hosts, req => env.hostMatches hosts req.host
  | .path patterns, req => env.pathMatches patterns req.path
  | .method methods, req => methods.contains req.method
  | .header name values, req => env.headerMatches values (req.values name)
  | .protocol scheme, req => scheme = req.scheme
  | .remoteIP ranges, req => env.ipMatches ranges req.remoteIP
  | .vars key values, req => env.varMatches key values req
  | .geo dbPath allow deny, req => env.geoPermits dbPath allow deny req.remoteIP
  | .not sets, req => !anySetHolds env sets req

def setHolds (env : Env) : List Cond → Request → Bool
  | [], _ => true
  | c :: set, req => c.holds env req && setHolds env set req

def anySetHolds (env : Env) : List (List Cond) → Request → Bool
  | [], _ => false
  | set :: sets, req => setHolds env set req || anySetHolds env sets req

end

/-- A route without matcher sets matches every request. -/
def routeMatches (env : Env) (sets : List (List Cond)) (req : Request) : Bool :=
  sets.isEmpty || anySetHolds env sets req

/-! ### Header operations -/

/-- Whether a field of `delete` names the header: it may start or end with a star. -/
def deletes (pattern name : Str) : Bool :=
  let pattern := Text.toLower pattern
  let name := Text.toLower name
  let starts := pattern.head? = some '*'
  let ends := pattern.getLast? = some '*'
  if starts && ends then decide (pattern.tail.dropLast <:+: name)
  else if starts then decide (pattern.tail <:+ name)
  else if ends then decide (pattern.dropLast <+: name)
  else pattern = name

def addHeader (env : Env) (req : Request) (field : Str × List Str) : Request :=
  { req with
    headers := req.headers ++ field.2.map fun v =>
      { name := field.1, value := env.expand v req, fromClient := false } }

def deleteHeader (req : Request) (pattern : Str) : Request :=
  { req with headers := req.headers.filter fun h => !deletes pattern h.name }

def setHeader (env : Env) (req : Request) (field : Str × List Str) : Request :=
  addHeader env { req with headers := req.headers.filter fun h => !sameName h.name field.1 } field

def replaceHeader (env : Env) (req : Request) (r : Str × Str × Str) : Request :=
  { req with
    headers := req.headers.map fun h =>
      if sameName h.name r.1 then { h with value := env.substitute r.2.1 r.2.2 h.value } else h }

def HeaderOps.apply (env : Env) (ops : HeaderOps) (req : Request) : Request :=
  let added := ops.add.foldl (addHeader env) req
  let set := ops.set.foldl (setHeader env) added
  let deleted := ops.delete.foldl deleteHeader set
  ops.replace.foldl (replaceHeader env) deleted

/-! ### Chains -/

/-- How a request ends. -/
inductive Outcome where
  | responded (response : StaticResponse)
  /-- served by the proxied server -/
  | proxied (proxy : Proxy) (req : Request)
  | denied (status : Nat)
  | fromCache
  /-- the chain ended without an answer -/
  | nothing
  deriving DecidableEq

mutual

/-- A handler ends the request or hands it to the next one. -/
def serve (env : Env) : Handler → Request → Except Outcome Request
  | .staticResponse response, _ => .error (.responded response)
  | .headers ops _, req => .ok (ops.apply env req)
  | .reverseProxy proxy responses, req =>
    serveResponse env proxy responses req (env.status proxy req)
  | .subroute routes, req => serveRoutes env routes req
  | .waf directives, req =>
    match env.wafBlocks directives req with
    | some status => .error (.denied status)
    | none => .ok req
  | .rateLimit zone _ _ _, req => if env.rateLimited zone req then .error (.denied 429) else .ok req
  | .cache _ _ keyHeaders, req => if env.cached keyHeaders req then .error .fromCache else .ok req
  | .encode _, req => .ok req
  | .authentication accounts, req =>
    if env.authenticates accounts req then .ok req else .error (.denied 401)
  | .rewrite r, req => .ok { env.rewrite r req with headers := req.headers }
  | .vars _, req => .ok req
  | .requestBody _, req => .ok req

def serveAll (env : Env) : List Handler → Request → Except Outcome Request
  | [], req => .ok req
  | h :: hs, req =>
    match serve env h req with
    | .ok req' => serveAll env hs req'
    | .error o => .error o

def serveRoute (env : Env) : Route → Request → Except Outcome Request
  | .mk sets handle terminal, req =>
    if routeMatches env sets req then
      match serveAll env handle req with
      | .ok req' => if terminal then .error .nothing else .ok req'
      | .error o => .error o
    else .ok req

def serveRoutes (env : Env) : List Route → Request → Except Outcome Request
  | [], req => .ok req
  | r :: rs, req =>
    match serveRoute env r req with
    | .ok req' => serveRoutes env rs req'
    | .error o => .error o

/-- The first entry that takes the status runs on the original request; without one the answer of
the proxied server is the client's. -/
def serveResponse (env : Env) (proxy : Proxy) :
    List Response → Request → Nat → Except Outcome Request
  | [], req, _ => .error (.proxied proxy req)
  | .mk statusClass routes :: rest, req, status =>
    if statusClass.all (· = status / 100) then serveRoutes env routes req
    else serveResponse env proxy rest req status

end

end Caddy
