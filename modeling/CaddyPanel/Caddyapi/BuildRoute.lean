import CaddyPanel.Caddyapi.Route

/-!
# Compilation of one route (`BuildRoute`)

Each handler the builder may append is a function of the route that answers the handlers it
appends, in the order of the source; `chain` puts them together and `buildRoute` wraps them.
-/

namespace Caddyapi

open Text (Str trimSpace toLower)
open Caddy (Cond Handler HeaderOps StaticResponse Proxy Transport Tls LoadBalancing ActiveHealth
  PassiveHealth DynamicUpstreams)

/-! ### Strings -/

/-- Digits of a positive number; a negative one has none. -/
def itoa (n : Int) : Str :=
  if n = 0 then "0" else if n < 0 then [] else Nat.toDigits 10 n.toNat

lemma itoa_natCast (n : Nat) : itoa n = Nat.toDigits 10 n := by
  unfold itoa
  split_ifs with hzero hneg
  · obtain rfl : n = 0 := by omega
    rfl
  · omega
  · rw [Int.toNat_natCast]

lemma itoa_natCast_injective {m n : Nat} (h : itoa m = itoa n) : m = n := by
  rw [itoa_natCast, itoa_natCast] at h
  have hdigits := congrArg (fun ds => Nat.ofDigitChars 10 ds 0) h
  simpa only [Nat.ofDigitChars_toDigits (by decide : 1 < 10) (by decide : 10 ≤ 10)] using hdigits

/-- `net.JoinHostPort`: brackets around a host with a colon or a zone. -/
def joinHostPort (host port : Str) : Str :=
  if host.contains ':' || host.contains '%' then "[" ++ host ++ "]:" ++ port
  else host ++ ":" ++ port

def dial (ip : Str) (port : Int) : Str :=
  joinHostPort ip (itoa port)

def firstNonEmpty : List Str → Str
  | [] => []
  | v :: vals => if v ≠ [] then v else firstNonEmpty vals

def trimSuffix (suffix s : Str) : Str :=
  if suffix.isSuffixOf s then s.take (s.length - suffix.length) else s

/-- `msDur`. -/
def msDur (n default : Int) : Str :=
  let n := if n ≤ 0 then default else n
  if n % 1000 = 0 then itoa (n / 1000) ++ "s" else itoa n ++ "ms"

def secs (n default : Int) : Str :=
  itoa (if n ≤ 0 then default else n) ++ "s"

/-- `dialFromURL`: the host and port of a provider URL. -/
def dialFromURL (raw : Str) : Str :=
  let s := trimSpace raw
  let https := "https://".toList.isPrefixOf s
  let rest :=
    if https then s.drop 8 else if "http://".toList.isPrefixOf s then s.drop 7 else s
  let authority := Text.before '/' rest
  if authority = [] then raw
  else if authority.contains ':' then authority
  else authority ++ (if https then ":443".toList else ":9000".toList)

def isHTTPSProvider (raw : Str) : Bool :=
  "https://".toList.isPrefixOf (trimSpace raw)

/-- The text before the last `c`, and the text behind it. -/
def splitLast (c : Char) (s : Str) : Option (Str × Str) :=
  if s.contains c then
    some ((s.reverse.dropWhile (· ≠ c)).tail.reverse, (s.reverse.takeWhile (· ≠ c)).reverse)
  else none

/-- `net.SplitHostPort`: the host may be in brackets and has no other colon. -/
def splitHostPort (s : Str) : Option (Str × Str) :=
  match splitLast ':' s with
  | none => none
  | some (host, port) =>
    if host.head? = some '[' then
      if host.getLast? = some ']' then
        let inner := host.tail.dropLast
        if inner.contains '[' || inner.contains ']' || port.contains '[' || port.contains ']' then
          none
        else some (inner, port)
      else none
    else if host.contains ':' || host.contains '[' || host.contains ']' || port.contains '[' ||
        port.contains ']' then none
    else some (host, port)

/-- `strconv.Atoi` on digits with a sign. -/
def atoi (s : Str) : Option Int :=
  let digits (ds : Str) : Option Int :=
    if ds ≠ [] && ds.all Char.isDigit then
      some (ds.foldl (fun n d => n * 10 + (d.toNat - '0'.toNat : Nat)) 0)
    else none
  match s with
  | '-' :: ds => (digits ds).map (- ·)
  | '+' :: ds => digits ds
  | ds => digits ds

/-- The host and port that the SSO subroutes dial. -/
def ssoDialTarget (r : Route) : Option (Str × Int) :=
  if trimSpace r.ssoProviderURL = [] then none
  else
    match splitHostPort (dialFromURL r.ssoProviderURL) with
    | none => none
    | some (h, p) =>
      if trimSpace h = [] then none
      else
        match atoi p with
        | none => none
        | some n =>
          if n ≤ 0 || 65535 < n then none
          else some (if r.ssoResolver ≠ [] then r.ssoResolver else h, n)

/-- `locationPathMatchers`. -/
def locationPathMatchers (path : Str) : List Str :=
  let path := trimSpace path
  if path = [] then []
  else
    let path := if "/".toList.isPrefixOf path then path else '/' :: path
    if path = "/" || path = "/*" then ["/*"]
    else if "/*".toList.isSuffixOf path then
      let exact := trimSuffix "/*" path
      if exact = [] then ["/*"] else [exact, path]
    else [path]

/-! ### Quarantine and misconfiguration -/

def quarantineDenyHandler (kind : Str) : StaticResponse where
  status := 503
  headers := [("Content-Type", ["text/plain; charset=utf-8"]),
    ("Cache-Control", ["no-store"]), ("Retry-After", ["60"]),
    ("X-Hpg-Quarantine", [kind])]
  body := "Service unavailable: this route is quarantined because its stored configuration failed validation. A platform administrator must review it.\n"

/-- A stored custom chain that the allow-list rejects. -/
def customHandlerQuarantine (hp : Helpers) (r : Route) : Bool :=
  trimSpace r.customHandlers ≠ [] && !(hp.sanitizeCustomHandlers r.customHandlers).isOk

def rejectsTemplate (s : Str) : Bool :=
  !(TenantTemplate.ScreenTenantTemplate s).isOk

/-- A stored string with a placeholder that the node would expand. -/
def tenantTemplateQuarantine (hp : Helpers) (r : Route) : Bool :=
  [r.redirectURL, r.geoRedirectURL, r.upstreamHostHeader, r.upstreamSNI,
      r.upstreamPathPrefix].any rejectsTemplate ||
    r.headers.any (fun h => rejectsTemplate (h.1 ++ ": " ++ h.2)) ||
    r.locationRules.any (fun rule =>
      rejectsTemplate rule.redirectURL || rejectsTemplate rule.rewriteURI) ||
    !(hp.screenReplacerValue r.rateLimitKey).isOk

def wafUnenforceable (r : Route) : Bool :=
  r.wafEnabled && r.wafBlocking && !r.wafModuleAvailable && !r.wafFailOpen

def misconfigDenyHandler (r : Route) : StaticResponse :=
  let reason :=
    if r.portalDenyOnMisconfig || r.portalProtect then
      if r.portalNoGrants then
        "access portal protection is on but nobody has been granted access".toList
      else "access portal verifier is unavailable".toList
    else if wafUnenforceable r && !r.mtlsDenyOnMisconfig then
      "the web application firewall is unavailable".toList
    else "client certificate enforcement is unavailable".toList
  { status := 503
    headers := [("Content-Type".toList, ["text/plain; charset=utf-8".toList]),
      ("Cache-Control".toList, ["no-store".toList]), ("Retry-After".toList, ["60".toList])]
    body := "Service unavailable: ".toList ++ reason ++ ".\n".toList }

/-- An enabled gate cannot be emitted, so nothing may serve the host. -/
def misconfigured (r : Route) : Bool :=
  r.mtlsDenyOnMisconfig || r.portalDenyOnMisconfig || (r.portalProtect && r.portalDial = []) ||
    wafUnenforceable r

/-! ### The proxy of the route -/

/-- The effective resolver: a direct address beats the tunnel peer's. -/
def dnsResolver (r : Route) : Str :=
  firstNonEmpty [r.dnsResolverIP, r.dnsResolverViaWGPeerIP]

/-- The node looks the backend up itself. -/
def hasDynUpstreams (hp : Helpers) (r : Route) : Bool :=
  r.backendResolver ≠ [] || (dnsResolver r ≠ [] && !hp.isIP r.upstreamIP)

def dynamicUpstreams (r : Route) (source resolver : Str) : DynamicUpstreams where
  source := source
  name := r.upstreamIP
  port := itoa r.upstreamPort
  resolver := [joinHostPort resolver "53"]
  refresh := "30s"

def nonEmpty (s : Str) : Option Str :=
  if s = [] then none else some s

def positive (n : Int) : Option Int :=
  if 0 < n then some n else none

/-- Where the primary dials: a lookup, the pool or the single backend. -/
def primaryDials (hp : Helpers) (r : Route) : List Caddy.Upstream × Option DynamicUpstreams :=
  if r.backendResolver ≠ [] then ([], some (dynamicUpstreams r "a" r.backendResolver))
  else if dnsResolver r ≠ [] && !hp.isIP r.upstreamIP then
    ([], some (dynamicUpstreams r
      (if r.dnsAddressFamily = "ipv6" then "aaaa" else "a") (dnsResolver r)))
  else if !r.external && 0 < r.upstreams.length then
    (r.upstreams.map fun u =>
      { dial := dial u.host u.port, maxRequests := positive u.maxRequests }, none)
  else ([{ dial := dial r.upstreamIP r.upstreamPort }], none)

def primaryTls (r : Route) : Tls :=
  if r.external then
    { serverName := nonEmpty
        (firstNonEmpty [r.upstreamSNI, r.upstreamHostHeader, r.pinnedSNI, r.upstreamIP]) }
  else { serverName := nonEmpty r.pinnedSNI, insecureSkipVerify := r.upstreamSkipTLSVerify }

def primaryTransport (r : Route) : Transport where
  dialTimeout := some (if 0 < r.dialTimeoutMs then itoa r.dialTimeoutMs ++ "ms" else "10s")
  responseHeaderTimeout :=
    if 0 < r.responseHeaderTimeoutMs then some (itoa r.responseHeaderTimeoutMs ++ "ms")
    else none
  tls := if r.upstreamScheme = "https" then some (primaryTls r) else none
  localAddress :=
    if (r.outboundIPMode = "fixed" || r.outboundIPMode = "random") &&
        r.outboundIP ≠ [] then some r.outboundIP
    else none

/-- The upstream request headers; the Host of an external origin wins over a stored one. -/
def primarySetHeaders (r : Route) : List (Str × List Str) :=
  let host := firstNonEmpty [r.upstreamHostHeader, r.pinnedSNI, r.upstreamIP]
  if r.external && host ≠ [] then
    (r.headers.filter fun h => h.1 ≠ "Host".toList).map (fun h => (h.1, [h.2])) ++
      [("Host".toList, [host])]
  else r.headers.map fun h => (h.1, [h.2])

def buildLoadBalancing (r : Route) : Option LoadBalancing :=
  let policy :=
    if r.lbPolicy = "weighted_round_robin".toList && !r.weightedLBAvailable then
      "round_robin".toList
    else r.lbPolicy
  if policy = [] then none
  else some {
    policy := policy
    field := if policy = "header".toList then nonEmpty r.lbHeaderField else none
    key := if policy = "query".toList then nonEmpty r.lbHeaderField else none
    choose := if policy = "random_choose".toList then some 2 else none
    name := if policy = "cookie".toList then nonEmpty r.lbCookieName else none
    secret := if policy = "cookie".toList then nonEmpty r.lbCookieSecret else none
    weights :=
      if policy = "weighted_round_robin".toList then
        if r.upstreams = [] then [1]
        else r.upstreams.map fun u => if u.weight ≤ 0 then 1 else u.weight
      else []
    tryDuration := msDur r.lbTryDurationMs 5000
    tryInterval := if 0 < r.lbTryIntervalMs then msDur r.lbTryIntervalMs 250 else "0s".toList }

def buildActiveHealth (r : Route) : Option ActiveHealth :=
  if trimSpace r.healthURI = [] then none
  else some {
    uri := r.healthURI
    interval := secs r.healthIntervalSecs 10
    timeout := secs r.healthTimeoutSecs 5
    expectStatus := positive r.healthExpectStatus
    fails := positive r.healthFails }

def buildPassiveHealth (r : Route) : Option PassiveHealth :=
  if r.healthPassive then some {
    failDuration := secs r.healthFailDurationSecs 30
    maxFails := positive r.healthMaxFails
    unhealthyStatus := [500, 502, 503, 504] }
  else none

/-- The `reverse_proxy` of a proxy route. -/
def primaryProxy (hp : Helpers) (r : Route) : Proxy :=
  let balanced := !r.external && !hasDynUpstreams hp r
  { upstreams := (primaryDials hp r).1
    dynamicUpstreams := (primaryDials hp r).2
    flushInterval := some (-1)
    streamCloseDelay := if r.external && r.webSocket then some "15m" else none
    transport := some (primaryTransport r)
    setHeaders := primarySetHeaders r
    deleteHeaders := if r.external then ["Authorization"] else []
    loadBalancing := if balanced then buildLoadBalancing r else none
    activeHealth := if balanced then buildActiveHealth r else none
    passiveHealth := if balanced then buildPassiveHealth r else none }

/-- The answer of a redirect route; a target with a rejected placeholder is never emitted. -/
def redirectResponse (r : Route) : StaticResponse :=
  if rejectsTemplate r.redirectURL then
    { status := 503
      headers := [("Content-Type", ["text/plain; charset=utf-8"]), ("Cache-Control", ["no-store"])]
      body := "Service unavailable: redirect target rejected.\n" }
  else
    { status := if r.redirectCode = 0 then 308 else r.redirectCode
      headers := [("Location", [r.redirectURL])] }

def primary (hp : Helpers) (r : Route) : Handler :=
  match r.kind with
  | .redirect => .staticResponse (redirectResponse r)
  | .proxy => .reverseProxy (primaryProxy hp r) []

/-! ### Maintenance -/

def routeErrorBranding (r : Route) : ErrorBranding :=
  if r.customErrorOverride then r.customErrorBranding else r.errorBranding

def routeMaintenanceBody (hp : Helpers) (r : Route) (msg : Str) : Str :=
  if r.customErrorOverride && trimSpace r.customErrorHTML ≠ [] &&
      (hp.screenReplacerValue r.customErrorHTML).isOk then
    TenantTemplate.NeutralizeTenantTemplate r.customErrorHTML
  else hp.maintenanceBody msg (routeErrorBranding r)

def maintenancePage (hp : Helpers) (r : Route) : StaticResponse where
  status := 503
  headers := [("Content-Type", ["text/html; charset=utf-8"]),
    ("Retry-After", ["60"]), ("Cache-Control", ["no-store"])]
  body := routeMaintenanceBody hp r (if r.maintenanceMessage = [] then
      "We are performing scheduled maintenance. Please check back shortly."
    else r.maintenanceMessage)

/-- What allow-listed addresses see during maintenance: no cache, no headers. -/
def maintenanceProxy (r : Route) : Proxy where
  upstreams := [{ dial := dial r.upstreamIP r.upstreamPort }]
  transport :=
    if r.upstreamScheme = "https" then
      some { tls := some { insecureSkipVerify := r.upstreamSkipTLSVerify } }
    else none

def maintenanceHandlers (hp : Helpers) (r : Route) : List Handler :=
  if 0 < r.maintenanceAllow.length then
    [.subroute [.mk [[.remoteIP r.maintenanceAllow]] [.reverseProxy (maintenanceProxy r) []] true,
      .mk [] [.staticResponse (maintenancePage hp r)] true]]
  else [.staticResponse (maintenancePage hp r)]

/-- Cleartext requests are redirected, all others go to the chain. -/
def forceHTTPSWrap (inner : List Handler) (hosts : List Str) : List Handler :=
  [.subroute [.mk [[.protocol "http", .host hosts]] [.staticResponse {
        status := 308
        headers := [("Location",
          ["https://\x7bhttp.request.host\x7d\x7bhttp.request.uri\x7d"])] }] false,
    .mk [] inner true]]

/-! ### Blocks and gates ahead of the backend -/

/-- The header through which a verified certificate subject reaches the backend. -/
def subjectHeader : Str := "X-Mtls-Subject"

def stripSubject : Handler :=
  .headers { delete := [subjectHeader] } {}

/-- The handshake accepts a revoked leaf, so it is refused here. -/
def revokedCertGate (r : Route) : List Handler :=
  if r.requireClientCert && 0 < r.mtlsRevokedFingerprints.length then
    [.subroute [.mk
      [[.vars "\x7bhttp.request.tls.client.fingerprint\x7d" r.mtlsRevokedFingerprints]]
      [.staticResponse {
        status := 403
        headers := [("Cache-Control", ["no-store"])]
        body := "Client certificate revoked.\n" }] false]]
  else []

def clientIP : Str := "\x7bhttp.request.client_ip\x7d"

def panelSelfHeaders (r : Route) : List Handler :=
  if r.isPanelSelfRoute then
    [.headers {
      delete := ["True-Client-IP", "X-Real-IP"]
      set := [("X-Real-IP", [clientIP])] } {}]
  else []

/-- `splitCIDRList`; an allow-list drops what is no address, a block-list keeps it. -/
def splitCIDRList (hp : Helpers) (s : Str) (dropInvalid : Bool) : List Str :=
  ((s.splitOnP fun c => [',', ' ', '\t', '\n', '\r'].contains c).map trimSpace).filter fun v =>
    v ≠ [] && (!dropInvalid || hp.isCIDR v || hp.isIP v)

def geoBlockResponse (hp : Helpers) (r : Route) : StaticResponse :=
  let code := if r.geoResponseCode = 0 then 403 else r.geoResponseCode
  let action := toLower (trimSpace r.geoBlockAction)
  if action = "redirect" && trimSpace r.geoRedirectURL ≠ [] &&
      !rejectsTemplate r.geoRedirectURL then
    { status := 302, headers := [("Location", [r.geoRedirectURL])] }
  else if code = 444 then { abort := true }
  else if action = "page" then
    let title := trimSpace r.geoBlockTitle
    let msg := trimSpace r.geoBlockMessage
    { status := code
      headers := [("Content-Type", ["text/html; charset=utf-8"]), ("Cache-Control", ["no-store"])]
      body := hp.renderErrorPage code (if title = [] then "Access denied" else title)
        (if msg = [] then "Access from your region is not allowed." else msg)
        r.geoBlockBranding }
  else
    let text := hp.statusText code
    { status := code, body := (if text = [] then "Forbidden".toList else text) ++ "\n".toList }

def buildCIDRBlock (hp : Helpers) (r : Route) : List Handler :=
  let ranges := splitCIDRList hp r.geoBlockCIDRs false
  if ranges = [] then []
  else [.subroute [.mk [[.remoteIP ranges]] [.staticResponse (geoBlockResponse hp r)] true]]

def normalizeCountry (c : Str) : Str :=
  (trimSpace c).map Char.toUpper

/-- The listed countries and those of the listed continents, each once. -/
def geoCountryCodes (hp : Helpers) (r : Route) : List Str :=
  let listed := r.geoCountries.splitOn ','
  let members := (r.geoContinents.splitOn ',').flatMap fun cont =>
    hp.countriesInContinent (normalizeCountry cont)
  (listed ++ members).foldl (fun seen c =>
    let c := normalizeCountry c
    if c = [] || seen.contains c then seen else seen ++ [c]) []

def geoDBPath : Str := "/data/geoip/GeoLite2-Country.mmdb"

def buildGeoBlock (hp : Helpers) (r : Route) : List Handler :=
  let mode := toLower (trimSpace r.geoMode)
  let countries := geoCountryCodes hp r
  let allowRanges := splitCIDRList hp r.geoAllowCIDRs true
  let allowed : List (List Cond) := if allowRanges = [] then [] else [[.remoteIP allowRanges]]
  let deny := Handler.staticResponse (geoBlockResponse hp r)
  if mode ≠ "allow" && mode ≠ "deny" then []
  else if countries = [] then []
  else if !r.geoModuleAvailable then
    if !r.geoFailClosed then []
    else [.subroute [.mk (if allowed = [] then [] else [[.not allowed]]) [deny] true]]
  else
    let permits : Cond :=
      if mode = "deny" then .geo geoDBPath [] countries else .geo geoDBPath countries []
    [.subroute [.mk [[.not ([permits] :: allowed)]] [deny] true]]

def wafHandlers (hp : Helpers) (r : Route) : List Handler :=
  if r.wafEnabled && r.wafModuleAvailable then
    let extra := hp.sanitizeWAFDirectives r.wafDirectives
    [.waf ("Include @coraza.conf-recommended\nInclude @crs-setup.conf.example\n".toList ++
      "Include @owasp_crs/*.conf\n".toList ++
      (if extra = [] then [] else extra ++ "\n".toList) ++
      "SecRuleEngine ".toList ++
      (if r.wafBlocking then "On".toList else "DetectionOnly".toList) ++
      "\nSecAuditEngine RelevantOnly\nSecAuditLogParts ABDFHZ\nSecAuditLogType Serial".toList ++
      "\nSecAuditLogFormat JSON\nSecAuditLog /var/log/caddy/waf-audit.log".toList)]
  else []

/-- What the caller of an external route must present. -/
def bearerCond (r : Route) : Cond :=
  .header "Authorization" ["Bearer " ++ r.proxySecret]

def bearerGate (r : Route) : List Handler :=
  if r.external && r.proxySecret ≠ [] then
    [.subroute [.mk [[.not [[bearerCond r]]]]
      [.staticResponse { status := 403, body := "forbidden\n" }] false]]
  else []

/-! ### Location rules -/

/-- The proxy of a location rule. -/
def locationProxy (rule : LocationRule) : Proxy where
  upstreams := [{ dial := dial rule.upstreamHost rule.upstreamPort }]
  flushInterval := some (-1)
  transport := some {
    dialTimeout := some "10s"
    tls :=
      if rule.upstreamScheme = "https" then
        some { serverName := nonEmpty rule.pinnedSNI }
      else none }

/-- The handlers of a rule; `none` when the rule cannot be emitted. -/
def locationHandlers (rule : LocationRule) (defaultPrimary : Option Handler) :
    Option (List Handler) :=
  match rule.action with
  | .block => some [.staticResponse { status := 403, body := "Forbidden\n" }]
  | .redirect =>
    if trimSpace rule.redirectURL = [] || rejectsTemplate rule.redirectURL then none
    else some [.staticResponse {
      status := if rule.redirectCode = 0 then 308 else rule.redirectCode
      headers := [("Location", [rule.redirectURL])] }]
  | .rewrite =>
    match defaultPrimary with
    | none => none
    | some target =>
      if trimSpace rule.rewriteURI = [] then none
      else some [.rewrite (.uri rule.rewriteURI), target]
  | .proxy =>
    if trimSpace rule.upstreamHost = [] || rule.upstreamPort ≤ 0 then none
    else some [.reverseProxy (locationProxy rule) []]

def buildLocationRuleRoute (rule : LocationRule) (defaultPrimary : Option Handler) :
    Option Caddy.Route :=
  let paths := locationPathMatchers rule.path
  if paths = [] then none
  else (locationHandlers rule defaultPrimary).map fun hs => .mk [[.path paths]] hs true

/-- Rules that answer without the backend. -/
def Action.early : Action → Bool
  | .block | .redirect => true
  | .proxy | .rewrite => false

def buildEarlyLocationSubroute (r : Route) : List Handler :=
  let routes := (r.locationRules.filter fun rule => rule.action.early).filterMap fun rule =>
    buildLocationRuleRoute rule none
  if r.kind = .redirect || r.maintenanceMode then []
  else if routes.isEmpty then []
  else [.subroute routes]

def buildLocationSubroute (r : Route) (defaultPrimary : Handler) (fallbackPre : List Handler) :
    Handler :=
  let routes := (r.locationRules.filter fun rule => !rule.action.early).filterMap fun rule =>
    buildLocationRuleRoute rule (some defaultPrimary)
  if routes.isEmpty && fallbackPre.isEmpty then defaultPrimary
  else .subroute (routes ++ [.mk [] (fallbackPre ++ [defaultPrimary]) true])

/-! ### Limits, caching and request shaping -/

def rateLimitHandlers (r : Route) : List Handler :=
  if r.rateLimitEnabled && r.rateLimitModuleAvailable then
    [.rateLimit ("route_" ++ r.id) (firstNonEmpty [r.rateLimitKey, clientIP])
      (firstNonEmpty [r.rateLimitWindow, "1m"])
      (if r.rateLimitMaxEvents ≤ 0 then 100 else r.rateLimitMaxEvents)]
  else []

def cacheControlHandler (value : Str) : Handler :=
  .headers {} { set := [("Cache-Control", [value])] }

/-- The route carries a credential check of the caller. -/
def routeAuthGated (hp : Helpers) (r : Route) : Bool :=
  r.ssoProviderURL ≠ [] || r.basicAuthUser ≠ [] || 0 < r.basicAuthUsers.length ||
    0 < r.mtlsPathRules.length || r.portalProtect || r.requireClientCert ||
    (r.external && r.proxySecret ≠ []) || r.mtlsDenyOnMisconfig || r.portalDenyOnMisconfig ||
    hp.customHandlersAuth r.customHandlers

/-- The route is limited to an audience by address or country. -/
def routeAudienceRestricted (r : Route) : Bool :=
  let mode := toLower (trimSpace r.geoMode)
  r.accessBlockAll || 0 < r.accessDeny.length || trimSpace r.geoBlockCIDRs ≠ [] ||
    mode = "allow" || mode = "deny"

def credentialledMatch : List (List Cond) :=
  [[.header "Cookie" ["*"]], [.header "Authorization" ["*"]]]

def buildCacheHandlers (hp : Helpers) (r : Route) : List Handler :=
  let ttl := if r.cacheTTLSeconds ≤ 0 then 60 else r.cacheTTLSeconds
  if routeAuthGated hp r then [cacheControlHandler "private, no-store".toList]
  else
    let sharedPublic := r.cachePublic && !routeAudienceRestricted r
    let scope :=
      (if sharedPublic then "public, max-age=".toList else "private, max-age=".toList) ++ itoa ttl
    let fresh : List Handler :=
      (if r.cacheModuleAvailable && r.cachePublic then
        [.cache (itoa ttl ++ "s".toList) (itoa ttl ++ "s".toList)
          (r.cacheVary ++ ["Cookie".toList, "Authorization".toList])] else []) ++
      (if sharedPublic then
        [.headers {} { delete := ["Set-Cookie".toList], deferred := true }] else []) ++
      [cacheControlHandler scope]
    [.subroute [.mk [[.not credentialledMatch]] fresh false,
      .mk credentialledMatch [cacheControlHandler "private, no-store".toList] false]]

def cacheHandlers (hp : Helpers) (r : Route) : List Handler :=
  if r.cacheEnabled && r.kind ≠ .redirect && !r.maintenanceMode then buildCacheHandlers hp r
  else if r.kind ≠ .redirect && (routeAuthGated hp r || routeAudienceRestricted r) then
    [cacheControlHandler "private, no-store"]
  else []

def encodeHandlers (r : Route) : List Handler :=
  if !r.compressDisabled && r.kind ≠ .redirect then
    [.encode "prefer zstd gzip, minimum_length 1024"]
  else []

def customHandlerChain (hp : Helpers) (r : Route) : List Handler :=
  if trimSpace r.customHandlers ≠ [] then
    match hp.sanitizeCustomHandlers r.customHandlers with
    | .ok safe => safe.map Shaping.handler
    | .error _ => []
  else []

def webSocketGate (r : Route) : List Handler :=
  if !r.webSocket && r.kind ≠ .redirect && !r.maintenanceMode then
    [.subroute [.mk [[.header "Connection" ["*Upgrade*"]]] [.staticResponse {
        status := 426
        headers := [("Upgrade", ["HTTP/2.0"]), ("Connection", ["Upgrade"])]
        body := "WebSocket connections are disabled on this route.\n" }] true]]
  else []

/-! ### Forward authentication -/

def authRequestBodyMaxBytes : Nat := 10485760

/-- A verifier in a subroute; the rewrite to the check endpoint is inside the proxy. -/
def forwardAuthGate (fwd : Proxy) (responses : List Caddy.Response) (checkURI : Str)
    (sets : List (List Cond)) : Handler :=
  .subroute [.mk sets
    [.reverseProxy { fwd with rewrite := some ("GET", checkURI) } responses] false]

def panelDial (hp : Helpers) (rawURL : Str) : Str :=
  match hp.parseURL rawURL with
  | none => "127.0.0.1:8080"
  | some (host, port, scheme) =>
    joinHostPort host (if port ≠ [] then port else if scheme = "https" then "443" else "80")

def certSubject : Str := "\x7bhttp.request.tls.client.subject\x7d"

def authHeaders (r : Route) : List (Str × List Str) :=
  [(subjectHeader, [certSubject]),
    ("X-Mtls-Serial".toList, ["\x7bhttp.request.tls.client.serial\x7d".toList]),
    ("X-Mtls-Fingerprint".toList, ["\x7bhttp.request.tls.client.fingerprint\x7d".toList]),
    ("X-Forwarded-Uri".toList, ["\x7bhttp.request.orig_uri\x7d".toList]),
    ("X-Forwarded-Method".toList, ["\x7bhttp.request.method\x7d".toList])] ++
  (if r.rbacToken ≠ [] && 0 < r.rbacNodeID then
    [("X-Hpg-Rbac-Token".toList, [r.rbacToken]), ("X-Hpg-Node".toList, [itoa r.rbacNodeID])]
  else [])

/-- The check subrequest of the path rules. -/
def rbacProxy (hp : Helpers) (r : Route) : Proxy where
  upstreams := [{ dial := panelDial hp r.panelBaseURL }]
  requestBuffers := some authRequestBodyMaxBytes
  setHeaders := authHeaders r
  deleteHeaders := ["Content-Length"]
  rewrite := some ("GET", "/internal/mtls-rbac/" ++ (hp.normalizeID r.id).getD "0")

/-- A 2xx continues, anything else is a 403. -/
def rbacResponses : List Caddy.Response :=
  [.mk (some 2) [], .mk none [.mk []
      [.staticResponse { status := 403, body := "Forbidden\n" }] true]]

def buildMTLSRBAC (hp : Helpers) (r : Route) : List Handler :=
  if r.mtlsPathRules.length = 0 || r.panelBaseURL = [] then []
  else [.subroute [.mk [] [.headers { set := [(subjectHeader, [certSubject])] } {},
      .reverseProxy (rbacProxy hp r) rbacResponses] false]]

def requestHost : List Str := ["\x7bhttp.request.host\x7d"]

/-- The headers of a verify subrequest. -/
def forwardedHeaders : List (Str × List Str) :=
  [("Host", requestHost), ("X-Forwarded-Method", ["\x7bhttp.request.method\x7d"]),
    ("X-Forwarded-Uri", ["\x7bhttp.request.orig_uri\x7d"]),
    ("X-Forwarded-Host", requestHost),
    ("X-Forwarded-Proto", ["\x7bhttp.request.scheme\x7d"]),
    ("X-Real-IP", [clientIP])]

/-- A proxy to an authentication server under the host it is asked for. -/
def passthroughProxy (base : Proxy) : Proxy :=
  { base with setHeaders := [("Host", requestHost)] }

/-- The subrequest that asks an authentication server about the request. -/
def verifyProxy (base : Proxy) : Proxy :=
  { base with
    requestBuffers := some authRequestBodyMaxBytes
    setHeaders := forwardedHeaders
    deleteHeaders := ["Content-Length"] }

def passthrough (path : Str) (base : Proxy) : Handler :=
  .subroute [.mk [[.path [path]]] [.reverseProxy (passthroughProxy base) []] true]

def ssoBase (r : Route) : Proxy :=
  let target := dialFromURL r.ssoProviderURL
  let sniHost := match splitLast ':' target with
    | some (host, _) => host
    | none => target
  { upstreams := [{ dial := match ssoDialTarget r with
      | some (h, p) => joinHostPort h (itoa p)
      | none => target }]
    transport :=
      if isHTTPSProvider r.ssoProviderURL then some { tls := some { serverName := some sniHost } }
      else none }

/-- `ValidHeaderName`. -/
def validHeaderName (s : Str) : Bool :=
  s ≠ [] && s.all fun c => c.isAlphanum || "!#$%&'*+-.^_`|~".toList.contains c

def ssoCopyHeaders (hdrs : List Str) : List Caddy.Route :=
  let names := (hdrs.map trimSpace).filter validHeaderName
  if names = [] then []
  else [.mk [] [.headers {
    set := names.map fun k =>
      (k, ["\x7bhttp.reverse_proxy.header." ++ k ++ "\x7d"]) } {}] false]

def ssoResponses (r : Route) : List Caddy.Response :=
  .mk (some 2) (ssoCopyHeaders r.ssoCopyHeaders) :: (if r.ssoStrictMode then
      [.mk (some 3) [.mk [] [.staticResponse {
        status := 401
        headers := [("Content-Type", ["application/json"])]
        body := "\x7b\"error\":\"unauthorized\"\x7d" }] false]]
    else [])

/-- Assets that the document-only mode does not gate. -/
def ssoAssets : List Str :=
  ["*.js", "*.css", "*.map", "*.png", "*.jpg", "*.jpeg", "*.gif", "*.svg", "*.ico", "*.webp",
    "*.avif", "*.woff", "*.woff2", "*.ttf", "*.eot", "*.otf", "*.mp4", "*.webm", "*.mp3", "*.wav",
    "/pve2/*", "/static/*", "/assets/*", "/_next/static/*"].map String.toList

def safeMethods : List Str := ["GET", "HEAD"]

def ssoMatch (r : Route) : List (List Cond) :=
  if r.ssoStrictMode then []
  else [[.method safeMethods, .not [[.path ssoAssets]]] ++
    (if r.ssoPaths = [] then [] else [.path r.ssoPaths]) ++
    (if r.ssoHosts = [] then [] else [.host r.ssoHosts])]

def ssoHandlers (r : Route) : List Handler :=
  if r.ssoProviderURL ≠ [] then
    [passthrough "/outpost.goauthentik.io/*" (ssoBase r),
      forwardAuthGate (verifyProxy (ssoBase r)) (ssoResponses r)
        "/outpost.goauthentik.io/auth/caddy" (ssoMatch r)]
  else []

def portalBase (r : Route) : Proxy where
  upstreams := [{ dial := r.portalDial }]
  transport :=
    if r.portalTLS then some { tls := some { serverName := nonEmpty r.portalSNI } } else none

/-- Which requests the portal verifies: all, or all but safe requests to public paths. -/
def portalMatch (r : Route) : List (List Cond) :=
  if r.portalPublicPaths = [] then []
  else [[.method safeMethods, .not [[.path r.portalPublicPaths]]], [.not [[.method safeMethods]]]]

/-- The subrequest to the panel's verifier. -/
def portalVerifier (r : Route) : Proxy :=
  { verifyProxy (portalBase r) with rewrite := some ("GET", "/hpg-portal/verify") }

def buildPortalForwardAuth (r : Route) : List Handler :=
  if r.portalProtect && r.portalDial ≠ [] then
    [passthrough "/hpg-portal/*" (portalBase r),
      forwardAuthGate (verifyProxy (portalBase r)) [.mk (some 2) []] "/hpg-portal/verify"
        (portalMatch r)]
  else []

/-- The accounts of the basic auth gate: the list wins over the single user. -/
def basicAuthAccounts (r : Route) : List (Str × Str) :=
  if 0 < r.basicAuthUsers.length then r.basicAuthUsers
  else if r.basicAuthUser ≠ [] && r.basicAuthBcrypt ≠ [] then
    [(r.basicAuthUser, r.basicAuthBcrypt)]
  else []

def basicAuthHandlers (r : Route) : List Handler :=
  if basicAuthAccounts r = [] then [] else [.authentication (basicAuthAccounts r)]

/-! ### The chain -/

/-- `regexp` expands a dollar sign, so it is doubled. -/
def escapeDollar (s : Str) : Str :=
  s.flatMap fun c => if c = '$' then ['$', '$'] else [c]

def pathRewriteHandlers (hp : Helpers) (r : Route) : List Handler :=
  let up := trimSuffix "/" r.upstreamPathPrefix
  let p := trimSuffix "/" r.pathPrefix
  if !r.external || r.kind = .redirect then []
  else if r.stripPathPrefix && p ≠ [] then
    [.rewrite (.pathRegexp ("(?i)^" ++ hp.quoteMeta p ++ "(?:/|$)") (escapeDollar up ++ "/"))]
  else if up ≠ [] then [.rewrite (.uri (up ++ "\x7bhttp.request.uri.path\x7d"))]
  else []

/-- The rewrites and the target behind all gates. -/
def targetHandlers (hp : Helpers) (r : Route) : List Handler :=
  let rewrites := pathRewriteHandlers hp r
  if 0 < r.locationRules.length && r.kind ≠ .redirect && !r.maintenanceMode then
    [buildLocationSubroute r (primary hp r) rewrites]
  else rewrites ++ [primary hp r]

/-- What stands before the bearer gate. -/
def beforeBearer (hp : Helpers) (r : Route) : List Handler :=
  stripSubject :: revokedCertGate r ++ panelSelfHeaders r ++ buildCIDRBlock hp r ++
    buildGeoBlock hp r ++ wafHandlers hp r

/-- What stands between the bearer gate and the path rules. -/
def shapingHandlers (hp : Helpers) (r : Route) : List Handler :=
  buildEarlyLocationSubroute r ++ rateLimitHandlers r ++ cacheHandlers hp r ++ encodeHandlers r ++
    customHandlerChain hp r ++ webSocketGate r

/-- What stands before the path rules. -/
def beforeRBAC (hp : Helpers) (r : Route) : List Handler :=
  beforeBearer hp r ++ bearerGate r ++ shapingHandlers hp r

def beforePortal (hp : Helpers) (r : Route) : List Handler :=
  beforeRBAC hp r ++ buildMTLSRBAC hp r ++ ssoHandlers r

def beforeBasicAuth (hp : Helpers) (r : Route) : List Handler :=
  beforePortal hp r ++ buildPortalForwardAuth r

def chain (hp : Helpers) (r : Route) : List Handler :=
  beforeBasicAuth hp r ++ basicAuthHandlers r ++ targetHandlers hp r

/-- The access list: deny first, then what is not on the allow-list of a closed route. -/
def accessRoutes (r : Route) : List Caddy.Route :=
  let deny403 := Handler.staticResponse { status := 403, body := "Forbidden\n" }
  (if 0 < r.accessDeny.length then [.mk [[.remoteIP r.accessDeny]] [deny403] true] else []) ++
    if r.accessBlockAll then
      if 0 < r.accessAllow.length then [.mk [[.not [[.remoteIP r.accessAllow]]]] [deny403] true]
      else [.mk [] [deny403] true]
    else []

def accessWrap (r : Route) (inner : List Handler) : List Handler :=
  if r.accessBlockAll || 0 < r.accessAllow.length || 0 < r.accessDeny.length then
    [.subroute (accessRoutes r ++ [.mk [] inner true])]
  else inner

/-- A cleartext redirect for routes that ask for one, and for every route with client
certificates. -/
def httpsWrap (r : Route) (inner : List Handler) : List Handler :=
  if r.forceHTTPS || r.requireClientCert then forceHTTPSWrap inner r.hosts else inner

/-- What the route answers with. -/
def routeHandlers (hp : Helpers) (r : Route) : List Handler :=
  if customHandlerQuarantine hp r then
    [.staticResponse (quarantineDenyHandler "custom-handlers")]
  else if tenantTemplateQuarantine hp r then
    [.staticResponse (quarantineDenyHandler "placeholder")]
  else if misconfigured r then [.staticResponse (misconfigDenyHandler r)]
  else if r.maintenanceMode then httpsWrap r (maintenanceHandlers hp r)
  else httpsWrap r (accessWrap r (chain hp r))

/-- The path matchers: a stripped prefix of an external route ends on a segment boundary. -/
def pathMatch (r : Route) : List Str :=
  let p := trimSuffix "/" r.pathPrefix
  if r.pathPrefix = [] then []
  else if r.external && r.stripPathPrefix && p ≠ [] then [p, p ++ "/*"]
  else [r.pathPrefix ++ "*"]

def routeMatch (r : Route) : List Cond :=
  .host r.hosts :: if pathMatch r = [] then [] else [.path (pathMatch r)]

/-- A route of the emitted configuration. -/
structure Emitted where
  id : Str
  route : Caddy.Route

def buildRoute (hp : Helpers) (r : Route) : Emitted where
  id := "route_" ++ r.id
  route := .mk [routeMatch r] (routeHandlers hp r) true

end Caddyapi
