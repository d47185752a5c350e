import CaddyPanel.Handlers.WildcardHosts
import CaddyPanel.Streamguard.HttpBackend

/-!
# Streams and suspended services

A node's config has HTTP routes and layer-4 streams. The query for the routes asks whether the
service of a row is active; the query for the streams does not.
-/

namespace Streams

open List Runs
open Text (Str trimSpace)
open Streamguard (NetLib InfraTargets ScreenError)
open Caddyapi (Idna Helpers Route itoa)

/-! ### Stream routes -/

/-- `stream_routes.protocol`. -/
inductive Protocol where
  | tcp
  | udp
  | both
  deriving DecidableEq

inductive MatchMode where
  | any
  | sni
  | httpHost
  deriving DecidableEq

inductive LBPolicy where
  | roundRobin
  | random
  | leastConn
  | first
  deriving DecidableEq

inductive ProxyProto where
  | none
  | v1
  | v2
  deriving DecidableEq

/-- `caddyapi.StreamRoute`; `upstreams` has addresses and weights. -/
structure StreamRoute where
  id : Nat
  protocol : Protocol := .tcp
  listenPort : Int
  upstreamIP : Str
  upstreamPort : Int
  upstreams : List (Str × Int) := []
  matchMode : MatchMode := .any
  matchValues : List Str := []
  lbPolicy : LBPolicy := .roundRobin
  proxyProtoIn : ProxyProto := .none
  proxyProtoTrusted : List Str := []
  proxyProtoOut : ProxyProto := .none
  cidrAllow : List Str := []
  cidrDeny : List Str := []

def protoList : Protocol → List Str
  | .tcp => ["tcp"]
  | .udp => ["udp"]
  | .both => ["tcp", "udp"]

def listenerKey (proto : Str) (port : Int) : Str :=
  proto ++ "_" ++ itoa port

def streamListenerKeys (r : StreamRoute) : List Str :=
  (protoList r.protocol).map fun p => listenerKey p r.listenPort

/-! ### Screening of destinations -/

inductive StreamError where
  | emptyHost
  | invalidAddress (addr : Str)
  | invalidPort (addr : Str)
  | screen (e : ScreenError)
  | listenerTaken (key : Str) (holder : Nat)

section Screen

variable {net : NetLib} (t : InfraTargets net)

/-- `ScreenAndPin`: every answer of the resolver is checked and the first one is pinned. -/
def screenAndPin (host : Str) (port : Int) : Except StreamError Str :=
  let host := trimSpace host
  if host = [] then .error .emptyHost
  else if port ≤ 0 || 65535 < port then .error (.screen .invalidPort)
  else if port = 2019 then .error (.screen .reservedPort)
  else if t.blocked host then .error (.screen .controlPlane)
  else
    match net.parseIP host with
    | some a => if net.dangerous a then .error (.screen .dangerousAddress) else .ok host
    | none =>
      match net.lookup host with
      | none | some [] => .error (.screen .unresolved)
      | some (a :: addrs) =>
        match (a :: addrs).forM t.screenAddr with
        | .ok _ => .ok (net.render a)
        | .error e => .error (.screen e)

/-- `ScreenAndPinAddress`. -/
def screenAndPinAddress (addr : Str) : Except StreamError Str :=
  match Caddyapi.splitHostPort (trimSpace addr) with
  | none => .error (.invalidAddress addr)
  | some (host, portStr) =>
    if host = [] then .error (.invalidAddress addr)
    else
      match Caddyapi.atoi portStr with
      | none => .error (.invalidPort addr)
      | some port =>
        if port ≤ 0 || 65535 < port then .error (.invalidPort addr)
        else (screenAndPin t host port).map fun pinned => Caddyapi.joinHostPort pinned portStr

/-- The listeners of the streams that are kept so far, each with its stream. -/
abbrev Owner := List (Str × Nat)

def checkListeners (owner : Owner) (keys : List Str) : Except StreamError Unit :=
  match keys.findSome? fun key => (owner.find? fun o => o.1 = key).map fun o => (key, o.2) with
  | some (key, holder) => .error (.listenerTaken key holder)
  | none => .ok ()

/-- One turn of the loop of `screenStreamSet`. -/
def screenStream (owner : Owner) (r : StreamRoute) : Except StreamError StreamRoute := do
  let pinnedIP ← screenAndPin t r.upstreamIP r.upstreamPort
  let upstreams ← r.upstreams.mapM fun u => (screenAndPinAddress t u.1).map fun a => (a, u.2)
  checkListeners owner (streamListenerKeys r)
  return { r with upstreamIP := pinnedIP, upstreams := upstreams }

def owned (r : StreamRoute) : Owner :=
  (streamListenerKeys r).map fun key => (key, r.id)

/-- The loop from a set of owned listeners on: the streams that are kept and those that are not. -/
def screenFrom (owner : Owner) :
    List StreamRoute → List StreamRoute × List (StreamRoute × StreamError)
  | [] => ([], [])
  | r :: rs =>
    match screenStream t owner r with
    | .ok r' =>
      let rest := screenFrom (owner ++ owned r') rs
      (r' :: rest.1, rest.2)
    | .error e =>
      let rest := screenFrom owner rs
      (rest.1, (r, e) :: rest.2)

def screenStreamSet (streams : List StreamRoute) :
    List StreamRoute × List (StreamRoute × StreamError) :=
  screenFrom t [] streams

end Screen

/-! ### The layer-4 app -/

structure L4Proxy where
  dials : List Str
  policy : Option LBPolicy
  proxyProtocol : ProxyProto

inductive L4Match where
  | remoteIP (ranges : List Str)
  | notRemoteIP (ranges : List Str)
  | sni (names : List Str)
  | httpHost (names : List Str)

inductive L4Action where
  | close
  | proxy (p : L4Proxy)

structure L4Route where
  matcher : Option L4Match
  action : L4Action

/-- The routes of a listener: as they are, behind the decoder of the PROXY header, or none that lets
a connection through. -/
inductive L4Routes where
  | closeAll
  | plain (inner : List L4Route)
  | decoded (trusted : List Str) (inner : List L4Route)

/-- A server of the app; `stream` is the row that it was built from. -/
structure L4Server where
  stream : Nat
  key : Str
  listen : Str
  routes : L4Routes

def buildUpstreamList (r : StreamRoute) : List Str :=
  if r.upstreams ≠ [] then r.upstreams.map (·.1) else [Caddyapi.dial r.upstreamIP r.upstreamPort]

def buildProxyHandler (r : StreamRoute) : L4Proxy where
  dials := buildUpstreamList r
  policy := if 1 < (buildUpstreamList r).length || r.lbPolicy ≠ .roundRobin then some r.lbPolicy
    else none
  proxyProtocol := r.proxyProtoOut

def buildL4ACLRoutes (r : StreamRoute) : List L4Route :=
  (if r.cidrDeny ≠ [] then [⟨some (.remoteIP r.cidrDeny), .close⟩] else []) ++
    if r.cidrAllow ≠ [] then [⟨some (.notRemoteIP r.cidrAllow), .close⟩] else []

def buildL4Matcher (r : StreamRoute) : Option L4Match :=
  if r.matchValues = [] then none
  else
    match r.matchMode with
    | .sni => some (.sni r.matchValues)
    | .httpHost => some (.httpHost r.matchValues)
    | .any => none

def innerRoutes (r : StreamRoute) : List L4Route :=
  buildL4ACLRoutes r ++ [⟨buildL4Matcher r, .proxy (buildProxyHandler r)⟩]

def buildL4Server (proto : Str) (r : StreamRoute) : L4Server where
  stream := r.id
  key := listenerKey proto r.listenPort
  listen := proto ++ "/:" ++ itoa r.listenPort
  routes :=
    if r.proxyProtoIn = .none then .plain (innerRoutes r)
    -- an unauthenticated header is taken from trusted balancers only
    else if r.proxyProtoTrusted = [] then .closeAll
    else .decoded r.proxyProtoTrusted (innerRoutes r)

/-- The first stream keeps a shared listener. -/
def addServer (r : StreamRoute) (servers : List L4Server) (proto : Str) : List L4Server :=
  if servers.any fun s => s.key = listenerKey proto r.listenPort then servers
  else servers ++ [buildL4Server proto r]

def addServers (servers : List L4Server) (r : StreamRoute) : List L4Server :=
  (protoList r.protocol).foldl (addServer r) servers

def buildLayer4App (streams : List StreamRoute) : List L4Server :=
  streams.foldl addServers []

def L4Routes.inner : L4Routes → List L4Route
  | .closeAll => []
  | .plain inner | .decoded _ inner => inner

/-- Some connection is handed to an upstream. -/
def L4Server.forwards (s : L4Server) : Bool :=
  s.routes.inner.any fun r => match r.action with
    | .proxy _ => true
    | .close => false

/-! ### Tables -/

structure Service where
  status : Lifecycle.ServiceStatus
  backendIP : Str

/-- A row of `routes`; `withheld` in `row` is every reason but the service. -/
structure HttpRow where
  row : Portal.Row
  serviceID : Nat

/-- A row of `stream_routes` with its upstreams; `upstreamIP` in `stream` is the override. -/
structure StreamRow where
  stream : StreamRoute
  serviceID : Nat
  node : Nat
  active : Bool := true
  quarantined : Bool := false

structure Db where
  service : Nat → Option Service
  routes : List HttpRow
  streams : List StreamRow
  sorted : routes.Pairwise fun a b => a.row.id < b.row.id
  positive : ∀ h ∈ routes, 0 < h.row.id
  streamIDs : (streams.map fun r => r.stream.id).Nodup

/-- The condition of `serviceActiveSQL`. -/
def Db.serviceActive (db : Db) (serviceID : Nat) : Bool :=
  (db.service serviceID).any fun sv => sv.status = .active

/-- The row as the query for the routes sees it. -/
def Db.served (db : Db) (h : HttpRow) : Portal.Row :=
  { h.row with withheld := h.row.withheld || !db.serviceActive h.serviceID }

def Db.portal (db : Db) (grants members : List (Nat × Nat)) : Portal.Db where
  rows := db.routes.map db.served
  grants := grants
  members := members
  sorted := pairwise_map.mpr db.sorted
  positive := by
    intro r hr
    obtain ⟨h, hh, rfl⟩ := mem_map.mp hr
    exact db.positive h hh

/-- The stream of a row: its own backend, or that of the service. -/
def Db.streamOf (db : Db) (row : StreamRow) : Option StreamRoute :=
  (db.service row.serviceID).map fun sv =>
    { row.stream with
      upstreamIP := if row.stream.upstreamIP = [] then sv.backendIP else row.stream.upstreamIP }

def StreamRow.placed (row : StreamRow) (node : Nat) : Bool :=
  row.node = node && row.active && !row.quarantined

/-- `ORDER BY sr.listen_port ASC, sr.id ASC`. -/
def streamLe (a b : StreamRoute) : Prop :=
  a.listenPort < b.listenPort ∨ (a.listenPort = b.listenPort ∧ a.id ≤ b.id)

instance : DecidableRel streamLe := fun _ _ => inferInstanceAs (Decidable (_ ∨ _))

/-- The streams that the query gives. -/
def Db.streamsOn (db : Db) (node : Nat) : List StreamRoute :=
  ((db.streams.filter fun row => row.placed node).filterMap db.streamOf).insertionSort streamLe

def buildStreamsForNode {net : NetLib} (t : InfraTargets net) (db : Db) (node : Nat) :
    List StreamRoute :=
  (screenStreamSet t (db.streamsOn node)).1

/-- The layer-4 servers of a node's config. -/
def layer4Servers {net : NetLib} (t : InfraTargets net) (layer4ModuleAvailable : Bool) (db : Db)
    (node : Nat) : List L4Server :=
  if layer4ModuleAvailable then buildLayer4App (buildStreamsForNode t db node) else []

/-! ### The streams that are kept -/

section Kept

variable {net : NetLib} {t : InfraTargets net}

/-- The listeners that the streams before a stream hold. -/
def ownedBy (t : InfraTargets net) (before : List StreamRoute) : Owner :=
  (screenStreamSet t before).1.flatMap owned

variable {r r' : StreamRoute} {owner : Owner} {rs streams before after : List StreamRoute}

/-- The stream with its destinations pinned, where they all pass. -/
def pin (t : InfraTargets net) (r : StreamRoute) : Except StreamError StreamRoute := do
  let pinnedIP ← screenAndPin t r.upstreamIP r.upstreamPort
  let upstreams ← r.upstreams.mapM fun u => (screenAndPinAddress t u.1).map fun a => (a, u.2)
  return { r with upstreamIP := pinnedIP, upstreams := upstreams }

lemma pin_eq_ok (h : pin t r = .ok r') :
    r'.id = r.id ∧ streamListenerKeys r' = streamListenerKeys r ∧ r'.proxyProtoIn = r.proxyProtoIn ∧
      r'.proxyProtoTrusted = r.proxyProtoTrusted := by
  obtain ⟨ip, -, h⟩ := bind_eq_ok.mp h
  obtain ⟨upstreams, -, h⟩ := bind_eq_ok.mp h
  cases h
  exact ⟨rfl, rfl, rfl, rfl⟩

lemma checkListeners_eq_ok {keys : List Str} :
    checkListeners owner keys = .ok () ↔ ∀ key ∈ keys, ∀ o ∈ owner, o.1 ≠ key := by
  have hnone : (keys.findSome? fun key => (owner.find? fun o => o.1 = key).map fun o => (key, o.2)) = none ↔
      ∀ key ∈ keys, ∀ o ∈ owner, o.1 ≠ key := by simp
  rw [← hnone, checkListeners]
  split
  · next hfound => simp [hfound]
  · next hfound => simp [hfound]

lemma screenStream_eq_ok : screenStream t owner r = .ok r' ↔
    pin t r = .ok r' ∧ ∀ key ∈ streamListenerKeys r, ∀ o ∈ owner, o.1 ≠ key := by
  rw [← checkListeners_eq_ok]
  constructor
  · intro h
    obtain ⟨ip, hip, h⟩ := bind_eq_ok.mp h
    obtain ⟨upstreams, hupstreams, h⟩ := bind_eq_ok.mp h
    obtain ⟨_, hkeys, h⟩ := bind_eq_ok.mp h
    exact ⟨bind_eq_ok.mpr ⟨ip, hip, bind_eq_ok.mpr ⟨upstreams, hupstreams, h⟩⟩, hkeys⟩
  · rintro ⟨h, hkeys⟩
    obtain ⟨ip, hip, h⟩ := bind_eq_ok.mp h
    obtain ⟨upstreams, hupstreams, h⟩ := bind_eq_ok.mp h
    exact bind_eq_ok.mpr ⟨ip, hip, bind_eq_ok.mpr ⟨upstreams, hupstreams, bind_eq_ok.mpr ⟨(), hkeys, h⟩⟩⟩

/-- The loop over a list and one more stream. -/
lemma screenFrom_append (owner : Owner) (before rs : List StreamRoute) :
    (screenFrom t owner (before ++ rs)).1 = (screenFrom t owner before).1 ++
      (screenFrom t (owner ++ (screenFrom t owner before).1.flatMap owned) rs).1 := by
  induction before generalizing owner with
  | nil => simp [screenFrom]
  | cons r before ih =>
    rw [cons_append, screenFrom, screenFrom]
    cases screenStream t owner r with
    | ok r' => simp [ih]
    | error e => simp [ih]

lemma mem_screenFrom :
    r' ∈ (screenFrom t owner rs).1 ↔ ∃ before r after, rs = before ++ r :: after ∧
      screenStream t (owner ++ (screenFrom t owner before).1.flatMap owned) r = .ok r' := by
  constructor
  · intro h
    induction rs generalizing owner with
    | nil => cases h
    | cons r rs ih =>
      rw [screenFrom] at h
      cases hr : screenStream t owner r with
      | ok r₁ =>
        rw [hr] at h
        rcases mem_cons.mp h with rfl | h
        · exact ⟨[], r, rs, rfl, by simpa [screenFrom] using hr⟩
        obtain ⟨before, r₂, after, rfl, hok⟩ := ih h
        refine ⟨r :: before, r₂, after, rfl, ?_⟩
        rw [screenFrom, hr]
        simpa using hok
      | error e =>
        rw [hr] at h
        obtain ⟨before, r₂, after, rfl, hok⟩ := ih h
        refine ⟨r :: before, r₂, after, rfl, ?_⟩
        rw [screenFrom, hr]
        exact hok
  · rintro ⟨before, r, after, rfl, hok⟩
    rw [screenFrom_append]
    refine mem_append_right _ ?_
    rw [screenFrom, hok]
    exact mem_cons_self

/-- No stream of the list has a listener of the stream. -/
def Free (kept : List StreamRoute) (r : StreamRoute) : Prop :=
  ∀ q ∈ kept, Disjoint (streamListenerKeys q) (streamListenerKeys r)

lemma free_iff {kept : List StreamRoute} :
    Free kept r ↔ ∀ key ∈ streamListenerKeys r, ∀ o ∈ kept.flatMap owned, o.1 ≠ key := by
  constructor
  · intro h key hkey o ho heq
    obtain ⟨q, hq, ho⟩ := mem_flatMap.mp ho
    obtain ⟨key', hkey', rfl⟩ := mem_map.mp ho
    cases heq
    exact h q hq hkey' hkey
  · intro h q hq key hkey hkey'
    exact h key hkey' (key, q.id) (mem_flatMap.mpr ⟨q, hq, mem_map_of_mem hkey⟩) rfl

/-- One more stream is kept exactly when its destinations pass and its listeners are free. -/
lemma screenStreamSet_concat (t : InfraTargets net) (before : List StreamRoute) (r : StreamRoute) :
    ∃ new : Option StreamRoute,
      (screenStreamSet t (before ++ [r])).1 = (screenStreamSet t before).1 ++ new.toList ∧
      ∀ r', new = some r' ↔ pin t r = .ok r' ∧ Free (screenStreamSet t before).1 r := by
  have happend := @screenFrom_append net t [] before [r]
  refine ⟨(screenStream t (ownedBy t before) r).toOption, ?_, fun r' => ?_⟩
  · rw [screenStreamSet, happend, screenFrom, nil_append, ← screenStreamSet, ← ownedBy]
    cases screenStream t (ownedBy t before) r <;> rfl
  · rw [free_iff, ← ownedBy, ← screenStream_eq_ok]
    cases screenStream t (ownedBy t before) r <;> simp [Except.toOption]

/-! ### The servers of a stream -/

def streamServers (r : StreamRoute) : List L4Server :=
  (protoList r.protocol).map fun p => buildL4Server p r

lemma nodup_streamListenerKeys (r : StreamRoute) : (streamListenerKeys r).Nodup := by
  unfold streamListenerKeys listenerKey
  cases r.protocol <;> simp [protoList]

/-- A stream whose listeners are free gets a server for each of them. -/
lemma foldl_addServer {servers : List L4Server} {ps : List Str}
    (hps : (ps.map fun p => listenerKey p r.listenPort).Nodup)
    (hfree : ∀ s ∈ servers, s.key ∉ ps.map fun p => listenerKey p r.listenPort) :
    ps.foldl (addServer r) servers = servers ++ ps.map fun p => buildL4Server p r := by
  induction ps generalizing servers with
  | nil => simp
  | cons p ps ih =>
    obtain ⟨hp, hps⟩ := nodup_cons.mp hps
    have hadd : addServer r servers p = servers ++ [buildL4Server p r] := by
      rw [addServer, if_neg]
      intro hany
      obtain ⟨s, hs, hkey⟩ := any_eq_true.mp hany
      exact hfree s hs (of_decide_eq_true hkey ▸ mem_cons_self)
    have hfree' : ∀ s ∈ servers ++ [buildL4Server p r], s.key ∉ ps.map fun p => listenerKey p r.listenPort := by
      intro s hs hkey
      rcases mem_append.mp hs with hs | hs
      · exact hfree s hs (mem_cons_of_mem _ hkey)
      · rw [mem_singleton.mp hs] at hkey
        exact hp hkey
    rw [foldl_cons, hadd, ih hps hfree', append_assoc]
    rfl

lemma map_key_streamServers (r : StreamRoute) : (streamServers r).map (·.key) = streamListenerKeys r := by
  rw [streamServers, map_map]
  rfl

/-- The destinations of a stream are accepted addresses. -/
structure Pinned (t : InfraTargets net) (r : StreamRoute) : Prop where
  ip : t.Accepts r.upstreamIP r.upstreamPort
  upstreams : ∀ u ∈ r.upstreams, ∃ host portStr port, u.1 = Caddyapi.joinHostPort host portStr ∧
    Caddyapi.atoi portStr = some port ∧ t.Accepts host port

lemma accepts_of_screenAndPin {host dial : Str} {port : Int} (h : screenAndPin t host port = .ok dial) :
    t.Accepts dial port := by
  unfold screenAndPin at h
  dsimp only at h
  split_ifs at h with hnil hport hreserved hblocked
  have hscreen : Streamguard.screenPort port = .ok () := by
    simp only [Bool.or_eq_true, decide_eq_true_eq] at hport
    unfold Streamguard.screenPort
    rw [if_neg (by omega), if_neg (by simp; omega), if_neg hreserved]
  split at h
  · next a ha =>
    split_ifs at h with hdangerous
    cases h
    exact ⟨⟨a, ha, Bool.eq_false_iff.mpr hdangerous⟩, Bool.eq_false_iff.mpr hblocked, hscreen⟩
  split at h
  · cases h
  · cases h
  split at h
  · next hok =>
    cases h
    exact Streamguard.accepts_render (forM_eq_ok hok _ mem_cons_self) hscreen
  · cases h

lemma pinned_of_pin (h : pin t r = .ok r') : Pinned t r' := by
  obtain ⟨ip, hip, h⟩ := bind_eq_ok.mp h
  obtain ⟨upstreams, hupstreams, h⟩ := bind_eq_ok.mp h
  cases h
  refine ⟨accepts_of_screenAndPin hip, fun u hu => ?_⟩
  obtain ⟨u₀, -, hu₀⟩ := exists_of_mapM hupstreams u hu
  obtain ⟨addr, haddr, rfl⟩ := map_eq_ok.mp hu₀
  unfold screenAndPinAddress at haddr
  split at haddr
  · cases haddr
  split_ifs at haddr with hnil
  split at haddr
  · cases haddr
  rename_i port hport
  split_ifs at haddr
  obtain ⟨dial, hdial, rfl⟩ := map_eq_ok.mp haddr
  exact ⟨dial, _, port, rfl, hport, accepts_of_screenAndPin hdial⟩

/-- Streams with different listeners: each has all of its servers. -/
lemma buildLayer4App_eq {kept : List StreamRoute}
    (h : kept.Pairwise fun a b => Disjoint (streamListenerKeys a) (streamListenerKeys b)) :
    buildLayer4App kept = kept.flatMap streamServers := by
  induction kept using List.reverseRecOn with
  | nil => rfl
  | append_singleton kept r ih =>
    obtain ⟨hkept, -, hlast⟩ := pairwise_append.mp h
    rw [buildLayer4App, foldl_append, ← buildLayer4App, ih hkept, flatMap_append, flatMap_singleton]
    refine foldl_addServer (nodup_streamListenerKeys r) fun s hs hkey => ?_
    obtain ⟨q, hq, hs⟩ := mem_flatMap.mp hs
    refine hlast q hq r (mem_singleton.mpr rfl) ?_ hkey
    rw [← map_key_streamServers]
    exact mem_map_of_mem hs

lemma pairwise_screenStreamSet (t : InfraTargets net) (streams : List StreamRoute) :
    (screenStreamSet t streams).1.Pairwise fun a b => Disjoint (streamListenerKeys a) (streamListenerKeys b) := by
  induction streams using List.reverseRecOn with
  | nil => exact .nil
  | append_singleton before r ih =>
    obtain ⟨new, hkept, hnew⟩ := screenStreamSet_concat t before r
    rw [hkept, pairwise_append]
    refine ⟨ih, by cases new <;> simp, fun q hq r' hr' => ?_⟩
    obtain ⟨hpin, hfree⟩ := (hnew r').mp (Option.mem_toList.mp hr')
    rw [(pin_eq_ok hpin).2.1]
    exact hfree q hq

/-- The streams that are kept have different listeners, the next stream is kept exactly when its destinations pass and
none of these has one of its listeners, every destination of a stream that is kept is a screened address, and the app
has one server for each listener of these streams. -/
theorem screenStreamSet_laws (t : InfraTargets net) (streams : List StreamRoute) :
    let kept := (screenStreamSet t streams).1
    (kept.Pairwise fun a b => Disjoint (streamListenerKeys a) (streamListenerKeys b)) ∧
      (∀ r, ∃ new : Option StreamRoute, (screenStreamSet t (streams ++ [r])).1 = kept ++ new.toList ∧
        ∀ r', new = some r' ↔ pin t r = .ok r' ∧ Free kept r) ∧
      (∀ r ∈ kept, Pinned t r) ∧ buildLayer4App kept = kept.flatMap streamServers ∧
      ((buildLayer4App kept).map (·.key)).Nodup := by
  have hapart := pairwise_screenStreamSet t streams
  refine ⟨hapart, screenStreamSet_concat t streams, fun r hr => ?_, buildLayer4App_eq hapart, ?_⟩
  · obtain ⟨before, r₀, after, -, hok⟩ := mem_screenFrom.mp hr
    exact pinned_of_pin (screenStream_eq_ok.mp hok).1
  · rw [buildLayer4App_eq hapart, map_flatMap, nodup_flatMap]
    simp only [map_key_streamServers]
    exact ⟨fun r _ => nodup_streamListenerKeys r, hapart⟩

lemma forwards_buildL4Server (p : Str) (r : StreamRoute) :
    (buildL4Server p r).forwards ↔ r.proxyProtoIn = .none ∨ r.proxyProtoTrusted ≠ [] := by
  have hproxy : ((innerRoutes r).any fun r => match r.action with
      | .proxy _ => true
      | .close => false) := by
    unfold innerRoutes
    rw [any_append]
    simp
  unfold L4Server.forwards buildL4Server
  dsimp only
  split_ifs with hin htrust
  · simp [L4Routes.inner, hproxy, hin]
  · simp [L4Routes.inner, hin, htrust]
  · simp [L4Routes.inner, hproxy, htrust]

/-! ### The servers of a row -/

/-- Connections get past the decoder of the PROXY header. -/
def StreamRow.takesConnections (row : StreamRow) : Prop :=
  row.stream.proxyProtoIn = .none ∨ row.stream.proxyProtoTrusted ≠ []

/-- The screen lets the stream of the row through after the streams before it. -/
def Admitted (t : InfraTargets net) (db : Db) (node : Nat) (row : StreamRow) : Prop :=
  ∃ r before after r', db.streamOf row = some r ∧ db.streamsOn node = before ++ r :: after ∧
    screenStream t (ownedBy t before) r = .ok r'

lemma streamOf_eq_some {db : Db} {row : StreamRow} (h : db.streamOf row = some r) :
    r.id = row.stream.id ∧ r.proxyProtoIn = row.stream.proxyProtoIn ∧
      r.proxyProtoTrusted = row.stream.proxyProtoTrusted := by
  obtain ⟨sv, -, rfl⟩ := Option.map_eq_some_iff.mp h
  exact ⟨rfl, rfl, rfl⟩

/-- Which rows a server of the node forwards for. -/
lemma exists_forwarding_server {db : Db} {node : Nat} {row : StreamRow} (hrow : row ∈ db.streams) :
    (∃ s ∈ buildLayer4App (buildStreamsForNode t db node),
        s.forwards ∧ s.stream = row.stream.id) ↔ row.placed node ∧ row.takesConnections ∧ Admitted t db node row := by
  constructor
  · rintro ⟨s, hs, hforwards, hid⟩
    rw [buildStreamsForNode, buildLayer4App_eq (pairwise_screenStreamSet t _)] at hs
    obtain ⟨r', hr', hs⟩ := mem_flatMap.mp hs
    obtain ⟨p, -, rfl⟩ := mem_map.mp hs
    obtain ⟨before, r, after, hsplit, hok⟩ := mem_screenFrom.mp hr'
    obtain ⟨hid', -, hin, htrusted⟩ := pin_eq_ok (screenStream_eq_ok.mp hok).1
    have hr : r ∈ db.streamsOn node := by
      rw [hsplit]
      exact mem_append_right before mem_cons_self
    obtain ⟨row₁, hrow₁, hof⟩ := mem_filterMap.mp ((mem_insertionSort _).mp hr)
    obtain ⟨hrow₁, hplaced⟩ := mem_filter.mp hrow₁
    obtain ⟨hrid, hrin, hrtrusted⟩ := streamOf_eq_some hof
    -- ids are unique, so this row is the one asked for
    obtain rfl : row₁ = row := inj_on_of_nodup_map db.streamIDs hrow₁ hrow
      (hrid.symm.trans (hid'.symm.trans hid))
    refine ⟨hplaced, ?_, r, before, after, r', hof, hsplit, hok⟩
    rw [forwards_buildL4Server, hin, htrusted, hrin, hrtrusted] at hforwards
    exact hforwards
  · rintro ⟨-, htakes, r, before, after, r', hof, hsplit, hok⟩
    obtain ⟨hrid, hrin, hrtrusted⟩ := streamOf_eq_some hof
    obtain ⟨hid', -, hin, htrusted⟩ := pin_eq_ok (screenStream_eq_ok.mp hok).1
    obtain ⟨p, hp⟩ : ∃ p, p ∈ protoList r'.protocol := by
      cases r'.protocol <;> exact ⟨_, mem_cons_self⟩
    refine ⟨buildL4Server p r', ?_, ?_, hid'.trans hrid⟩
    · rw [buildStreamsForNode, buildLayer4App_eq (pairwise_screenStreamSet t _)]
      refine mem_flatMap.mpr ⟨r', mem_screenFrom.mpr ⟨before, r, after, hsplit, ?_⟩, mem_map_of_mem hp⟩
      rwa [nil_append]
    · rw [forwards_buildL4Server, hin, htrusted, hrin, hrtrusted]
      exact htakes

end Kept

/-! ### A service that is not active -/

section Stopped

variable {net : NetLib} {t : InfraTargets net} {db : Db} {node serviceID : Nat} {idna : Idna}
  {hp : Helpers} {portalDial : Str} {zones : List Str} {grants members : List (Nat × Nat)}

/-- The query for the routes gives none of its rows. -/
lemma route_of_active_service (hstopped : db.serviceActive serviceID = false) {r : Route}
    (hr : r ∈ Portal.nodeRoutes idna hp portalDial zones (db.portal grants members) node)
    {h : HttpRow} (hh : h ∈ db.routes) (hservice : h.serviceID = serviceID) : r.id ≠ itoa h.row.id := by
  obtain ⟨row, hrow, hon, rfl⟩ := Portal.mem_nodeRoutes.mp hr
  obtain ⟨h₁, hh₁, rfl⟩ := mem_map.mp hrow
  intro hid
  rw [(Portal.served_fields _).1] at hid
  have heq : h₁ = h := by
    have hsame : h₁.row.id = h.row.id := Caddyapi.itoa_natCast_injective hid
    have hnodup : (db.routes.map fun h => h.row.id).Nodup :=
      pairwise_map.mpr (db.sorted.imp fun hlt => Nat.ne_of_lt hlt)
    exact inj_on_of_nodup_map hnodup hh₁ hh hsame
  have hwithheld : (db.served h₁).withheld = false := by
    simpa using (Bool.and_eq_true_iff.mp hon).2
  rw [Db.served, Bool.or_eq_false_iff, heq, hservice, hstopped] at hwithheld
  exact Bool.noConfusion hwithheld.2

variable (idna hp portalDial zones grants members)

/-- Nothing on the node forwards to a suspended or terminated service exactly when the screen lets
none of its active streams there through. -/
theorem stopped_service_not_forwarded_iff (t : InfraTargets net) (layer4ModuleAvailable : Bool)
    (db : Db) (node serviceID : Nat) (sv : Service) (hsv : db.service serviceID = some sv)
    (hstopped : sv.status = .suspended ∨ sv.status = .terminated) :
    ((∀ r ∈ Portal.nodeRoutes idna hp portalDial zones (db.portal grants members) node,
        ∀ h ∈ db.routes, h.serviceID = serviceID → r.id ≠ itoa h.row.id) ∧
      ∀ s ∈ layer4Servers t layer4ModuleAvailable db node, s.forwards →
        ∀ row ∈ db.streams, row.serviceID = serviceID → s.stream ≠ row.stream.id) ↔
    (layer4ModuleAvailable → ∀ row ∈ db.streams, row.serviceID = serviceID →
      row.placed node → row.takesConnections → ¬ Admitted t db node row) := by
  have hinactive : db.serviceActive serviceID = false := by
    rcases hstopped with h | h <;> simp [Db.serviceActive, hsv, h]
  cases layer4ModuleAvailable with
  | false =>
    refine iff_of_true ⟨fun r hr h hh => route_of_active_service hinactive hr hh, ?_⟩ nofun
    intro s hs
    cases hs
  | true =>
    constructor
    · rintro ⟨-, hstreams⟩ - row hrow hservice hplaced htakes hadmitted
      obtain ⟨s, hs, hforwards, hid⟩ :=
        (exists_forwarding_server hrow).mpr ⟨hplaced, htakes, hadmitted⟩
      exact hstreams s hs hforwards row hrow hservice hid
    · intro hnone
      refine ⟨fun r hr h hh => route_of_active_service hinactive hr hh, ?_⟩
      intro s hs hforwards row hrow hservice hid
      obtain ⟨hplaced, htakes, hadmitted⟩ :=
        (exists_forwarding_server hrow).mp ⟨s, hs, hforwards, hid⟩
      exact hnone rfl row hrow hservice hplaced htakes hadmitted

end Stopped

/-- One backend and no infrastructure. -/
def oneBackend : NetLib where
  Addr := Unit
  parseIP s := if s = "10.0.0.5" then some () else none
  parseAddr s := if s = "10.0.0.5" then some () else none
  render _ := "10.0.0.5"
  dangerous _ := false
  isPublic _ := false
  lookup _ := none
  parseIP_render _ := rfl
  trimSpace_render _ := by decide +kernel
  parseIP_nil := rfl

def noInfra : InfraTargets oneBackend := ⟨[], fun _ => false⟩

def contested : List StreamRoute :=
  [(.tcp, 1), (.both, 2), (.udp, 3)].map fun (protocol, id) =>
    { id, protocol, listenPort := 80, upstreamIP := "10.0.0.5", upstreamPort := 5432 }

/-- The second stream passes the screen and loses one listener to the first, so that the third gets the other. -/
theorem later_stream_wins_listener : (screenStreamSet noInfra contested).1.map (·.id) = [1, 3] ∧
      (contested.filter fun r => (streamListenerKeys r).contains "udp_80" && (pin noInfra r).isOk).map (·.id) =
        [2, 3] := by
  decide +kernel

/-- A suspended service with one stream on node 1. -/
def suspendedDb (active : Bool) : Db where
  service _ := some ⟨.suspended, "10.0.0.5"⟩
  routes := []
  streams := [⟨{ id := 1, listenPort := 9000, upstreamIP := [], upstreamPort := 5432 }, 7, 1, active,
    false⟩]
  sorted := List.Pairwise.nil
  positive := forall_mem_nil _
  streamIDs := nodup_singleton _

theorem stopped_service_not_forwarded_iff_paused :
    (∀ r ∈ Portal.nodeRoutes Caddyapi.asciiIdna Caddyapi.plainHelpers [] [] ((suspendedDb false).portal [] []) 1,
        ∀ h ∈ (suspendedDb false).routes, h.serviceID = 7 → r.id ≠ itoa h.row.id) ∧
      ∀ s ∈ layer4Servers noInfra true (suspendedDb false) 1, s.forwards →
        ∀ row ∈ (suspendedDb false).streams, row.serviceID = 7 → s.stream ≠ row.stream.id := by
  refine (stopped_service_not_forwarded_iff Caddyapi.asciiIdna Caddyapi.plainHelpers [] [] [] []
    noInfra true (suspendedDb false) 1 7 ⟨.suspended, "10.0.0.5"⟩ rfl (.inl rfl)).mpr ?_
  intro _ row hrow _ hplaced
  obtain rfl := mem_singleton.mp hrow
  exact absurd hplaced (by decide)

/-- The stream of the suspended service is still forwarded. -/
theorem stream_of_suspended_service_forwarded :
    ((suspendedDb true).service 7).map (·.status) = some .suspended ∧
      ∃ s ∈ layer4Servers noInfra true (suspendedDb true) 1, s.forwards ∧ s.stream = 1 ∧
        ∃ row ∈ (suspendedDb true).streams, row.serviceID = 7 ∧ row.stream.id = 1 := by
  have hserver : layer4Servers noInfra true (suspendedDb true) 1 = [buildL4Server "tcp"
      { id := 1, listenPort := 9000, upstreamIP := "10.0.0.5", upstreamPort := 5432 }] := rfl
  exact ⟨rfl, _, mem_cons_self, rfl, rfl, _, mem_cons_self, rfl, rfl⟩

end Streams
