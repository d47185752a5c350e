import CaddyPanel.Caddyapi.RouteOrder

/-!
# Configuration of a node (`BuildNodeConfig`)

What of a node's configuration decides how a request is answered: the list of routes, in the order
they are tried, and the connection policies, which are chosen by server name before any route.
-/

namespace Caddyapi

open List
open Text (Str toLower)

/-! ### Settings -/

structure WstunnelRoute where
  nodeID : Nat
  hostname : Str
  port : Int
  deriving DecidableEq

/-- Where the panel itself is served. -/
structure PanelSelf where
  publicHost : Str
  internalHost : Str
  internalPort : Int
  deriving DecidableEq

structure NodeSettings where
  panel : PanelSelf := ⟨[], [], 0⟩
  wstunnelRoute : Option WstunnelRoute := none
  cacheModuleAvailable : Bool := false
  rateLimitModuleAvailable : Bool := false
  wafModuleAvailable : Bool := false
  wafFailOpen : Bool := false
  geoModuleAvailable : Bool := false
  errorBranding : ErrorBranding := {}
  /-- the zones with a DNS-01 policy on this node -/
  zones : List Str := []
  mtlsFailOpen : Bool := false
  pqCurveAvailable : Bool := false

/-- The route of the panel, where its addresses are configured. -/
def panelRoute (s : NodeSettings) : Option Route :=
  if s.panel.publicHost = [] || s.panel.internalHost = [] || s.panel.internalPort = 0 then none
  else some {
    id := "panel_self"
    hosts := [s.panel.publicHost]
    upstreamIP := s.panel.internalHost
    upstreamPort := s.panel.internalPort
    webSocket := true
    forceHTTPS := true
    isPanelSelfRoute := true }

/-- The modules that the node has. -/
def withModules (s : NodeSettings) (r : Route) : Route :=
  { r with
    cacheModuleAvailable := s.cacheModuleAvailable
    rateLimitModuleAvailable := s.rateLimitModuleAvailable
    wafModuleAvailable := s.wafModuleAvailable
    wafFailOpen := s.wafFailOpen
    geoModuleAvailable := s.geoModuleAvailable }

def wildcardHost (zone : Str) : Str :=
  "*." ++ zone

/-- A connection policy goes by server name, so a route that has one never takes a whole zone. -/
def withWildcardHost (zones : List Str) (r : Route) : Route :=
  if r.wildcardZone = [] || !zones.contains r.wildcardZone || r.requireClientCert || r.tlsPQOnly then
    r
  else if r.hosts.contains (wildcardHost r.wildcardZone) then r
  else { r with hosts := r.hosts ++ [wildcardHost r.wildcardZone] }

def withWildcardHosts (routes : List Route) (zones : List Str) : List Route :=
  if zones = [] then routes else routes.map (withWildcardHost zones)

lemma withWildcardHosts_eq_map (routes : List Route) (zones : List Str) :
    withWildcardHosts routes zones = routes.map (withWildcardHost zones) := by
  unfold withWildcardHosts
  split_ifs with hnil
  · conv_lhs => rw [← map_id routes]
    refine map_congr_left fun r _ => ?_
    simp [withWildcardHost, hnil]
  · rfl

/-- A host that the zones add is the wildcard of the route's zone. -/
lemma mem_withWildcardHost {zones : List Str} {r : Route} {x : Str} (hx : x ∈ (withWildcardHost zones r).hosts) :
    x ∈ r.hosts ∨ (x = wildcardHost r.wildcardZone ∧ r.wildcardZone ≠ [] ∧ r.wildcardZone ∈ zones) := by
  unfold withWildcardHost at hx
  split_ifs at hx with hskip hhas
  · exact .inl hx
  · exact .inl hx
  rcases mem_append.mp hx with hx | hx
  · exact .inl hx
  simp only [Bool.or_eq_true, decide_eq_true_eq, Bool.not_eq_true', not_or,
    Bool.not_eq_false] at hskip
  exact .inr ⟨mem_singleton.mp hx, hskip.1.1.1, by simpa using hskip.1.1.2⟩

def buildWstunnelCaddyRoute (wr : WstunnelRoute) : Emitted where
  id := "hpg_wstunnel_" ++ itoa wr.nodeID
  route := .mk [[.host [wr.hostname], .path ["/wg-tunnel*"]]]
    [.reverseProxy { upstreams := [{ dial := "host.docker.internal:" ++ itoa wr.port }] } []]
    false

/-! ### Connection policies -/

/-- `hostConnPolicy`: a trust anchor where certificates are asked for, and the hybrid key exchange. -/
structure HostConnPolicy where
  caPEM : Str := []
  pq : Bool := false
  deriving DecidableEq

def HostConnPolicy.none (p : HostConnPolicy) : Bool :=
  p.caPEM = [] && !p.pq

/-- The strictest options of a host's routes, and of several anchors the first. -/
def HostConnPolicy.merge (cur new : HostConnPolicy) : HostConnPolicy where
  caPEM := if cur.caPEM = [] then new.caPEM else cur.caPEM
  pq := cur.pq || new.pq

/-- What a route asks of the connection. -/
def connPolicy (caUsable : Str → Bool) (pqAvailable : Bool) (r : Route) : HostConnPolicy where
  caPEM := if r.requireClientCert && caUsable r.mtlsCACertPEM then r.mtlsCACertPEM else []
  pq := r.tlsPQOnly && pqAvailable

/-- One more route for a host, in the order in which hosts first appear. -/
def addPolicy (new : HostConnPolicy) (entries : List (Str × HostConnPolicy)) (h : Str) :
    List (Str × HostConnPolicy) :=
  if entries.any (·.1 = h) then
    entries.map fun e => if e.1 = h then (h, e.2.merge new) else e
  else entries ++ [(h, new)]

/-- The merged policy of every host, from the hosts and the policies of the routes. -/
def hostPolicies (asks : List (List Str × HostConnPolicy)) : List (Str × HostConnPolicy) :=
  asks.foldl (fun entries ask =>
    if ask.2.none then entries else ask.1.foldl (addPolicy ask.2) entries) []

inductive ClientAuthMode where
  | requireAndVerify
  | verifyIfGiven
  deriving DecidableEq

/-- An entry of `tls_connection_policies`; without server names it takes every connection. -/
structure ConnPolicy where
  sni : Option (List Str)
  clientAuth : Option (Str × ClientAuthMode) := none
  pq : Bool := false
  deriving DecidableEq

def HostConnPolicy.render (mode : ClientAuthMode) (sni : List Str) (p : HostConnPolicy) :
    ConnPolicy where
  sni := some sni
  clientAuth := if p.caPEM = [] then .none else some (p.caPEM, mode)
  pq := p.pq

/-- Neighbours with one policy share an entry. -/
def groupPolicies : List (Str × HostConnPolicy) → List (List Str × HostConnPolicy)
  | [] => []
  | (h, p) :: entries =>
    match groupPolicies entries with
    | (hs, q) :: rest => if p = q then (h :: hs, p) :: rest else ([h], p) :: (hs, q) :: rest
    | [] => [([h], p)]

def clientAuthMode (failOpen : Bool) : ClientAuthMode :=
  if failOpen then .verifyIfGiven else .requireAndVerify

def connAsks (caUsable : Str → Bool) (pqAvailable : Bool) (routes : List Route) :
    List (List Str × HostConnPolicy) :=
  routes.map fun r => (r.hosts, connPolicy caUsable pqAvailable r)

def buildConnPolicies (caUsable : Str → Bool) (failOpen pqAvailable : Bool) (routes : List Route) :
    List ConnPolicy :=
  let out := (groupPolicies (hostPolicies (connAsks caUsable pqAvailable routes))).map fun e =>
    e.2.render (clientAuthMode failOpen) e.1
  if out = [] then [] else out ++ [{ sni := none }]

def hasClientAuth (pols : List ConnPolicy) : Bool :=
  pols.any fun p => p.clientAuth.isSome

/-! ### The configuration -/

/-- The parts of the configuration that answer requests. -/
structure NodeConfig where
  routes : List Emitted
  tlsConnectionPolicies : List ConnPolicy
  strictSNIHost : Bool
  /-- whether `apps.cache` is mounted -/
  cacheApp : Bool

/-- The routes in front of all others. -/
def preludeRoutes (hp : Helpers) (s : NodeSettings) : List Emitted :=
  (match panelRoute s with
    | some pr => [buildRoute hp (withModules s pr)]
    | none => []) ++
  match s.wstunnelRoute with
    | some wr => if wr.hostname ≠ [] && 0 < wr.port then [buildWstunnelCaddyRoute wr] else []
    | none => []

/-- A route that mounts the shared cache. -/
def wantsCache (hp : Helpers) (r : Route) : Bool :=
  r.cacheEnabled && r.cachePublic && !routeAuthGated hp r

def buildNodeConfig (idna : Idna) (hp : Helpers) (caUsable : Str → Bool) (s : NodeSettings)
    (routes : List Route) : NodeConfig :=
  let routes := sortRoutesForEmission idna hp (withWildcardHosts routes s.zones)
  let pols := buildConnPolicies caUsable s.mtlsFailOpen s.pqCurveAvailable routes
  { routes := preludeRoutes hp s ++ routes.map fun r => buildRoute hp (withModules s r)
    tlsConnectionPolicies := pols
    strictSNIHost := hasClientAuth pols
    cacheApp := s.cacheModuleAvailable &&
      ((panelRoute s).any (wantsCache hp) || routes.any (wantsCache hp)) }

/-! ### How a node answers -/

def Emitted.matches (env : Caddy.Env) (e : Emitted) (req : Caddy.Request) : Bool :=
  match e.route with
  | .mk sets _ _ => Caddy.routeMatches env sets req

lemma hostMatches_of_matches {env : Caddy.Env} {hp : Helpers} {r : Route} {req : Caddy.Request}
    (h : (buildRoute hp r).matches env req) : env.hostMatches r.hosts req.host := by
  have hset : (Caddy.setHolds env (routeMatch r) req || false) := h
  rw [Bool.or_false] at hset
  exact (Bool.and_eq_true_iff.mp hset).1

/-- Routes are tried in the order of the list. -/
def NodeConfig.firstMatch (env : Caddy.Env) (cfg : NodeConfig) (req : Caddy.Request) :
    Option Emitted :=
  cfg.routes.find? fun e => e.matches env req

def sniMatches (idna : Idna) (sni h : Str) : Bool :=
  labelsMatch (labels (normalizeHost idna h)) (labels sni)

/-- What the connection is asked for: the first policy that takes the server name, and nothing
where none does. -/
def NodeConfig.policyFor (idna : Idna) (cfg : NodeConfig) (sni : Str) :
    Option (Str × ClientAuthMode) × Bool :=
  match cfg.tlsConnectionPolicies.find? fun p => p.sni.all (·.any (sniMatches idna sni)) with
  | some p => (p.clientAuth, p.pq)
  | none => (none, false)

/-! ### The policy of a server name -/

section

variable {idna : Idna} {sni : Str}

/-- What the merged policies say about a server name. -/
def hostPolicyFor (idna : Idna) (mode : ClientAuthMode) (sni : Str)
    (entries : List (Str × HostConnPolicy)) : Option (Str × ClientAuthMode) × Bool :=
  match entries.find? fun e => sniMatches idna sni e.1 with
  | some e => ((e.2.render mode []).clientAuth, e.2.pq)
  | none => (none, false)

lemma flatMap_groupPolicies (entries : List (Str × HostConnPolicy)) :
    (groupPolicies entries).flatMap (fun g => g.1.map (·, g.2)) = entries := by
  induction entries with
  | nil => rfl
  | cons e entries ih =>
    rw [groupPolicies]
    conv_rhs => rw [← ih]
    cases groupPolicies entries with
    | nil => rfl
    | cons g rest =>
      dsimp only
      split
      · next hpq => simp [← hpq]
      · simp

/-- Sharing entries between neighbours does not change what is found. -/
lemma find_groupPolicies (entries : List (Str × HostConnPolicy)) :
    ((groupPolicies entries).find? fun e => e.1.any (sniMatches idna sni)).map Prod.snd =
      (entries.find? fun e => sniMatches idna sni e.1).map Prod.snd := by
  conv_rhs => rw [← flatMap_groupPolicies entries]
  induction groupPolicies entries with
  | nil => rfl
  | cons g gs ih =>
    have hcomp : (fun e : Str × HostConnPolicy => sniMatches idna sni e.1) ∘ (fun x => (x, g.2)) =
        sniMatches idna sni := rfl
    rw [flatMap_cons, find?_append, find?_map, hcomp]
    cases hfind : g.1.find? (sniMatches idna sni) with
    | none =>
      have hany : g.1.any (sniMatches idna sni) = false := by simpa using hfind
      rw [find?_cons_of_neg (by simp [hany]), ih, Option.map_none, Option.none_or]
    | some x =>
      have hany : g.1.any (sniMatches idna sni) := by
        simpa using ⟨x, mem_of_find?_eq_some hfind, find?_some hfind⟩
      rw [find?_cons_of_pos (by simpa using hany)]
      rfl

/-- A connection gets the merged policy of the first host that takes its server name. -/
theorem policyFor_eq (cfg : NodeConfig) {caUsable : Str → Bool} {failOpen pqAvailable : Bool} {routes : List Route}
    (h : cfg.tlsConnectionPolicies = buildConnPolicies caUsable failOpen pqAvailable routes) :
    cfg.policyFor idna sni = hostPolicyFor idna (clientAuthMode failOpen) sni
      (hostPolicies (connAsks caUsable pqAvailable routes)) := by
  have hfind := @find_groupPolicies idna sni (hostPolicies (connAsks caUsable pqAvailable routes))
  unfold NodeConfig.policyFor hostPolicyFor
  rw [h, buildConnPolicies]
  generalize hostPolicies (connAsks caUsable pqAvailable routes) = entries at hfind ⊢
  by_cases hnil : groupPolicies entries = []
  · rw [hnil] at hfind ⊢
    rw [Option.map_eq_none_iff.mp hfind.symm]
    rfl
  have hcomp : ((fun p : ConnPolicy => p.sni.all fun x => x.any (sniMatches idna sni)) ∘
      fun e : List Str × HostConnPolicy => e.2.render (clientAuthMode failOpen) e.1) =
      fun e => e.1.any (sniMatches idna sni) := rfl
  rw [if_neg (by simpa using hnil), find?_append, find?_map, hcomp]
  -- both lists answer with the same policy
  cases hgroup : (groupPolicies entries).find? fun e => e.1.any (sniMatches idna sni) <;>
    cases hentry : entries.find? fun e => sniMatches idna sni e.1 <;>
    simp_all [HostConnPolicy.render]

lemma filter_addPolicy (m : Str → Bool) (new : HostConnPolicy) (entries : List (Str × HostConnPolicy))
    (h : Str) : (addPolicy new entries h).filter (fun e => m e.1) =
      if m h then addPolicy new (entries.filter fun e => m e.1) h else entries.filter fun e => m e.1 := by
  have hany : m h → ((entries.filter fun e => m e.1).any (·.1 = h)) = entries.any (·.1 = h) := by
    intro hm
    rw [any_filter]
    congr 1
    funext e
    by_cases he : e.1 = h
    · simp [he, hm]
    · simp [he]
  have hmap : (entries.map fun e => if e.1 = h then (h, e.2.merge new) else e).filter
      (fun e => m e.1) = (entries.filter fun e => m e.1).map fun e =>
        if e.1 = h then (h, e.2.merge new) else e := by
    rw [filter_map]
    congr 1
    apply filter_congr
    intro e _
    simp only [Function.comp_apply]
    split
    · rename_i he
      rw [he]
    · rfl
  unfold addPolicy
  by_cases hm : m h
  · rw [hany hm]
    split
    · exact hmap
    · simp [hm]
  split
  · -- the entry of this host is not seen
    rw [hmap]
    conv_rhs => rw [← map_id (entries.filter fun e => m e.1)]
    apply map_congr_left
    intro e he
    have hme : m e.1 := (mem_filter.mp he).2
    rw [if_neg]
    · rfl
    · rintro rfl
      exact hm hme
  · simp [hm]

lemma filter_foldl_addPolicy (m : Str → Bool) (new : HostConnPolicy) (hosts : List Str)
    (entries : List (Str × HostConnPolicy)) :
    (hosts.foldl (addPolicy new) entries).filter (fun e => m e.1) =
      (hosts.filter m).foldl (addPolicy new) (entries.filter fun e => m e.1) := by
  induction hosts generalizing entries with
  | nil => rfl
  | cons h hosts ih =>
    rw [foldl_cons, ih, filter_addPolicy]
    by_cases hm : m h
    · rw [if_pos hm, filter_cons_of_pos hm, foldl_cons]
    · rw [if_neg hm, filter_cons_of_neg hm]

/-- A route that asks something of connections to this server name. -/
def asksFor (idna : Idna) (sni : Str) (ask : List Str × HostConnPolicy) : Bool :=
  !ask.2.none && ask.1.any (sniMatches idna sni)

lemma hostPolicies_append (asks : List (List Str × HostConnPolicy)) (ask : List Str × HostConnPolicy) :
    hostPolicies (asks ++ [ask]) =
      if ask.2.none then hostPolicies asks else ask.1.foldl (addPolicy ask.2) (hostPolicies asks) := by
  rw [hostPolicies, foldl_append]
  rfl

/-- Only the routes that ask something of a server name decide about it. -/
lemma filter_hostPolicies (asks : List (List Str × HostConnPolicy)) :
    (hostPolicies asks).filter (fun e => sniMatches idna sni e.1) =
      (hostPolicies (asks.filter (asksFor idna sni))).filter fun e => sniMatches idna sni e.1 := by
  induction asks using List.reverseRecOn with
  | nil => rfl
  | append_singleton asks ask ih =>
    rw [hostPolicies_append, List.filter_append]
    by_cases hask : asksFor idna sni ask
    · rw [filter_cons_of_pos hask, filter_nil, hostPolicies_append]
      split
      · exact ih
      · rw [filter_foldl_addPolicy, filter_foldl_addPolicy, ih]
    rw [filter_cons_of_neg hask, filter_nil, append_nil, ← ih]
    split
    · rfl
    -- none of its hosts takes the server name
    next hsome =>
    have hnil : ask.1.filter (sniMatches idna sni) = [] := by simpa [asksFor, hsome] using hask
    rw [filter_foldl_addPolicy, hnil]
    rfl

/-- The policy of a server name, from the routes that ask something of it. -/
lemma hostPolicyFor_congr {mode : ClientAuthMode} {asks asks' : List (List Str × HostConnPolicy)}
    (h : asks.filter (asksFor idna sni) = asks'.filter (asksFor idna sni)) :
    hostPolicyFor idna mode sni (hostPolicies asks) = hostPolicyFor idna mode sni (hostPolicies asks') := by
  unfold hostPolicyFor
  rw [← head?_filter, ← head?_filter, filter_hostPolicies, h, ← filter_hostPolicies]

/-! ### The policy of a host -/

variable {h k : Str} {new m p : HostConnPolicy} {asks : List (List Str × HostConnPolicy)}

/-- The first anchor that the routes of a host ask for, and whether one asks for the hybrid exchange. -/
def merged (asks : List (List Str × HostConnPolicy)) (k : Str) : HostConnPolicy where
  caPEM := ((asks.find? fun ask => ask.1.contains k && ask.2.caPEM ≠ []).map (·.2.caPEM)).getD []
  pq := asks.any fun ask => ask.1.contains k && ask.2.pq

lemma merged_append (asks : List (List Str × HostConnPolicy)) (ask : List Str × HostConnPolicy) (k : Str) :
    merged (asks ++ [ask]) k = if k ∈ ask.1 then (merged asks k).merge ask.2 else merged asks k := by
  unfold merged
  rw [find?_append]
  by_cases hk : k ∈ ask.1
  · cases hfind : asks.find? fun ask => ask.1.contains k && ask.2.caPEM ≠ [] with
    | none => by_cases hca : ask.2.caPEM = [] <;> simp [hk, hca, HostConnPolicy.merge]
    | some a =>
      have ha := find?_some hfind
      simp_all [HostConnPolicy.merge]
  · simp [hk]

/-- The entry of one host. -/
def single (k : Str) (p : HostConnPolicy) : List (Str × HostConnPolicy) :=
  if p.none then [] else [(k, p)]

lemma merge_of_none (hp : p.none) : m.merge p = m := by
  simp only [HostConnPolicy.none, Bool.and_eq_true, decide_eq_true_eq, Bool.not_eq_true'] at hp
  cases m
  simp +contextual [HostConnPolicy.merge, hp]

lemma foldl_single {hosts : List Str} (hnew : new.none = false) (hhosts : ∀ h ∈ hosts, h = k) :
    hosts.foldl (addPolicy new) (single k p) = single k (if k ∈ hosts then p.merge new else p) := by
  induction hosts generalizing p with
  | nil => rfl
  | cons h hosts ih =>
    obtain ⟨rfl, hhosts⟩ := forall_mem_cons.mp hhosts
    have hadd : addPolicy new (single h p) h = single h (p.merge new) := by
      rcases p with ⟨ca, pq⟩
      cases ca <;> cases pq <;> simp_all [addPolicy, single, HostConnPolicy.none, HostConnPolicy.merge]
    have hagain : (p.merge new).merge new = p.merge new := by
      cases hca : p.caPEM <;> simp [HostConnPolicy.merge, hca]
    rw [foldl_cons, hadd, ih hhosts, hagain, ite_self, if_pos mem_cons_self]

lemma filter_key (asks : List (List Str × HostConnPolicy)) (k : Str) :
    (hostPolicies asks).filter (fun e => e.1 = k) = single k (merged asks k) := by
  induction asks using List.reverseRecOn with
  | nil => rfl
  | append_singleton asks ask ih =>
    rw [hostPolicies_append, merged_append]
    split
    · next hnone => rw [merge_of_none hnone, ite_self, ih]
    rename_i hsome
    rw [filter_foldl_addPolicy (· = k), ih, foldl_single (Bool.not_eq_true _ ▸ hsome) (by simp)]
    simp

lemma mem_hostPolicies : (k, p) ∈ hostPolicies asks ↔ p = merged asks k ∧ p.none = false := by
  have hmem : (k, p) ∈ hostPolicies asks ↔ (k, p) ∈ (hostPolicies asks).filter (fun e => e.1 = k) := by simp
  rw [hmem, filter_key, single]
  by_cases hnone : (merged asks k).none = true <;> simp +contextual [hnone]

lemma caPEM_merged : (merged asks k).caPEM ≠ [] ↔ ∃ ask ∈ asks, k ∈ ask.1 ∧ ask.2.caPEM ≠ [] := by
  unfold merged
  cases hfind : asks.find? fun ask => ask.1.contains k && ask.2.caPEM ≠ [] with
  | none => simpa using find?_eq_none.mp hfind
  | some ask =>
    have hask := find?_some hfind
    simp only [contains_iff_mem, Bool.and_eq_true, decide_eq_true_eq] at hask
    exact iff_of_true hask.2 ⟨ask, mem_of_find?_eq_some hfind, hask⟩

/-! ### Client authentication on the node -/

/-- A route whose certificate demand reaches the policies. -/
def asksCert (ask : List Str × HostConnPolicy) : Bool :=
  ask.1 ≠ [] && ask.2.caPEM ≠ []

lemma any_hostPolicies (asks : List (List Str × HostConnPolicy)) :
    (hostPolicies asks).any (fun e => e.2.caPEM ≠ []) = asks.any asksCert := by
  rw [Bool.eq_iff_iff, any_eq_true, any_eq_true]
  simp only [decide_eq_true_eq, asksCert, Bool.and_eq_true]
  constructor
  · rintro ⟨⟨k, p⟩, he, hca⟩
    rw [(mem_hostPolicies.mp he).1] at hca
    obtain ⟨ask, hask, hmem, hca⟩ := caPEM_merged.mp hca
    exact ⟨ask, hask, ne_nil_of_mem hmem, hca⟩
  · rintro ⟨ask, hask, hne, hca⟩
    obtain ⟨k, hk⟩ := exists_mem_of_ne_nil _ hne
    have hmerged := caPEM_merged.mpr ⟨ask, hask, hk, hca⟩
    exact ⟨(k, merged asks k), mem_hostPolicies.mpr ⟨rfl, by simp [HostConnPolicy.none, hmerged]⟩, hmerged⟩

lemma any_groupPolicies (entries : List (Str × HostConnPolicy)) :
    (groupPolicies entries).any (fun e => e.2.caPEM ≠ []) = entries.any fun e => e.2.caPEM ≠ [] := by
  induction entries with
  | nil => rfl
  | cons e entries ih =>
    rw [groupPolicies, any_cons, ← ih]
    split
    · rename_i hs q rest hrest
      rw [hrest]
      split
      · rename_i hpq
        subst hpq
        simp only [any_cons, ← Bool.or_assoc, Bool.or_self]
      · rfl
    · rename_i hrest
      rw [hrest]
      rfl

theorem hasClientAuth_eq {caUsable : Str → Bool} {failOpen pqAvailable : Bool} {routes : List Route} :
    hasClientAuth (buildConnPolicies caUsable failOpen pqAvailable routes) =
      (connAsks caUsable pqAvailable routes).any asksCert := by
  rw [← any_hostPolicies, ← any_groupPolicies]
  unfold hasClientAuth buildConnPolicies
  dsimp only
  split
  · rename_i hnil
    rw [map_eq_nil_iff.mp hnil]
    rfl
  rw [any_append, any_map]
  simp only [any_cons, any_nil, Bool.or_false, Option.isSome_none]
  congr 1
  funext e
  simp only [Function.comp_apply, HostConnPolicy.render]
  split <;> simp_all

/-! ### Which route decides -/

/-- A host has one entry. -/
lemma nodup_hostPolicies (asks : List (List Str × HostConnPolicy)) : ((hostPolicies asks).map Prod.fst).Nodup := by
  refine nodup_iff_count_le_one.mpr fun k => ?_
  have hfilter : (hostPolicies asks).filter ((· == k) ∘ Prod.fst) = single k (merged asks k) := by
    rw [← filter_key]
    exact filter_congr fun e _ => beq_eq_decide ..
  rw [List.count, countP_map, countP_eq_length_filter, hfilter, single]
  split <;> simp

lemma exists_of_merged (h : (merged asks k).none = false) : ∃ ask ∈ asks, ask.2.none = false ∧ k ∈ ask.1 := by
  obtain hca | hpq := Bool.and_eq_false_iff.mp h
  · obtain ⟨ask, hask, hk, hca⟩ := caPEM_merged.mp (of_decide_eq_false hca)
    exact ⟨ask, hask, by simp [HostConnPolicy.none, hca], hk⟩
  · obtain ⟨ask, hask, hk⟩ := any_eq_true.mp (Bool.not_eq_false' _ ▸ hpq)
    simp only [contains_iff_mem, Bool.and_eq_true] at hk
    exact ⟨ask, hask, by simp [HostConnPolicy.none, hk.2], hk.1⟩

lemma hostPolicyFor_eq {mode : ClientAuthMode} (h : ∀ e ∈ hostPolicies asks, (sniMatches idna sni e.1 ↔ e.1 = k)) :
    hostPolicyFor idna mode sni (hostPolicies asks) =
      (((merged asks k).render mode []).clientAuth, (merged asks k).pq) := by
  have hfilter : (hostPolicies asks).filter (fun e => sniMatches idna sni e.1) = single k (merged asks k) := by
    rw [← filter_key]
    exact filter_congr fun e he => by rw [Bool.eq_iff_iff, h e he, decide_eq_true_eq]
  rw [hostPolicyFor, ← head?_filter, hfilter, single]
  by_cases hnone : (merged asks k).none
  · rw [if_pos hnone]
    simp only [HostConnPolicy.none, Bool.and_eq_true, decide_eq_true_eq, Bool.not_eq_true'] at hnone
    simp [HostConnPolicy.render, hnone]
  · rw [if_neg hnone]
    rfl

lemma labelsMatch_iff {ps ls : List Str} (hstar : "*".toList ∉ ps) :
    labelsMatch ps ls ↔ ps.map toLower = ls.map toLower := by
  induction ps generalizing ls with
  | nil => cases ls <;> simp [labelsMatch]
  | cons p ps ih =>
    simp only [mem_cons, not_or] at hstar
    cases ls with
    | nil => simp [labelsMatch]
    | cons l ls => simpa [labelsMatch, ih hstar.2] using fun _ hp => absurd hp.symm hstar.1

/-- A name in normal form without a star takes the connections to itself. -/
lemma sniMatches_iff (hnormal : normalizeHost idna h = h) (hstar : '*' ∉ h) :
    sniMatches idna sni h ↔ h = toLower sni := by
  have hlower : toLower h = h := Text.toLower_eq_self fun c hc => lower_of_mem_normalizeHost (hnormal.symm ▸ hc)
  have hlabel : "*".toList ∉ labels h := fun hmem => hstar (Text.mem_of_mem_of_mem_splitOn hmem (by decide))
  rw [sniMatches, hnormal, labelsMatch_iff hlabel, labels, labels, ← Text.splitOn_toLower_dot,
    ← Text.splitOn_toLower_dot, hlower]
  refine ⟨fun heq => ?_, congrArg _⟩
  rw [← @intercalate_splitOn _ h _ _ '.', heq, intercalate_splitOn]

/-- The routes in the order of the configuration. -/
def configRoutes (idna : Idna) (hp : Helpers) (s : NodeSettings) (routes : List Route) : List Route :=
  sortRoutesForEmission idna hp (withWildcardHosts routes s.zones)

/-- Where the routes that have a policy go by names without a star, every server name has at most one policy. The
connections to a host are asked for the certificates of the first route of the host that asks for any, and for the
hybrid exchange if one of its routes asks for it; all others are asked for nothing. -/
theorem policy_of_first_route (idna : Idna) (hp : Helpers) (caUsable : Str → Bool) (s : NodeSettings)
    (routes : List Route)
    (hhosts : ∀ r ∈ configRoutes idna hp s routes, (connPolicy caUsable s.pqCurveAvailable r).none = false →
      ∀ h ∈ r.hosts, normalizeHost idna h = h ∧ '*' ∉ h) :
    ((buildNodeConfig idna hp caUsable s routes).tlsConnectionPolicies.flatMap fun p => p.sni.getD []).Nodup ∧
      ∀ sni, (buildNodeConfig idna hp caUsable s routes).policyFor idna sni =
        (((configRoutes idna hp s routes).find? fun r => r.hosts.contains (toLower sni) &&
            (r.requireClientCert && caUsable r.mtlsCACertPEM && r.mtlsCACertPEM ≠ [])).map fun r =>
              (r.mtlsCACertPEM, clientAuthMode s.mtlsFailOpen),
          (configRoutes idna hp s routes).any fun r => r.hosts.contains (toLower sni) &&
            (r.tlsPQOnly && s.pqCurveAvailable)) := by
  have hpols : (buildNodeConfig idna hp caUsable s routes).tlsConnectionPolicies =
      buildConnPolicies caUsable s.mtlsFailOpen s.pqCurveAvailable (configRoutes idna hp s routes) := rfl
  generalize configRoutes idna hp s routes = rs at hhosts hpols ⊢
  constructor
  · have hnodup := nodup_hostPolicies (connAsks caUsable s.pqCurveAvailable rs)
    rw [hpols, buildConnPolicies]
    split
    · exact nodup_nil
    · rw [← flatMap_groupPolicies (hostPolicies _), map_flatMap] at hnodup
      simpa [flatMap_map, HostConnPolicy.render, Function.comp_def] using hnodup
  intro sni
  rw [policyFor_eq _ hpols, hostPolicyFor_eq (k := toLower sni)]
  · have hca : ∀ r : Route, decide ((connPolicy caUsable s.pqCurveAvailable r).caPEM ≠ []) =
        (r.requireClientCert && caUsable r.mtlsCACertPEM && r.mtlsCACertPEM ≠ []) := by
      intro r
      simp only [connPolicy]
      split <;> simp_all
    simp only [merged, connAsks, find?_map, any_map, Function.comp_def, hca]
    cases hfind : rs.find? _ with
    | none => rfl
    | some r =>
      have hr := find?_some hfind
      simp_all [HostConnPolicy.render, connPolicy]
  · rintro ⟨h, p⟩ he
    obtain ⟨rfl, hsome⟩ := mem_hostPolicies.mp he
    obtain ⟨ask, hask, hopts, hmem⟩ := exists_of_merged hsome
    obtain ⟨r, hr, rfl⟩ := mem_map.mp hask
    obtain ⟨hnormal, hstar⟩ := hhosts r hr hopts h hmem
    exact sniMatches_iff hnormal hstar

/-- A route for a path asks for the hybrid exchange, and one for the same host asks for certificates. -/
def sharedHost (h : Str) : List Route :=
  [{ id := "1", hosts := [h], pathPrefix := "/api", tlsPQOnly := true },
    { id := "2", hosts := ["a.example.com"], requireClientCert := true,
      mtlsCACertPEM := "PEM" }]

def sharedConfig (h : Str) : NodeConfig :=
  buildNodeConfig asciiIdna plainHelpers (fun _ => true) { pqCurveAvailable := true } (sharedHost h)

theorem policy_of_first_route_shared :
    (sharedConfig "a.example.com".toList).policyFor asciiIdna "a.example.com".toList =
      (some ("PEM".toList, .requireAndVerify), true) :=
  ((policy_of_first_route asciiIdna plainHelpers (fun _ => true) { pqCurveAvailable := true }
    (sharedHost "a.example.com".toList) (by decide)).2 _).trans (by decide)

/-- The policy of a whole zone stands in front of the one of a host in it, which asks for certificates. -/
theorem zone_policy_hides_host_policy :
    (sharedConfig "*.example.com").policyFor asciiIdna "a.example.com" = (none, true) := by
  decide

end

end Caddyapi
