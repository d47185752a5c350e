import CaddyPanel.Caddyapi.Gates
import CaddyPanel.Streamguard.HttpBackend

/-!
# The emission screen of dial targets

Before routes are compiled, every target they dial is screened and every name is replaced by the
address it screened to (`screenHTTPSet`). The screen and the builder choose their targets through
different case distinctions; `emitted_dials_vetted` follows each dial of a compiled route back to
the field that was screened.
-/

namespace Routes.HttpScreen

open List
open Text (Str trimSpace)
open Streamguard
open Caddyapi (Route Upstream LocationRule Helpers splitHostPort ssoDialTarget dnsResolver dial primaryDials ssoProxies
  ssoBase)

variable {net : NetLib}

/-! ### One target -/

inductive ScreenMode where
  /-- resolve, screen, emit the address -/
  | pin
  /-- resolve and screen, emit the name -/
  | screen
  /-- deny set only -/
  | literal
  deriving DecidableEq

def screenDialTarget (dial : Str) : Except ScreenError Unit :=
  if (trimSpace dial).contains '/' then .error .notHostPort else .ok ()

/-- `ValidateOutboundHost`: no answer may be in a forbidden range. -/
def validateOutboundHost (net : NetLib) (host : Str) : Except ScreenError Unit :=
  if host = [] then .error .notPublic
  else
    let host := ((splitHostPort host).map Prod.fst).getD host
    match net.parseIP host with
    | some a => if net.isPublic a then .ok () else .error .notPublic
    | none =>
      match net.lookup host with
      | none | some [] => .error .notPublic
      | some addrs => if addrs.all net.isPublic then .ok () else .error .notPublic

/-- The node picks the address behind the route's names. -/
def nodeResolves (r : Route) : Bool :=
  r.resolveNodeSide || (r.external && !r.externalWildcard)

def screenEmitted (t : InfraTargets net) (host : Str) (port : Int) : Except ScreenError Unit :=
  if trimSpace host = [] then .ok ()
  else
    match screenDialTarget host with
    | .error e => .error e
    | .ok _ =>
      match t.screenHTTP host port false with
      | .error e => .error e
      | .ok _ => .ok ()

/-- What is dialed for a target, and the name it replaces. -/
abbrev Screen := Str → Int → ScreenMode → Except ScreenError (Str × Str)

/-- The screen of one route. -/
def screenerFor (t : InfraTargets net) (cache : PinCache net) (r : Route) : Screen :=
  fun host port mode =>
    let host := trimSpace host
    let mode := if nodeResolves r then .literal else mode
    if host = [] then .ok (host, [])
    else if mode = .literal || (net.parseIP host).isSome then
      match screenEmitted t host port with
      | .error e => .error e
      | .ok _ => .ok (host, [])
    else
      match t.pin cache host port with
      | .error e => .error e
      | .ok addr =>
        -- the deny set allows private ranges, a wildcard origin has to be public
        match if r.externalWildcard then validateOutboundHost net addr else .ok () with
        | .error e => .error e
        | .ok _ => if mode = .screen || addr = host then .ok (host, []) else .ok (addr, host)

/-! ### One route -/

inductive Part where
  | ssoProvider
  | primaryBackend
  | upstream
  | locationRule
  deriving DecidableEq

/-- `httpDrop`: a target that is not emitted. -/
structure HttpDrop where
  route : Route
  part : Part
  cause : ScreenError

def screenSSO (screen : Screen) (r : Route) : Except ScreenError Route :=
  match ssoDialTarget r with
  | none => if trimSpace r.ssoProviderURL = [] then .ok r else .error .noDialTarget
  | some (host, port) =>
    match screen host port .pin with
    | .error e => .error e
    | .ok (addr, sni) => .ok (if sni ≠ [] then { r with ssoResolver := addr } else r)

/-- Each name is the one before it, up to case. -/
def sameNames : Str → List Str → Bool
  | _, [] => true
  | name, h :: hs => (name = [] || Text.toLower name = Text.toLower h) && sameNames h hs

/-- One server name fits one transport, so an https pool over several names keeps them. -/
def poolPinnable (net : NetLib) (r : Route) : Bool :=
  r.upstreamScheme ≠ "https" ||
    sameNames [] ((r.upstreams.map fun u => trimSpace u.host).filter fun h =>
      h ≠ [] && (net.parseIP h).isNone)

/-- A pool takes the place of the single backend. -/
def poolActive (r : Route) : Bool :=
  !r.external && 0 < r.upstreams.length

def primaryMode (r : Route) : ScreenMode :=
  if poolActive r then .literal else .pin

def poolMode (net : NetLib) (r : Route) : ScreenMode :=
  if poolPinnable net r then .pin else .screen

/-- The members that pass, the last name that was pinned, and the drops. -/
def screenPool (screen : Screen) (r : Route) (mode : ScreenMode) :
    List Upstream → List Upstream × Str × List HttpDrop
  | [] => ([], [], [])
  | u :: us =>
    let rest := screenPool screen r mode us
    match screen u.host u.port mode with
    | .error e => (rest.1, rest.2.1, ⟨r, .upstream, e⟩ :: rest.2.2)
    | .ok (addr, sni) =>
      ({ u with host := addr } :: rest.1, if rest.2.1 ≠ [] then rest.2.1 else sni, rest.2.2)

def screenRules (screen : Screen) (r : Route) :
    List LocationRule → List LocationRule × List HttpDrop
  | [] => ([], [])
  | rule :: rules =>
    let rest := screenRules screen r rules
    if rule.action = .proxy then
      match screen rule.upstreamHost rule.upstreamPort .pin with
      | .error e => (rest.1, ⟨r, .locationRule, e⟩ :: rest.2)
      | .ok (addr, sni) =>
        ({ rule with upstreamHost := addr, pinnedSNI := sni } :: rest.1, rest.2)
    else (rule :: rest.1, rest.2)

/-- The primary as it is dialed; a resolver is dropped where the panel picked the address. -/
def withPrimary (net : NetLib) (r : Route) (addr sni : Str) : Route :=
  let r := { r with upstreamIP := addr, pinnedSNI := sni }
  if !nodeResolves r && (net.parseIP addr).isSome then
    { r with backendResolver := [], dnsResolverIP := [], dnsResolverViaWGPeerIP := [] }
  else r

/-- The members that pass; a pinned member gives the pool its server name. -/
def withPool (r : Route) (ups : List Upstream) (poolSNI : Str) : Route :=
  let pinnedSNI := if poolActive r && poolSNI ≠ [] then poolSNI else r.pinnedSNI
  { r with upstreams := ups, pinnedSNI := pinnedSNI }

/-- The route with its screened targets. -/
def screenTargets (net : NetLib) (screen : Screen) (r : Route) (addr sni : Str) :
    Route × List HttpDrop :=
  let r := withPrimary net r addr sni
  let pool := screenPool screen r (poolMode net r) r.upstreams
  let r := withPool r pool.1 pool.2.1
  let rules := screenRules screen r r.locationRules
  ({ r with locationRules := rules.1 }, pool.2.2 ++ rules.2)

/-- The route as it is compiled; none when its SSO provider or its primary is refused. -/
def screenRoute (t : InfraTargets net) (cache : PinCache net) (r : Route) :
    Option Route × List HttpDrop :=
  let screen := screenerFor t cache r
  match screenSSO screen r with
  | .error e => (none, [⟨r, .ssoProvider, e⟩])
  | .ok r =>
    -- a redirect route still has the SSO subroutes
    if r.kind = .redirect then (some r, [])
    else
      match screen r.upstreamIP r.upstreamPort (primaryMode r) with
      | .error e => (none, [⟨r, .primaryBackend, e⟩])
      | .ok (addr, sni) =>
        let screened := screenTargets net screen r addr sni
        (some screened.1, screened.2)

/-- The emitted routes, their ids and the drops. -/
def screenHTTPSet (t : InfraTargets net) (cache : PinCache net) :
    List Route → List Int → List Route × List Int × List HttpDrop
  | [], _ => ([], [], [])
  | r :: built, ids =>
    let rest := screenHTTPSet t cache built ids.tail
    match screenRoute t cache r with
    | (some r', drops) => (r' :: rest.1, ids.headD 0 :: rest.2.1, drops ++ rest.2.2)
    | (none, drops) => (rest.1, rest.2.1, drops ++ rest.2.2)

variable {r' r s : Route} {screen : Screen}

lemma mem_screenHTTPSet {t : InfraTargets net} {cache : PinCache net} {built : List Route}
    {ids : List Int} (h : r' ∈ (screenHTTPSet t cache built ids).1) :
    ∃ r ∈ built, (screenRoute t cache r).1 = some r' := by
  induction built generalizing ids with
  | nil => cases h
  | cons r built ih =>
    rw [screenHTTPSet] at h
    split at h
    · rename_i q drops hq
      rcases mem_cons.mp h with rfl | h
      · exact ⟨r, mem_cons_self, by rw [hq]⟩
      · obtain ⟨r₀, hmem, hscreen⟩ := ih h
        exact ⟨r₀, mem_cons_of_mem _ hmem, hscreen⟩
    · obtain ⟨r₀, hmem, hscreen⟩ := ih h
      exact ⟨r₀, mem_cons_of_mem _ hmem, hscreen⟩

/-! ### What a screen lets through -/

/-- What a target without surrounding blanks can become. -/
inductive Passed (t : InfraTargets net) (cache : PinCache net) (host : Str) (port : Int) :
    ScreenMode → Str → Str → Prop
  | address {mode : ScreenMode} (haccepts : t.Accepts host port) :
      Passed t cache host port mode host []
  /-- a name that is not dialed -/
  | kept (hname : net.parseIP host = none) : Passed t cache host port .literal host []
  /-- a name that was resolved and stays a name -/
  | checked {addr : Str} (hpin : t.pin cache host port = .ok addr) (haccepts : t.Accepts addr port) :
      Passed t cache host port .screen host []
  | pinned {addr : Str} (haccepts : t.Accepts addr port) : Passed t cache host port .pin addr host

section

variable {t : InfraTargets net} {cache : PinCache net} {r : Route} {host addr sni : Str} {port : Int}
  {mode : ScreenMode}

lemma accepts_of_screenEmitted {a : net.Addr} (hne : trimSpace host ≠ [])
    (ha : net.parseIP (trimSpace host) = some a) (h : screenEmitted t host port = .ok ()) :
    t.Accepts (trimSpace host) port := by
  unfold screenEmitted at h
  rw [if_neg hne] at h
  split at h
  · cases h
  split at h
  · cases h
  · rename_i hscreen
    exact (accepts_of_parseIP hne ha hscreen).2

/-- The screen of a route that the node does not resolve. -/
lemma passed_of_screenerFor (hnode : nodeResolves r = false) (hne : trimSpace host ≠ [])
    (h : screenerFor t cache r host port mode = .ok (addr, sni)) :
    Passed t cache (trimSpace host) port mode addr sni := by
  have htrim := Text.trimSpace_trimSpace host
  unfold screenerFor at h
  simp only [hnode, Bool.false_eq_true, if_false, if_neg hne] at h
  cases hip : net.parseIP (trimSpace host) with
  | some a =>
    simp only [hip, Option.isSome_some, Bool.or_true, if_true] at h
    split at h
    · cases h
    rename_i hemitted
    cases h
    have haccepts := accepts_of_screenEmitted (by rwa [htrim]) (by rw [htrim]; exact hip) hemitted
    rw [htrim] at haccepts
    exact .address haccepts
  | none =>
    simp only [hip, Option.isSome_none, Bool.or_false, decide_eq_true_eq] at h
    split at h
    · rename_i hmode
      subst hmode
      split at h
      · cases h
      · cases h
        exact .kept hip
    split at h
    · cases h
    rename_i hliteral _ pinned hpin
    have haccepts := accepts_of_pin (by rwa [htrim]) (by rw [htrim]; exact hip) hpin
    split at h
    · cases h
    cases mode with
    | literal => exact absurd rfl hliteral
    | screen =>
      cases h
      exact .checked hpin haccepts
    | pin =>
      split at h
      · -- an address is not the name it was resolved from
        rename_i heq
        obtain ⟨a, ha, -⟩ := haccepts.literal
        simp only [reduceCtorEq, decide_false, Bool.false_or, decide_eq_true_eq] at heq
        rw [heq, hip] at ha
        cases ha
      · cases h
        exact .pinned haccepts

lemma accepts_of_passed_pin (h : Passed t cache host port .pin addr sni) : t.Accepts addr port := by
  rcases h with haccepts | _ | _ | haccepts <;> exact haccepts

lemma accepts_or_checked (h : Passed t cache host port .screen addr sni) :
    t.Accepts addr port ∨ (addr = host ∧ ∃ pinned, t.pin cache host port = .ok pinned ∧ t.Accepts pinned port) := by
  rcases h with haccepts | _ | ⟨hpin, haccepts⟩
  · exact .inl haccepts
  · exact .inr ⟨rfl, _, hpin, haccepts⟩

end

/-! ### The screened route -/

lemma mem_screenPool {mode : ScreenMode} {us : List Upstream}
    {u' : Upstream} (h : u' ∈ (screenPool screen r mode us).1) :
    ∃ u ∈ us, ∃ sni, screen u.host u.port mode = .ok (u'.host, sni) ∧ u'.port = u.port := by
  induction us with
  | nil => cases h
  | cons u us ih =>
    rw [screenPool] at h
    split at h
    · obtain ⟨v, hv, hscreen⟩ := ih h
      exact ⟨v, mem_cons_of_mem _ hv, hscreen⟩
    rename_i addr sni hscreen
    rcases mem_cons.mp h with rfl | h
    · exact ⟨u, mem_cons_self, sni, hscreen, rfl⟩
    · obtain ⟨v, hv, hscreen⟩ := ih h
      exact ⟨v, mem_cons_of_mem _ hv, hscreen⟩

lemma screenPool_ne_nil {mode : ScreenMode} {us : List Upstream}
    {u : Upstream} {out : Str × Str} (hu : u ∈ us) (h : screen u.host u.port mode = .ok out) :
    (screenPool screen r mode us).1 ≠ [] := by
  induction us with
  | nil => cases hu
  | cons v us ih =>
    rw [screenPool]
    split
    · rename_i e herror
      rcases mem_cons.mp hu with rfl | hu
      · rw [h] at herror
        cases herror
      · exact ih hu
    · exact cons_ne_nil _ _

lemma mem_screenRules {rules : List LocationRule} {rule' : LocationRule} (h : rule' ∈ (screenRules screen r rules).1)
    (haction : rule'.action = .proxy) :
    ∃ rule ∈ rules, ∃ sni, screen rule.upstreamHost rule.upstreamPort .pin =
      .ok (rule'.upstreamHost, sni) ∧ rule'.upstreamPort = rule.upstreamPort := by
  induction rules with
  | nil => cases h
  | cons rule rules ih =>
    -- the head is this rule, or the induction hypothesis applies
    suffices hhead : rule' ∈ (screenRules screen r rules).1 ∨ ∃ sni, screen rule.upstreamHost
        rule.upstreamPort .pin = .ok (rule'.upstreamHost, sni) ∧
          rule'.upstreamPort = rule.upstreamPort by
      rcases hhead with hrest | hscreen
      · obtain ⟨v, hv, hscreen⟩ := ih hrest
        exact ⟨v, mem_cons_of_mem _ hv, hscreen⟩
      · exact ⟨rule, mem_cons_self, hscreen⟩
    rw [screenRules] at h
    split at h
    · split at h
      · exact .inl h
      rename_i addr sni hscreen
      rcases mem_cons.mp h with rfl | h
      · exact .inr ⟨sni, hscreen, rfl⟩
      · exact .inl h
    · rename_i hother
      rcases mem_cons.mp h with rfl | h
      · exact absurd haction hother
      · exact .inl h

/-- What is read from a route does not depend on what the screen of its backends sets. -/
def Untouched {β : Type*} (f : Route → β) : Prop :=
  ∀ (q : Route) ip pinned backend dns peer ups rules, f { q with
        upstreamIP := ip, pinnedSNI := pinned, backendResolver := backend, dnsResolverIP := dns,
        dnsResolverViaWGPeerIP := peer, upstreams := ups, locationRules := rules } = f q

lemma screenTargets_frame {β : Type*} {f : Route → β} (hf : Untouched f) (screen : Screen)
    (r : Route) (addr sni : Str) : f (screenTargets net screen r addr sni).1 = f r := by
  have hprimary : f (withPrimary net r addr sni) = f r := by
    unfold withPrimary
    dsimp only
    split
    · exact hf r addr sni [] [] [] r.upstreams r.locationRules
    · exact hf r addr sni r.backendResolver r.dnsResolverIP r.dnsResolverViaWGPeerIP r.upstreams
        r.locationRules
  rw [← hprimary]
  exact hf (withPrimary net r addr sni) _ _ _ _ _ _ _

lemma poolMode_withPrimary (r : Route) (addr sni : Str) :
    poolMode net (withPrimary net r addr sni) = poolMode net r := by
  unfold withPrimary
  dsimp only
  split <;> rfl

section

variable {screen : Screen} {r : Route} {addr sni : Str}

lemma screenTargets_upstreams : (screenTargets net screen r addr sni).1.upstreams =
    (screenPool screen (withPrimary net r addr sni) (poolMode net r) r.upstreams).1 := by
  have hups : (withPrimary net r addr sni).upstreams = r.upstreams := by
    unfold withPrimary
    dsimp only
    split <;> rfl
  rw [← poolMode_withPrimary r addr sni, ← hups]
  rfl

lemma screenTargets_upstreamIP : (screenTargets net screen r addr sni).1.upstreamIP = addr := by
  simp only [screenTargets]
  unfold withPrimary
  dsimp only
  split <;> rfl

/-- The node is left no resolver where the panel picked the address or none was stored. -/
lemma screenTargets_resolvers (hnode : nodeResolves r = false)
    (h : (net.parseIP addr).isSome ∨ (r.backendResolver = [] ∧ dnsResolver r = [])) :
    (screenTargets net screen r addr sni).1.backendResolver = [] ∧
      dnsResolver (screenTargets net screen r addr sni).1 = [] := by
  simp only [screenTargets, withPool]
  unfold withPrimary
  dsimp only
  split
  · exact ⟨rfl, rfl⟩
  rename_i hname
  rcases h with h | h
  · refine absurd ?_ hname
    rw [h, Bool.and_true, Bool.not_eq_true']
    exact hnode
  · exact h

end

lemma screenRoute_eq_some {t : InfraTargets net} {cache : PinCache net} (h : (screenRoute t cache r).1 = some r') :
    ∃ s, screenSSO (screenerFor t cache r) r = .ok s ∧
      ((s.kind = .redirect ∧ r' = s) ∨ (s.kind = .proxy ∧ ∃ addr sni,
        screenerFor t cache r s.upstreamIP s.upstreamPort (primaryMode s) = .ok (addr, sni) ∧
          r' = (screenTargets net (screenerFor t cache r) s addr sni).1)) := by
  unfold screenRoute at h
  dsimp only at h
  split at h
  · cases h
  rename_i s hsso
  refine ⟨s, hsso, ?_⟩
  split at h
  · rename_i hkind
    cases h
    exact .inl ⟨hkind, rfl⟩
  rename_i hkind
  have hproxy : s.kind = .proxy := by
    cases hk : s.kind with
    | proxy => rfl
    | redirect => exact absurd hk hkind
  split at h
  · cases h
  rename_i addr sni hscreen
  cases h
  exact .inr ⟨hproxy, addr, sni, hscreen, rfl⟩

/-- The SSO screen sets at most the address of the provider. -/
lemma screenSSO_eq_ok (h : screenSSO screen r = .ok s) : s = r ∨ ∃ addr, s = { r with ssoResolver := addr } := by
  unfold screenSSO at h
  split at h
  · split at h
    · cases h
      exact .inl rfl
    · cases h
  split at h
  · cases h
  rename_i addr sni _
  split at h
  · cases h
    exact .inr ⟨addr, rfl⟩
  · cases h
    exact .inl rfl

/-! ### What an emitted route dials -/

/-- A target the node may dial: an accepted address, or a member's name of an https pool over
several names, which was resolved and whose addresses were all accepted. -/
inductive VettedDial (t : InfraTargets net) (cache : PinCache net) (r : Route) : Str → Prop
  | address {host : Str} {port : Int} (haccepts : t.Accepts host port) :
      VettedDial t cache r (dial host port)
  | poolName {u : Upstream} {addr : Str} (hmem : u ∈ r.upstreams)
      (hpool : poolPinnable net r = false)
      (hpin : t.pin cache (trimSpace u.host) u.port = .ok addr) (haccepts : t.Accepts addr u.port) :
      VettedDial t cache r (dial (trimSpace u.host) u.port)

/-- Everything the proxy dials is vetted, and nothing is left to a lookup of the node. -/
structure Vetted (t : InfraTargets net) (cache : PinCache net) (r : Route) (p : Caddy.Proxy) :
    Prop where
  static : p.dynamicUpstreams = none
  dials : ∀ u ∈ p.upstreams, VettedDial t cache r u.dial

/-- The stored backends are not blank, and the stored primary is only dialed where it is screened
as such: not by the maintenance bypass of a redirect route, and as a name behind a pool neither by
that bypass, nor through a resolver, nor in place of a pool whose members are all refused. -/
structure Dialable (t : InfraTargets net) (cache : PinCache net) (r : Route) : Prop where
  primaryHost : r.kind = .proxy → poolActive r = false → trimSpace r.upstreamIP ≠ []
  poolHosts : ∀ u ∈ r.upstreams, trimSpace u.host ≠ []
  redirect : r.kind = .redirect → r.maintenanceMode → r.maintenanceAllow = []
  behindPool : poolActive r → net.parseIP (trimSpace r.upstreamIP) = none →
    (r.backendResolver = [] ∧ dnsResolver r = []) ∧ (r.maintenanceMode → r.maintenanceAllow = []) ∧
      ∃ u ∈ r.upstreams, ∃ out, screenerFor t cache r u.host u.port (poolMode net r) = .ok out

/-- The URL of the SSO provider is not blank, and its host has no blanks around it. -/
structure DialableSSO (r : Route) : Prop where
  url : r.ssoProviderURL ≠ [] → trimSpace r.ssoProviderURL ≠ []
  host : ∀ h p, ssoDialTarget r = some (h, p) → trimSpace h = h

section

variable {t : InfraTargets net} {cache : PinCache net} {r r' : Route} {addr sni : Str}

lemma vettedDial_of_mem_pool {u' : Upstream} (hnode : nodeResolves r = false) (hr : Dialable t cache r)
    (h : u' ∈ (screenTargets net (screenerFor t cache r) r addr sni).1.upstreams) :
    VettedDial t cache r (dial u'.host u'.port) := by
  rw [screenTargets_upstreams] at h
  obtain ⟨u, hu, poolSNI, hscreen, hport⟩ := mem_screenPool h
  have hpassed := passed_of_screenerFor hnode (hr.poolHosts u hu) hscreen
  rw [hport]
  unfold poolMode at hpassed
  split at hpassed
  · exact .address (accepts_of_passed_pin hpassed)
  rename_i hpool
  rcases accepts_or_checked hpassed with haccepts | ⟨hhost, pinned, hpin, haccepts⟩
  · exact .address haccepts
  · rw [hhost]
    exact .poolName hu (Bool.not_eq_true _ ▸ hpool) hpin haccepts

/-- The primary is an accepted address, or a name behind a pool. -/
lemma primary_cases (hnode : nodeResolves r = false) (hr : Dialable t cache r) (hkind : r.kind = .proxy)
    (h : screenerFor t cache r r.upstreamIP r.upstreamPort (primaryMode r) = .ok (addr, sni)) :
    t.Accepts addr r.upstreamPort ∨ (poolActive r ∧ net.parseIP (trimSpace r.upstreamIP) = none) := by
  unfold primaryMode at h
  split at h
  · rename_i hactive
    cases hip : net.parseIP (trimSpace r.upstreamIP) with
    | none => exact .inr ⟨hactive, rfl⟩
    | some a =>
      left
      have hne : trimSpace r.upstreamIP ≠ [] := by
        intro hblank
        rw [hblank, net.parseIP_nil] at hip
        cases hip
      rcases passed_of_screenerFor hnode hne h with haccepts | hname
      · exact haccepts
      · rw [hip] at hname
        cases hname
  · rename_i hactive
    have hne := hr.primaryHost hkind (Bool.not_eq_true _ ▸ hactive)
    exact .inl (accepts_of_passed_pin (passed_of_screenerFor hnode hne h))

/-- The builder dials the members of the pool, and the single backend only without one. -/
lemma primaryDials_cases {hp : Helpers} {q : Route} (hbackend : q.backendResolver = []) (hdns : dnsResolver q = []) :
    (primaryDials hp q).2 = none ∧ ∀ u ∈ (primaryDials hp q).1,
      (∃ v ∈ q.upstreams, u.dial = dial v.host v.port) ∨
        (poolActive q = false ∧ u.dial = dial q.upstreamIP q.upstreamPort) := by
  unfold primaryDials
  rw [if_neg (by simp [hbackend]), if_neg (by simp [hdns])]
  split
  · refine ⟨rfl, fun u hu => ?_⟩
    obtain ⟨v, hv, rfl⟩ := mem_map.mp hu
    exact .inl ⟨v, hv, rfl⟩
  · rename_i hactive
    refine ⟨rfl, fun u hu => ?_⟩
    obtain rfl := mem_singleton.mp hu
    exact .inr ⟨Bool.not_eq_true _ ▸ hactive, rfl⟩

lemma vetted_primary {hp : Helpers} (hnode : nodeResolves r = false) (hr : Dialable t cache r) (hkind : r.kind = .proxy)
    (h : screenerFor t cache r r.upstreamIP r.upstreamPort (primaryMode r) = .ok (addr, sni)) :
    Vetted t cache r (Caddyapi.primaryProxy hp (screenTargets net (screenerFor t cache r) r addr sni).1) := by
  have hcases := primary_cases hnode hr hkind h
  have hresolvers : (net.parseIP addr).isSome ∨ (r.backendResolver = [] ∧ dnsResolver r = []) := by
    rcases hcases with haccepts | ⟨hactive, hname⟩
    · obtain ⟨a, ha, -⟩ := haccepts.literal
      exact .inl (by rw [ha]; rfl)
    · exact .inr (hr.behindPool hactive hname).1
  obtain ⟨hbackend, hdns⟩ :
      (screenTargets net (screenerFor t cache r) r addr sni).1.backendResolver = [] ∧
        dnsResolver (screenTargets net (screenerFor t cache r) r addr sni).1 = [] :=
    screenTargets_resolvers hnode hresolvers
  obtain ⟨hstatic, hdials⟩ := @primaryDials_cases hp _ hbackend hdns
  refine ⟨hstatic, fun u hu => ?_⟩
  rcases hdials u hu with ⟨v, hv, hdial⟩ | ⟨hinactive, hdial⟩
  · rw [hdial]
    exact vettedDial_of_mem_pool hnode hr hv
  rcases hcases with haccepts | ⟨hactive, hname⟩
  · rw [hdial, screenTargets_upstreamIP,
      @screenTargets_frame net _ Route.upstreamPort fun _ _ _ _ _ _ _ _ => rfl]
    exact .address haccepts
  -- a member passed, so the pool is still there
  obtain ⟨v, hv, out, hout⟩ := (hr.behindPool hactive hname).2.2
  have hne := screenPool_ne_nil (r := withPrimary net r addr sni) hv hout
  rw [← screenTargets_upstreams] at hne
  unfold poolActive at hactive hinactive
  rw [@screenTargets_frame net _ Route.external fun _ _ _ _ _ _ _ _ => rfl] at hinactive
  have hexternal : r.external = false := by simpa using (Bool.and_eq_true_iff.mp hactive).1
  simp [hexternal, hne] at hinactive

lemma vetted_maintenance (hnode : nodeResolves r = false) (hr : Dialable t cache r)
    (hkind : r.kind = .proxy) (hmode : r.maintenanceMode) (hallow : r.maintenanceAllow ≠ [])
    (h : screenerFor t cache r r.upstreamIP r.upstreamPort (primaryMode r) = .ok (addr, sni)) :
    Vetted t cache r (Caddyapi.maintenanceProxy (screenTargets net (screenerFor t cache r) r addr sni).1) := by
  refine ⟨rfl, fun u hu => ?_⟩
  obtain rfl := mem_singleton.mp hu
  rcases primary_cases hnode hr hkind h with haccepts | ⟨hactive, hname⟩
  · rw [screenTargets_upstreamIP,
      @screenTargets_frame net _ Route.upstreamPort fun _ _ _ _ _ _ _ _ => rfl]
    exact .address haccepts
  · exact absurd ((hr.behindPool hactive hname).2.1 hmode) hallow

lemma vetted_location {rule' : LocationRule} (hnode : nodeResolves r = false)
    (hrule : rule' ∈ (screenTargets net (screenerFor t cache r) r addr sni).1.locationRules)
    (haction : rule'.action = .proxy) (hhost : trimSpace rule'.upstreamHost ≠ []) :
    Vetted t cache r (Caddyapi.locationProxy rule') := by
  obtain ⟨rule, -, ruleSNI, hscreen, hport⟩ := mem_screenRules hrule haction
  have hne : trimSpace rule.upstreamHost ≠ [] := by
    -- a blank host would be emitted blank
    intro hblank
    unfold screenerFor at hscreen
    simp only [hblank, if_true, Except.ok.injEq, Prod.mk.injEq] at hscreen
    rw [← hscreen.1] at hhost
    exact hhost rfl
  refine ⟨rfl, fun u hu => ?_⟩
  obtain rfl := mem_singleton.mp hu
  rw [hport]
  exact .address (accepts_of_passed_pin (passed_of_screenerFor hnode hne hscreen))

/-- The resolver takes the place of the host and nothing else. -/
lemma ssoDialTarget_eq_some {h : Str} {p : Int} (hdial : ssoDialTarget r = some (h, p)) :
    h ≠ [] ∧ ∀ addr ≠ [], ssoDialTarget { r with ssoResolver := addr } = some (addr, p) := by
  unfold ssoDialTarget at hdial ⊢
  dsimp only
  split at hdial
  · cases hdial
  split at hdial
  · cases hdial
  split at hdial
  · cases hdial
  split at hdial
  · cases hdial
  split at hdial
  · cases hdial
  rename_i hurl _ _ _ _ hhost _ _ _ hrange
  cases hdial
  constructor
  · split
    · assumption
    · rintro rfl
      exact hhost rfl
  · intro addr haddr
    simp only [hurl, hhost, hrange, haddr, ne_eq, not_false_eq_true, if_true, if_false,
      Bool.false_eq_true]

lemma accepts_sso (hnode : nodeResolves r = false) (hsso : DialableSSO r)
    (hurl : r.ssoProviderURL ≠ []) (h : screenSSO (screenerFor t cache r) r = .ok r') :
    ∃ host port, ssoDialTarget r' = some (host, port) ∧ t.Accepts host port := by
  unfold screenSSO at h
  split at h
  · split at h
    · rename_i hblank
      exact absurd hblank (hsso.url hurl)
    · cases h
  rename_i host port hdial
  split at h
  · cases h
  rename_i addr sni hscreen
  have htrim := hsso.host host port hdial
  obtain ⟨hne, hresolver⟩ := ssoDialTarget_eq_some hdial
  have hpassed := passed_of_screenerFor hnode (by rwa [htrim]) hscreen
  rw [htrim] at hpassed
  cases h
  rcases hpassed with haccepts | _ | _ | haccepts
  · exact ⟨host, port, hdial, haccepts⟩
  · rw [if_pos hne]
    exact ⟨addr, port, hresolver addr haccepts.ne_nil, haccepts⟩

lemma vetted_sso {p : Caddy.Proxy} {host : Str} {port : Int}
    (hdial : ssoDialTarget r' = some (host, port)) (haccepts : t.Accepts host port)
    (hp : p ∈ ssoProxies r') : Vetted t cache r p := by
  have hbase : (ssoBase r').upstreams = [{ dial := dial host port }] := by
    unfold ssoBase
    rw [hdial]
    rfl
  have hups : p.upstreams = (ssoBase r').upstreams ∧ p.dynamicUpstreams = none := by
    simp only [ssoProxies, mem_cons, not_mem_nil, or_false] at hp
    rcases hp with rfl | rfl <;> exact ⟨rfl, rfl⟩
  refine ⟨hups.2, fun u hu => ?_⟩
  rw [hups.1, hbase] at hu
  obtain rfl := mem_singleton.mp hu
  exact .address haccepts

lemma Dialable.of_screenSSO {screen : Screen} (hr : Dialable t cache r)
    (h : screenSSO screen r = .ok r') : Dialable t cache r' := by
  rcases screenSSO_eq_ok h with rfl | ⟨addr, rfl⟩
  · exact hr
  · exact ⟨hr.primaryHost, hr.poolHosts, hr.redirect, hr.behindPool⟩

lemma vettedDial_of_screenSSO {screen : Screen} {dial : Str} (h : screenSSO screen r = .ok r')
    (hdial : VettedDial t cache r' dial) : VettedDial t cache r dial := by
  rcases screenSSO_eq_ok h with rfl | ⟨addr, rfl⟩
  · exact hdial
  rcases hdial with haccepts | ⟨hmem, hpool, hpin, haccepts⟩
  · exact .address haccepts
  · exact .poolName hmem hpool hpin haccepts

/-- Every proxy of a screened route but those to the panel. -/
lemma vetted_of_emits {hp : Helpers} {p : Caddy.Proxy} (hnode : nodeResolves r = false)
    (hr : Dialable t cache r) (hsso : DialableSSO r) (hscreen : (screenRoute t cache r).1 = some r')
    (hemits : Caddyapi.Emits hp r' p) : p ∈ Caddyapi.panelProxies hp r' ∨ Vetted t cache r p := by
  obtain ⟨s, hs, hout⟩ := screenRoute_eq_some hscreen
  have hsame : nodeResolves s = nodeResolves r ∧ s.ssoProviderURL = r.ssoProviderURL ∧
      screenerFor t cache s = screenerFor t cache r := by
    rcases screenSSO_eq_ok hs with rfl | ⟨addr, rfl⟩ <;> exact ⟨rfl, rfl, rfl⟩
  obtain ⟨hnode', hurl', hscreener⟩ := hsame
  rw [hnode] at hnode'
  have hr' := hr.of_screenSSO hs
  have hlift : Vetted t cache s p → Vetted t cache r p := fun hv =>
    ⟨hv.static, fun u hu => vettedDial_of_screenSSO hs (hv.dials u hu)⟩
  rcases hout with ⟨hkind, rfl⟩ | ⟨hkind, addr, sni, htarget, rfl⟩
  · -- a redirect route proxies to authentication servers only
    rcases hemits with hpanel | ⟨hurl, hmem⟩ | ⟨hmode, hallow⟩ | ⟨hproxy, -⟩ | ⟨hproxy, -, -, -⟩
    · exact .inl hpanel
    · rw [hurl'] at hurl
      obtain ⟨host, port, hdial, haccepts⟩ := accepts_sso hnode hsso hurl hs
      exact .inr (vetted_sso hdial haccepts hmem)
    · exact absurd (hr'.redirect hkind hmode) hallow
    · rw [hkind] at hproxy
      cases hproxy
    · rw [hkind] at hproxy
      cases hproxy
  · rw [← hscreener] at htarget hemits ⊢
    rcases hemits with hpanel | ⟨hurl, hmem⟩ | ⟨hmode, hallow⟩ | _ | ⟨-, hrule, haction, hhost⟩
    · exact .inl hpanel
    · rw [@screenTargets_frame net _ Route.ssoProviderURL fun _ _ _ _ _ _ _ _ => rfl, hurl'] at hurl
      obtain ⟨host, port, hdial, haccepts⟩ := accepts_sso hnode hsso hurl hs
      rw [← @screenTargets_frame net _ ssoDialTarget fun _ _ _ _ _ _ _ _ => rfl] at hdial
      exact .inr (vetted_sso hdial haccepts hmem)
    · rw [@screenTargets_frame net _ Route.maintenanceMode fun _ _ _ _ _ _ _ _ => rfl] at hmode
      rw [@screenTargets_frame net _ Route.maintenanceAllow fun _ _ _ _ _ _ _ _ => rfl] at hallow
      exact .inr (hlift (vetted_maintenance hnode' hr' hkind hmode hallow htarget))
    · exact .inr (hlift (vetted_primary hnode' hr' hkind htarget))
    · exact .inr (hlift (vetted_location hnode' hrule haction hhost))

/-- Whatever the resolver answers, a screened route dials nothing but accepted addresses and the
checked names of an https pool over several names. -/
theorem emitted_dials_vetted {hp : Helpers} {built : List Route} {ids : List Int} {p : Caddy.Proxy}
    (hbuilt : ∀ r ∈ built, nodeResolves r = false ∧ Dialable t cache r ∧ DialableSSO r)
    (hr' : r' ∈ (screenHTTPSet t cache built ids).1) (hp' : p ∈ (Caddyapi.buildRoute hp r').route.proxies) :
    p ∈ Caddyapi.panelProxies hp r' ∨ ∃ r ∈ built, (screenRoute t cache r).1 = some r' ∧ Vetted t cache r p := by
  obtain ⟨r, hmem, hscreen⟩ := mem_screenHTTPSet hr'
  obtain ⟨hnode, hdialable, hsso⟩ := hbuilt r hmem
  rcases vetted_of_emits hnode hdialable hsso hscreen (Caddyapi.emits_of_mem_proxies hp') with
    hpanel | hvetted
  · exact .inl hpanel
  · exact .inr ⟨r, hmem, hscreen, hvetted⟩

end

/-! ### Two origins -/

/-- A network of two addresses and two names. -/
def twoOrigins : NetLib where
  Addr := Bool
  parseIP := fun s =>
    if s = "10.0.0.5" then some false else if s = "10.0.0.6" then some true else none
  parseAddr := fun _ => none
  render := fun b => if b then "10.0.0.6" else "10.0.0.5"
  dangerous := fun _ => false
  isPublic := fun _ => false
  lookup := fun s =>
    if s = "a.example" then some [true, false]
    else if s = "b.example" then some [true] else none
  parseIP_render := by decide
  trimSpace_render := by decide
  parseIP_nil := by decide

def denyNone : InfraTargets twoOrigins where
  hosts := []
  addrs := fun _ => false

/-- A site that asks for a lookup by the node. -/
def namedSite : Route where
  id := "7"
  hosts := ["www.example"]
  upstreamIP := "a.example"
  upstreamPort := 8080
  backendResolver := "10.0.0.53"

/-- The same site with the lower of the two addresses and without the lookup. -/
def pinnedSite : Route :=
  { namedSite with
    upstreamIP := "10.0.0.5"
    pinnedSNI := "a.example"
    backendResolver := [] }

theorem emitted_dials_vetted_named : Caddyapi.primaryProxy Caddyapi.plainHelpers pinnedSite ∈
        Caddyapi.panelProxies Caddyapi.plainHelpers pinnedSite ∨
      ∃ r ∈ [namedSite], (screenRoute denyNone (fun _ _ => none) r).1 = some pinnedSite ∧
        Vetted denyNone (fun _ _ => none) r (Caddyapi.primaryProxy Caddyapi.plainHelpers pinnedSite) := by
  have hscreened : pinnedSite ∈ (screenHTTPSet denyNone (fun _ _ => none) [namedSite] []).1 :=
    mem_singleton.mpr rfl
  apply emitted_dials_vetted _ hscreened
  · decide
  intro r hr
  obtain rfl := mem_singleton.mp hr
  refine ⟨rfl, ⟨fun _ _ => by decide, nofun, nofun, nofun⟩, ⟨fun h => absurd rfl h, nofun⟩⟩

/-- Two names behind one transport. -/
def mirrorSite : Route :=
  { namedSite with
    upstreamIP := "10.0.0.5"
    upstreamScheme := "https"
    upstreams := [⟨"a.example", 443, 1, 0⟩, ⟨"b.example", 443, 1, 0⟩] }

lemma head_dial_of_accepts {host : Str} {port : Int} (h : denyNone.Accepts host port) :
    (dial host port).head? = some '1' := by
  obtain ⟨a, ha, -⟩ := h.literal
  simp only [twoOrigins] at ha
  split at ha
  · rename_i hhost
    rw [hhost]
    rfl
  · split at ha
    · rename_i hhost
      rw [hhost]
      rfl
    · cases ha

/-- The names of an https pool are resolved and checked but stay for the node to resolve: one
server name would not fit both. -/
theorem https_pool_keeps_names : nodeResolves mirrorSite = false ∧
      ∃ r' ∈ (screenHTTPSet denyNone (fun _ _ => none) [mirrorSite] []).1,
        ∃ p ∈ (Caddyapi.buildRoute Caddyapi.plainHelpers r').route.proxies,
          ∃ u ∈ p.upstreams, ∀ host port, u.dial = Caddyapi.dial host port → ¬ denyNone.Accepts host port := by
  refine ⟨rfl, _, mem_singleton.mpr rfl, _, mem_cons_self, _, mem_cons_self, ?_⟩
  intro host port hdial haccepts
  have hhead := head_dial_of_accepts haccepts
  rw [← hdial] at hhead
  exact absurd hhead (by decide)

end Routes.HttpScreen
