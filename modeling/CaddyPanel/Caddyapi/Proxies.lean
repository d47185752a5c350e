import CaddyPanel.Caddy.Chains
import CaddyPanel.Caddyapi.BuildRoute

/-!
# The proxies of an emitted route

Of the many handlers of a chain few proxy anywhere. `Emits` lists the proxies that a route can be
emitted with and when each one is; `emits_of_mem_proxies` says that there is no other.
-/

namespace Caddyapi

open List
open Text (Str trimSpace)
open Caddy (Handler Proxy Quiet Inert chainProxies routesProxies responsesProxies chainProxies_append
  mem_routesProxies)

/-- The proxies to the panel itself. -/
def panelProxies (hp : Helpers) (r : Route) : List Proxy :=
  [rbacProxy hp r, passthroughProxy (portalBase r), portalVerifier r]

/-- The subrequest to the SSO provider. -/
def ssoVerifier (r : Route) : Proxy :=
  { verifyProxy (ssoBase r) with
    rewrite := some ("GET", "/outpost.goauthentik.io/auth/caddy") }

def ssoProxies (r : Route) : List Proxy :=
  [passthroughProxy (ssoBase r), ssoVerifier r]

inductive Emits (hp : Helpers) (r : Route) : Proxy → Prop
  | panel {p : Proxy} (hmem : p ∈ panelProxies hp r) : Emits hp r p
  | sso {p : Proxy} (hurl : r.ssoProviderURL ≠ []) (hmem : p ∈ ssoProxies r) : Emits hp r p
  | maintenance (hmode : r.maintenanceMode) (hallow : r.maintenanceAllow ≠ []) :
      Emits hp r (maintenanceProxy r)
  | primary (hkind : r.kind = .proxy) (hmode : r.maintenanceMode = false) :
      Emits hp r (primaryProxy hp r)
  | location {rule : LocationRule} (hkind : r.kind = .proxy) (hrule : rule ∈ r.locationRules)
      (haction : rule.action = .proxy) (hhost : trimSpace rule.upstreamHost ≠ []) :
      Emits hp r (locationProxy rule)

/-! ### The parts of the chain -/

lemma inert_bearerGate (r : Route) : Inert (bearerGate r) :=
  .ite .answer .nil

lemma inert_cidrBlock (hp : Helpers) (r : Route) : Inert (buildCIDRBlock hp r) :=
  .ite .nil .answer

lemma inert_geoBlock (hp : Helpers) (r : Route) : Inert (buildGeoBlock hp r) :=
  .ite .nil (.ite .nil (.ite (.ite .nil .answer) .answer))

lemma inert_waf (hp : Helpers) (r : Route) : Inert (wafHandlers hp r) :=
  .ite (.waf _) .nil

lemma quiet_beforeBearer (hp : Helpers) (r : Route) : Quiet (beforeBearer hp r) := by
  have hrevoked : Inert (revokedCertGate r) := .ite .answer .nil
  have hself : Quiet (panelSelfHeaders r) := .ite ⟨rfl, rfl⟩ ⟨rfl, rfl⟩
  have hstrip : Quiet [stripSubject] := ⟨rfl, rfl⟩
  exact ((((hstrip.append hrevoked.quiet).append hself).append (inert_cidrBlock hp r).quiet).append
    (inert_geoBlock hp r).quiet).append (inert_waf hp r).quiet

variable {route g : Caddy.Route} {p base : Proxy} {r : Route} {hp : Helpers}

/-- The handlers that a location rule is emitted with. -/
inductive LocationChain (rule : LocationRule) (target : Option Handler) : List Handler → Prop
  | answer {response : Caddy.StaticResponse} (hearly : rule.action.early) :
      LocationChain rule target [.staticResponse response]
  | rewrite {h : Handler} (haction : rule.action = .rewrite) (htarget : target = some h) :
      LocationChain rule target [.rewrite (.uri rule.rewriteURI), h]
  | proxy (haction : rule.action = .proxy) (hhost : trimSpace rule.upstreamHost ≠ []) :
      LocationChain rule target [.reverseProxy (locationProxy rule) []]

/-- A rule is emitted as one terminal route over its handlers. -/
lemma buildLocationRuleRoute_eq_some {rule : LocationRule} {target : Option Handler}
    (h : buildLocationRuleRoute rule target = some route) :
    ∃ hs, LocationChain rule target hs ∧ route = .mk [[.path (locationPathMatchers rule.path)]] hs true := by
  unfold buildLocationRuleRoute at h
  dsimp only at h
  split_ifs at h
  obtain ⟨hs, hhs, rfl⟩ := Option.map_eq_some_iff.mp h
  refine ⟨hs, ?_, rfl⟩
  unfold locationHandlers at hhs
  split at hhs
  · next haction =>
    cases hhs
    exact .answer (by rw [haction]; rfl)
  · next haction =>
    split at hhs
    · cases hhs
    · cases hhs
      exact .answer (by rw [haction]; rfl)
  · next haction =>
    split at hhs
    · cases hhs
    split_ifs at hhs
    cases hhs
    exact .rewrite haction rfl
  · next haction =>
    split_ifs at hhs with hhost
    cases hhs
    exact .proxy haction (by simp_all)

/-- A location rule leads to its own upstream or to the target it is given. -/
lemma mem_proxies_location {rule : LocationRule} {target : Option Handler}
    (hbuild : buildLocationRuleRoute rule target = some route) (h : p ∈ route.proxies) :
    (∃ primary, target = some primary ∧ rule.action = .rewrite ∧ p ∈ primary.proxies) ∨
      (rule.action = .proxy ∧ trimSpace rule.upstreamHost ≠ [] ∧ p = locationProxy rule) := by
  obtain ⟨hs, hhs, rfl⟩ := buildLocationRuleRoute_eq_some hbuild
  rw [Caddy.Route.proxies] at h
  cases hhs with
  | answer => cases h
  | rewrite haction htarget =>
    rw [chainProxies, chainProxies, chainProxies, append_nil] at h
    exact .inl ⟨_, htarget, haction, h⟩
  | proxy haction hhost => exact .inr ⟨haction, hhost, mem_singleton.mp h⟩

/-- A location rule caches only where its target does. -/
lemma hasCache_location {rule : LocationRule} {target : Option Handler} (htarget : ∀ h ∈ target, h.hasCache = false)
    (hbuild : buildLocationRuleRoute rule target = some route) : route.hasCache = false := by
  obtain ⟨hs, hhs, rfl⟩ := buildLocationRuleRoute_eq_some hbuild
  cases hhs with
  | answer | proxy => rfl
  | rewrite _ heq => simp [htarget _ heq]

/-- Rules that answer early have fixed answers. -/
lemma inert_early (r : Route) : Inert (buildEarlyLocationSubroute r) := by
  refine .ite .nil (.ite .nil (.guards fun g hg => ?_))
  obtain ⟨rule, hrule, hbuild⟩ := mem_filterMap.mp hg
  obtain ⟨hs, hhs, rfl⟩ := buildLocationRuleRoute_eq_some hbuild
  have hearly := (mem_filter.mp hrule).2
  cases hhs with
  | answer => exact ⟨_, _, _, rfl⟩
  | rewrite haction htarget => cases htarget
  | proxy haction => simp [haction, Action.early] at hearly

lemma inert_rateLimit (r : Route) : Inert (rateLimitHandlers r) :=
  .ite (.rateLimit _ _ _ _) .nil

lemma quiet_shaping (safe : List Shaping) : Quiet (safe.map Shaping.handler) := by
  induction safe with
  | nil => exact ⟨rfl, rfl⟩
  | cons sh safe ih =>
    have hhead : Quiet [sh.handler] := by
      cases sh <;> exact ⟨rfl, rfl⟩
    exact hhead.append ih

/-- Behind the cache. -/
lemma quiet_afterCache (hp : Helpers) (r : Route) :
    Quiet (encodeHandlers r ++ (customHandlerChain hp r ++ webSocketGate r)) := by
  have hencode : Quiet (encodeHandlers r) := .ite ⟨rfl, rfl⟩ ⟨rfl, rfl⟩
  have hcustom : Quiet (customHandlerChain hp r) := by
    unfold customHandlerChain
    split
    · split
      · exact quiet_shaping _
      · exact ⟨rfl, rfl⟩
    · exact ⟨rfl, rfl⟩
  have hsocket : Inert (webSocketGate r) := .ite .answer .nil
  exact hencode.append (hcustom.append hsocket.quiet)

lemma shapingHandlers_eq (hp : Helpers) (r : Route) : shapingHandlers hp r =
    (buildEarlyLocationSubroute r ++ rateLimitHandlers r) ++
      (cacheHandlers hp r ++ (encodeHandlers r ++ (customHandlerChain hp r ++ webSocketGate r))) := by
  simp [shapingHandlers]

lemma chainProxies_shapingHandlers (hp : Helpers) (r : Route) : chainProxies (shapingHandlers hp r) = [] := by
  have hcache : chainProxies (cacheHandlers hp r) = [] := by
    unfold cacheHandlers buildCacheHandlers
    dsimp only
    split_ifs <;> rfl
  rw [shapingHandlers_eq, chainProxies_append _ (cacheHandlers hp r ++ _),
    ((inert_early r).append (inert_rateLimit r)).quiet.proxies,
    chainProxies_append, hcache, (quiet_afterCache hp r).proxies]
  rfl

lemma mem_chainProxies_rbac (h : p ∈ chainProxies (buildMTLSRBAC hp r)) : p = rbacProxy hp r := by
  unfold buildMTLSRBAC at h
  split_ifs at h
  · cases h
  · have hmem : p ∈ [rbacProxy hp r] := h
    exact mem_singleton.mp hmem

/-- The two proxies of a forward-auth pair. -/
lemma chainProxies_pair {path checkURI : Str} {responses : List Caddy.Response}
    {sets : List (List Caddy.Cond)} (hresponses : responsesProxies responses = []) :
    chainProxies [passthrough path base, forwardAuthGate (verifyProxy base) responses checkURI sets] =
      [passthroughProxy base, { verifyProxy base with rewrite := some ("GET", checkURI) }] := by
  simp only [chainProxies, passthrough, forwardAuthGate, Handler.proxies, routesProxies,
    Caddy.Route.proxies, responsesProxies, hresponses, append_nil, cons_append,
    nil_append]

lemma responsesProxies_sso (r : Route) : responsesProxies (ssoResponses r) = [] := by
  unfold ssoResponses ssoCopyHeaders
  dsimp only
  split_ifs <;> rfl

lemma mem_chainProxies_sso (h : p ∈ chainProxies (ssoHandlers r)) : r.ssoProviderURL ≠ [] ∧ p ∈ ssoProxies r := by
  unfold ssoHandlers at h
  split_ifs at h with hurl
  · rw [chainProxies_pair (responsesProxies_sso r)] at h
    exact ⟨hurl, h⟩
  · cases h

lemma mem_chainProxies_portal (h : p ∈ chainProxies (buildPortalForwardAuth r)) :
    p ∈ [passthroughProxy (portalBase r), portalVerifier r] := by
  unfold buildPortalForwardAuth at h
  split_ifs at h
  · exact h
  · cases h

lemma quiet_basicAuth (r : Route) : Quiet (basicAuthHandlers r) :=
  .ite ⟨rfl, rfl⟩ ⟨rfl, rfl⟩

/-- Ahead of the basic auth gate only authentication servers are asked. -/
lemma mem_chainProxies_beforeBasicAuth (h : p ∈ chainProxies (beforeBasicAuth hp r)) :
    p ∈ panelProxies hp r ∨ (r.ssoProviderURL ≠ [] ∧ p ∈ ssoProxies r) := by
  simp only [beforeBasicAuth, beforePortal, beforeRBAC, chainProxies_append,
    (quiet_beforeBearer hp r).proxies, (inert_bearerGate r).quiet.proxies, chainProxies_shapingHandlers,
    nil_append, append_assoc, mem_append] at h
  rcases h with h | h | h
  · rw [mem_chainProxies_rbac h]
    exact .inl mem_cons_self
  · exact .inr (mem_chainProxies_sso h)
  · exact .inl (mem_cons_of_mem _ (mem_chainProxies_portal h))

/-! ### Wrappers -/

lemma mem_chainProxies_httpsWrap {inner : List Handler}
    (h : p ∈ chainProxies (httpsWrap r inner)) : p ∈ chainProxies inner := by
  unfold httpsWrap at h
  split_ifs at h
  · simpa [forceHTTPSWrap, chainProxies, Handler.proxies, routesProxies, Caddy.Route.proxies]
      using h
  · exact h

lemma guard_accessRoutes (h : g ∈ accessRoutes r) : Caddy.Guard g := by
  unfold accessRoutes at h
  rcases mem_append.mp h with h | h
  · split_ifs at h
    · exact ⟨_, _, _, mem_singleton.mp h⟩
    · cases h
  · split_ifs at h
    · exact ⟨_, _, _, mem_singleton.mp h⟩
    · exact ⟨_, _, _, mem_singleton.mp h⟩
    · cases h

lemma mem_chainProxies_accessWrap {inner : List Handler}
    (h : p ∈ chainProxies (accessWrap r inner)) : p ∈ chainProxies inner := by
  unfold accessWrap at h
  split_ifs at h
  · rw [chainProxies, Handler.proxies, chainProxies, append_nil, mem_routesProxies] at h
    obtain ⟨route, hroute, hp⟩ := h
    rcases mem_append.mp hroute with hroute | hroute
    · obtain ⟨sets, response, terminal, rfl⟩ := guard_accessRoutes hroute
      cases hp
    · obtain rfl := mem_singleton.mp hroute
      exact hp
  · exact h

/-! ### The target -/

lemma quiet_rewrites (hp : Helpers) (r : Route) : Quiet (pathRewriteHandlers hp r) :=
  .ite ⟨rfl, rfl⟩ (.ite ⟨rfl, rfl⟩ (.ite ⟨rfl, rfl⟩ ⟨rfl, rfl⟩))

lemma emits_of_mem_primary (hmode : r.maintenanceMode = false) (h : p ∈ (primary hp r).proxies) : Emits hp r p := by
  unfold primary at h
  split at h
  · cases h
  rename_i hkind
  obtain rfl : p = primaryProxy hp r := mem_singleton.mp h
  exact .primary hkind hmode

lemma emits_of_mem_target (hmode : r.maintenanceMode = false)
    (h : p ∈ chainProxies (targetHandlers hp r)) : Emits hp r p := by
  have hlast : ∀ {pre : List Handler}, chainProxies pre = [] →
      p ∈ chainProxies (pre ++ [primary hp r]) → Emits hp r p := by
    intro pre hpre hmem
    rw [chainProxies_append, hpre, chainProxies, chainProxies, append_nil] at hmem
    exact emits_of_mem_primary hmode hmem
  unfold targetHandlers at h
  split_ifs at h with hrules
  · have hkind : r.kind = .proxy := by
      cases hk : r.kind with
      | proxy => rfl
      | redirect => simp [hk] at hrules
    rw [chainProxies, chainProxies, append_nil] at h
    unfold buildLocationSubroute at h
    dsimp only at h
    split at h
    · exact emits_of_mem_primary hmode h
    rw [Handler.proxies, mem_routesProxies] at h
    obtain ⟨route, hroute, hmem⟩ := h
    rcases mem_append.mp hroute with hroute | hroute
    · obtain ⟨rule, hrule, hbuild⟩ := mem_filterMap.mp hroute
      rcases mem_proxies_location hbuild hmem with ⟨_, heq, -, hp'⟩ | ⟨haction, hhost, rfl⟩
      · cases heq
        exact emits_of_mem_primary hmode hp'
      · exact .location hkind (mem_filter.mp hrule).1 haction hhost
    · obtain rfl := mem_singleton.mp hroute
      exact hlast (quiet_rewrites hp r).proxies hmem
  · exact hlast (quiet_rewrites hp r).proxies h

/-- A route is emitted with no other proxy. -/
theorem emits_of_mem_proxies (h : p ∈ (buildRoute hp r).route.proxies) : Emits hp r p := by
  have hhandlers : p ∈ chainProxies (routeHandlers hp r) := h
  unfold routeHandlers at hhandlers
  split at hhandlers
  · cases hhandlers
  split at hhandlers
  · cases hhandlers
  split at hhandlers
  · cases hhandlers
  split at hhandlers
  · rename_i hmode
    have hpage := mem_chainProxies_httpsWrap hhandlers
    unfold maintenanceHandlers at hpage
    split at hpage
    · rename_i hallow
      have hmem : p ∈ [maintenanceProxy r] := hpage
      obtain rfl := mem_singleton.mp hmem
      exact .maintenance hmode (ne_nil_of_length_pos hallow)
    · cases hpage
  · rename_i hmode
    rw [Bool.not_eq_true] at hmode
    have hchain := mem_chainProxies_accessWrap (mem_chainProxies_httpsWrap hhandlers)
    rw [chain, chainProxies_append, chainProxies_append, (quiet_basicAuth r).proxies, append_nil,
      mem_append] at hchain
    rcases hchain with hauth | htarget
    · rcases mem_chainProxies_beforeBasicAuth hauth with hpanel | ⟨hurl, hsso⟩
      · exact .panel hpanel
      · exact .sso hurl hsso
    · exact emits_of_mem_target hmode htarget

end Caddyapi
