import CaddyPanel.Caddyapi.Gates
import CaddyPanel.Caddyapi.NodeConfig

/-!
# The shared cache (`apps.cache`)

The cache module wraps every route of a node once it is mounted, so `BuildNodeConfig` mounts it only
where a route asks for it. Whether one does is read off the fields of the routes; whether a `cache`
handler is emitted is decided by `BuildRoute`, which has more to say: a redirect, a page under
maintenance and a quarantined route are emitted without one.
-/

namespace Caddyapi

open List
open Text (Str)
open Caddy

variable (hp : Helpers) (r : Route)

/-! ### The parts of the chain -/

lemma hasCache_buildCacheHandlers : chainHasCache (buildCacheHandlers hp r) =
    (!routeAuthGated hp r && r.cacheModuleAvailable && r.cachePublic) := by
  unfold buildCacheHandlers
  cases routeAuthGated hp r with
  | true => rfl
  | false =>
    cases r.cacheModuleAvailable <;> cases r.cachePublic <;> cases routeAudienceRestricted r <;> rfl

/-- A `cache` handler is emitted for a public route without gates, on a node with the module. -/
@[simp] lemma hasCache_cacheHandlers : chainHasCache (cacheHandlers hp r) =
    (wantsCache hp r && r.cacheModuleAvailable && r.kind ≠ .redirect && !r.maintenanceMode) := by
  unfold cacheHandlers wantsCache
  split_ifs with hon hoff
  · simp only [Bool.and_eq_true, Bool.not_eq_true'] at hon
    obtain ⟨⟨henabled, hkind⟩, hmode⟩ := hon
    rw [hasCache_buildCacheHandlers, henabled, hmode]
    cases routeAuthGated hp r <;> cases r.cacheModuleAvailable <;> cases r.cachePublic <;> simp [hkind]
  · cases henabled : r.cacheEnabled with
    | false => simp [cacheControlHandler]
    | true =>
      rw [henabled, Bool.true_and] at hon
      simp only [Bool.and_assoc, hon, Bool.and_false]
      rfl
  · cases henabled : r.cacheEnabled with
    | false => simp
    | true =>
      rw [henabled, Bool.true_and] at hon
      simp only [Bool.and_assoc, hon, Bool.and_false]
      rfl

lemma hasCache_gates : chainHasCache (buildMTLSRBAC hp r) = false ∧
    chainHasCache (ssoHandlers r) = false ∧ chainHasCache (buildPortalForwardAuth r) = false := by
  refine ⟨?_, ?_, ?_⟩
  · unfold buildMTLSRBAC
    split_ifs <;> rfl
  · unfold ssoHandlers
    split_ifs
    · unfold ssoResponses ssoCopyHeaders
      dsimp only
      split_ifs <;> rfl
    · rfl
  · unfold buildPortalForwardAuth
    split_ifs <;> rfl

lemma hasCache_primary : (primary hp r).hasCache = false := by
  unfold primary
  split <;> rfl

@[simp] lemma hasCache_targetHandlers : chainHasCache (targetHandlers hp r) = false := by
  have hprimary := hasCache_primary hp r
  have hrewrites := (quiet_rewrites hp r).noCache
  unfold targetHandlers
  split
  · unfold buildLocationSubroute
    dsimp only
    split
    · simp [hprimary]
    simp only [chainHasCache, Handler.hasCache, routesHaveCache_append, routesHaveCache,
      Caddy.Route.hasCache, chainHasCache_append, hrewrites, hprimary, Bool.or_false]
    apply routesHaveCache_eq_false
    intro route hroute
    obtain ⟨rule, -, hbuild⟩ := mem_filterMap.mp hroute
    refine hasCache_location ?_ hbuild
    rintro h ⟨⟩
    exact hprimary
  · simp [hrewrites, hprimary]

/-- The blocks, limits and header operations in front of the cache. -/
def beforeCache : List Handler :=
  beforeBearer hp r ++ bearerGate r ++ (buildEarlyLocationSubroute r ++ rateLimitHandlers r)

def afterCache : List Handler :=
  encodeHandlers r ++ (customHandlerChain hp r ++ webSocketGate r) ++ buildMTLSRBAC hp r ++ ssoHandlers r ++
    buildPortalForwardAuth r ++ basicAuthHandlers r ++ targetHandlers hp r

lemma chain_eq : chain hp r = beforeCache hp r ++ (cacheHandlers hp r ++ afterCache hp r) := by
  simp only [chain, beforeBasicAuth, beforePortal, beforeRBAC, shapingHandlers_eq, beforeCache, afterCache,
    append_assoc]

lemma noCache_beforeCache : chainHasCache (beforeCache hp r) = false :=
  (((quiet_beforeBearer hp r).append (inert_bearerGate r).quiet).append
    ((inert_early r).append (inert_rateLimit r)).quiet).noCache

lemma noCache_afterCache : chainHasCache (afterCache hp r) = false := by
  obtain ⟨hrbac, hsso, hportal⟩ := hasCache_gates hp r
  rw [afterCache, chainHasCache_append, chainHasCache_append, chainHasCache_append, chainHasCache_append,
    chainHasCache_append, (quiet_afterCache hp r).noCache, hrbac, hsso, hportal, (quiet_basicAuth r).noCache,
    hasCache_targetHandlers]
  rfl

lemma hasCache_chain : chainHasCache (chain hp r) = chainHasCache (cacheHandlers hp r) := by
  rw [chain_eq, chainHasCache_append, chainHasCache_append, noCache_beforeCache, noCache_afterCache,
    Bool.or_false, Bool.false_or]

lemma hasCache_httpsWrap (inner : List Handler) : chainHasCache (httpsWrap r inner) = chainHasCache inner := by
  unfold httpsWrap
  split_ifs
  · simp [forceHTTPSWrap]
  · rfl

lemma hasCache_accessWrap (inner : List Handler) : chainHasCache (accessWrap r inner) = chainHasCache inner := by
  have haccess : routesHaveCache (accessRoutes r) = false := by
    apply routesHaveCache_eq_false
    intro g hg
    obtain ⟨sets, response, terminal, rfl⟩ := guard_accessRoutes hg
    rfl
  unfold accessWrap
  split_ifs
  · simp [haccess]
  · rfl

lemma hasCache_maintenanceHandlers : chainHasCache (maintenanceHandlers hp r) = false := by
  unfold maintenanceHandlers
  split_ifs <;> rfl

/-- The route proxies: it is no redirect, not under maintenance, and nothing withholds it. -/
def proxies : Bool :=
  !customHandlerQuarantine hp r && !tenantTemplateQuarantine hp r && !wafUnenforceable r &&
    r.kind ≠ .redirect && !r.maintenanceMode

/-- The other reasons to deny a misconfigured route are gates. -/
lemma routeAuthGated_of_misconfigured (h : misconfigured r) (hwaf : wafUnenforceable r = false) :
    routeAuthGated hp r := by
  simp only [misconfigured, hwaf, Bool.or_false, Bool.or_eq_true, Bool.and_eq_true] at h
  rcases h with (h | h) | h
  · simp [routeAuthGated, h]
  · simp [routeAuthGated, h]
  · simp [routeAuthGated, h.1]

/-- What `BuildRoute` decides about the `cache` handler. -/
theorem hasCache_buildRoute : (buildRoute hp r).route.hasCache =
    (wantsCache hp r && r.cacheModuleAvailable && proxies hp r) := by
  have hhandlers : (buildRoute hp r).route.hasCache = chainHasCache (routeHandlers hp r) := rfl
  rw [hhandlers, routeHandlers]
  split_ifs with hcustom htemplate hmisconfigured hmode
  · simp [proxies, hcustom]
  · simp [proxies, htemplate]
  · cases hwaf : wafUnenforceable r with
    | true => simp [proxies, hwaf]
    | false => simp [wantsCache, routeAuthGated_of_misconfigured hp r hmisconfigured hwaf]
  · rw [hasCache_httpsWrap, hasCache_maintenanceHandlers]
    simp [proxies, hmode]
  · have hwaf : wafUnenforceable r = false := by
      simp only [misconfigured, Bool.or_eq_true, not_or, Bool.not_eq_true] at hmisconfigured
      exact hmisconfigured.2
    rw [hasCache_httpsWrap, hasCache_accessWrap, hasCache_chain]
    simp [proxies, hcustom, htemplate, hwaf, Bool.and_assoc]

/-! ### What stands before the cache -/

/-- The handlers that check the caller. -/
def authGates : List Handler :=
  revokedCertGate r ++ bearerGate r ++ buildMTLSRBAC hp r ++ ssoHandlers r ++ buildPortalForwardAuth r ++
    basicAuthHandlers r

lemma authGates_eq_nil (h : routeAuthGated hp r = false) : authGates hp r = [] := by
  simp only [routeAuthGated, Bool.or_eq_false_iff, decide_eq_false_iff_not, ne_eq, not_not, Nat.not_lt,
    Nat.le_zero, length_eq_zero_iff] at h
  obtain ⟨⟨⟨⟨⟨⟨⟨⟨⟨hsso, huser⟩, husers⟩, hrules⟩, hportal⟩, hcert⟩, hsecret⟩, -⟩, -⟩, -⟩ := h
  have hrevoked : revokedCertGate r = [] := if_neg (by simp [hcert])
  have hbearer : bearerGate r = [] := if_neg (by simpa using hsecret)
  have hrbac : buildMTLSRBAC hp r = [] := if_pos (by simp [hrules])
  have hprovider : ssoHandlers r = [] := if_neg (by simp [hsso])
  have hverify : buildPortalForwardAuth r = [] := if_neg (by simp [hportal])
  have hbasic : basicAuthHandlers r = [] := if_pos (by simp [basicAuthAccounts, husers, huser])
  rw [authGates, hrevoked, hbearer, hrbac, hprovider, hverify, hbasic]
  rfl

/-- The blocks that a route enables for addresses and countries, the firewall, the rules that answer
early and the rate limit. -/
def blocks : List Handler :=
  buildCIDRBlock hp r ++ buildGeoBlock hp r ++ wafHandlers hp r ++ buildEarlyLocationSubroute r ++ rateLimitHandlers r

/-- The header operations in front of the cache of a route without gates. -/
lemma beforeCache_eq (h : authGates hp r = []) :
    beforeCache hp r = stripSubject :: (panelSelfHeaders r ++ blocks hp r) := by
  simp only [authGates, append_eq_nil_iff] at h
  obtain ⟨⟨⟨⟨⟨hrevoked, hbearer⟩, -⟩, -⟩, -⟩, -⟩ := h
  simp [beforeCache, beforeBearer, hrevoked, hbearer, blocks]

variable {hp r} {env : Env} {req req' : Request}

lemma inert_blocks : Inert (blocks hp r) :=
  ((((inert_cidrBlock hp r).append (inert_geoBlock hp r)).append (inert_waf hp r)).append (inert_early r)).append
    (inert_rateLimit r)

/-- A request that carries a cookie or an `Authorization` header. -/
def Credentialled (req : Request) : Prop :=
  HasHeader "Cookie" req ∨ HasHeader "Authorization" req

/-- Nothing in front of the cache takes the credentials away. -/
lemma credentialled_beforeCache (hgates : authGates hp r = []) (h : Credentialled req)
    (hserve : serveAll env (beforeCache hp r) req = .ok req') : Credentialled req' := by
  rw [beforeCache_eq hp r hgates] at hserve
  obtain ⟨stripped, hstrip, hserve⟩ := serveAll_cons_eq_ok.mp hserve
  obtain ⟨own, hself, hserve⟩ := serveAll_append_eq_ok.mp hserve
  rw [inert_blocks.serveAll_eq hserve]
  have hstripped : Credentialled stripped := by
    cases hstrip
    exact h.imp (fun h => h.apply (by decide +kernel) (by decide +kernel))
      fun h => h.apply (by decide +kernel) (by decide +kernel)
  unfold panelSelfHeaders at hself
  split_ifs at hself
  · cases hself
    exact hstripped.imp (fun h => h.apply (by decide +kernel) (by decide +kernel))
      fun h => h.apply (by decide +kernel) (by decide +kernel)
  · cases hself
    exact hstripped

/-- A star in a header matcher asks for the presence of the header. -/
def StarMatches (env : Env) : Prop :=
  ∀ values, values ≠ [] → env.headerMatches ["*"] values

lemma anySetHolds_credentialledMatch (hstar : StarMatches env) (h : Credentialled req) :
    anySetHolds env credentialledMatch req := by
  simp only [credentialledMatch, anySetHolds, setHolds, Bool.and_true, Bool.or_false, Bool.or_eq_true]
  exact h.imp (fun h => hstar _ h.values_ne_nil) fun h => hstar _ h.values_ne_nil

lemma cacheHandlers_ne_fromCache (hstar : StarMatches env) (h : Credentialled req) :
    serveAll env (cacheHandlers hp r) req ≠ .error .fromCache := by
  unfold cacheHandlers
  split_ifs
  · unfold buildCacheHandlers
    dsimp only
    split_ifs
    · exact serveAll_ne_fromCache rfl
    all_goals
      rw [serveAll_singleton, serve, serveRoutes, serveRoute]
      simp only [routeMatches, isEmpty_cons, anySetHolds, setHolds, Cond.holds,
        anySetHolds_credentialledMatch hstar h, serveRoutes_singleton]
      exact fun hserve => serveAll_ne_fromCache rfl (serveAll_of_serveRoute rfl hserve)
  · exact serveAll_ne_fromCache rfl
  · exact serveAll_ne_fromCache rfl

/-- A node whose cache holds an answer to every request. -/
def full (env : Env) : Env :=
  { env with cached := fun _ _ => true }

/-- The request reaches a cache: it is answered from a full one. -/
def ReachesCache (env : Env) (route : Caddy.Route) (req : Request) : Prop :=
  serveRoute (full env) route req = .error .fromCache

/-- What stands in front of the shared cache of a route, and who gets there. -/
structure SharedCache (hp : Helpers) (r : Route) : Prop where
  ungated : routeAuthGated hp r = false ∧ authGates hp r = []
  layout : routeHandlers hp r =
    httpsWrap r (accessWrap r (beforeCache hp r ++ (cacheHandlers hp r ++ afterCache hp r)))
  only : chainHasCache (beforeCache hp r) = false ∧ chainHasCache (afterCache hp r) = false
  behind : (blocks hp r).Sublist (beforeCache hp r)
  /-- The access list let the request pass, and so did every block. -/
  passed : ∀ env req, ReachesCache env (buildRoute hp r).route req →
    (∀ g ∈ accessRoutes r, serveRoute (full env) g req = .ok req) ∧
      ∃ rq, serveAll (full env) (beforeCache hp r) req = .ok rq
  anonymous : ∀ env req, StarMatches env → Credentialled req → ¬ ReachesCache env (buildRoute hp r).route req

/-- A request that is answered from the cache came through the access list and the whole of what
stands before the cache. -/
lemma exists_beforeCache (hlayout : routeHandlers hp r =
      httpsWrap r (accessWrap r (beforeCache hp r ++ (cacheHandlers hp r ++ afterCache hp r))))
    (h : serveRoute env (buildRoute hp r).route req = .error .fromCache) :
    (∀ g ∈ accessRoutes r, serveRoute env g req = .ok req) ∧
      ∃ rq, serveAll env (beforeCache hp r) req = .ok rq ∧
        serveAll env (cacheHandlers hp r) rq = .error .fromCache := by
  have hhandlers := serveAll_of_serveRoute rfl h
  rw [hlayout] at hhandlers
  obtain ⟨haccess, hchain⟩ := serveAll_of_accessWrap rfl (serveAll_of_httpsWrap rfl hhandlers)
  refine ⟨haccess, ?_⟩
  rw [serveAll_append] at hchain
  split at hchain
  · next rq hbefore =>
    refine ⟨rq, hbefore, ?_⟩
    rw [serveAll_append] at hchain
    split at hchain
    · exact absurd hchain (serveAll_ne_fromCache (noCache_afterCache hp r))
    · next hcache => rw [hcache, hchain]
  · next hbefore =>
    rw [hchain] at hbefore
    exact absurd hbefore (serveAll_ne_fromCache (noCache_beforeCache hp r))

/-- A cached route has no gate, its blocks stand before the cache, and no request with credentials
gets there. -/
theorem sharedCache_of_hasCache (h : (buildRoute hp r).route.hasCache) : SharedCache hp r := by
  have hdecided := hasCache_buildRoute hp r
  rw [h, eq_comm] at hdecided
  simp only [wantsCache, proxies, Bool.and_eq_true, Bool.not_eq_true'] at hdecided
  obtain ⟨⟨⟨-, hauth⟩, -⟩, ⟨⟨⟨hcustom, htemplate⟩, hwaf⟩, -⟩, hmode⟩ := hdecided
  have hmisconfigured : misconfigured r = false := by
    by_contra hmis
    rw [routeAuthGated_of_misconfigured hp r ((Bool.not_eq_false _).mp hmis) hwaf] at hauth
    cases hauth
  have hlayout : routeHandlers hp r =
      httpsWrap r (accessWrap r (beforeCache hp r ++ (cacheHandlers hp r ++ afterCache hp r))) := by
    simp only [routeHandlers, hcustom, htemplate, hmisconfigured, hmode, ← chain_eq]
    rfl
  have hgates := authGates_eq_nil hp r hauth
  refine ⟨⟨hauth, hgates⟩, hlayout, ⟨noCache_beforeCache hp r, noCache_afterCache hp r⟩, ?_, ?_, ?_⟩
  · rw [beforeCache_eq hp r hgates]
    exact (sublist_append_right _ _).cons _
  · intro env req hreach
    obtain ⟨haccess, rq, hbefore, -⟩ := exists_beforeCache hlayout hreach
    exact ⟨haccess, rq, hbefore⟩
  · intro env req hstar hcredentials hreach
    obtain ⟨-, rq, hbefore, hcache⟩ := exists_beforeCache hlayout hreach
    have hfull : StarMatches (full env) := hstar
    exact cacheHandlers_ne_fromCache hfull (credentialled_beforeCache hgates hcredentials hbefore) hcache

/-- A public cached site on a node with the module. -/
def openShop : Route where
  id := "1"
  hosts := ["shop.example"]
  cacheEnabled := true
  cachePublic := true
  cacheModuleAvailable := true

theorem sharedCache_openShop : (buildRoute plainHelpers openShop).route.hasCache ∧ SharedCache plainHelpers openShop :=
  ⟨by decide +kernel, sharedCache_of_hasCache (by decide +kernel)⟩

/-! ### The app and the handlers -/

variable (hp r)

lemma wantsCache_withModules (s : NodeSettings) : wantsCache hp (withModules s r) = wantsCache hp r :=
  rfl

lemma withWildcardHost_eq (zones : List Str) : ∃ hosts, withWildcardHost zones r = { r with hosts := hosts } := by
  unfold withWildcardHost
  split_ifs
  · exact ⟨r.hosts, rfl⟩
  · exact ⟨r.hosts, rfl⟩
  · exact ⟨_, rfl⟩

/-- A wildcard host does not change whether a route caches. -/
lemma caches_withWildcardHost (s : NodeSettings) :
    wantsCache hp (withWildcardHost s.zones r) = wantsCache hp r ∧
      proxies hp (withModules s (withWildcardHost s.zones r)) = proxies hp (withModules s r) := by
  obtain ⟨hosts, heq⟩ := withWildcardHost_eq r s.zones
  rw [heq]
  exact ⟨rfl, rfl⟩

lemma not_wantsCache_panelRoute {s : NodeSettings} {pr : Route} (h : panelRoute s = some pr) :
    wantsCache hp pr = false := by
  unfold panelRoute at h
  split_ifs at h
  cases h
  rfl

lemma hasCache_preludeRoutes (s : NodeSettings) : ∀ e ∈ preludeRoutes hp s, e.route.hasCache = false := by
  intro e he
  rcases mem_append.mp he with he | he
  · split at he
    · rename_i pr hpanel
      obtain rfl := mem_singleton.mp he
      rw [hasCache_buildRoute, wantsCache_withModules, not_wantsCache_panelRoute hp hpanel]
      rfl
    · cases he
  · split at he
    · split_ifs at he
      · obtain rfl := mem_singleton.mp he
        rfl
      · cases he
    · cases he

variable (idna : Idna) (caUsable : Str → Bool) (s : NodeSettings) (routes : List Route)

lemma mem_sorted {p : Route → Bool} (hp' : ∀ r, p (withWildcardHost s.zones r) = p r) :
    (∃ r ∈ sortRoutesForEmission idna hp (withWildcardHosts routes s.zones), p r) ↔ ∃ r ∈ routes, p r := by
  rw [withWildcardHosts_eq_map]
  simp only [mem_sortRoutesForEmission, mem_map]
  constructor
  · rintro ⟨_, ⟨r, hr, rfl⟩, hpr⟩
    exact ⟨r, hr, hp' r ▸ hpr⟩
  · rintro ⟨r, hr, hpr⟩
    exact ⟨_, ⟨r, hr, rfl⟩, (hp' r).trans hpr⟩

lemma cacheApp_iff : (buildNodeConfig idna hp caUsable s routes).cacheApp ↔
    s.cacheModuleAvailable ∧ ∃ r ∈ routes, wantsCache hp r := by
  have hpanel : (panelRoute s).any (wantsCache hp) = false := by
    cases h : panelRoute s with
    | none => rfl
    | some pr => exact not_wantsCache_panelRoute hp h
  simp only [buildNodeConfig, hpanel, Bool.false_or, Bool.and_eq_true, any_eq_true]
  rw [mem_sorted hp idna s routes fun r => (caches_withWildcardHost hp r s).1]

lemma hasCache_routes_iff :
    (∃ e ∈ (buildNodeConfig idna hp caUsable s routes).routes, e.route.hasCache) ↔
      s.cacheModuleAvailable ∧ ∃ r ∈ routes, (wantsCache hp r && proxies hp (withModules s r)) := by
  have hprelude := hasCache_preludeRoutes hp s
  have hsame : ∀ r : Route, (wantsCache hp (withWildcardHost s.zones r) &&
      proxies hp (withModules s (withWildcardHost s.zones r))) =
        (wantsCache hp r && proxies hp (withModules s r)) := by
    intro r
    rw [(caches_withWildcardHost hp r s).1, (caches_withWildcardHost hp r s).2]
  rw [← mem_sorted hp idna s routes hsame]
  have hbuild : ∀ r : Route, (buildRoute hp (withModules s r)).route.hasCache ↔
      s.cacheModuleAvailable ∧ (wantsCache hp r && proxies hp (withModules s r)) := by
    intro r
    rw [hasCache_buildRoute, Bool.and_assoc, Bool.and_left_comm, Bool.and_eq_true]
    rfl
  constructor
  · rintro ⟨e, he, hcache⟩
    rcases mem_append.mp he with he | he
    · rw [hprelude e he] at hcache
      cases hcache
    · obtain ⟨r, hr, rfl⟩ := mem_map.mp he
      obtain ⟨hmodule, hr'⟩ := (hbuild r).mp hcache
      exact ⟨hmodule, r, hr, hr'⟩
  · rintro ⟨hmodule, r, hr, hr'⟩
    exact ⟨_, mem_append_right _ (mem_map.mpr ⟨r, hr, rfl⟩), (hbuild r).mpr ⟨hmodule, hr'⟩⟩

/-- The cache app and the `cache` handlers go together exactly where, of the routes that ask for the
cache on a node with the module, one proxies. -/
theorem cacheApp_iff_hasCache : ((buildNodeConfig idna hp caUsable s routes).cacheApp ↔
      ∃ e ∈ (buildNodeConfig idna hp caUsable s routes).routes, e.route.hasCache) ↔
    (s.cacheModuleAvailable → (∃ r ∈ routes, wantsCache hp r) →
      ∃ r ∈ routes, wantsCache hp r ∧ proxies hp (withModules s r)) := by
  rw [cacheApp_iff, hasCache_routes_iff]
  simp only [Bool.and_eq_true]
  constructor
  · intro h hmodule hwants
    exact (h.mp ⟨hmodule, hwants⟩).2
  intro h
  constructor
  · rintro ⟨hmodule, hwants⟩
    exact ⟨hmodule, h hmodule hwants⟩
  · rintro ⟨hmodule, r, hr, hwants, -⟩
    exact ⟨hmodule, r, hr, hwants⟩

/-- The only public cached site of a node, under maintenance. -/
def closedShop : Route where
  id := "1"
  hosts := ["shop.example"]
  cacheEnabled := true
  cachePublic := true
  maintenanceMode := true

theorem cache_app_without_handler :
    (buildNodeConfig asciiIdna plainHelpers (fun _ => true) { cacheModuleAvailable := true }
      [closedShop]).cacheApp ∧
    ∀ e ∈ (buildNodeConfig asciiIdna plainHelpers (fun _ => true) { cacheModuleAvailable := true }
      [closedShop]).routes, e.route.hasCache = false := by
  decide +kernel

end Caddyapi
