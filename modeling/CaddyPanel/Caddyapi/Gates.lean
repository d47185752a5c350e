import CaddyPanel.Caddyapi.Proxies

/-!
# Every path to the backend passes the gates

The chain of a route is cut at its gates. A request that a proxy of the backend serves got past
each part before it, because the proxies that stand there are those of authentication servers.
-/

namespace Caddyapi

open List
open Text (Str)
open Caddy (Env Handler Proxy Request serve serveAll serveRoute serveRoutes chainProxies routeMatches
  serveAll_singleton serveRoutes_singleton)

/-! ### Proxies of the backend -/

/-- Every proxy that the builder points at the route's own backends. -/
def backendProxies (hp : Helpers) (r : Route) : List Proxy :=
  primaryProxy hp r :: maintenanceProxy r :: r.locationRules.map locationProxy

/-- A proxy to an authentication server sets the headers of the subrequest and never streams. -/
def AuthProxy (p : Proxy) : Prop :=
  p.flushInterval = none ∧ p.setHeaders ≠ []

variable {r : Route} {p base : Proxy} {hp : Helpers} {hs inner : List Handler} {req req' mid rq rq' served : Request}
  {env : Env} {o : Caddy.Outcome}

lemma not_authProxy_of_mem_backendProxies (h : p ∈ backendProxies hp r) : ¬ AuthProxy p := by
  rintro ⟨hflush, hset⟩
  simp only [backendProxies, mem_cons, mem_map] at h
  rcases h with rfl | rfl | ⟨rule, -, rfl⟩
  · exact absurd hflush (Option.some_ne_none _)
  · exact hset rfl
  · exact absurd hflush (Option.some_ne_none _)

/-- No proxy of the backend stands in the chain. -/
def OnlyAuth (hs : List Handler) : Prop :=
  ∀ p ∈ chainProxies hs, AuthProxy p

lemma onlyAuth_of_eq_nil (h : chainProxies hs = []) : OnlyAuth hs := by
  intro p hp
  simp [h] at hp

lemma authProxy_of_mem_panelProxies (h : p ∈ panelProxies hp r) : AuthProxy p := by
  simp only [panelProxies, mem_cons, not_mem_nil, or_false] at h
  rcases h with rfl | rfl | rfl <;> exact ⟨rfl, cons_ne_nil _ _⟩

lemma authProxy_of_mem_ssoProxies (h : p ∈ ssoProxies r) : AuthProxy p := by
  simp only [ssoProxies, mem_cons, not_mem_nil, or_false] at h
  rcases h with rfl | rfl <;> exact ⟨rfl, cons_ne_nil _ _⟩

lemma onlyAuth_beforeBasicAuth (hp : Helpers) (r : Route) : OnlyAuth (beforeBasicAuth hp r) := by
  intro p hmem
  rcases mem_chainProxies_beforeBasicAuth hmem with hpanel | ⟨-, hsso⟩
  · exact authProxy_of_mem_panelProxies hpanel
  · exact authProxy_of_mem_ssoProxies hsso

/-! ### Wrappers -/

lemma serveAll_of_httpsWrap (ho : o.live) (h : serveAll env (httpsWrap r inner) req = .error o) :
    serveAll env inner req = .error o := by
  unfold httpsWrap at h
  split_ifs at h
  · unfold forceHTTPSWrap at h
    rw [serveAll_singleton] at h
    have hinner := (@Caddy.serveRoutes_of_guards _ _ _ [_] _ (fun g hg => ⟨_, _, _, mem_singleton.mp hg⟩) ho h).2
    rw [serveRoutes_singleton] at hinner
    exact Caddy.serveAll_of_serveRoute ho hinner
  · exact h

/-- The access list does not match a request that gets behind it. -/
lemma serveAll_of_accessWrap (ho : o.live) (h : serveAll env (accessWrap r inner) req = .error o) :
    (∀ g ∈ accessRoutes r, serveRoute env g req = .ok req) ∧ serveAll env inner req = .error o := by
  unfold accessWrap at h
  split_ifs at h with hlist
  · rw [serveAll_singleton] at h
    obtain ⟨hguards, hinner⟩ := Caddy.serveRoutes_of_guards (fun g hg => guard_accessRoutes hg) ho h
    rw [serveRoutes_singleton] at hinner
    exact ⟨hguards, Caddy.serveAll_of_serveRoute ho hinner⟩
  · simp only [Bool.or_eq_true, not_or, Bool.not_eq_true, decide_eq_false_iff_not] at hlist
    exact ⟨by simp [accessRoutes, hlist], h⟩

/-! ### The gates -/

/-- The request with the verified subject, as the path rules' check sees it. -/
def withSubject (env : Env) (req : Request) : Request :=
  Caddy.HeaderOps.apply env { set := [(subjectHeader, [certSubject])] } req

/-- A safe request to a path that the operator declared public. -/
def PublicRequest (env : Env) (r : Route) (req : Request) : Prop :=
  r.portalPublicPaths ≠ [] ∧ req.method ∈ safeMethods ∧ env.pathMatches r.portalPublicPaths req.path

/-- `req` got past every gate that the route enables before `served` went to the backend. Each gate
judges the request as the handlers in front of it left it. -/
structure PassedGates (env : Env) (hp : Helpers) (r : Route) (req served : Request) : Prop where
  subject : Caddy.NoneFromClient subjectHeader served
  bearer : r.external → r.proxySecret ≠ [] →
    ∃ rq, serveAll env (beforeBearer hp r) req = .ok rq ∧ (bearerCond r).holds env rq
  pathRules : r.mtlsPathRules ≠ [] → r.panelBaseURL ≠ [] → ∃ rq, serveAll env (beforeRBAC hp r) req = .ok rq ∧
      env.status (rbacProxy hp r) (withSubject env rq) / 100 = 2
  portal : r.portalProtect → ∃ rq, serveAll env (beforePortal hp r) req = .ok rq ∧
      (env.status (portalVerifier r) rq / 100 = 2 ∨ PublicRequest env r rq)
  basicAuth : basicAuthAccounts r ≠ [] → ∃ rq, serveAll env (beforeBasicAuth hp r) req = .ok rq ∧
      env.authenticates (basicAuthAccounts r) rq

lemma noneFromClient_stripSubject
    (h : serve env stripSubject req = .ok mid) : Caddy.NoneFromClient subjectHeader mid := by
  cases h
  intro hd hmem hname
  have hdeletes : Caddy.deletes subjectHeader hd.name := by
    have hlower : Text.toLower subjectHeader = "x-mtls-subject" := rfl
    have hsame : Text.toLower hd.name = "x-mtls-subject" := by
      simpa only [Caddy.sameName, decide_eq_true_eq, hlower] using hname
    simp only [Caddy.deletes, hsame]
    decide
  have hkept := (mem_filter.mp hmem).2
  rw [hdeletes] at hkept
  cases hkept

lemma bearer_of_ok (hexternal : r.external)
    (hsecret : r.proxySecret ≠ []) (h : serveAll env (bearerGate r) rq = .ok rq') : (bearerCond r).holds env rq := by
  have hgate : (r.external && decide (r.proxySecret ≠ [])) := by simp [hexternal, hsecret]
  unfold bearerGate at h
  rw [if_pos hgate, serveAll_singleton, serve, serveRoutes_singleton] at h
  have hmatch := (Caddy.serveRoute_static_eq_ok.mp h).1
  simpa [routeMatches, Caddy.anySetHolds, Caddy.setHolds, Caddy.Cond.holds] using hmatch

lemma pathRules_of_ok (hrules : r.mtlsPathRules ≠ []) (hpanel : r.panelBaseURL ≠ [])
    (h : serveAll env (buildMTLSRBAC hp r) rq = .ok rq') :
    env.status (rbacProxy hp r) (withSubject env rq) / 100 = 2 := by
  have hgate : ¬ ((decide (r.mtlsPathRules.length = 0) || decide (r.panelBaseURL = []))) := by
    simp [hrules, hpanel]
  unfold buildMTLSRBAC at h
  rw [if_neg hgate, serveAll_singleton, serve, serveRoutes_singleton,
    serveRoute, if_pos (Caddy.routeMatches_nil env rq)] at h
  simp only [serveAll, serve, rbacResponses, Caddy.serveResponse, Option.all_some,
    decide_eq_true_eq] at h
  by_contra hstatus
  unfold withSubject at hstatus
  rw [if_neg (Ne.symm hstatus)] at h
  simp [Caddy.serveRoutes, serveRoute, serveAll, serve] at h

/-- A request that a passthrough does not take goes on unchanged. -/
lemma eq_of_passthrough {path : Str} (h : serve env (passthrough path base) rq = .ok rq') : rq' = rq := by
  unfold passthrough at h
  rw [serve, serveRoutes_singleton, serveRoute] at h
  split at h
  · simp [serveAll, serve, Caddy.serveResponse] at h
  · cases h
    rfl

lemma publicRequest_of_not_match (h : routeMatches env (portalMatch r) rq = false) : PublicRequest env r rq := by
  unfold portalMatch at h
  split at h
  · cases h
  rename_i hpaths
  simp only [routeMatches, Caddy.anySetHolds, Caddy.setHolds, Caddy.Cond.holds,
    isEmpty_cons, Bool.false_or, Bool.or_false, Bool.and_true,
    Bool.or_eq_false_iff, Bool.and_eq_false_iff, Bool.not_eq_false'] at h
  obtain ⟨hfirst, hsafe⟩ := h
  have hmethod : safeMethods.contains rq.method := by simpa using hsafe
  refine ⟨hpaths, contains_iff_mem.mp hmethod, ?_⟩
  rcases hfirst with hfirst | hfirst
  · rw [hmethod] at hfirst
    cases hfirst
  · simpa using hfirst

lemma portal_of_ok (hprotect : r.portalProtect)
    (hdial : r.portalDial ≠ []) (h : serveAll env (buildPortalForwardAuth r) rq = .ok rq') :
    env.status (portalVerifier r) rq / 100 = 2 ∨ PublicRequest env r rq := by
  have hgate : (r.portalProtect && decide (r.portalDial ≠ [])) := by simp [hprotect, hdial]
  unfold buildPortalForwardAuth at h
  rw [if_pos hgate, Caddy.serveAll_cons_eq_ok] at h
  obtain ⟨mid, hpass, h⟩ := h
  rw [eq_of_passthrough hpass, serveAll_singleton, forwardAuthGate, serve,
    serveRoutes_singleton, serveRoute] at h
  split at h
  · left
    simp only [serveAll, serve, Caddy.serveResponse, Option.all_some, decide_eq_true_eq] at h
    by_contra hstatus
    have hne : ¬ 2 = env.status (portalVerifier r) rq / 100 := Ne.symm hstatus
    unfold portalVerifier at hne
    rw [if_neg hne] at h
    cases h
  · rename_i hmatch
    rw [Bool.not_eq_true] at hmatch
    exact .inr (publicRequest_of_not_match hmatch)

lemma basicAuth_of_ok (haccounts : basicAuthAccounts r ≠ []) (h : serveAll env (basicAuthHandlers r) rq = .ok rq') :
    env.authenticates (basicAuthAccounts r) rq := by
  unfold basicAuthHandlers at h
  rw [if_neg haccounts, serveAll_singleton, serve] at h
  split at h
  · assumption
  · cases h

/-! ### Every path -/

/-- What a proxy of the backend serves, the chain serves: every other answer of the route is
fixed. -/
lemma serveAll_chain (hmaintenance : r.maintenanceMode → r.maintenanceAllow = [])
    (h : serveRoute env (buildRoute hp r).route req = .error (.proxied p served)) :
    misconfigured r = false ∧ serveAll env (chain hp r) req = .error (.proxied p served) := by
  have hhandlers : serveAll env (routeHandlers hp r) req = .error (.proxied p served) :=
    Caddy.serveAll_of_serveRoute rfl h
  unfold routeHandlers at hhandlers
  split at hhandlers
  · cases hhandlers
  split at hhandlers
  · cases hhandlers
  split at hhandlers
  · cases hhandlers
  rename_i hmisconfigured
  split at hhandlers
  · rename_i hmode
    have hpage := serveAll_of_httpsWrap rfl hhandlers
    unfold maintenanceHandlers at hpage
    rw [hmaintenance hmode] at hpage
    cases hpage
  · exact ⟨Bool.not_eq_true _ ▸ hmisconfigured,
      (serveAll_of_accessWrap rfl (serveAll_of_httpsWrap rfl hhandlers)).2⟩

/-- The removal comes first, and nothing behind it brings the client's header back. -/
lemma noneFromClient_chain (h : serveAll env (chain hp r) req = .error (.proxied p served)) :
    Caddy.NoneFromClient subjectHeader served := by
  obtain ⟨rest, hrest⟩ : ∃ rest, chain hp r = stripSubject :: rest := ⟨_, rfl⟩
  rw [hrest, serveAll] at h
  cases hstrip : serve env stripSubject req with
  | ok mid =>
    rw [hstrip] at h
    have hkeeps := (Caddy.passes_serveAll (@Caddy.stable_noneFromClient env subjectHeader) rest mid
      (noneFromClient_stripSubject hstrip)).keeps
    dsimp only at h
    rwa [h] at hkeeps
  | error o => cases hstrip

/-- A request that a proxy of the route's backend serves got past every gate that the route enables,
and no longer carries a subject header of the client's. -/
theorem backend_behind_gates {env : Env} {hp : Helpers} {r : Route} {req served : Request}
    {p : Proxy} (hmaintenance : r.maintenanceMode → r.maintenanceAllow = []) (hbackend : p ∈ backendProxies hp r)
    (h : serveRoute env (buildRoute hp r).route req = .error (.proxied p served)) :
    PassedGates env hp r req served := by
  obtain ⟨hmisconfigured, hchain⟩ := serveAll_chain hmaintenance h
  have hnot : ∀ {hs : List Handler}, OnlyAuth hs → p ∉ chainProxies hs := fun hs hmem =>
    not_authProxy_of_mem_backendProxies hbackend (hs p hmem)
  have hsplit := hchain
  rw [chain, append_assoc] at hsplit
  obtain ⟨rqBasic, hbefore, hrest⟩ :=
    Caddy.exists_passed (hnot (onlyAuth_beforeBasicAuth hp r)) hsplit
  obtain ⟨rqTarget, hbasic, -⟩ := Caddy.exists_passed
    (hnot (onlyAuth_of_eq_nil (quiet_basicAuth r).proxies)) hrest
  -- the chain in front of the basic auth gate, cut at the earlier gates
  obtain ⟨rqPortal, hbeforePortal, hportal⟩ := Caddy.serveAll_append_eq_ok.mp hbefore
  obtain ⟨rqSSO, hbeforeSSO, -⟩ := Caddy.serveAll_append_eq_ok.mp hbeforePortal
  obtain ⟨rqRules, hbeforeRules, hrules⟩ := Caddy.serveAll_append_eq_ok.mp hbeforeSSO
  obtain ⟨rqShape, hbeforeShape, -⟩ := Caddy.serveAll_append_eq_ok.mp hbeforeRules
  obtain ⟨rqBearer, hbeforeBearer, hbearer⟩ := Caddy.serveAll_append_eq_ok.mp hbeforeShape
  constructor
  · exact noneFromClient_chain hchain
  · intro hexternal hsecret
    exact ⟨rqBearer, hbeforeBearer, bearer_of_ok hexternal hsecret hbearer⟩
  · intro hne hpanel
    exact ⟨rqRules, hbeforeRules, pathRules_of_ok hne hpanel hrules⟩
  · intro hprotect
    have hdial : r.portalDial ≠ [] := by
      intro hdial
      simp [misconfigured, hprotect, hdial] at hmisconfigured
    exact ⟨rqPortal, hbeforePortal, portal_of_ok hprotect hdial hportal⟩
  · intro haccounts
    exact ⟨rqBasic, hbefore, basicAuth_of_ok haccounts hbasic⟩

/-! ### One guarded route -/

/-- A node that matches prefixes and whose authentication servers answer with `status`. -/
def nodeEnv (status : Nat) : Env where
  hostMatches := fun hosts host => hosts.contains host
  pathMatches := fun patterns path => patterns.any fun p => p.dropLast.isPrefixOf path
  headerMatches := fun values vs => vs.any fun v => values.contains v
  ipMatches := fun ranges ip => ranges.contains ip
  varMatches := fun _ _ _ => false
  geoPermits := fun _ _ _ _ => true
  expand := fun v _ => v
  substitute := fun _ _ v => v
  rewrite := fun _ req => req
  status := fun _ _ => status
  authenticates := fun _ _ => status = 200
  wafBlocks := fun _ _ => none
  rateLimited := fun _ _ => false
  cached := fun _ _ => false

/-- A protected site whose assets are public. -/
def shopSite : Route where
  id := "1"
  hosts := ["shop.example"]
  upstreamIP := "10.0.0.5"
  upstreamPort := 8080
  webSocket := true
  compressDisabled := true
  portalProtect := true
  portalDial := "panel:8080"
  portalPublicPaths := ["/assets/*"]
  basicAuthUsers := [("ops", "$2a$10$")]

def shopRequest (path : Str) : Request where
  method := "GET"
  scheme := "https"
  host := "shop.example"
  path := path
  remoteIP := "198.51.100.7"
  headers := [{ name := "x-mtls-subject", value := "CN=admin", fromClient := true }]

/-- A request that every server approves reaches the backend without its forged subject. -/
theorem backend_behind_gates_shop :
    PassedGates (nodeEnv 200) plainHelpers shopSite (shopRequest "/orders")
      { shopRequest "/orders" with headers := [] } :=
  @backend_behind_gates (nodeEnv 200) plainHelpers shopSite (shopRequest "/orders")
    { shopRequest "/orders" with headers := [] } (primaryProxy plainHelpers shopSite)
    (by decide) mem_cons_self rfl

/-- Without the basic auth gate. -/
def assetSite : Route :=
  { shopSite with basicAuthUsers := [] }

/-- A safe request to a declared public path reaches the backend although the portal approves
nobody. -/
theorem portal_gate_skipped_on_public_path :
    assetSite.portalProtect ∧ (∀ p rq, (nodeEnv 401).status p rq = 401) ∧
      primaryProxy plainHelpers assetSite ∈ backendProxies plainHelpers assetSite ∧
      serveRoute (nodeEnv 401) (buildRoute plainHelpers assetSite).route (shopRequest "/assets/app.js") =
        .error (.proxied (primaryProxy plainHelpers assetSite) { shopRequest "/assets/app.js" with headers := [] }) :=
  ⟨rfl, fun _ _ => rfl, mem_cons_self, rfl⟩

end Caddyapi
