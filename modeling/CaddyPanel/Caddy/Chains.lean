import CaddyPanel.Caddy.Handlers

/-!
# Rules for handler chains

Three rules reduce a statement about every path through a chain to its parts: a request that is
served beyond a part of the chain got past that part (`exists_passed`), it is served by a proxy that
stands in the chain (`mem_proxies_of_serveAll`), and what no operation on requests breaks holds all
the way (`passes_serveAll`).
-/

namespace Caddy

open List
open Text (Str)

/-! ### Chains in sequence -/

variable {req req' : Request} {hs hs' handle : List Handler} {env : Env} {p proxy : Proxy}

lemma serveAll_cons_eq_ok {h : Handler} :
    serveAll env (h :: hs) req = .ok req' ↔ ∃ mid, serve env h req = .ok mid ∧ serveAll env hs mid = .ok req' := by
  rw [serveAll]
  cases serve env h req <;> simp

lemma serveAll_append (env : Env) (hs hs' : List Handler) (req : Request) :
    serveAll env (hs ++ hs') req = match serveAll env hs req with
      | .ok req' => serveAll env hs' req'
      | .error o => .error o := by
  induction hs generalizing req with
  | nil => rfl
  | cons h hs ih =>
    rw [cons_append, serveAll, serveAll]
    cases serve env h req with
    | ok mid => exact ih mid
    | error o => rfl

/-! ### Which proxies can serve -/

mutual

/-- The proxies that can serve a request that reaches the handler. -/
def Handler.proxies : Handler → List Proxy
  | .reverseProxy proxy responses => proxy :: responsesProxies responses
  | .subroute routes => routesProxies routes
  | .staticResponse _ | .headers _ _ | .waf _ | .rateLimit _ _ _ _ | .cache _ _ _ | .encode _
  | .authentication _ | .rewrite _ | .vars _ | .requestBody _ => []

def chainProxies : List Handler → List Proxy
  | [] => []
  | h :: hs => h.proxies ++ chainProxies hs

def Route.proxies : Route → List Proxy
  | .mk _ handle _ => chainProxies handle

def routesProxies : List Route → List Proxy
  | [] => []
  | r :: rs => r.proxies ++ routesProxies rs

def responsesProxies : List Response → List Proxy
  | [] => []
  | .mk _ routes :: rest => routesProxies routes ++ responsesProxies rest

end

lemma chainProxies_append (hs hs' : List Handler) : chainProxies (hs ++ hs') = chainProxies hs ++ chainProxies hs' := by
  induction hs with
  | nil => rfl
  | cons h hs ih => rw [cons_append, chainProxies, chainProxies, ih, append_assoc]

lemma mem_routesProxies {routes : List Route} : p ∈ routesProxies routes ↔ ∃ route ∈ routes, p ∈ route.proxies := by
  induction routes with
  | nil => simp [routesProxies]
  | cons route routes ih => simp [routesProxies, ih]

mutual

/-- A `cache` handler somewhere in the handler. -/
@[simp] def Handler.hasCache : Handler → Bool
  | .cache _ _ _ => true
  | .reverseProxy _ responses => responsesHaveCache responses
  | .subroute routes => routesHaveCache routes
  | .staticResponse _ | .headers _ _ | .waf _ | .rateLimit _ _ _ _ | .encode _ | .authentication _
  | .rewrite _ | .vars _ | .requestBody _ => false

@[simp] def chainHasCache : List Handler → Bool
  | [] => false
  | h :: hs => h.hasCache || chainHasCache hs

@[simp] def Route.hasCache : Route → Bool
  | .mk _ handle _ => chainHasCache handle

@[simp] def routesHaveCache : List Route → Bool
  | [] => false
  | r :: rs => r.hasCache || routesHaveCache rs

@[simp] def responsesHaveCache : List Response → Bool
  | [] => false
  | .mk _ routes :: rest => routesHaveCache routes || responsesHaveCache rest

end

@[simp] lemma chainHasCache_append (hs hs' : List Handler) :
    chainHasCache (hs ++ hs') = (chainHasCache hs || chainHasCache hs') := by
  induction hs with
  | nil => rfl
  | cons h hs ih => simp [ih, Bool.or_assoc]

@[simp] lemma routesHaveCache_append (rs rs' : List Route) :
    routesHaveCache (rs ++ rs') = (routesHaveCache rs || routesHaveCache rs') := by
  induction rs with
  | nil => rfl
  | cons r rs ih => simp [ih, Bool.or_assoc]

lemma routesHaveCache_eq_false {rs : List Route} (h : ∀ r ∈ rs, r.hasCache = false) : routesHaveCache rs = false := by
  induction rs with
  | nil => rfl
  | cons r rs ih =>
    obtain ⟨hr, hrs⟩ := forall_mem_cons.mp h
    simp [hr, ih hrs]

/-- A part of a chain without proxies and caches. -/
structure Quiet (hs : List Handler) : Prop where
  proxies : chainProxies hs = []
  noCache : chainHasCache hs = false

lemma Quiet.append (h : Quiet hs) (h' : Quiet hs') : Quiet (hs ++ hs') :=
  ⟨by simp [chainProxies_append, h.proxies, h'.proxies], by simp [h.noCache, h'.noCache]⟩

lemma Quiet.ite {b : Prop} [Decidable b] (h : Quiet hs) (h' : Quiet hs') : Quiet (if b then hs else hs') := by
  split
  · exact h
  · exact h'

/-! ### What every handler keeps -/

/-- No operation on the request breaks `I`. -/
structure Stable (env : Env) (I : Request → Prop) : Prop where
  headers : ∀ (ops : HeaderOps) (req : Request), I req → I (ops.apply env req)
  rewrite : ∀ (r : Rewrite) (req : Request), I req →
    I { env.rewrite r req with headers := req.headers }

/-- `I` holds of the request that is handed on, and of the one a proxy gets. -/
def Keeps (I : Request → Prop) : Except Outcome Request → Prop
  | .ok req => I req
  | .error (.proxied _ req) => I req
  | .error _ => True

/-- And if it is a proxy that serves, it is one of these, and if it is the cache, there is one. -/
structure Passes (I : Request → Prop) (ps : List Proxy) (c : Bool) (out : Except Outcome Request) : Prop where
  keeps : Keeps I out
  proxy : ∀ p req, out = .error (.proxied p req) → p ∈ ps
  cache : out = .error .fromCache → c

section

variable {env : Env} {I : Request → Prop} {ps ps' : List Proxy} {c c' : Bool}

lemma passes_ok (h : I req) : Passes I ps c (.ok req) :=
  ⟨h, fun _ _ heq => (nomatch heq), fun heq => (nomatch heq)⟩

lemma passes_error {o : Outcome} (ho : ∀ p req, o ≠ .proxied p req) (hc : o = .fromCache → c) :
    Passes I ps c (.error o) := by
  refine ⟨?_, fun p req heq => absurd (Except.error.inj heq) (ho p req), fun heq => hc (Except.error.inj heq)⟩
  cases o with
  | proxied p req => exact absurd rfl (ho p req)
  | responded | denied | fromCache | nothing => trivial

lemma passes_ite {b : Prop} [Decidable b] {o : Outcome} (ho : ∀ p req, o ≠ .proxied p req)
    (hc : o = .fromCache → c) (h : I req) : Passes I ps c (if b then .error o else .ok req) := by
  split
  · exact passes_error ho hc
  · exact passes_ok h

/-- One part of a chain behind another. -/
lemma Passes.bind {x : Except Outcome Request} {f : Request → Except Outcome Request} : Passes I ps c x →
    (∀ req, I req → Passes I ps' c' (f req)) →
    Passes I (ps ++ ps') (c || c') (match x with | .ok req => f req | .error o => .error o) := by
  intro hx hf
  cases x with
  | ok req =>
    obtain ⟨hkeeps, hproxy, hcache⟩ := hf req hx.keeps
    exact ⟨hkeeps, fun p req h => mem_append_right ps (hproxy p req h), fun h => by simp [hcache h]⟩
  | error o =>
    exact ⟨hx.keeps, fun p req h => mem_append_left ps' (hx.proxy p req h), fun h => by simp [hx.cache h]⟩

mutual

theorem passes_serve (hI : Stable env I) :
    ∀ (h : Handler) (req : Request), I req → Passes I h.proxies h.hasCache (serve env h req)
  | .staticResponse _, _, _ => passes_error (by simp) (by simp)
  | .headers ops _, req, h => passes_ok (hI.headers ops req h)
  | .reverseProxy p responses, req, h => by
    rw [serve]
    exact passes_serveResponse hI p responses req _ h
  | .subroute routes, req, h => by
    rw [serve]
    exact passes_serveRoutes hI routes req h
  | .waf directives, req, h => by
    rw [serve]
    cases env.wafBlocks directives req with
    | none => exact passes_ok h
    | some status => exact passes_error (by simp) (by simp)
  | .rateLimit _ _ _ _, _, h => passes_ite (by simp) (by simp) h
  | .cache _ _ _, _, h => passes_ite (by simp) (fun _ => rfl) h
  | .encode _, _, h => passes_ok h
  | .authentication _, _, h => by
    rw [serve, ← ite_not]
    exact passes_ite (by simp) (by simp) h
  | .rewrite r, req, h => passes_ok (hI.rewrite r req h)
  | .vars _, _, h => passes_ok h
  | .requestBody _, _, h => passes_ok h

/-- What no operation breaks holds of whatever a chain hands on or proxies, and it proxies to its own proxies. -/
theorem passes_serveAll (hI : Stable env I) : ∀ (hs : List Handler) (req : Request), I req →
    Passes I (chainProxies hs) (chainHasCache hs) (serveAll env hs req)
  | [], _, h => passes_ok h
  | hd :: hs, req, h => by
    rw [serveAll, chainProxies, chainHasCache]
    exact (passes_serve hI hd req h).bind (passes_serveAll hI hs)

theorem passes_serveRoute (hI : Stable env I) :
    ∀ (r : Route) (req : Request), I req → Passes I r.proxies r.hasCache (serveRoute env r req)
  | .mk sets handle terminal, req, h => by
    rw [serveRoute, Route.proxies, Route.hasCache]
    split
    · rw [← append_nil (chainProxies handle), ← Bool.or_false (chainHasCache handle)]
      refine (passes_serveAll hI handle req h).bind fun mid hmid => ?_
      exact passes_ite (by simp) (by simp) hmid
    · exact passes_ok h

theorem passes_serveRoutes (hI : Stable env I) : ∀ (rs : List Route) (req : Request), I req →
    Passes I (routesProxies rs) (routesHaveCache rs) (serveRoutes env rs req)
  | [], _, h => passes_ok h
  | r :: rs, req, h => by
    rw [serveRoutes, routesProxies, routesHaveCache]
    exact (passes_serveRoute hI r req h).bind (passes_serveRoutes hI rs)

theorem passes_serveResponse (hI : Stable env I) (p : Proxy) :
    ∀ (responses : List Response) (req : Request) (status : Nat), I req →
      Passes I (p :: responsesProxies responses) (responsesHaveCache responses)
        (serveResponse env p responses req status)
  | [], req, _, h => ⟨h, fun q req' heq => by cases heq; exact mem_cons_self, fun heq => nomatch heq⟩
  | .mk statusClass routes :: rest, req, status, h => by
    rw [serveResponse, responsesProxies, responsesHaveCache]
    split
    · obtain ⟨hkeeps, hproxy, hcache⟩ := passes_serveRoutes hI routes req h
      exact ⟨hkeeps, fun q req' heq => by simp [hproxy q req' heq], fun heq => by simp [hcache heq]⟩
    obtain ⟨hkeeps, hproxy, hcache⟩ := passes_serveResponse hI p rest req status h
    refine ⟨hkeeps, fun q req' heq => ?_, fun heq => by simp [hcache heq]⟩
    obtain rfl | hmem := mem_cons.mp (hproxy q req' heq)
    · exact mem_cons_self
    · simp [hmem]

end

end

lemma stable_true : Stable env fun _ => True :=
  ⟨fun _ _ _ => trivial, fun _ _ _ => trivial⟩

/-- A chain is served by one of its own proxies. -/
theorem mem_proxies_of_serveAll (hs : List Handler) (req : Request)
    (h : serveAll env hs req = .error (.proxied proxy req')) : proxy ∈ chainProxies hs :=
  (passes_serveAll stable_true hs req trivial).proxy _ _ h

/-- A chain without a cache does not answer from one. -/
lemma serveAll_ne_fromCache (h : chainHasCache hs = false) : serveAll env hs req ≠ .error .fromCache := by
  intro hserve
  rw [(passes_serveAll stable_true hs req trivial).cache hserve] at h
  cases h

/-- A request that is served by a proxy that is not in the first part of a chain got past it. -/
theorem exists_passed (hproxy : proxy ∉ chainProxies hs)
    (h : serveAll env (hs ++ hs') req = .error (.proxied proxy req')) :
    ∃ mid, serveAll env hs req = .ok mid ∧ serveAll env hs' mid = .error (.proxied proxy req') := by
  rw [serveAll_append] at h
  cases hserve : serveAll env hs req with
  | ok mid =>
    rw [hserve] at h
    exact ⟨mid, rfl, h⟩
  | error o =>
    rw [hserve] at h
    cases h
    exact absurd (mem_proxies_of_serveAll hs req hserve) hproxy

lemma serveAll_append_eq_ok : serveAll env (hs ++ hs') req = .ok req' ↔
      ∃ mid, serveAll env hs req = .ok mid ∧ serveAll env hs' mid = .ok req' := by
  rw [serveAll_append]
  cases serveAll env hs req <;> simp

lemma serveAll_singleton (env : Env) (h : Handler) (req : Request) : serveAll env [h] req = serve env h req := by
  rw [serveAll]
  cases serve env h req <;> rfl

lemma serveRoutes_singleton (env : Env) (r : Route) (req : Request) :
    serveRoutes env [r] req = serveRoute env r req := by
  rw [serveRoutes]
  cases serveRoute env r req <;> rfl

@[simp] lemma routeMatches_nil (env : Env) (req : Request) : routeMatches env [] req := rfl

/-- An answer that is not fixed in the configuration. -/
def Outcome.live : Outcome → Bool
  | .responded _ | .nothing => false
  | .proxied _ _ | .denied _ | .fromCache => true

variable {o : Outcome}

/-- A route that gives such an answer does so through its handlers. -/
lemma serveAll_of_serveRoute {sets : List (List Cond)} {terminal : Bool} (ho : o.live)
    (h : serveRoute env (.mk sets handle terminal) req = .error o) : serveAll env handle req = .error o := by
  rw [serveRoute] at h
  split at h
  · cases hserve : serveAll env handle req with
    | ok mid =>
      rw [hserve] at h
      dsimp only at h
      split at h <;> cases h
      cases ho
    | error o =>
      rw [hserve] at h
      exact h
  · cases h

/-! ### Routes that answer themselves -/

/-- A route with a fixed answer. -/
def Guard (r : Route) : Prop :=
  ∃ sets response terminal, r = .mk sets [.staticResponse response] terminal

/-- A request gets past a fixed answer only unchanged, and only where the route does not match. -/
lemma serveRoute_static_eq_ok {sets : List (List Cond)} {response : StaticResponse} {terminal : Bool} :
    serveRoute env (.mk sets [.staticResponse response] terminal) req = .ok req' ↔
      routeMatches env sets req = false ∧ req' = req := by
  rw [serveRoute, serveAll_singleton, serve]
  split
  · rename_i hmatch
    simp [hmatch]
  · rename_i hmatch
    simp [hmatch, eq_comm]

/-- Routes with fixed answers in front of others do not touch what they do not answer. -/
theorem serveRoutes_of_guards {front rs : List Route} (hfront : ∀ r ∈ front, Guard r) (ho : o.live)
    (h : serveRoutes env (front ++ rs) req = .error o) :
    (∀ r ∈ front, serveRoute env r req = .ok req) ∧ serveRoutes env rs req = .error o := by
  induction front with
  | nil => exact ⟨by simp, h⟩
  | cons r front ih =>
    obtain ⟨⟨sets, response, terminal, rfl⟩, htail⟩ := forall_mem_cons.mp hfront
    rw [cons_append, serveRoutes] at h
    cases hserve : serveRoute env (.mk sets [.staticResponse response] terminal) req with
    | ok mid =>
      obtain ⟨-, rfl⟩ := serveRoute_static_eq_ok.mp hserve
      rw [hserve] at h
      obtain ⟨hrest, hrs⟩ := ih htail h
      exact ⟨forall_mem_cons.mpr ⟨hserve, hrest⟩, hrs⟩
    | error o' =>
      rw [hserve] at h
      cases h
      cases serveAll_of_serveRoute ho hserve
      cases ho

lemma serveRoutes_guards {rs : List Route} (hrs : ∀ r ∈ rs, Guard r) (h : serveRoutes env rs req = .ok req') :
    req' = req := by
  induction rs with
  | nil =>
    cases h
    rfl
  | cons r rs ih =>
    obtain ⟨⟨sets, response, terminal, rfl⟩, htail⟩ := forall_mem_cons.mp hrs
    rw [serveRoutes] at h
    split at h
    · next hserve =>
      obtain ⟨-, rfl⟩ := serveRoute_static_eq_ok.mp hserve
      exact ih htail h
    · cases h

/-- Handlers that answer a request or hand it on as it is. -/
inductive Inert : List Handler → Prop
  | nil : Inert []
  | guards {routes : List Route} (h : ∀ r ∈ routes, Guard r) : Inert [.subroute routes]
  | waf (directives : Str) : Inert [.waf directives]
  | rateLimit (zone key window : Str) (maxEvents : Int) : Inert [.rateLimit zone key window maxEvents]
  | append {hs hs' : List Handler} (h : Inert hs) (h' : Inert hs') : Inert (hs ++ hs')

namespace Inert

lemma answer {sets : List (List Cond)} {response : StaticResponse} {terminal : Bool} :
    Inert [.subroute [.mk sets [.staticResponse response] terminal]] :=
  .guards fun _ hg => ⟨_, _, _, mem_singleton.mp hg⟩

lemma ite {b : Prop} [Decidable b] (h : Inert hs) (h' : Inert hs') : Inert (if b then hs else hs') := by
  split
  · exact h
  · exact h'

theorem serveAll_eq (hinert : Inert hs) (h : serveAll env hs req = .ok req') : req' = req := by
  induction hinert generalizing req req' with
  | nil =>
    cases h
    rfl
  | guards hroutes =>
    rw [serveAll_singleton] at h
    exact serveRoutes_guards hroutes h
  | waf | rateLimit =>
    rw [serveAll_singleton, serve] at h
    split at h <;> cases h
    rfl
  | append _ _ ih ih' =>
    obtain ⟨mid, hmid, h⟩ := serveAll_append_eq_ok.mp h
    rw [ih' h, ih hmid]

lemma quiet (hinert : Inert hs) : Quiet hs := by
  induction hinert with
  | nil | waf | rateLimit => exact ⟨rfl, rfl⟩
  | guards hroutes =>
    have hproxies : routesProxies _ = [] := eq_nil_iff_forall_not_mem.mpr fun p hp => by
      obtain ⟨route, hroute, hp⟩ := mem_routesProxies.mp hp
      obtain ⟨sets, response, terminal, rfl⟩ := hroutes route hroute
      cases hp
    refine ⟨(append_nil _).trans hproxies, (Bool.or_false _).trans (routesHaveCache_eq_false fun route hroute => ?_)⟩
    obtain ⟨sets, response, terminal, rfl⟩ := hroutes route hroute
    rfl
  | append _ _ ih ih' => exact ih.append ih'

end Inert

/-! ### Headers a request carries -/

def HasHeader (name : Str) (req : Request) : Prop :=
  ∃ h ∈ req.headers, sameName h.name name

lemma HasHeader.values_ne_nil {name : Str} (h : HasHeader name req) : req.values name ≠ [] := by
  obtain ⟨hd, hmem, hname⟩ := h
  exact ne_nil_of_mem (mem_map_of_mem (mem_filter.mpr ⟨hmem, hname⟩))

/-- An operation on other headers leaves a header in place. -/
theorem HasHeader.apply {name : Str} {ops : HeaderOps} (h : HasHeader name req)
    (hset : ∀ f ∈ ops.set, sameName f.1 name = false) (hdelete : ∀ p ∈ ops.delete, deletes p name = false) :
    HasHeader name (ops.apply env req) := by
  have hadd : ∀ {req f}, HasHeader name req → HasHeader name (addHeader env req f) := by
    rintro req f ⟨hd, hmem, hname⟩
    exact ⟨hd, mem_append_left _ hmem, hname⟩
  have hadded := List.foldlRecOn ops.add (addHeader env) h fun _ hr _ _ => hadd hr
  refine List.foldlRecOn ops.replace (replaceHeader env) (List.foldlRecOn ops.delete deleteHeader
    (List.foldlRecOn ops.set (setHeader env) hadded ?_) ?_) ?_
  · rintro mid ⟨hd, hmem, hname⟩ f hf
    have hother := hset f hf
    refine hadd ⟨hd, mem_filter.mpr ⟨hmem, ?_⟩, hname⟩
    simp only [sameName, decide_eq_true_eq, decide_eq_false_iff_not, Bool.not_eq_true'] at hname hother ⊢
    rw [hname]
    exact Ne.symm hother
  · rintro mid ⟨hd, hmem, hname⟩ p hp
    refine ⟨hd, mem_filter.mpr ⟨hmem, ?_⟩, hname⟩
    have hkept := hdelete p hp
    simp only [sameName, decide_eq_true_eq] at hname
    rw [Bool.not_eq_true', ← hkept, deletes, deletes, hname]
  · rintro mid ⟨hd, hmem, hname⟩ r -
    refine ⟨_, mem_map_of_mem hmem, ?_⟩
    split <;> exact hname

/-! ### Headers the client sent -/

/-- No header of this name still has a value of the client's. -/
def NoneFromClient (name : Str) (req : Request) : Prop :=
  ∀ h ∈ req.headers, sameName h.name name → h.fromClient = false

section

variable {env : Env} {name : Str}

variable {req : Request}

lemma NoneFromClient.addHeader (h : NoneFromClient name req)
    (field : Str × List Str) : NoneFromClient name (addHeader env req field) := by
  intro hd hmem hname
  rcases mem_append.mp hmem with hmem | hmem
  · exact h hd hmem hname
  · obtain ⟨v, -, rfl⟩ := mem_map.mp hmem
    rfl

lemma NoneFromClient.filter (h : NoneFromClient name req) (p : Header → Bool) :
    NoneFromClient name { req with headers := req.headers.filter p } :=
  fun hd hmem => h hd (mem_filter.mp hmem).1

lemma NoneFromClient.replaceHeader (h : NoneFromClient name req)
    (r : Str × Str × Str) : NoneFromClient name (replaceHeader env req r) := by
  intro hd hmem hname
  obtain ⟨old, hold, rfl⟩ := mem_map.mp hmem
  by_cases hr : sameName old.name r.1
  · rw [if_pos hr] at hname ⊢
    exact h old hold hname
  · rw [if_neg hr] at hname ⊢
    exact h old hold hname

/-- Nothing in a chain brings a client's header back. -/
theorem stable_noneFromClient : Stable env (NoneFromClient name) where
  headers := by
    intro ops req h
    have hadd := List.foldlRecOn ops.add (addHeader env) h fun _ hr f _ => hr.addHeader f
    have hset := List.foldlRecOn ops.set (setHeader env) hadd fun _ hr f _ => (hr.filter _).addHeader f
    have hdelete := List.foldlRecOn ops.delete deleteHeader hset fun _ hr _ _ => hr.filter _
    exact List.foldlRecOn ops.replace (replaceHeader env) hdelete fun _ hr r _ => hr.replaceHeader r
  rewrite := fun _ _ h => h

end

end Caddy
