import CaddyPanel.Quota.Limits

/-!
# Creations of services and routes

What the handlers of the panel, of the REST API and of the billing API, and `routes.Service.Create`, do with
the checks of a reseller's package. A creation runs in one transaction, which holds the lock of the reseller's
row; the checks of a handler that are not about a package are taken to have passed.
-/

namespace Quota

open List Rows Runs
open Text (Str)

inductive Refusal where
  | quota (e : QuotaError)
  /-- `ErrMaxDomains` -/
  | maxDomains
  | failed (q : Query)
  /-- the database does not take the row -/
  | constraint
  deriving DecidableEq

/-! ### Writes -/

def insertService (s : State) (sv : Service) : Except Refusal State :=
  match h : s.services.insert sv with
  | none => .error .constraint
  | some services => .ok
      { services
        routes := s.routes
        hasService := fun r hr =>
          let ⟨sv', hsv', hid⟩ := s.hasService r hr
          ⟨sv', (mem_insert h).mpr (.inl hsv'), hid⟩ }

def insertRoute (s : State) (r : Route) : Except Refusal State :=
  match hsv : s.services.lookup r.serviceID, h : s.routes.insert r with
  | some sv, some routes => .ok
      { services := s.services
        routes
        hasService := fun r' hr' =>
          match (mem_insert h).mp hr' with
          | .inl hr' => s.hasService r' hr'
          | .inr hr' => ⟨sv, (lookup_eq_some.mp hsv).1, hr' ▸ (lookup_eq_some.mp hsv).2⟩ }
  | _, _ => .error .constraint

/-- `UPDATE services SET plan_id = …` for the services of a client. -/
def repoint (s : State) (clientID planID : ℕ) : State where
  services := s.services.update (fun sv => sv.clientID = clientID) fun sv => { sv with planID }
  routes := s.routes
  hasService := fun r hr => by
    obtain ⟨sv, hsv, hid⟩ := s.hasService r hr
    refine ⟨_, mem_update.mpr ⟨sv, hsv, rfl⟩, ?_⟩
    split
    · exact hid
    · exact hid

section Handlers

variable (fails : Failures) (t : Tenants) (s : State)

def handlerQuery {α : Type} (q : Query) (answer : Option α) : Except Refusal α :=
  match answer with
  | some a => if fails q then .error (.failed q) else .ok a
  | none => .error (.failed q)

/-- A check of the package of the client's reseller, if there is one. -/
def ifOwned (resellerID : ℕ) (check : Except QuotaError Unit) : Except Refusal Unit :=
  if resellerID = 0 then .ok () else check.mapError .quota

/-! ### Services -/

/-- `ServicesCreate` of the panel and `ServiceCreate` of the REST API: the same steps. -/
def createService (clientID planID id : ℕ) : Except Refusal State := do
  let rid := ownerID fails t clientID
  handlerQuery fails .beginTx (some ())
  ifOwned rid (canCreateService fails t s rid planID)
  let _ ← handlerQuery fails .planLookup (t.plans.lookup planID)
  let _ ← handlerQuery fails .write (t.clients.lookup clientID)
  insertService s ⟨id, clientID, planID⟩

/-- `ProvisionService` of the billing API. -/
def provisionService (clientID planID id : ℕ) : Except Refusal State := do
  let _ ← handlerQuery fails .planLookup (t.plans.lookup planID)
  let _ ← handlerQuery fails .write (t.clients.lookup clientID)
  insertService s ⟨id, clientID, planID⟩

def internalAdminPlanName : Str := "_admin-self"

/-- `ensureAdminService` of the host and stream forms, where a new service is needed: on the internal plan of
the group, which exists. -/
def ensureAdminService (clientID nodeGroupID id : ℕ) : Except Refusal State := do
  let plan ← handlerQuery fails .planLookup
    (t.plans.rows.find? fun p => p.name = internalAdminPlanName ∧ p.nodeGroupID = nodeGroupID)
  let _ ← handlerQuery fails .write (t.clients.lookup clientID)
  insertService s ⟨id, clientID, plan.id⟩

def clientChangePlan (clientID planID : ℕ) : Except Refusal State := do
  let _ ← handlerQuery fails .planLookup (t.plans.lookup planID)
  let rid := ownerID fails t clientID
  handlerQuery fails .beginTx (some ())
  ifOwned rid (canChangeClientPlan fails t s rid clientID planID)
  handlerQuery fails .write (some ())
  return repoint s clientID planID

/-! ### Routes -/

def lockRows (serviceID planMaxDom resellerID : ℕ) : Except Refusal Unit :=
  if 0 < planMaxDom ∧ (fails .lockService ∨ s.services.lookup serviceID = none) then
    .error (.failed .lockService)
  else if resellerID ≠ 0 ∧ fails .lockReseller then .error (.failed .lockReseller)
  else .ok ()

/-- A failing count lets the route through. -/
def checkPlanCount (serviceID planMaxDom : ℕ) : Except Refusal Unit :=
  if 0 < planMaxDom ∧ fails .planRouteCount = false ∧ planMaxDom ≤ routesOf s serviceID then
    .error .maxDomains
  else .ok ()

/-- An error other than `ErrDomainQuota` is logged, and lets the route through. -/
def logged (check : Except QuotaError Unit) : Except QuotaError Unit :=
  match check with
  | .error .domain => .error .domain
  | _ => .ok ()

def checkDomainQuotas (serviceID planMaxDom resellerID : ℕ) : Except Refusal Unit := do
  lockRows fails s serviceID planMaxDom resellerID
  checkPlanCount fails s serviceID planMaxDom
  ifOwned resellerID (logged (canCreateRoute fails t s resellerID serviceID))

/-- `routes.Service.Create`, for all callers. -/
def createRoute (serviceID id : ℕ) : Except Refusal State := do
  let sv ← handlerQuery fails .serviceLookup (s.services.lookup serviceID)
  let plan ← handlerQuery fails .serviceLookup (t.plans.lookup sv.planID)
  let rid := ownerID fails t sv.clientID
  handlerQuery fails .beginTx (some ())
  checkDomainQuotas fails t s serviceID plan.maxDomains rid
  handlerQuery fails .write (some ())
  insertRoute s ⟨id, serviceID⟩

/-- `HostsClone`: another route of the same service. -/
def cloneRoute (routeID id : ℕ) : Except Refusal State := do
  let r ← handlerQuery fails .serviceLookup (s.routes.lookup routeID)
  handlerQuery fails .beginTx (some ())
  handlerQuery fails .write (some ())
  insertRoute s ⟨id, r.serviceID⟩

end Handlers

/-! ### Failing queries -/

section Failures

variable {fails : Failures} {t : Tenants} {s s' : State}

variable {clientID resellerID serviceID : ℕ} {α β : Type}

lemma ownerID_eq (hquery : fails .clientReseller = false)
    (howner : t.resellerOf clientID = some resellerID) : ownerID fails t clientID = resellerID := by
  simp [ownerID, resellerOfClient, hquery, howner, query]

lemma ok_of_ifOwned {check : Except QuotaError Unit} {u : Unit} (hpos : resellerID ≠ 0)
    (h : ifOwned resellerID check = .ok u) : check = .ok () := by
  rw [ifOwned, if_neg hpos] at h
  cases check with
  | error e => cases h
  | ok => rfl

lemma answer_of_handlerQuery {q : Query} {answer : Option α} {a : α}
    (h : handlerQuery fails q answer = .ok a) : answer = some a := by
  cases answer with
  | none => cases h
  | some b =>
    simp only [handlerQuery] at h
    split at h
    · cases h
    · rw [Except.ok.inj h]

/-- The second computation ends like the first one, where that ends well. -/
def Agrees {α : Type} (x y : Except QuotaError α) : Prop :=
  ∀ a, x = .ok a → y = .ok a

lemma Agrees.refl (x : Except QuotaError α) : Agrees x x :=
  fun _ h => h

lemma Agrees.bind {x y : Except QuotaError α} {f g : α → Except QuotaError β} (hx : Agrees x y)
    (hf : ∀ a, Agrees (f a) (g a)) : Agrees (x >>= f) (y >>= g) := by
  intro b h
  obtain ⟨a, ha, hb⟩ := bind_eq_ok.mp h
  exact bind_eq_ok.mpr ⟨a, hx a ha, hf a b hb⟩

lemma Agrees.ite {p : Prop} [Decidable p] {x y x' y' : Except QuotaError α} (hx : Agrees x x')
    (hy : Agrees y y') : Agrees (if p then x else y) (if p then x' else y') := by
  split
  · exact hx
  · exact hy

lemma agrees_query (fails : Failures) (q : Query) (a : α) : Agrees (query fails q a) (query noFailures q a) := by
  intro b h
  unfold query at h
  split at h
  · cases h
  · exact h

lemma agrees_queryRow (fails : Failures) (q : Query) (a : Option α) :
    Agrees (queryRow fails q a) (queryRow noFailures q a) := by
  cases a with
  | none => exact Agrees.refl _
  | some a => exact agrees_query fails q a

lemma agrees_limitsOn (fails : Failures) (t : Tenants) (resellerID : ℕ) :
    Agrees (limitsOn fails t resellerID) (limitsOn noFailures t resellerID) := by
  refine (Agrees.refl _).ite ((agrees_query _ _ _).bind fun r => ?_)
  cases r with
  | none => exact Agrees.refl _
  | some r =>
    dsimp only
    cases r.planID with
    | none => exact Agrees.refl _
    | some planID => exact (agrees_query _ _ _).bind fun p => Agrees.refl _

/-- A service that passes a check with failing queries passes the check. -/
lemma agrees_canCreateService (fails : Failures) (t : Tenants) (s : State) (resellerID planID : ℕ) :
    Agrees (canCreateService fails t s resellerID planID) (canCreateService noFailures t s resellerID planID) := by
  refine (agrees_limitsOn _ _ _).bind fun l => ?_
  cases l with
  | none => exact Agrees.refl _
  | some l =>
    refine Agrees.bind ?_ fun _ => ?_
    · exact (Agrees.refl _).ite ((agrees_query _ _ _).bind fun n => Agrees.refl _)
    · refine (Agrees.refl _).ite ((agrees_queryRow _ _ _).bind fun p => ?_)
      exact (Agrees.refl _).ite ((Agrees.refl _).ite ((agrees_query _ _ _).bind fun n => Agrees.refl _))

/-- The queries of a route's check, whose failures are logged. -/
def routeQueries : List Query :=
  [.reseller, .resellerPlan, .servicePlanKind, .routeCount]

lemma canCreateRoute_congr (h : ∀ q ∈ routeQueries, fails q = false) (resellerID serviceID : ℕ) :
    canCreateRoute fails t s resellerID serviceID = canCreateRoute noFailures t s resellerID serviceID := by
  have hquery : ∀ q ∈ routeQueries, ∀ {α : Type} (a : α), query fails q a = query noFailures q a := by
    intro q hq α a
    simp [query, h q hq, noFailures]
  have hrow : ∀ q ∈ routeQueries, ∀ {α : Type} (a : Option α),
      queryRow fails q a = queryRow noFailures q a := by
    intro q hq α a
    cases a with
    | none => rfl
    | some a => exact hquery q hq a
  simp only [canCreateRoute, limitsOn, checkRouteCount, hquery .reseller (by decide),
    hquery .resellerPlan (by decide), hrow .servicePlanKind (by decide), hquery .routeCount (by decide)]

lemma query_noFailures (q : Query) (a : α) : query noFailures q a = .ok a := rfl

lemma limitsOn_noFailures (t : Tenants) (resellerID : ℕ) :
    limitsOn noFailures t resellerID = .ok (t.limits resellerID) := by
  unfold limitsOn Tenants.limits
  split
  · rfl
  rw [query_noFailures, ok_bind]
  cases t.resellers.lookup resellerID with
  | none => rfl
  | some r =>
    cases hplan : r.planID with
    | none => simp [hplan, pure, Except.pure]
    | some planID =>
      simp only [hplan, pure, Except.pure, bind, Option.bind_some]
      cases t.resellerPlans.lookup planID with
      | none => rfl
      | some p => rfl

/-- Without failures, a route of a service that exists is accepted or over the limit. -/
lemma canCreateRoute_noFailures {sv : Service} {p : Plan}
    (hsv : s.services.lookup serviceID = some sv) (hp : t.plans.lookup sv.planID = some p) :
    canCreateRoute noFailures t s resellerID serviceID = .ok () ∨
      canCreateRoute noFailures t s resellerID serviceID = .error .domain := by
  have hcount : ∀ l, checkRouteCount noFailures t s l resellerID = .ok () ∨
      checkRouteCount noFailures t s l resellerID = .error .domain := by
    intro l
    change (if _ then _ else _) = _ ∨ (if _ then _ else _) = _
    split
    · exact .inr rfl
    · exact .inl rfl
  have hplan : queryRow noFailures .servicePlanKind
      ((s.services.lookup serviceID).bind fun sv => t.plans.lookup sv.planID) = .ok p := by
    rw [hsv, Option.bind_some, hp]
    rfl
  rw [canCreateRoute, limitsOn_noFailures, hplan]
  cases t.limits resellerID with
  | none => exact .inl rfl
  | some l =>
    simp only [ok_bind]
    split
    · exact .inl rfl
    split
    · exact hcount l
    split
    · exact hcount l
    · exact .inl rfl

/-- Each creation for a client of a reseller is refused or was checked: a service, where the lookup of the
reseller works; a route, where no query of its own check fails either. -/
theorem creation_refused_or_checked {clientID resellerID : ℕ} (hquery : fails .clientReseller = false)
    (howner : t.resellerOf clientID = some resellerID) (hpos : resellerID ≠ 0) :
    (∀ planID id, createService fails t s clientID planID id = .ok s' →
      canCreateService noFailures t s resellerID planID = .ok ()) ∧
    ∀ sv ∈ s.services, sv.clientID = clientID → ∀ id, createRoute fails t s sv.id id = .ok s' →
      canCreateRoute noFailures t s resellerID sv.id = .ok () ∨ ∃ q ∈ routeQueries, fails q := by
  have hid := ownerID_eq hquery howner
  constructor
  · intro planID id h
    obtain ⟨_, _, h⟩ := bind_eq_ok.mp h
    obtain ⟨_, hcheck, _⟩ := bind_eq_ok.mp h
    rw [hid] at hcheck
    exact agrees_canCreateService _ _ _ _ _ () (ok_of_ifOwned hpos hcheck)
  rintro sv hsv rfl id h
  obtain ⟨sv', hsv', h⟩ := bind_eq_ok.mp h
  obtain ⟨p, hp, h⟩ := bind_eq_ok.mp h
  obtain ⟨_, _, h⟩ := bind_eq_ok.mp h
  obtain ⟨_, hcheck, _⟩ := bind_eq_ok.mp h
  have hlookup := answer_of_handlerQuery hsv'
  cases hlookup.symm.trans (lookup_key hsv)
  have hplan := answer_of_handlerQuery hp
  obtain ⟨_, _, hcheck⟩ := bind_eq_ok.mp hcheck
  obtain ⟨_, _, hcheck⟩ := bind_eq_ok.mp hcheck
  rw [hid] at hcheck
  have hlogged := ok_of_ifOwned hpos hcheck
  by_cases hfail : ∃ q ∈ routeQueries, fails q
  · exact .inr hfail
  left
  push Not at hfail
  rw [canCreateRoute_congr (fun q hq => Bool.eq_false_iff.mpr (hfail q hq))] at hlogged
  rcases canCreateRoute_noFailures hlookup hplan with hok | herror
  · exact hok
  · rw [herror] at hlogged
    cases hlogged

end Failures

/-- A reseller with a package of two domains, its client, and a plan. -/
def twoDomains (kind : PlanKind) (maxDomains : ℕ) : Tenants where
  resellers := { rows := [⟨1, some 1, false⟩], nodup := nodup_singleton _ }
  resellerPlans := { rows := [⟨1, 0, 2⟩], nodup := nodup_singleton _ }
  clients := { rows := [⟨1, some 1⟩], nodup := nodup_singleton _ }
  plans := { rows := [⟨1, "plan", kind, maxDomains, 1⟩], nodup := nodup_singleton _ }

/-- One service with so many routes. -/
def oneService (n : ℕ) : State where
  services := { rows := [⟨1, 1, 1⟩], nodup := nodup_singleton _ }
  routes :=
    { rows := (List.range n).map fun i => ⟨i, 1⟩
      nodup := by
        rw [map_map]
        exact nodup_range.map fun _ _ h => h }
  hasService := fun r hr => by
    obtain ⟨i, -, rfl⟩ := mem_map.mp hr
    exact ⟨⟨1, 1, 1⟩, mem_singleton_self _, rfl⟩

/-- The count for the plan fails, and the one for the package is still made. -/
theorem creation_refused_or_checked_planCount :
    createRoute (· = .planRouteCount) (twoDomains .npm 1) (oneService 1) 1 1 = .ok (oneService 2) ∧
      canCreateRoute noFailures (twoDomains .npm 1) (oneService 1) 1 1 = .ok () := by
  have howner : (twoDomains .npm 1).resellerOf 1 = some 1 := rfl
  have hcreate : createRoute (· = .planRouteCount) (twoDomains .npm 1) (oneService 1) 1 1 = .ok (oneService 2) := rfl
  refine ⟨hcreate, ?_⟩
  rcases (creation_refused_or_checked rfl howner (by decide)).2 ⟨1, 1, 1⟩ (mem_singleton_self _) rfl
    1 hcreate with h | ⟨q, hmem, hq⟩
  · exact h
  · revert q
    decide

/-- A route over the limit is created when the count of the routes fails. -/
theorem failing_count_is_allowed :
    createRoute (· = .routeCount) (twoDomains .npm 10) (oneService 2) 1 2 = .ok (oneService 3) ∧
      canCreateRoute noFailures (twoDomains .npm 10) (oneService 2) 1 1 = .error .domain :=
  ⟨rfl, rfl⟩

end Quota
