import Mathlib.Algebra.Order.BigOperators.Group.List
import Mathlib.Algebra.Order.Group.Nat
import CaddyPanel.Lib.Tables
import CaddyPanel.Quota.Creations

/-!
# The routes under one reseller

Without overselling the routes of a reseller are bounded in two ways: those of restricted plans by the
capacity that was given out, those of `npm` plans by counting. The bounds do not see each other, and some
ways to create a service or a route see neither.
-/

namespace Quota

open List Rows
open Runs (bind_eq_ok ok_bind)

/-! ### Sequences of creations -/

inductive Op where
  /-- `ServicesCreate` of the panel, `ServiceCreate` of the REST API -/
  | createService (clientID planID id : ℕ)
  | provisionService (clientID planID id : ℕ)
  | ensureAdminService (clientID nodeGroupID id : ℕ)
  | clientChangePlan (clientID planID : ℕ)
  | createRoute (serviceID id : ℕ)
  | cloneRoute (routeID id : ℕ)

def Op.apply (t : Tenants) (s : State) : Op → Except Refusal State
  | .createService clientID planID id => Quota.createService noFailures t s clientID planID id
  | .provisionService clientID planID id => Quota.provisionService noFailures t s clientID planID id
  | .ensureAdminService clientID nodeGroupID id =>
    Quota.ensureAdminService noFailures t s clientID nodeGroupID id
  | .clientChangePlan clientID planID => Quota.clientChangePlan noFailures t s clientID planID
  | .createRoute serviceID id => Quota.createRoute noFailures t s serviceID id
  | .cloneRoute routeID id => Quota.cloneRoute noFailures s routeID id

def step (t : Tenants) (s : State) (op : Op) : Option State :=
  (op.apply t s).toOption

/-! ### What the writes change -/

section Writes

variable {t : Tenants} {s s' : State} {resellerID : ℕ}

variable {sv : Service} {clientID planID : ℕ}

lemma rows_of_insertService (h : insertService s sv = .ok s') :
    s'.services.rows = s.services.rows ++ [sv] ∧ s.services.lookup sv.id = none ∧ s'.routes = s.routes := by
  unfold insertService at h
  split at h
  · cases h
  rename_i services hinsert
  cases h
  obtain ⟨hrows, hnew⟩ := rows_insert hinsert
  exact ⟨hrows, hnew, rfl⟩

lemma rows_of_insertRoute {r : Route} (h : insertRoute s r = .ok s') :
    s'.services = s.services ∧ s'.routes.rows = s.routes.rows ++ [r] := by
  unfold insertRoute at h
  split at h
  · next sv routes hsv hinsert =>
    cases h
    exact ⟨rfl, (rows_insert hinsert).1⟩
  · cases h

lemma routesOf_new (h : s.services.lookup sv.id = none) : routesOf s sv.id = 0 := by
  refine countP_eq_zero.mpr fun r hr hid => ?_
  obtain ⟨sv', hsv', hid'⟩ := s.hasService r hr
  exact lookup_eq_none.mp h sv' hsv' (by simpa using hid'.trans (of_decide_eq_true hid))

lemma allocated_of_insertService (h : insertService s sv = .ok s') :
    allocated t s' resellerID = allocated t s resellerID + if owned t resellerID sv then alloc t sv else 0 := by
  unfold allocated resellerServices
  rw [(rows_of_insertService h).1, filter_append, map_append]
  by_cases howned : owned t resellerID sv <;> simp [howned]

/-- A table with the old rows in it counts the same routes. -/
lemma resellerRoutes_congr (hroutes : s'.routes = s.routes)
    (hservices : ∀ sv ∈ s.services, ∃ sv' ∈ s'.services, sv'.id = sv.id ∧ sv'.clientID = sv.clientID) :
    resellerRoutes t s' resellerID = resellerRoutes t s resellerID := by
  unfold resellerRoutes
  rw [hroutes]
  refine countP_congr fun r hr => ?_
  obtain ⟨sv, hsv, hid⟩ := s.hasService r hr
  obtain ⟨sv', hsv', hid', hclient⟩ := hservices sv hsv
  have h : s.services.lookup r.serviceID = some sv := lookup_eq_some.mpr ⟨hsv, hid⟩
  have h' : s'.services.lookup r.serviceID = some sv' :=
    lookup_eq_some.mpr ⟨hsv', hid'.trans hid⟩
  simp [h, h', owned, hclient]

lemma resellerRoutes_of_insertService (h : insertService s sv = .ok s') :
    resellerRoutes t s' resellerID = resellerRoutes t s resellerID := by
  obtain ⟨hrows, -, hroutes⟩ := rows_of_insertService h
  refine resellerRoutes_congr hroutes fun sv' hsv' => ⟨sv', ?_, rfl, rfl⟩
  have hmem : sv' ∈ s'.services.rows := hrows ▸ mem_append_left _ hsv'
  exact hmem

lemma routesOf_of_insertRoute {r : Route} (h : insertRoute s r = .ok s') (id : ℕ) :
    routesOf s' id = routesOf s id + if r.serviceID = id then 1 else 0 := by
  unfold routesOf
  rw [(rows_of_insertRoute h).2, countP_append]
  simp

lemma resellerRoutes_of_insertRoute {r : Route} (h : insertRoute s r = .ok s') :
    resellerRoutes t s' resellerID = resellerRoutes t s resellerID +
      if (s.services.lookup r.serviceID).any (owned t resellerID) then 1 else 0 := by
  unfold resellerRoutes
  rw [(rows_of_insertRoute h).2, (rows_of_insertRoute h).1, countP_append, countP_singleton]

/-- The plans of the services of one client are replaced. -/
lemma mem_repoint : sv ∈ (repoint s clientID planID).services ↔
      ∃ sv₀ ∈ s.services, (if sv₀.clientID = clientID then { sv₀ with planID } else sv₀) = sv := by
  rw [repoint, mem_update]
  simp only [decide_eq_true_eq]

lemma resellerRoutes_repoint (clientID planID : ℕ) :
    resellerRoutes t (repoint s clientID planID) resellerID = resellerRoutes t s resellerID := by
  refine resellerRoutes_congr rfl fun sv hsv => ⟨_, mem_repoint.mpr ⟨sv, hsv, rfl⟩, ?_⟩
  split <;> exact ⟨rfl, rfl⟩

lemma resellerServices_repoint_of_ne (hclient : t.resellerOf clientID ≠ some resellerID) (planID : ℕ) :
    resellerServices t (repoint s clientID planID) resellerID = resellerServices t s resellerID := by
  unfold resellerServices
  change List.filter _ (s.services.rows.map _) = _
  induction s.services.rows with
  | nil => rfl
  | cons sv rows ih =>
    by_cases h : sv.clientID = clientID
    · simp only [map_cons, filter_cons, h, decide_true, if_true, owned, hclient, decide_false,
        Bool.false_eq_true, if_false]
      exact ih
    · simp only [map_cons, filter_cons, h, decide_false, Bool.false_eq_true, if_false]
      rw [ih]

/-- The services of the client are all given the capacity of the new plan. -/
lemma allocated_repoint {p : Plan} (hclient : t.resellerOf clientID = some resellerID)
    (hplan : t.plans.lookup planID = some p) (hkind : p.kind = .restricted) :
    allocated t (repoint s clientID planID) resellerID = allocatedToOthers t s resellerID clientID +
      (s.services.rows.countP fun sv => sv.clientID = clientID) * p.maxDomains := by
  have halloc : ∀ sv : Service, alloc t { sv with planID } = p.maxDomains := by
    simp [alloc, hplan, hkind]
  unfold allocated allocatedToOthers resellerServices
  change (List.map _ (List.filter _ (s.services.rows.map _))).sum = _
  induction s.services.rows with
  | nil => simp
  | cons sv rows ih =>
    by_cases h : sv.clientID = clientID
    · have howned : owned t resellerID sv := by simp [owned, h, hclient]
      have howned' : owned t resellerID { sv with planID } := howned
      rw [map_cons, if_pos (by simpa using h), filter_cons_of_pos howned', map_cons,
        sum_cons, ih, halloc, filter_cons_of_pos howned, filter_cons_of_neg (by simp [h]),
        countP_cons_of_pos (by simpa using h), Nat.add_mul, Nat.one_mul]
      omega
    · rw [map_cons, if_neg (by simpa using h)]
      by_cases howned : owned t resellerID sv
      · simp only [filter_cons_of_pos howned, map_cons, sum_cons, ih, ne_eq, h,
          not_false_eq_true, decide_true, filter_cons_of_pos, decide_false, Bool.false_eq_true,
          countP_cons_of_neg]
        omega
      · simp only [filter_cons_of_neg howned, ih, h, decide_false, Bool.false_eq_true,
          not_false_eq_true, countP_cons_of_neg]

end Writes

/-! ### What an accepted creation has passed -/

section Accepted

variable {t : Tenants} {s s' : State} {clientID planID serviceID id : ℕ}

/-- The check of the package, where the client has a reseller. -/
lemma ok_of_owner (check : ℕ → Except QuotaError Unit) {u : Unit} {resellerID : ℕ}
    (howner : t.resellerOf clientID = some resellerID) (hpos : resellerID ≠ 0)
    (h : ifOwned (ownerID noFailures t clientID) (check (ownerID noFailures t clientID)) = .ok u) :
    check resellerID = .ok () := by
  rw [ownerID_eq rfl howner] at h
  exact ok_of_ifOwned hpos h

lemma createService_eq_ok (h : createService noFailures t s clientID planID id = .ok s') :
    (∀ resellerID, t.resellerOf clientID = some resellerID → resellerID ≠ 0 →
      canCreateService noFailures t s resellerID planID = .ok ()) ∧
    insertService s ⟨id, clientID, planID⟩ = .ok s' := by
  obtain ⟨_, _, h⟩ := bind_eq_ok.mp h
  obtain ⟨_, hcheck, h⟩ := bind_eq_ok.mp h
  obtain ⟨_, _, h⟩ := bind_eq_ok.mp h
  obtain ⟨_, _, h⟩ := bind_eq_ok.mp h
  refine ⟨fun resellerID howner hpos => ?_, h⟩
  exact ok_of_owner (fun rid => canCreateService noFailures t s rid planID) howner hpos hcheck

lemma provisionService_eq_ok (h : provisionService noFailures t s clientID planID id = .ok s') :
    insertService s ⟨id, clientID, planID⟩ = .ok s' := by
  obtain ⟨_, _, h⟩ := bind_eq_ok.mp h
  obtain ⟨_, _, h⟩ := bind_eq_ok.mp h
  exact h

lemma ensureAdminService_eq_ok {nodeGroupID : ℕ}
    (h : ensureAdminService noFailures t s clientID nodeGroupID id = .ok s') :
    ∃ p ∈ t.plans, p.name = internalAdminPlanName ∧ p.nodeGroupID = nodeGroupID ∧
      insertService s ⟨id, clientID, p.id⟩ = .ok s' := by
  obtain ⟨p, hp, h⟩ := bind_eq_ok.mp h
  obtain ⟨_, _, h⟩ := bind_eq_ok.mp h
  have hfind := answer_of_handlerQuery hp
  obtain ⟨hname, hgroup⟩ : p.name = internalAdminPlanName ∧ p.nodeGroupID = nodeGroupID := by
    simpa using find?_some hfind
  exact ⟨p, mem_of_find?_eq_some hfind, hname, hgroup, h⟩

lemma clientChangePlan_eq_ok (h : clientChangePlan noFailures t s clientID planID = .ok s') :
    (∀ resellerID, t.resellerOf clientID = some resellerID → resellerID ≠ 0 →
      canChangeClientPlan noFailures t s resellerID clientID planID = .ok ()) ∧ s' = repoint s clientID planID := by
  obtain ⟨_, _, h⟩ := bind_eq_ok.mp h
  obtain ⟨_, _, h⟩ := bind_eq_ok.mp h
  obtain ⟨_, hcheck, h⟩ := bind_eq_ok.mp h
  refine ⟨fun resellerID howner hpos => ?_, (Except.ok.inj h).symm⟩
  exact ok_of_owner (fun rid => canChangeClientPlan noFailures t s rid clientID planID) howner hpos hcheck

lemma createRoute_eq_ok (h : createRoute noFailures t s serviceID id = .ok s') :
    ∃ sv p, s.services.lookup serviceID = some sv ∧ t.plans.lookup sv.planID = some p ∧
      (0 < p.maxDomains → routesOf s serviceID < p.maxDomains) ∧
      (∀ resellerID, t.resellerOf sv.clientID = some resellerID → resellerID ≠ 0 →
        canCreateRoute noFailures t s resellerID serviceID = .ok ()) ∧ insertRoute s ⟨id, serviceID⟩ = .ok s' := by
  obtain ⟨sv, hsv, h⟩ := bind_eq_ok.mp h
  obtain ⟨p, hp, h⟩ := bind_eq_ok.mp h
  obtain ⟨_, _, h⟩ := bind_eq_ok.mp h
  obtain ⟨_, hcheck, h⟩ := bind_eq_ok.mp h
  obtain ⟨_, _, hcheck⟩ := bind_eq_ok.mp hcheck
  obtain ⟨_, hcount, hcheck⟩ := bind_eq_ok.mp hcheck
  have hsv := answer_of_handlerQuery hsv
  have hp := answer_of_handlerQuery hp
  refine ⟨sv, p, hsv, hp, fun hpos => ?_, fun resellerID howner hpos => ?_, h⟩
  · unfold checkPlanCount at hcount
    split at hcount
    · cases hcount
    rename_i hnot
    by_contra hle
    exact hnot ⟨hpos, rfl, not_lt.mp hle⟩
  · have hlogged := ok_of_owner (fun rid => logged (canCreateRoute noFailures t s rid serviceID)) howner
      hpos hcheck
    rcases canCreateRoute_noFailures hsv hp with hok | herror
    · exact hok
    · simp [herror, logged] at hlogged

lemma cloneRoute_eq_ok {routeID : ℕ} (h : cloneRoute noFailures s routeID id = .ok s') :
    ∃ r, s.routes.lookup routeID = some r ∧ insertRoute s ⟨id, r.serviceID⟩ = .ok s' := by
  obtain ⟨r, hr, h⟩ := bind_eq_ok.mp h
  exact ⟨r, answer_of_handlerQuery hr, h⟩

end Accepted

/-! ### The checks of a package without overselling -/

/-- The reseller may have so many routes, and may not oversell. -/
structure Limited (t : Tenants) (resellerID max : ℕ) : Prop where
  limits : ∃ l, t.limits resellerID = some l ∧ l.overselling = false ∧ l.maxDomains = max
  pos : 0 < max

section Limited

variable {t : Tenants} {s : State} {resellerID max planID : ℕ} {p : Plan}

lemma Limited.ne_zero (hl : Limited t resellerID max) : resellerID ≠ 0 := by
  rintro rfl
  obtain ⟨l, h, -⟩ := hl.limits
  cases h

lemma Limited.canCreateService (hl : Limited t resellerID max) (hplan : t.plans.lookup planID = some p)
    (hkind : p.kind = .restricted) (h : canCreateService noFailures t s resellerID planID = .ok ()) :
    0 < p.maxDomains ∧ allocated t s resellerID + p.maxDomains ≤ max := by
  obtain ⟨l, hlimits, hover, rfl⟩ := hl.limits
  have hpos := hl.pos
  rw [Quota.canCreateService, limitsOn_noFailures, ok_bind, hlimits] at h
  obtain ⟨_, _, h⟩ := bind_eq_ok.mp h
  simp only [checkAllocation, hover, Bool.false_eq_true, hpos.ne', or_self, if_false, queryRow, hplan,
    query_noFailures, ok_bind, hkind, reduceCtorEq] at h
  split at h
  · cases h
  rename_i hmax
  split at h
  · cases h
  · next hfits => exact ⟨Nat.pos_of_ne_zero hmax, not_lt.mp hfits⟩

lemma Limited.canChangeClientPlan (hl : Limited t resellerID max) {clientID : ℕ}
    (hplan : t.plans.lookup planID = some p) (hkind : p.kind = .restricted)
    (h : canChangeClientPlan noFailures t s resellerID clientID planID = .ok ()) :
    (s.services.rows.countP fun sv => sv.clientID = clientID) = 0 ∨
      0 < p.maxDomains ∧ allocatedToOthers t s resellerID clientID +
        (s.services.rows.countP fun sv => sv.clientID = clientID) * p.maxDomains ≤ max := by
  obtain ⟨l, hlimits, hover, rfl⟩ := hl.limits
  have hpos := hl.pos
  rw [Quota.canChangeClientPlan, limitsOn_noFailures, ok_bind, hlimits] at h
  simp only [hover, Bool.false_eq_true, hpos.ne', or_self, if_false, queryRow, hplan, query_noFailures,
    ok_bind, hkind, reduceCtorEq] at h
  split at h
  · next hmoving => exact .inl hmoving
  split at h
  · cases h
  rename_i hmax
  split at h
  · cases h
  · next hfits => exact .inr ⟨Nat.pos_of_ne_zero hmax, not_lt.mp hfits⟩

lemma Limited.canCreateRoute (hl : Limited t resellerID max) {serviceID : ℕ} {sv : Service}
    (hsv : s.services.lookup serviceID = some sv) (hplan : t.plans.lookup sv.planID = some p)
    (hkind : p.kind = .npm) (h : canCreateRoute noFailures t s resellerID serviceID = .ok ()) :
    resellerRoutes t s resellerID < max := by
  obtain ⟨l, hlimits, hover, rfl⟩ := hl.limits
  have hpos := hl.pos
  rw [Quota.canCreateRoute, limitsOn_noFailures, ok_bind, hlimits] at h
  simp only [hpos.ne', if_false, hover, Bool.false_eq_true, queryRow, hsv, Option.bind_some, hplan,
    query_noFailures, ok_bind, hkind, if_true, checkRouteCount] at h
  split at h
  · cases h
  · next hlt => exact not_le.mp hlt

end Limited

/-! ### Two kinds of resellers -/

def planKind (t : Tenants) (planID : ℕ) : Option PlanKind :=
  (t.plans.lookup planID).map (·.kind)

/-- A service within its plan, and the plan one that has a capacity. -/
def WithinPlan (t : Tenants) (s : State) (sv : Service) : Prop :=
  ∃ p, t.plans.lookup sv.planID = some p ∧ p.kind = .restricted ∧ 0 < p.maxDomains ∧
    routesOf s sv.id ≤ p.maxDomains

/-- The reseller gives out capacity. -/
structure Allocated (t : Tenants) (s : State) (resellerID max : ℕ) : Prop where
  within : ∀ sv ∈ s.services, t.resellerOf sv.clientID = some resellerID → WithinPlan t s sv
  fits : allocated t s resellerID ≤ max

/-- The reseller's routes are counted. -/
structure Counted (t : Tenants) (s : State) (resellerID max : ℕ) : Prop where
  npm : ∀ sv ∈ s.services, t.resellerOf sv.clientID = some resellerID → planKind t sv.planID = some .npm
  fits : resellerRoutes t s resellerID ≤ max

/-- The operations that keep a reseller to services of one kind: those of the other kind and those that
nothing checks are left to other clients, and a client's plan is not changed to one that its services have
outgrown. -/
def Regular (t : Tenants) (resellerID : ℕ) (kind : PlanKind) (s : State) : Op → Prop
  | .createService clientID planID _ =>
    t.resellerOf clientID = some resellerID → planKind t planID = some kind
  | .provisionService clientID planID _ =>
    t.resellerOf clientID = some resellerID → kind = .npm ∧ planKind t planID = some .npm
  | .ensureAdminService clientID nodeGroupID _ =>
    t.resellerOf clientID = some resellerID → kind = .npm ∧
      ∀ p ∈ t.plans, p.name = internalAdminPlanName → p.nodeGroupID = nodeGroupID → p.kind = .npm
  | .clientChangePlan clientID planID =>
    t.resellerOf clientID = some resellerID → planKind t planID = some kind ∧
      (kind = .restricted → ∀ sv ∈ s.services, sv.clientID = clientID →
        ∀ p, t.plans.lookup planID = some p → routesOf s sv.id ≤ p.maxDomains)
  | .createRoute _ _ => True
  | .cloneRoute routeID _ =>
    ∀ r, s.routes.lookup routeID = some r → ∀ sv, s.services.lookup r.serviceID = some sv →
      t.resellerOf sv.clientID ≠ some resellerID

lemma exists_of_planKind {t : Tenants} {planID : ℕ} {kind : PlanKind} (h : planKind t planID = some kind) :
    ∃ p, t.plans.lookup planID = some p ∧ p.kind = kind :=
  Option.map_eq_some_iff.mp h

section Kinds

variable {t : Tenants} {s s' : State} {resellerID max : ℕ}

lemma Allocated.resellerRoutes_le (h : Allocated t s resellerID max) : resellerRoutes t s resellerID ≤ max := by
  have hroutes : resellerRoutes t s resellerID ≤
      ((resellerServices t s resellerID).map fun sv => routesOf s sv.id).sum := by
    refine Tables.countP_le_sum (fun r hr => ?_) s.routes.rows
    cases hsv : s.services.lookup r.serviceID with
    | none =>
      rw [hsv] at hr
      cases hr
    | some sv =>
      rw [hsv] at hr
      obtain ⟨hmem, hid⟩ := lookup_eq_some.mp hsv
      exact ⟨sv, mem_filter.mpr ⟨hmem, hr⟩, by simp [hid]⟩
  have hsum : ((resellerServices t s resellerID).map fun sv => routesOf s sv.id).sum ≤
      allocated t s resellerID := by
    refine sum_le_sum fun sv hsv => ?_
    obtain ⟨hmem, howner⟩ := by simpa [resellerServices, owned] using hsv
    obtain ⟨p, hp, hkind, -, hle⟩ := h.within sv hmem howner
    simpa [alloc, hp, hkind] using hle
  exact hroutes.trans (hsum.trans h.fits)

lemma mem_of_insertService {sv sv' : Service} (h : insertService s sv = .ok s') :
    sv' ∈ s'.services ↔ sv' ∈ s.services ∨ sv' = sv := by
  have hrows : sv' ∈ s'.services ↔ sv' ∈ s.services.rows ++ [sv] := by
    rw [← (rows_of_insertService h).1]
    exact Iff.rfl
  rw [hrows, mem_append, mem_singleton]
  exact Iff.rfl

lemma Allocated.insertService (h : Allocated t s resellerID max) {sv : Service}
    (hins : Quota.insertService s sv = .ok s')
    (hok : t.resellerOf sv.clientID = some resellerID → ∃ p, t.plans.lookup sv.planID = some p ∧
      p.kind = .restricted ∧ 0 < p.maxDomains ∧ allocated t s resellerID + p.maxDomains ≤ max) :
    Allocated t s' resellerID max := by
  obtain ⟨-, hnew, hroutes⟩ := rows_of_insertService hins
  have hcount : ∀ id, routesOf s' id = routesOf s id := by
    intro id
    rw [routesOf, hroutes, routesOf]
  constructor
  · intro sv' hsv' howner
    rcases (mem_of_insertService hins).mp hsv' with hold | rfl
    · obtain ⟨p, hp, hkind, hpos, hle⟩ := h.within sv' hold howner
      exact ⟨p, hp, hkind, hpos, hcount sv'.id ▸ hle⟩
    obtain ⟨p, hp, hkind, hpos, -⟩ := hok howner
    refine ⟨p, hp, hkind, hpos, ?_⟩
    rw [hcount, routesOf_new hnew]
    exact Nat.zero_le _
  · rw [allocated_of_insertService hins]
    split
    · next howned =>
      obtain ⟨p, hp, hkind, -, hfits⟩ := hok (by simpa [owned] using howned)
      simpa [alloc, hp, hkind] using hfits
    · exact h.fits

lemma Allocated.insertRoute (h : Allocated t s resellerID max) {r : Route} (hins : Quota.insertRoute s r = .ok s')
    (hok : ∀ sv, s.services.lookup r.serviceID = some sv → t.resellerOf sv.clientID = some resellerID →
      ∀ p, t.plans.lookup sv.planID = some p → 0 < p.maxDomains → routesOf s sv.id < p.maxDomains) :
    Allocated t s' resellerID max := by
  obtain ⟨hservices, -⟩ := rows_of_insertRoute hins
  constructor
  · intro sv hsv howner
    rw [hservices] at hsv
    obtain ⟨p, hp, hkind, hpos, hle⟩ := h.within sv hsv howner
    refine ⟨p, hp, hkind, hpos, ?_⟩
    rw [routesOf_of_insertRoute hins]
    split
    · next hid => exact hok sv (hid ▸ lookup_key hsv) howner p hp hpos
    · exact hle
  · rw [allocated, resellerServices, hservices]
    exact h.fits

lemma Allocated.repoint (h : Allocated t s resellerID max) {clientID planID : ℕ}
    (hok : t.resellerOf clientID = some resellerID → ∃ p, t.plans.lookup planID = some p ∧
      p.kind = .restricted ∧ (∀ sv ∈ s.services, sv.clientID = clientID → routesOf s sv.id ≤ p.maxDomains) ∧
      ((s.services.rows.countP fun sv => sv.clientID = clientID) = 0 ∨
        0 < p.maxDomains ∧ allocatedToOthers t s resellerID clientID +
          (s.services.rows.countP fun sv => sv.clientID = clientID) * p.maxDomains ≤ max)) :
    Allocated t (Quota.repoint s clientID planID) resellerID max := by
  constructor
  · intro sv hsv howner
    obtain ⟨sv₀, hsv₀, rfl⟩ := mem_repoint.mp hsv
    by_cases hclient : sv₀.clientID = clientID
    · rw [if_pos hclient] at howner ⊢
      obtain ⟨p, hp, hkind, hle, hnone | ⟨hpos, -⟩⟩ := hok (hclient ▸ howner)
      · exact absurd (by simp [hclient]) (countP_eq_zero.mp hnone sv₀ hsv₀)
      · exact ⟨p, hp, hkind, hpos, hle sv₀ hsv₀ hclient⟩
    · rw [if_neg hclient] at howner ⊢
      exact h.within sv₀ hsv₀ howner
  · by_cases howner : t.resellerOf clientID = some resellerID
    · obtain ⟨p, hp, hkind, -, hfits⟩ := hok howner
      rw [allocated_repoint howner hp hkind]
      rcases hfits with hnone | ⟨-, hfits⟩
      · rw [hnone, Nat.zero_mul]
        refine le_trans ?_ h.fits
        exact List.Sublist.sum_le_sum (filter_sublist.map _) (fun _ _ => Nat.zero_le _)
      · exact hfits
    · rw [allocated, resellerServices_repoint_of_ne howner]
      exact h.fits

lemma Counted.insertService (h : Counted t s resellerID max) {sv : Service} (hins : Quota.insertService s sv = .ok s')
    (hok : t.resellerOf sv.clientID = some resellerID → planKind t sv.planID = some .npm) :
    Counted t s' resellerID max := by
  constructor
  · intro sv' hsv' howner
    rcases (mem_of_insertService hins).mp hsv' with hold | rfl
    · exact h.npm sv' hold howner
    · exact hok howner
  · rw [resellerRoutes_of_insertService hins]
    exact h.fits

lemma Counted.insertRoute (h : Counted t s resellerID max) {r : Route} (hins : Quota.insertRoute s r = .ok s')
    (hok : ∀ sv, s.services.lookup r.serviceID = some sv → t.resellerOf sv.clientID = some resellerID →
      resellerRoutes t s resellerID < max) : Counted t s' resellerID max := by
  obtain ⟨hservices, -⟩ := rows_of_insertRoute hins
  constructor
  · rw [hservices]
    exact h.npm
  rw [resellerRoutes_of_insertRoute hins]
  split
  · next howned =>
    obtain ⟨sv, hsv, howned⟩ := Option.any_eq_true _ _ |>.mp howned
    exact hok sv hsv (by simpa [owned] using howned)
  · exact h.fits

lemma Counted.repoint (h : Counted t s resellerID max) {clientID planID : ℕ}
    (hok : t.resellerOf clientID = some resellerID → planKind t planID = some .npm) :
    Counted t (Quota.repoint s clientID planID) resellerID max := by
  constructor
  · intro sv hsv howner
    obtain ⟨sv₀, hsv₀, rfl⟩ := mem_repoint.mp hsv
    by_cases hclient : sv₀.clientID = clientID
    · rw [if_pos hclient] at howner ⊢
      exact hok (hclient ▸ howner)
    · rw [if_neg hclient] at howner ⊢
      exact h.npm sv₀ hsv₀ howner
  · rw [resellerRoutes_repoint]
    exact h.fits

/-! ### Steps and runs -/

lemma apply_of_step {op : Op} (h : step t s op = some s') : op.apply t s = .ok s' := by
  unfold step at h
  cases hop : op.apply t s with
  | error e =>
    rw [hop] at h
    cases h
  | ok s₁ =>
    rw [hop] at h
    cases h
    rfl

lemma Allocated.step (hl : Limited t resellerID max) (h : Allocated t s resellerID max) {op : Op}
    (hreg : Regular t resellerID .restricted s op) (hstep : Quota.step t s op = some s') :
    Allocated t s' resellerID max := by
  have hop := apply_of_step hstep
  cases op with
  | createService clientID planID id =>
    obtain ⟨hcheck, hins⟩ := createService_eq_ok hop
    refine h.insertService hins fun howner => ?_
    obtain ⟨p, hp, hkind⟩ := exists_of_planKind (hreg howner)
    exact ⟨p, hp, hkind, hl.canCreateService hp hkind (hcheck resellerID howner hl.ne_zero)⟩
  | provisionService clientID planID id =>
    refine h.insertService (provisionService_eq_ok hop) fun howner => ?_
    cases (hreg howner).1
  | ensureAdminService clientID nodeGroupID id =>
    obtain ⟨p, -, -, -, hins⟩ := ensureAdminService_eq_ok hop
    refine h.insertService hins fun howner => ?_
    cases (hreg howner).1
  | clientChangePlan clientID planID =>
    obtain ⟨hcheck, rfl⟩ := clientChangePlan_eq_ok hop
    refine h.repoint fun howner => ?_
    obtain ⟨hplan, hle⟩ := hreg howner
    obtain ⟨p, hp, hkind⟩ := exists_of_planKind hplan
    exact ⟨p, hp, hkind, fun sv hsv hclient => hle rfl sv hsv hclient p hp,
      hl.canChangeClientPlan hp hkind (hcheck resellerID howner hl.ne_zero)⟩
  | createRoute serviceID id =>
    obtain ⟨sv, p, hsv, hp, hcount, -, hins⟩ := createRoute_eq_ok hop
    refine h.insertRoute hins fun sv' hsv' _ p' hp' hpos => ?_
    cases hsv.symm.trans hsv'
    cases hp.symm.trans hp'
    rw [(lookup_eq_some.mp hsv).2]
    exact hcount hpos
  | cloneRoute routeID id =>
    obtain ⟨r, hr, hins⟩ := cloneRoute_eq_ok hop
    exact h.insertRoute hins fun sv hsv howner => absurd howner (hreg r hr sv hsv)

lemma Counted.step (hl : Limited t resellerID max) (h : Counted t s resellerID max) {op : Op}
    (hreg : Regular t resellerID .npm s op) (hstep : Quota.step t s op = some s') : Counted t s' resellerID max := by
  have hop := apply_of_step hstep
  cases op with
  | createService clientID planID id =>
    exact h.insertService (createService_eq_ok hop).2 hreg
  | provisionService clientID planID id =>
    exact h.insertService (provisionService_eq_ok hop) fun howner => (hreg howner).2
  | ensureAdminService clientID nodeGroupID id =>
    obtain ⟨p, hmem, hname, hgroup, hins⟩ := ensureAdminService_eq_ok hop
    refine h.insertService hins fun howner => ?_
    rw [planKind, lookup_key hmem, Option.map_some, (hreg howner).2 p hmem hname hgroup]
  | clientChangePlan clientID planID =>
    obtain ⟨-, rfl⟩ := clientChangePlan_eq_ok hop
    exact h.repoint fun howner => (hreg howner).1
  | createRoute serviceID id =>
    obtain ⟨sv, p, hsv, hp, -, hcheck, hins⟩ := createRoute_eq_ok hop
    refine h.insertRoute hins fun sv' hsv' howner => ?_
    cases hsv.symm.trans hsv'
    have hkind := h.npm sv (lookup_eq_some.mp hsv).1 howner
    rw [planKind, hp, Option.map_some, Option.some.injEq] at hkind
    exact hl.canCreateRoute hsv hp hkind (hcheck resellerID howner hl.ne_zero)
  | cloneRoute routeID id =>
    obtain ⟨r, hr, hins⟩ := cloneRoute_eq_ok hop
    exact h.insertRoute hins fun sv hsv howner => absurd howner (hreg r hr sv hsv)

/-- The reseller's services are of one kind, and within the package. -/
def Within (t : Tenants) (resellerID max : ℕ) (kind : PlanKind) (s : State) : Prop :=
  match kind with
  | .restricted => Allocated t s resellerID max
  | .npm => Counted t s resellerID max

lemma Within.step {kind : PlanKind} (hl : Limited t resellerID max) (h : Within t resellerID max kind s)
    {op : Op} (hreg : Regular t resellerID kind s op) (hstep : Quota.step t s op = some s') :
    Within t resellerID max kind s' := by
  cases kind with
  | restricted => exact Allocated.step hl h hreg hstep
  | npm => exact Counted.step hl h hreg hstep

lemma Within.resellerRoutes_le {kind : PlanKind} (h : Within t resellerID max kind s) :
    resellerRoutes t s resellerID ≤ max := by
  cases kind with
  | restricted => exact Allocated.resellerRoutes_le h
  | npm => exact Counted.fits h

/-- A reseller that does not oversell stays within its package as long as its services are of one kind and the
ways around the checks are not used for its clients. -/
theorem resellerRoutes_le_max {kind : PlanKind} {ops : List Op} (hl : Limited t resellerID max)
    (hs : Within t resellerID max kind s) (hreg : Runs.Meets (Quota.step t) (Regular t resellerID kind) s ops)
    (hrun : Runs.run (Quota.step t) s ops = some s') : resellerRoutes t s' resellerID ≤ max := by
  have hinv := Runs.run_invariant_of_meets (I := Within t resellerID max kind)
    (fun s₁ op s₂ h hop hstep => h.step hl hop hstep) hs hreg hrun
  exact hinv.resellerRoutes_le

end Kinds

/-! ### Two ways out of a package -/

/-- A reseller with a package of two domains and one client; a plan for two domains and the internal plan. -/
def smallPackage : Tenants where
  resellers := { rows := [⟨1, some 1, false⟩], nodup := by decide }
  resellerPlans := { rows := [⟨1, 0, 2⟩], nodup := by decide }
  clients := { rows := [⟨1, some 1⟩], nodup := by decide }
  plans :=
    { rows := [⟨1, "small", .restricted, 2, 1⟩, ⟨2, internalAdminPlanName, .npm, 1000000, 1⟩]
      nodup := by decide }

def noServices : State where
  services := { rows := [], nodup := nodup_nil }
  routes := { rows := [], nodup := nodup_nil }
  hasService := fun _ hr => nomatch hr

/-- How many routes the reseller has after these operations. -/
def routesAfter (ops : List Op) : Option ℕ :=
  (Runs.run (step smallPackage) noServices ops).map fun s => resellerRoutes smallPackage s 1

theorem resellerRoutes_le_max_small :
    ∃ s', Runs.run (step smallPackage) noServices [.createService 1 1 1, .createRoute 1 1, .createRoute 1 2] =
      some s' ∧ resellerRoutes smallPackage s' 1 ≤ 2 := by
  have hl : Limited smallPackage 1 2 := ⟨⟨⟨0, 2, false⟩, rfl, rfl, rfl⟩, by decide⟩
  have hs : Within smallPackage 1 2 .restricted noServices :=
    Allocated.mk (fun sv hsv => nomatch hsv) (by decide)
  have hreg : Runs.Meets (step smallPackage) (Regular smallPackage 1 .restricted) noServices
      [.createService 1 1 1, .createRoute 1 1, .createRoute 1 2] :=
    ⟨fun _ => rfl, trivial, trivial, trivial⟩
  exact ⟨_, rfl, resellerRoutes_le_max hl hs hreg rfl⟩

/-- Routes on the internal plan and routes of the capacity that was given out do not see each other; and the
billing API gives out capacity that is not there. -/
theorem package_is_exceeded :
    routesAfter [.createService 1 1 1, .ensureAdminService 1 1 2, .createRoute 2 1, .createRoute 2 2,
      .createRoute 1 3, .createRoute 1 4] = some 4 ∧
    routesAfter [.provisionService 1 1 1, .provisionService 1 1 2, .createRoute 1 1, .createRoute 1 2,
      .createRoute 2 3, .createRoute 2 4] = some 4 := by
  decide +kernel

end Quota
