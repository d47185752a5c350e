import CaddyPanel.Handlers.PlanScope

/-!
# The four answers to "who is confined"

What a user may act on is derived from the same rows in four places: by `ScopeFilter` and the `CanAccess…` checks of
`internal/adminscope/service.go`, by the claims of a session and `ResellerAdminBoundary`, and by
`RequireUnrestrictedAPIOwner` for API keys. They agree, with one exception: the API gate does not know of a user
with the role `reseller` that has lost its reseller.
-/

namespace ScopeAgreement

open List Rows
open Accounts (Role User Session loadSessionClaims)
open Adminscope PlanScope

structure Route where
  id : ℕ
  serviceID : ℕ
  deriving DecidableEq

/-- A row of `customer_wg_peer`. -/
structure Peer where
  id : ℕ
  clientID : ℕ
  deriving DecidableEq

structure Store extends DB where
  routes : Rows Route.id
  peers : Rows Peer.id

variable (s : Store)

/-- `JOIN services sv ON sv.id = r.service_id`: the client of a route. -/
def Store.routeClient (routeID : ℕ) : Option ℕ :=
  (s.routes.lookup routeID).bind fun r => (s.services.lookup r.serviceID).map Service.clientID

def Store.peerClient (peerID : ℕ) : Option ℕ :=
  (s.peers.lookup peerID).map Peer.clientID

/-- What the checks of one object have in common: both queries start from the client that it belongs to. -/
def canAccessOwned (adminUserID : ℕ) (owner : Option ℕ) : Bool :=
  match resolveMode s.dir adminUserID with
  | none => false
  | some m =>
    if m.all then true
    else if m.denied then false
    else if m.resellerID ≠ 0 then owner.any fun clientID => clientID ∈ resellerClientIDs s.dir m.resellerID
    else owner.any fun clientID => clientID ∈ assignedClientIDs s.dir adminUserID

def canAccessRoute (adminUserID routeID : ℕ) : Bool :=
  canAccessOwned s adminUserID (s.routeClient routeID)

def canAccessPeer (adminUserID peerID : ℕ) : Bool :=
  canAccessOwned s adminUserID (s.peerClient peerID)

variable {s} {u : User} {ids : List ℕ}

/-! ### One scope for clients, routes and peers -/

/-- A list of `ScopeFilter` is the one that the checks of single objects look into. -/
lemma mode_of_scopeFilter {adminUserID : ℕ} (h : scopeFilter s.dir adminUserID = some (ids, false)) :
    ∃ m, resolveMode s.dir adminUserID = some m ∧ m.all = false ∧ (m.denied ∧ ids = [] ∨
        m.denied = false ∧ m.resellerID ≠ 0 ∧ ids = resellerClientIDs s.dir m.resellerID ∨
        m.denied = false ∧ m.resellerID = 0 ∧ ids = assignedClientIDs s.dir adminUserID) := by
  unfold scopeFilter at h
  split_ifs at h with hzero
  · simp at h
  cases hm : resolveMode s.dir adminUserID with
  | none => simp [hm] at h
  | some m =>
    refine ⟨m, rfl, ?_⟩
    simp only [hm] at h
    split_ifs at h with hall hdenied hrid
    · simp at h
    · obtain ⟨rfl, -⟩ := Prod.mk.inj (Option.some.inj h)
      exact ⟨by simpa using hall, .inl ⟨hdenied, rfl⟩⟩
    · obtain ⟨rfl, -⟩ := Prod.mk.inj (Option.some.inj h)
      exact ⟨by simpa using hall, .inr (.inl ⟨by simpa using hdenied, hrid, rfl⟩)⟩
    · obtain ⟨rfl, -⟩ := Prod.mk.inj (Option.some.inj h)
      exact ⟨by simpa using hall, .inr (.inr ⟨by simpa using hdenied, by simpa using hrid, rfl⟩)⟩

lemma canAccessOwned_iff {adminUserID : ℕ} (h : scopeFilter s.dir adminUserID = some (ids, false))
    (owner : Option ℕ) : canAccessOwned s adminUserID owner ↔ ∃ clientID ∈ ids, owner = some clientID := by
  obtain ⟨m, hm, hall, ⟨hdenied, rfl⟩ | ⟨hdenied, hrid, rfl⟩ | ⟨hdenied, hrid, rfl⟩⟩ := mode_of_scopeFilter h
  · simp [canAccessOwned, hm, hall, hdenied]
  · simp [canAccessOwned, hm, hall, hdenied, hrid, Option.any_eq_true, and_comm]
  · simp [canAccessOwned, hm, hall, hdenied, hrid, Option.any_eq_true, and_comm]

lemma canAccessClient_iff {adminUserID : ℕ} (h : scopeFilter s.dir adminUserID = some (ids, false))
    (clientID : ℕ) : canAccessClient s.dir adminUserID clientID ↔ clientID ∈ ids := by
  obtain ⟨m, hm, hall, ⟨hdenied, rfl⟩ | ⟨hdenied, hrid, rfl⟩ | ⟨hdenied, hrid, rfl⟩⟩ := mode_of_scopeFilter h
  · simp [canAccessClient, hm, hall, hdenied]
  · simp [canAccessClient, hm, hall, hdenied, hrid]
  · simp [canAccessClient, hm, hall, hdenied, hrid]

/-! ### Who has everything -/

/-- A reseller that is bound to nothing, and whose row does not say that it is restricted. -/
def Orphan (u : User) : Prop :=
  u.role = .reseller ∧ u.resellerID = none ∧ u.restricted = false

instance : Decidable (Orphan u) :=
  inferInstanceAs (Decidable (_ ∧ _ ∧ _))

lemma scopeFilter_all_iff (hu : u ∈ s.dir.users) (hrole : u.role ≠ .superAdmin) :
    (∃ l, scopeFilter s.dir u.id = some (l, true)) ↔
      u.resellerID = none ∧ u.restricted = false ∧ u.role ≠ .reseller := by
  have hlookup := lookup_key hu
  have hne := s.dir.user_ne u hu
  cases hrid : u.resellerID with
  | some rid =>
    have hzero : rid ≠ 0 := by
      have hbound := s.dir.bound_ne u hu
      simpa [hrid] using hbound
    obtain ⟨active, hactive⟩ := userReseller_of_bound hu hrid
    cases active <;> simp [scopeFilter, resolveMode, hne, hlookup, hrole, hactive, hzero]
  | none =>
    by_cases hres : u.role = .reseller
    · simp [scopeFilter, resolveMode, userReseller, hne, hlookup, hrid, hres]
    · cases hrestricted : u.restricted <;>
        simp [scopeFilter, resolveMode, userReseller, hne, hlookup, hrole, hrid, hres, hrestricted]

lemma bounded_of_claims {sess : Session} (hu : u ∈ s.dir.users)
    (hload : loadSessionClaims s.dir.users u.id = some sess) (hbounded : bounded sess) :
    ¬(u.resellerID = none ∧ u.restricted = false ∧ u.role ≠ .reseller) := by
  rintro ⟨hrid, hrestricted, hrole⟩
  simp only [loadSessionClaims, lookup_key hu, Option.bind_some] at hload
  split_ifs at hload
  obtain rfl := Option.some.inj hload
  simp [bounded, User.claims, hrid, hrestricted, hrole] at hbounded

lemma unrestrictedOwner_iff (hu : u ∈ s.dir.users) (hrole : u.role = .admin ∨ u.role = .reseller) :
    unrestrictedOwner s.toDB u ↔ u.resellerID = none ∧ u.restricted = false := by
  have hlookup := lookup_key hu
  have hkind : u.role ≠ .superAdmin ∧ u.role ≠ .api := by
    obtain hrole | hrole := hrole <;> simp [hrole]
  cases hrid : u.resellerID with
  | some rid =>
    have hbound := s.dir.bound_ne u hu
    have hzero : rid ≠ 0 := by simpa [hrid] using hbound
    simp [unrestrictedOwner, hkind.1, hkind.2, hlookup, hrid, hzero]
  | none => simp [unrestrictedOwner, hkind.1, hkind.2, hlookup, hrid]

/-! ### The answers agree -/

structure Agree (s : Store) (u : User) : Prop where
  clients : ∀ ids, scopeFilter s.dir u.id = some (ids, false) →
    ∀ clientID, clientID ∈ ids ↔ canAccessClient s.dir u.id clientID
  routes : ∀ ids, scopeFilter s.dir u.id = some (ids, false) →
    ∀ routeID, canAccessRoute s u.id routeID ↔ ∃ clientID ∈ ids, s.routeClient routeID = some clientID
  peers : ∀ ids, scopeFilter s.dir u.id = some (ids, false) →
    ∀ peerID, canAccessPeer s u.id peerID ↔ ∃ clientID ∈ ids, s.peerClient peerID = some clientID
  session : ∀ sess, loadSessionClaims s.dir.users u.id = some sess → bounded sess →
    ∃ ids, scopeFilter s.dir u.id = some (ids, false)
  apiKey : u.role = .admin ∨ u.role = .reseller → unrestrictedOwner s.toDB u →
    ∃ ids, scopeFilter s.dir u.id = some (ids, true)

lemma exists_scopeFilter (hu : u ∈ s.dir.users) : ∃ ids all, scopeFilter s.dir u.id = some (ids, all) := by
  obtain ⟨m, hm⟩ : ∃ m, resolveMode s.dir u.id = some m := by
    simp only [resolveMode, lookup_key hu]
    split_ifs <;> exact ⟨_, rfl⟩
  simp only [scopeFilter, hm]
  split_ifs <;> exact ⟨_, _, rfl⟩

/-- Clients, routes, peers, sessions and API keys are confined alike, for every user but an orphaned reseller. -/
theorem scopes_agree_iff (s : Store) (u : User) (hu : u ∈ s.dir.users) (hrole : u.role ≠ .superAdmin) :
    Agree s u ↔ ¬Orphan u := by
  constructor
  · rintro hagree ⟨hres, hnone, hfree⟩
    have hpass := (unrestrictedOwner_iff hu (.inr hres)).mpr ⟨hnone, hfree⟩
    exact ((scopeFilter_all_iff hu hrole).mp (hagree.apiKey (.inr hres) hpass)).2.2 hres
  intro horphan
  refine ⟨fun ids h clientID => (canAccessClient_iff h clientID).symm,
    fun ids h routeID => canAccessOwned_iff h _, fun ids h peerID => canAccessOwned_iff h _, ?_, ?_⟩
  · intro sess hload hbounded
    obtain ⟨ids, all, hfilter⟩ := exists_scopeFilter hu
    cases all with
    | false => exact ⟨ids, hfilter⟩
    | true => exact absurd ((scopeFilter_all_iff hu hrole).mp ⟨ids, hfilter⟩) (bounded_of_claims hu hload hbounded)
  · intro hkind hpass
    obtain ⟨hnone, hfree⟩ := (unrestrictedOwner_iff hu hkind).mp hpass
    exact (scopeFilter_all_iff hu hrole).mpr ⟨hnone, hfree, fun hres => horphan ⟨hres, hnone, hfree⟩⟩

/-- A user with the role of a reseller that is bound to none, an administrator of client 5, and another client; both
have a route and a tunnel. -/
def abandoned : Store where
  dir := {
    users := ⟨[{ id := 1, role := .reseller, isActive := true },
      { id := 2, role := .admin, isActive := true, restricted := true, scope := [5] }], by decide⟩
    resellers := ⟨[], nodup_nil⟩
    clients := ⟨[{ id := 5, userID := 9, resellerID := none }, { id := 6, userID := 10, resellerID := none }], by decide⟩
    user_ne := by decide
    bound_ne := by decide }
  plans := ⟨[], nodup_nil⟩
  services := ⟨[⟨1, 5, 1, 1, "10.0.0.5", 8000, 8009⟩, ⟨2, 6, 1, 1, "10.0.0.6", 8000, 8009⟩], by decide⟩
  routes := ⟨[⟨1, 1⟩, ⟨2, 2⟩], by decide⟩
  peers := ⟨[⟨1, 5⟩, ⟨2, 6⟩], by decide⟩

theorem scopes_agree_iff_admin :
    Agree abandoned { id := 2, role := .admin, isActive := true, restricted := true, scope := [5] } ↔
      ¬Orphan { id := 2, role := .admin, isActive := true, restricted := true, scope := [5] } :=
  scopes_agree_iff abandoned _ (by decide) (by decide)

/-- The orphaned reseller has no client at all, and its API keys pass as those of the platform. -/
theorem orphan_passes_api_gate : (loadSessionClaims abandoned.dir.users 1).any bounded ∧
      scopeFilter abandoned.dir 1 = some ([], false) ∧
      unrestrictedOwner abandoned.toDB { id := 1, role := .reseller, isActive := true } ∧
      ¬Agree abandoned { id := 1, role := .reseller, isActive := true } := by
  refine ⟨by decide, by decide, by decide, fun hagree => ?_⟩
  obtain ⟨ids, hall⟩ := hagree.apiKey (.inr rfl) (by decide)
  have hnone : scopeFilter abandoned.dir 1 = some ([], false) := by decide
  simp [hnone] at hall

end ScopeAgreement
