import CaddyPanel.Accounts.Users

/-!
# The scope of an administrator (`internal/adminscope/service.go`)

A user acts for the whole platform, for the clients of a reseller, or for the clients that were assigned. The
binding to a reseller wins over the restriction, and a binding that leads nowhere gives access to nothing.
-/

namespace Adminscope

open Rows
open Accounts (Role User Users)

structure Reseller where
  id : ℕ
  active : Bool
  /-- the node groups of its package -/
  nodeGroups : List ℕ := []

structure Client where
  id : ℕ
  userID : ℕ
  resellerID : Option ℕ
  deriving DecidableEq

/-- The tables that scopes are read from; numbers begin at one. -/
structure Directory where
  users : Users
  resellers : Rows Reseller.id
  clients : Rows Client.id
  user_ne : ∀ u ∈ users, u.id ≠ 0
  bound_ne : ∀ u ∈ users, u.resellerID ≠ some 0

/-- An administrator of the whole platform, or a machine. -/
def platform (u : User) : Bool :=
  u.role = .superAdmin || u.role = .api || (u.role = .admin && !u.restricted && u.resellerID.isNone)

variable (d : Directory)

def Directory.resellerOf (clientID : ℕ) : Option ℕ :=
  (d.clients.lookup clientID).bind (·.resellerID)

/-- The reseller of a user and whether it is active; `0` is none and `-1` a missing one. -/
def userReseller (adminUserID : ℕ) : Int × Bool :=
  match d.users.lookup adminUserID with
  | none => (0, false)
  | some u =>
    match u.resellerID with
    | none => if u.role = .reseller then (-1, false) else (0, false)
    | some rid =>
      match d.resellers.lookup rid with
      | none => (rid, false)
      | some r => (rid, r.active)

structure ScopeMode where
  all : Bool := false
  resellerID : Int := 0
  denied : Bool := false

/-- An absent user is an error. -/
def resolveMode (adminUserID : ℕ) : Option ScopeMode :=
  match d.users.lookup adminUserID with
  | none => none
  | some u =>
    if u.role = .superAdmin then some { all := true }
    else
      let (rid, active) := userReseller d adminUserID
      if rid ≠ 0 then
        if active then some { resellerID := rid } else some { denied := true }
      else if u.restricted then some {}
      else some { all := true }

def assignedClientIDs (adminUserID : ℕ) : List ℕ :=
  (d.users.lookup adminUserID).elim [] User.scope

def resellerClientIDs (resellerID : Int) : List ℕ :=
  (d.clients.rows.filter fun c => c.resellerID.any fun (rid : ℕ) => (rid : Int) = resellerID).map Client.id

def canAccessClient (adminUserID clientID : ℕ) : Bool :=
  match resolveMode d adminUserID with
  | none => false
  | some m =>
    if m.all then true
    else if m.denied then false
    else if m.resellerID ≠ 0 then clientID ∈ resellerClientIDs d m.resellerID
    else clientID ∈ assignedClientIDs d adminUserID

/-- The clients of a user and whether it may act on all; user `0` is the platform itself. -/
def scopeFilter (adminUserID : ℕ) : Option (List ℕ × Bool) :=
  if adminUserID = 0 then some ([], true)
  else
    match resolveMode d adminUserID with
    | none => none
    | some m =>
      if m.all then some ([], true)
      else if m.denied then some ([], false)
      else if m.resellerID ≠ 0 then some (resellerClientIDs d m.resellerID, false)
      else some (assignedClientIDs d adminUserID, false)

variable {d} {u : User}

/-! ### Limited administrators -/

/-- The scope of an administrator who is not one of the platform: nothing, the clients of the own reseller, or the
assigned ones. -/
inductive Confined (u : User) (m : ScopeMode) : Prop
  | denied (hall : m.all = false) (hdenied : m.denied)
  | reseller (rid : ℕ) (hrid : u.resellerID = some rid) (hne : rid ≠ 0) (hm : m = { resellerID := rid })
  | assigned (hnone : u.resellerID = none) (hm : m = {})

lemma Confined.all_eq_false {m : ScopeMode} (h : Confined u m) : m.all = false := by
  cases h with
  | denied hall _ => exact hall
  | reseller rid _ _ hm => rw [hm]
  | assigned _ hm => rw [hm]

lemma userReseller_of_bound (hu : u ∈ d.users) {rid : ℕ} (hrid : u.resellerID = some rid) :
    ∃ active, userReseller d u.id = ((rid : Int), active) := by
  simp only [userReseller, lookup_key hu, hrid]
  cases d.resellers.lookup rid with
  | none => exact ⟨false, rfl⟩
  | some r => exact ⟨r.active, rfl⟩

lemma confined_of_limited (hu : u ∈ d.users) (hrole : u.role = .admin ∨ u.role = .reseller)
    (hlimited : platform u = false) : ∃ m, resolveMode d u.id = some m ∧ Confined u m := by
  have hlookup := lookup_key hu
  have hsuper : u.role ≠ .superAdmin := by
    obtain hrole | hrole := hrole <;> simp [hrole]
  cases hrid : u.resellerID with
  | some rid =>
    have hne : rid ≠ 0 := by
      have hbound := d.bound_ne u hu
      simpa [hrid] using hbound
    obtain ⟨active, hactive⟩ := userReseller_of_bound hu hrid
    cases active with
    | true =>
      refine ⟨{ resellerID := rid }, ?_, .reseller rid hrid hne rfl⟩
      simp [resolveMode, hlookup, hsuper, hactive, hne]
    | false =>
      refine ⟨{ denied := true }, ?_, .denied rfl rfl⟩
      simp [resolveMode, hlookup, hsuper, hactive, hne]
  | none =>
    obtain hrole | hrole := hrole
    · have hrestricted : u.restricted := by
        simpa [platform, hrole, hrid] using hlimited
      refine ⟨{}, ?_, .assigned hrid rfl⟩
      simp [resolveMode, hlookup, userReseller, hrole, hrid, hrestricted]
    · refine ⟨{ denied := true }, ?_, .denied rfl rfl⟩
      simp [resolveMode, hlookup, userReseller, hrole, hrid]

lemma resellerOf_of_mem {clientID rid : ℕ} (h : clientID ∈ resellerClientIDs d rid) :
    d.resellerOf clientID = some rid := by
  obtain ⟨c, hc, rfl⟩ := List.mem_map.mp h
  obtain ⟨hmem, hany⟩ := List.mem_filter.mp hc
  have hlookup : d.clients.lookup c.id = some c := lookup_key hmem
  obtain ⟨rid', hrid', heq⟩ := (Option.any_eq_true _ _).mp hany
  have heq : rid' = rid := Int.ofNat.inj (of_decide_eq_true heq)
  rw [Directory.resellerOf, hlookup, Option.bind_some, hrid', heq]

/-- A user bound to a reseller acts on clients of that reseller only. -/
lemma resellerOf_of_canAccessClient (hu : u ∈ d.users) (hrole : u.role = .admin ∨ u.role = .reseller)
    (hlimited : platform u = false) {clientID rid : ℕ} (hrid : u.resellerID = some rid)
    (h : canAccessClient d u.id clientID) : d.resellerOf clientID = some rid := by
  obtain ⟨m, hm, hconfined⟩ := confined_of_limited hu hrole hlimited
  simp only [canAccessClient, hm] at h
  cases hconfined with
  | denied hall hdenied => simp [hall, hdenied] at h
  | reseller rid' hrid' hne hm' =>
    obtain rfl : rid' = rid := Option.some.inj (hrid'.symm.trans hrid)
    subst hm'
    exact resellerOf_of_mem (by simpa [hne] using h)
  | assigned hnone _ => simp [hrid] at hnone

/-- `ScopeFilter` gives a limited administrator a list, of clients of the own reseller where there is one. -/
lemma scopeFilter_of_limited (hu : u ∈ d.users) (hrole : u.role = .admin ∨ u.role = .reseller)
    (hlimited : platform u = false) :
    ∃ ids, scopeFilter d u.id = some (ids, false) ∧
      ∀ clientID ∈ ids, ∀ rid, u.resellerID = some rid → d.resellerOf clientID = some rid := by
  obtain ⟨m, hm, hconfined⟩ := confined_of_limited hu hrole hlimited
  simp only [scopeFilter, d.user_ne u hu, if_false, hm, hconfined.all_eq_false]
  cases hconfined with
  | denied _ hdenied => exact ⟨[], by simp [hdenied], nofun⟩
  | reseller rid hrid hne hm' =>
    subst hm'
    refine ⟨resellerClientIDs d rid, by simp [hne], fun clientID hmem rid' hrid' => ?_⟩
    obtain rfl : rid = rid' := Option.some.inj (hrid.symm.trans hrid')
    exact resellerOf_of_mem hmem
  | assigned hnone hm' =>
    subst hm'
    exact ⟨assignedClientIDs d u.id, by simp, fun _ _ rid hrid => by simp [hnone] at hrid⟩

end Adminscope
