import CaddyPanel.Accounts.Users

/-!
# The last active `super_admin`

`UsersUpdate` and `UsersDelete` count the active `super_admin`s before their write, and `UsersToggle` does not
count them. A write leaves one exactly if the count that the guard makes would still be above one at the time of
the write, wherever the write takes one away.
-/

namespace Accounts

open List

def User.isSuper (u : User) : Bool :=
  u.role = .superAdmin && u.isActive

lemma one_le_activeSuperAdmins {users : Users} : 1 ≤ activeSuperAdmins users ↔ ∃ u ∈ users, u.isSuper :=
  countP_pos_iff

/-- One of the active `super_admin`s is not the only one. -/
lemma two_le_activeSuperAdmins {users : Users} {u : User} (hu : u ∈ users) (hsuper : u.isSuper) :
    2 ≤ activeSuperAdmins users ↔ ∃ u' ∈ users, u' ≠ u ∧ u'.isSuper := by
  have hnodup : users.rows.Nodup := users.nodup.of_map
  have herase : activeSuperAdmins users = (users.rows.erase u).countP User.isSuper + 1 := by
    have hperm := (perm_cons_erase hu).countP_eq User.isSuper
    rwa [countP_cons_of_pos hsuper] at hperm
  rw [herase, Nat.succ_le_succ_iff, Nat.one_le_iff_ne_zero, ← Nat.pos_iff_ne_zero, countP_pos_iff]
  refine exists_congr fun u' => ?_
  rw [hnodup.mem_erase_iff, and_assoc, and_left_comm]
  exact Iff.rfl

/-! ### Writes -/

/-- The writes that take the row out of the active `super_admin`s. -/
def Write.unseats (u : User) : Write → Bool
  | .update form _ => u.id = form.id && (form.role ≠ .superAdmin || !form.isActive)
  | .toggle id => u.id = id
  | .delete id => u.id = id
  | .deactivate id => u.id = id
  | _ => false

lemma isSuper_updated (u : User) (form : UserForm) (curRole : Role) :
    (u.updated form curRole).isSuper = (form.role = .superAdmin && form.isActive) := by
  have hrewritten : (u.rewritten form).isSuper = (form.role = .superAdmin && form.isActive) := by
    unfold User.rewritten
    split <;> rfl
  unfold User.updated
  split
  · exact hrewritten
  · exact hrewritten

namespace Write

/-- An active `super_admin` stays one under every other write. -/
lemma isSuper_row (w : Write) {u : User} (hsuper : u.isSuper) (h : w.unseats u = false) :
    w.deletes u = false ∧ (w.row u).isSuper := by
  obtain ⟨hrole, hactive⟩ : u.role = .superAdmin ∧ u.isActive := by simpa [User.isSuper] using hsuper
  cases w with
  | update form curRole =>
    refine ⟨rfl, ?_⟩
    simp only [row]
    split
    · next hid =>
      rw [isSuper_updated]
      simpa [unseats, hid] using h
    · exact hsuper
  | toggle id | deactivate id =>
    have hid : u.id ≠ id := by simpa [unseats] using h
    refine ⟨rfl, ?_⟩
    rw [row, if_neg hid]
    exact hsuper
  | delete id => exact ⟨h, hsuper⟩
  | provision id reseller =>
    refine ⟨rfl, ?_⟩
    cases reseller <;> simp only [row, User.provisioned] <;> split <;>
      simp [User.isSuper, User.bump, hrole, hactive]
  | deleteReseller reseller freed =>
    refine ⟨rfl, ?_⟩
    simp only [row, User.orphaned]
    split <;> simp [User.isSuper, hrole, hactive]
  | scope | activate | revoke =>
    refine ⟨rfl, ?_⟩
    simp only [row]
    split <;> simp [User.isSuper, User.bump, hrole, hactive]

/-- A write that takes away an active `super_admin` does nothing else. -/
lemma of_unseats (w : Write) {u : User} (hsuper : u.isSuper) (h : w.unseats u) :
    (w.deletes u ∨ (w.row u).isSuper = false) ∧ ∀ u' : User, u'.id ≠ u.id → w.deletes u' = false ∧ w.row u' = u' := by
  obtain ⟨hrole, hactive⟩ : u.role = .superAdmin ∧ u.isActive := by simpa [User.isSuper] using hsuper
  cases w with
  | update form curRole =>
    obtain ⟨hid, hform⟩ : u.id = form.id ∧ (form.role = .superAdmin && form.isActive) = false := by
      simpa [unseats, imp_iff_not_or] using h
    refine ⟨.inr ?_, fun u' hne => ⟨rfl, ?_⟩⟩
    · rw [row, if_pos hid, isSuper_updated]
      exact hform
    · rw [row, if_neg (hid ▸ hne)]
  | toggle id =>
    have hid : u.id = id := by simpa [unseats] using h
    refine ⟨.inr ?_, fun u' hne => ⟨rfl, ?_⟩⟩
    · simp [row, hid, User.isSuper, User.bump, hactive]
    · rw [row, if_neg (hid ▸ hne)]
  | deactivate id =>
    have hid : u.id = id := by simpa [unseats] using h
    refine ⟨.inr ?_, fun u' hne => ⟨rfl, ?_⟩⟩
    · simp [row, hid, User.isSuper, User.bump]
    · rw [row, if_neg (hid ▸ hne)]
  | delete id =>
    have hid : u.id = id := by simpa [unseats] using h
    refine ⟨.inl (by simp [deletes, hid]), fun u' hne => ⟨?_, rfl⟩⟩
    simpa [deletes] using hid ▸ hne
  | _ => cases h

/-- What decides whether a write leaves an active `super_admin`. -/
lemma one_le_apply_iff (w : Write) {users : Users} (h : 1 ≤ activeSuperAdmins users) :
    1 ≤ activeSuperAdmins (w.apply users) ↔ ((∃ u ∈ users, u.isSuper ∧ w.unseats u) → 2 ≤ activeSuperAdmins users) := by
  rw [one_le_activeSuperAdmins]
  constructor
  · rintro ⟨u', hu', hsuper'⟩ ⟨u, hu, hsuper, hun⟩
    obtain ⟨hgone, hrest⟩ := w.of_unseats hsuper hun
    obtain ⟨u₀, hu₀, hdel, rfl⟩ := w.mem_apply.mp hu'
    -- what is left was an active super_admin before, and not the one that is taken away
    have hne : u₀ ≠ u := by
      rintro rfl
      obtain hgone | hgone := hgone
      · exact Bool.false_ne_true (hdel.symm.trans hgone)
      · exact Bool.false_ne_true (hgone.symm.trans hsuper')
    have hid : u₀.id ≠ u.id := fun hid => hne (inj_on_of_nodup_map users.nodup hu₀ hu hid)
    rw [(hrest u₀ hid).2] at hsuper'
    exact (two_le_activeSuperAdmins hu hsuper).mpr ⟨u₀, hu₀, hne, hsuper'⟩
  · intro hguard
    by_cases hun : ∃ u ∈ users, u.isSuper ∧ w.unseats u
    · obtain ⟨u, hu, hsuper, hunseats⟩ := hun
      obtain ⟨u', hu', hne, hsuper'⟩ := (two_le_activeSuperAdmins hu hsuper).mp (hguard ⟨u, hu, hsuper, hunseats⟩)
      have hid : u'.id ≠ u.id := fun hid => hne (inj_on_of_nodup_map users.nodup hu' hu hid)
      obtain ⟨hdel, hrow⟩ := (w.of_unseats hsuper hunseats).2 u' hid
      exact ⟨u', w.mem_apply.mpr ⟨u', hu', hdel, hrow⟩, hsuper'⟩
    · obtain ⟨u, hu, hsuper⟩ := one_le_activeSuperAdmins.mp h
      have hstays : w.unseats u = false := by
        by_contra hunseats
        exact hun ⟨u, hu, hsuper, eq_true_of_ne_false hunseats⟩
      obtain ⟨hdel, hrow⟩ := w.isSuper_row hsuper hstays
      exact ⟨w.row u, w.mem_apply.mpr ⟨u, hu, hdel, rfl⟩, hrow⟩

end Write

/-! ### Runs -/

/-- At the time of a write that takes away an active `super_admin`, the count of the guard is above one. -/
def Guarded (s : State) : Action → Prop
  | .commit call false => ∀ w, s.calls call = some (.writing w) →
      (∃ u ∈ s.users, u.isSuper ∧ w.unseats u) → 2 ≤ activeSuperAdmins s.users
  | _ => True

def Remains (s : State) (a : Action) : Prop :=
  ∀ s', step s a = some s' → 1 ≤ activeSuperAdmins s'.users

/-- A step is the transaction of a call, or takes no user away. -/
lemma users_step {s s' : State} {a : Action} (h : step s a = some s') :
    (∃ call w, a = .commit call false ∧ s.calls call = some (.writing w) ∧ s'.users = w.apply s.users) ∨
      ∀ u ∈ s.users, u ∈ s'.users := by
  cases a with
  | create role isActive resellerID =>
    obtain ⟨users, husers, rfl⟩ := Option.map_eq_some_iff.mp h
    exact .inr fun u hu => (Rows.mem_insert husers).mpr (.inl hu)
  | drop sess =>
    cases h
    exact .inr fun _ hu => hu
  | commit call fails =>
    simp only [step] at h
    split at h
    · next w hcall =>
      cases fails with
      | true =>
        cases h
        exact .inr fun _ hu => hu
      | false =>
        cases h
        exact .inl ⟨call, w, rfl, hcall, rfl⟩
    · cases h
  | login | mint | begin | count =>
    simp only [step] at h
    split at h <;> cases h
    exact .inr fun _ hu => hu

lemma remains_iff_guarded {s : State} {a : Action} (hs : 1 ≤ activeSuperAdmins s.users) :
    Remains s a ↔ Guarded s a := by
  constructor
  · intro h
    unfold Guarded
    split
    · next call =>
      intro w hcall
      have hstep : step s (.commit call false) = some ({ s with users := w.apply s.users }.set call w.next) := by
        simp [step, hcall]
      exact (w.one_le_apply_iff hs).mp (h _ hstep)
    · trivial
  · intro hguarded s' hstep
    obtain ⟨call, w, rfl, hcall, husers⟩ | hkeeps := users_step hstep
    · rw [husers]
      exact (w.one_le_apply_iff hs).mpr (hguarded w hcall)
    · obtain ⟨u, hu, hsuper⟩ := one_le_activeSuperAdmins.mp hs
      exact one_le_activeSuperAdmins.mpr ⟨u, hkeeps u hu, hsuper⟩

/-- In every interleaving of the requests of any number of administrators, an active `super_admin` remains
exactly if every write that takes one away finds the count of the guard above one. -/
theorem superAdmin_remains_iff {s : State} (hs : 1 ≤ activeSuperAdmins s.users) (as : List Action) :
    Runs.Meets step Remains s as ↔ Runs.Meets step Guarded s as := by
  refine Runs.meets_iff_of_invariant (I := fun s => 1 ≤ activeSuperAdmins s.users) ?_ ?_ hs as
  · intro s a s' hI hguarded hstep
    exact (remains_iff_guarded hI).mpr hguarded s' hstep
  · exact fun s a hI => remains_iff_guarded hI

def superSession (id : ℕ) : Session := { userID := id, claims := ⟨.superAdmin, 0, false⟩, epoch := 0 }

/-- Two `super_admin`s with their sessions. -/
def twoSuperAdmins : State where
  users := ⟨[{ id := 1, role := .superAdmin, isActive := true }, { id := 2, role := .superAdmin, isActive := true }],
    by decide⟩
  nextID := 3
  sessions := [superSession 1, superSession 2]
  calls := fun _ => none

/-- Each of them toggles the other, and both requests are admitted before the first write. -/
def crossedToggles : List Action :=
  [.begin 0 (some (superSession 1)) (.toggle 2), .begin 1 (some (superSession 2)) (.toggle 1),
    .commit 0 false, .commit 1 false]

/-- Each of them deletes the other, and both count two before the first write. -/
def crossedDeletes : List Action :=
  [.begin 0 (some (superSession 1)) (.delete 2), .begin 1 (some (superSession 2)) (.delete 1),
    .count 0 false, .count 1 false, .commit 0 false, .commit 1 false]

theorem superAdmin_remains_iff_crossedToggles : 1 ≤ activeSuperAdmins twoSuperAdmins.users ∧
      (Runs.Meets step Remains twoSuperAdmins crossedToggles ↔ Runs.Meets step Guarded twoSuperAdmins crossedToggles) :=
  ⟨by decide, superAdmin_remains_iff (by decide) crossedToggles⟩

/-- Both writes commit, and no active `super_admin` is left. -/
theorem crossed_requests_leave_none :
    (Runs.run step twoSuperAdmins crossedToggles).map (fun s => activeSuperAdmins s.users) = some 0 ∧
      (Runs.run step twoSuperAdmins crossedDeletes).map (fun s => activeSuperAdmins s.users) = some 0 := by
  decide +kernel

end Accounts
