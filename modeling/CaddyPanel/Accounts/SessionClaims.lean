import CaddyPanel.Accounts.Users
import CaddyPanel.Lib.Epochs

/-!
# What an accepted session says

A session is a stamp of its user's row in the sense of `Lib/Epochs`. Two transactions change the claims of a
row without a new epoch: `UsersUpdate` decides on the bump by the role that it read before, and
`reseller.Store.Delete` leaves the bump to a transaction of its own.
-/

namespace Accounts

open Option Rows

/-- What the epoch library sees of a row. -/
def User.entry (u : User) : Option Claims × ℕ :=
  (if u.isActive then some u.claims else none, u.epoch)

def view (users : Users) : Epochs.View ℕ Claims :=
  fun id => (users.lookup id).map User.entry

def Session.stamp (sess : Session) : Epochs.Stamp ℕ Claims :=
  ⟨sess.userID, sess.claims, sess.epoch⟩

/-- A session that is stored, or that a login is about to store. -/
def Held (s : State) (sess : Session) : Prop :=
  sess ∈ s.sessions ∨ ∃ call, s.calls call = some (.minting sess)

/-! ### Reads -/

variable {sess actor : Session} {users : Users} {id call : ℕ} {u u' : User} {s s' : State}

lemma agrees_of_loadSessionClaims
    (h : loadSessionClaims users id = some sess) : Epochs.Agrees (view users) sess.stamp := by
  obtain ⟨u, hu, hactive, rfl⟩ := loadSessionClaims_eq_some h
  simp [Epochs.Agrees, Session.stamp, view, hu, User.entry, hactive]

/-- The target of an impersonation has no claims beside its role. -/
def plainClient (users : Users) (id : ℕ) : Bool :=
  (users.lookup id).all fun u => u.role ≠ .client || (u.resellerID.getD 0 = 0 && !u.restricted)

lemma agrees_of_impersonate (h : impersonate users actor id = some sess) (hplain : plainClient users id) :
    Epochs.Agrees (view users) sess.stamp := by
  obtain ⟨target, htarget, hrole, rfl⟩ := impersonate_eq_some h
  have hagrees := agrees_of_loadSessionClaims htarget
  obtain ⟨u, hu, -, rfl⟩ := loadSessionClaims_eq_some htarget
  have hclient : u.role = .client := hrole
  have hclaims : u.claims = ⟨.client, 0, false⟩ := by
    simpa [plainClient, hu, hclient, User.claims] using hplain
  rw [← hclaims]
  exact hagrees

lemma accepted_of_load (h : load users sess) : Epochs.Accepted (view users) sess.stamp := by
  have hepoch : epochOK users sess.userID sess.epoch := (Bool.and_eq_true_iff.mp h).1
  obtain ⟨u, hu, he⟩ : ∃ u, users.lookup sess.userID = some u ∧ u.epoch = sess.epoch := by
    simpa [epochOK, any_eq_true] using hepoch
  exact ⟨u.entry.1, by simp [view, Session.stamp, hu, User.entry, he]⟩

/-! ### Writes -/

/-- A write that changes the claims of an active row and keeps its epoch. -/
def Write.silent (u : User) : Write → Bool
  | .update form curRole =>
    u.id = form.id && !invalidating form curRole && !(form.role = .superAdmin && u.confined) &&
      u.isActive && u.role ≠ form.role
  | .deleteReseller reseller _ => u.resellerID = some reseller && u.isActive
  | _ => false

lemma advance_bump (h : u'.epoch = u.epoch) : Epochs.Advance (some u.entry) (some u'.bump.entry) :=
  .bumped _ _ (by simp [User.bump, h])

lemma advance_of_inactive (hactive : u.isActive = false) (h : u'.epoch = u.epoch) :
    Epochs.Advance (some u.entry) (some u'.entry) := by
  have hentry : u.entry = (none, u'.epoch) := by simp [User.entry, hactive, h]
  rw [hentry]
  exact .reopened _ _

lemma epoch_rewritten (u : User) (form : UserForm) : (u.rewritten form).epoch = u.epoch := by
  unfold User.rewritten
  split <;> rfl

lemma epoch_orphaned (u : User) : u.orphaned.epoch = u.epoch := by
  unfold User.orphaned
  split <;> rfl

/-- An edit that keeps the role, and finds nothing to clear, keeps the claims. -/
lemma claims_rewritten {form : UserForm} (hrole : u.role = form.role)
    (hconfined : (form.role = .superAdmin && u.confined) = false) : (u.rewritten form).claims = u.claims := by
  unfold User.rewritten
  split
  · next hsuper =>
    have hfree : u.restricted = false ∧ u.resellerID = none := by
      simp_all [User.confined]
    simp [User.claims, hrole, hfree]
  · simp [User.claims, hrole]

lemma isActive_rewritten (u : User) (form : UserForm) : (u.rewritten form).isActive = form.isActive := by
  unfold User.rewritten
  split <;> rfl

lemma entry_rewritten {form : UserForm} (hactive : u.isActive = form.isActive)
    (hrole : u.role = form.role) (hconfined : (form.role = .superAdmin && u.confined) = false) :
    (u.rewritten form).entry = u.entry := by
  simp [User.entry, claims_rewritten hrole hconfined, isActive_rewritten, epoch_rewritten, hactive]

lemma advance_updated (u : User) (form : UserForm) (curRole : Role) (hid : u.id = form.id)
    (h : (Write.update form curRole).silent u = false) :
    Epochs.Advance (some u.entry) (some (u.updated form curRole).entry) := by
  unfold User.updated
  split
  · exact advance_bump (epoch_rewritten u form)
  rename_i hkeep
  simp only [Bool.or_eq_true, not_or, Bool.not_eq_true] at hkeep
  obtain ⟨hinv, hconfined⟩ := hkeep
  cases hactive : u.isActive with
  | false => exact advance_of_inactive hactive (epoch_rewritten u form)
  | true =>
    have hform : form.isActive := by
      simp only [invalidating, Bool.or_eq_false_iff, Bool.not_eq_false'] at hinv
      exact hinv.1.2
    have hrole : u.role = form.role := by
      simpa [Write.silent, hid, hinv, hconfined, hactive] using h
    rw [entry_rewritten (hactive.trans hform.symm) hrole hconfined]
    exact .same _

lemma advance_provisioned (u : User) (reseller : Option ℕ) :
    Epochs.Advance (some u.entry) (some (u.provisioned reseller).entry) := by
  cases reseller with
  | some reseller => exact advance_bump rfl
  | none =>
    simp only [User.provisioned]
    split
    · exact advance_bump rfl
    · exact advance_bump rfl

/-- Every write but a silent one raises the epoch of a row whose claims it changes. -/
lemma Write.advance_row (w : Write) (u : User) (h : w.silent u = false) :
    Epochs.Advance (some u.entry) (some (w.row u).entry) := by
  cases w with
  | delete id => exact .same _
  | update form curRole =>
    simp only [Write.row]
    split
    · next hid => exact advance_updated u form curRole hid h
    · exact .same _
  | provision id reseller =>
    simp only [Write.row]
    split
    · exact advance_provisioned u reseller
    · exact .same _
  | deleteReseller reseller freed =>
    simp only [Write.row]
    split
    · next hbound =>
      have hactive : u.isActive = false := by simpa [Write.silent, hbound] using h
      exact advance_of_inactive hactive (epoch_orphaned u)
    · exact .same _
  | activate id =>
    simp only [Write.row]
    split
    · cases hactive : u.isActive with
      | false => exact advance_of_inactive hactive rfl
      | true =>
        rw [← hactive]
        exact .same _
    · exact .same _
  | toggle | scope | deactivate | revoke =>
    simp only [Write.row]
    split
    · exact advance_bump rfl
    · exact .same _

lemma Write.epoch_row_of_silent (w : Write) (h : w.silent u) : (w.row u).epoch = u.epoch := by
  cases w with
  | update form curRole =>
    simp only [Write.silent, Bool.and_eq_true, Bool.not_eq_true', decide_eq_true_eq] at h
    obtain ⟨⟨⟨⟨hid, hinv⟩, hconfined⟩, -⟩, -⟩ := h
    rw [Write.row, if_pos hid, User.updated, hinv, hconfined, Bool.or_self]
    exact epoch_rewritten u form
  | deleteReseller reseller freed =>
    simp only [Write.silent, Bool.and_eq_true, decide_eq_true_eq] at h
    rw [Write.row, if_pos h.1]
    exact epoch_orphaned u
  | _ => cases h

/-! ### Steps -/

/-- Every session was stamped from its row, or its epoch is past. -/
structure Stamped (s : State) : Prop where
  sound : ∀ sess, Held s sess → Epochs.Sound (view s.users) sess.stamp
  known : ∀ sess, Held s sess → sess.userID < s.nextID
  ids : ∀ u ∈ s.users, u.id < s.nextID

/-- No row changes silently under a session that is accepted or about to be stored, and only clients that have
no claims beside their role are impersonated. -/
def Announced (s : State) : Action → Prop
  | .commit call false => ∀ w, s.calls call = some (.writing w) → ∀ u ∈ s.users, w.silent u →
      ∀ sess, Held s sess → sess.userID = u.id → sess.epoch ≠ u.epoch
  | .begin _ _ (.impersonate id) => plainClient s.users id
  | _ => True

lemma held_set {c : Option Call} (h : Held (s.set call c) sess) : c = some (.minting sess) ∨ Held s sess := by
  obtain hmem | ⟨i, hi⟩ := h
  · exact .inr (.inl hmem)
  obtain ⟨-, hc⟩ | ⟨-, hi⟩ := Runs.update_eq_some hi
  · exact .inl hc
  · exact .inr (.inr ⟨i, hi⟩)

/-- The role that an edit has read is the one of the row. -/
def Write.current (users : Users) : Write → Prop
  | .update form curRole => ∀ u ∈ users, u.id = form.id → u.role = curRole
  | _ => True

/-- A call as a request begins it. -/
inductive Begun (users : Users) (req : Request) : Call → Prop
  | counting (w : Write) (h : w.current users) : Begun users req (.counting w)
  | writing (w : Write) (h : w.current users) : Begun users req (.writing w)
  | minting (actor : Session) (id : ℕ) (sess : Session) (hreq : req = .impersonate id)
      (h : impersonate users actor id = some sess) : Begun users req (.minting sess)

lemma begun_of_begin {actor : Option Session} {req : Request} {c : Call} (h : begin users actor req = some c) :
    Begun users req c := by
  have hsuper : ∀ {a id except w}, beginAsSuperAdmin users a id except w = some c → w.current users →
      Begun users req c := by
    intro a id except w h hw
    obtain ⟨u, -, h⟩ := bind_eq_some_iff.mp h
    split at h <;> cases h
    exact .writing w hw
  unfold begin at h
  split at h
  case h_1 form =>
    obtain ⟨u, hu, h⟩ := bind_eq_some_iff.mp h
    have hcurrent : (Write.update form u.role).current users := by
      intro u' hu' hid
      rw [← hid, lookup_key hu'] at hu
      rw [some.inj hu]
    split at h
    · split at h <;> cases h
      · exact .counting _ hcurrent
      · exact .writing _ hcurrent
    · cases h
  case h_2 =>
    obtain ⟨u, -, h⟩ := bind_eq_some_iff.mp h
    split at h <;> cases h
    exact .writing _ trivial
  case h_3 =>
    obtain ⟨u, -, h⟩ := bind_eq_some_iff.mp h
    split at h
    · split at h <;> cases h
      · exact .counting _ trivial
      · exact .writing _ trivial
    · cases h
  case h_4 | h_5 | h_6 => exact hsuper h trivial
  case h_7 a id =>
    obtain ⟨sess, hsess, rfl⟩ := map_eq_some_iff.mp h
    exact .minting a id sess rfl hsess
  case h_13 => cases h
  all_goals
    cases h
    exact .writing _ trivial

lemma lt_nextID_of_loadSessionClaims (hs : Stamped s)
    (h : loadSessionClaims s.users id = some sess) : sess.userID < s.nextID := by
  obtain ⟨u, hu, -, rfl⟩ := loadSessionClaims_eq_some h
  obtain ⟨hmem, rfl⟩ := lookup_eq_some.mp hu
  exact hs.ids u hmem

lemma lt_nextID_of_impersonate (hs : Stamped s)
    (h : impersonate s.users actor id = some sess) : sess.userID < s.nextID := by
  obtain ⟨target, htarget, -, rfl⟩ := impersonate_eq_some h
  have hlt : target.userID < s.nextID := lt_nextID_of_loadSessionClaims hs htarget
  exact hlt

/-- A step that leaves the users alone and stamps only from the present rows. -/
lemma Stamped.of_users_eq (hs : Stamped s) (husers : s'.users = s.users)
    (hnext : s'.nextID = s.nextID) (hheld : ∀ sess, Held s' sess →
      Held s sess ∨ Epochs.Agrees (view s.users) sess.stamp ∧ sess.userID < s.nextID) : Stamped s' where
  sound sess h := by
    rw [husers]
    obtain hold | ⟨hagrees, -⟩ := hheld sess h
    · exact hs.sound sess hold
    · exact hagrees.sound
  known sess h := by
    rw [hnext]
    obtain hold | ⟨-, hlt⟩ := hheld sess h
    · exact hs.known sess hold
    · exact hlt
  ids u hu := by
    rw [husers] at hu
    rw [hnext]
    exact hs.ids u hu

lemma Stamped.create {role : Role} {isActive : Bool} {resellerID : Option ℕ} (hs : Stamped s)
    (h : step s (.create role isActive resellerID) = some s') : Stamped s' := by
  obtain ⟨users, husers, rfl⟩ := map_eq_some_iff.mp h
  have hheld : ∀ sess, Held { s with users, nextID := s.nextID + 1 } sess → Held s sess := fun _ h => h
  refine ⟨fun sess hsess => ?_, fun sess hsess => Nat.lt_succ_of_lt (hs.known sess (hheld sess hsess)),
    fun u hu => ?_⟩
  · -- the new row has a key that no session carries
    intro c e hview
    obtain ⟨u, hu, hentry⟩ := map_eq_some_iff.mp hview
    obtain ⟨hmem, hid⟩ := lookup_eq_some.mp hu
    obtain hmem | rfl := (mem_insert husers).mp hmem
    · refine hs.sound sess (hheld sess hsess) c e ?_
      rw [view, lookup_eq_some.mpr ⟨hmem, hid⟩, map_some, hentry]
    · exact absurd (hs.known sess (hheld sess hsess)) (Nat.not_lt.mpr (Nat.le_of_eq hid))
  · obtain hmem | rfl := (mem_insert husers).mp hu
    · exact Nat.lt_succ_of_lt (hs.ids u hmem)
    · exact Nat.lt_succ_self _

lemma Stamped.write {w : Write} (hs : Stamped s) (hsilent : ∀ u ∈ s.users, w.silent u →
      ∀ sess, Held s sess → sess.userID = u.id → sess.epoch ≠ u.epoch) :
    Stamped { s with users := w.apply s.users } where
  sound sess h := by
    have hsound := hs.sound sess h
    cases hu : s.users.lookup sess.userID with
    | none =>
      intro c e hview
      simp [view, Session.stamp, Write.lookup_apply, hu] at hview
    | some u =>
      obtain ⟨hmem, hid⟩ := lookup_eq_some.mp hu
      have hv : view s.users sess.stamp.key = some u.entry := by simp [view, Session.stamp, hu]
      cases hdel : w.deletes u with
      | true =>
        intro c e hview
        simp [view, Session.stamp, Write.lookup_apply, hu, hdel] at hview
      | false =>
        have hv' : view (w.apply s.users) sess.stamp.key = some (w.row u).entry := by
          simp [view, Session.stamp, Write.lookup_apply, hu, hdel]
        cases hsil : w.silent u with
        | false => exact hsound.advance (by rw [hv, hv']; exact w.advance_row u hsil)
        | true =>
          have hstale : ¬ Epochs.Accepted (view s.users) sess.stamp := by
            rintro ⟨c, hc⟩
            rw [hv, Option.some.injEq] at hc
            exact hsilent u hmem hsil sess h hid.symm (congrArg Prod.snd hc).symm
          rw [User.entry] at hv hv'
          rw [w.epoch_row_of_silent hsil] at hv'
          exact hsound.of_same_epoch hstale hv hv'
  known := hs.known
  ids u hu := by
    obtain ⟨u₀, hu₀, -, rfl⟩ := w.mem_apply.mp hu
    rw [w.id_row]
    exact hs.ids u₀ hu₀

theorem Stamped.step {a : Action} (hs : Stamped s) (ha : Announced s a) (h : step s a = some s') : Stamped s' := by
  cases a with
  | create role isActive resellerID => exact hs.create h
  | login call id =>
    simp only [Accounts.step] at h
    split at h
    · cases h
    cases h
    refine hs.of_users_eq rfl rfl fun sess hsess => ?_
    obtain hnew | hold := held_set hsess
    · obtain ⟨sess', hload, heq⟩ := map_eq_some_iff.mp hnew
      cases heq
      exact .inr ⟨agrees_of_loadSessionClaims hload, lt_nextID_of_loadSessionClaims hs hload⟩
    · exact .inl hold
  | mint call fails =>
    simp only [Accounts.step] at h
    split at h
    · next sess₀ hcall =>
      cases h
      refine hs.of_users_eq rfl rfl fun sess hsess => .inl ?_
      obtain hnew | hmem | hminting := held_set hsess
      · cases hnew
      · cases fails with
        | true => exact .inl hmem
        | false =>
          obtain rfl | hmem := List.mem_cons.mp hmem
          · exact .inr ⟨call, hcall⟩
          · exact .inl hmem
      · exact .inr hminting
    · cases h
  | drop sess₀ =>
    cases h
    refine hs.of_users_eq rfl rfl fun sess hsess => .inl ?_
    obtain hmem | hminting := hsess
    · exact .inl (List.mem_of_mem_erase hmem)
    · exact .inr hminting
  | begin call actor req =>
    simp only [Accounts.step] at h
    split at h
    · cases h
    cases h
    refine hs.of_users_eq rfl rfl fun sess hsess => ?_
    obtain hnew | hold := held_set hsess
    · cases begun_of_begin hnew with
      | minting a id _ hreq himp =>
        subst hreq
        exact .inr ⟨agrees_of_impersonate himp ha, lt_nextID_of_impersonate hs himp⟩
    · exact .inl hold
  | count call fails =>
    simp only [Accounts.step] at h
    split at h
    · cases h
      refine hs.of_users_eq rfl rfl fun sess hsess => .inl ?_
      obtain hnew | hold := held_set hsess
      · split_ifs at hnew <;> cases hnew
      · exact hold
    · cases h
  | commit call fails =>
    simp only [Accounts.step] at h
    split at h
    · next w hcall =>
      cases fails with
      | true =>
        cases h
        refine hs.of_users_eq rfl rfl fun sess hsess => .inl ?_
        obtain hnew | hold := held_set hsess
        · cases hnew
        · exact hold
      | false =>
        cases h
        have hwritten := hs.write (ha w hcall)
        refine hwritten.of_users_eq rfl rfl fun sess hsess => .inl ?_
        obtain hnew | hold := held_set hsess
        · cases w <;> cases hnew
        · exact hold
    · cases h

/-! ### Runs -/

/-- Every session that `Load` accepts belongs to an active user and carries the claims of its row. -/
def Accurate (s : State) : Prop :=
  ∀ sess ∈ s.sessions, load s.users sess →
    ∃ u, s.users.lookup sess.userID = some u ∧ u.isActive ∧ sess.claims = u.claims

/-- Nobody is logged in, and the key is past every row. -/
structure Fresh (s : State) : Prop where
  sessions : s.sessions = []
  calls : ∀ call, s.calls call = none
  ids : ∀ u ∈ s.users, u.id < s.nextID

lemma Fresh.stamped (hs : Fresh s) : Stamped s := by
  have hnone : ∀ sess, ¬ Held s sess := by
    rintro sess (hmem | ⟨call, hcall⟩)
    · simp [hs.sessions] at hmem
    · simp [hs.calls call] at hcall
  exact ⟨fun sess h => absurd h (hnone sess), fun sess h => absurd h (hnone sess), hs.ids⟩

lemma Stamped.accurate (hs : Stamped s) : Accurate s := by
  intro sess hmem hload
  have hagrees := (hs.sound sess (.inl hmem)).agrees (accepted_of_load hload)
  obtain ⟨u, hu, hentry⟩ := map_eq_some_iff.mp hagrees
  rw [User.entry, Prod.mk.injEq] at hentry
  obtain ⟨hclaims, -⟩ := hentry
  split at hclaims
  · next hactive => exact ⟨u, hu, hactive, (Option.some.inj hclaims).symm⟩
  · cases hclaims

namespace Write

/-- The write changes the claims of the row it is silent about. -/
lemma claims_row_of_silent (w : Write) (h : w.silent u) (hrid : u.resellerID ≠ some 0) :
    (w.row u).claims ≠ u.claims := by
  cases w with
  | update form curRole =>
    simp only [silent, Bool.and_eq_true, Bool.not_eq_true', decide_eq_true_eq] at h
    obtain ⟨⟨⟨⟨hid, hinv⟩, hconfined⟩, -⟩, hrole⟩ := h
    rw [row, if_pos hid, User.updated, hinv, hconfined, Bool.or_self]
    intro heq
    have hsame : (u.rewritten form).role = u.role := congrArg Claims.role heq
    have hnew : (u.rewritten form).role = form.role := by
      unfold User.rewritten
      split <;> rfl
    exact hrole (hsame.symm.trans hnew)
  | deleteReseller reseller freed =>
    simp only [silent, Bool.and_eq_true, decide_eq_true_eq] at h
    rw [row, if_pos h.1]
    intro heq
    have hsame : u.orphaned.resellerID.getD 0 = u.resellerID.getD 0 := congrArg Claims.resellerID heq
    have hnone : u.orphaned.resellerID = none := by
      unfold User.orphaned
      split <;> rfl
    rw [hnone, h.1, getD_some] at hsame
    exact hrid (h.1.trans (congrArg some hsame.symm))
  | _ => cases h

/-- A write that is silent about one row raises no epoch at all. -/
lemma epoch_row_of_silent_mem (w : Write) (hu : u ∈ users) (hu' : u' ∈ users)
    (h : w.silent u) : w.deletes u' = false ∧ (w.row u').epoch = u'.epoch := by
  cases w with
  | update form curRole =>
    refine ⟨rfl, ?_⟩
    by_cases hid : u'.id = form.id
    · have hidu : u.id = form.id := by
        simp only [silent, Bool.and_eq_true, decide_eq_true_eq] at h
        exact h.1.1.1.1
      have heq : u' = u := by
        have hlookup := lookup_key hu
        rw [hidu, ← hid, lookup_key hu'] at hlookup
        exact Option.some.inj hlookup
      exact heq ▸ epoch_row_of_silent _ h
    · rw [row, if_neg hid]
  | deleteReseller reseller freed =>
    refine ⟨rfl, ?_⟩
    simp only [row]
    split
    · exact epoch_orphaned u'
    · rfl
  | _ => cases h

lemma epochOK_of_silent (w : Write) (hu : u ∈ users) (h : w.silent u)
    (id epoch : ℕ) : epochOK (w.apply users) id epoch = epochOK users id epoch := by
  unfold epochOK
  rw [w.lookup_apply]
  cases hid : users.lookup id with
  | none => rfl
  | some u' =>
    obtain ⟨hdel, hepoch⟩ := w.epoch_row_of_silent_mem hu (lookup_eq_some.mp hid).1 h
    simp [hdel, hepoch]

lemma load_of_silent (w : Write) (hu : u ∈ users) (h : w.silent u)
    (sess : Session) : load (w.apply users) sess = load users sess := by
  simp only [load, w.epochOK_of_silent hu h]

end Write

/-- From a panel without sessions, however requests and logins interleave and whatever fails: as long as no row
changes silently under a session, every accepted session is accurate; and a silent change under an accepted
session makes it wrong at once. -/
theorem accurate_unless_silent (s : State) :
    (∀ s' as, Fresh s → Runs.Meets step Announced s as → Runs.run step s as = some s' → Accurate s') ∧
    (∀ call w u sess, s.calls call = some (.writing w) → s.users.lookup sess.userID = some u →
      w.silent u → u.resellerID ≠ some 0 → sess ∈ s.sessions → load s.users sess →
      sess.claims = u.claims → ∃ s', step s (.commit call false) = some s' ∧ ¬ Accurate s') := by
  constructor
  · intro s' as hs hmeets hrun
    have hstamped : Stamped s' :=
      Runs.run_invariant_of_meets (fun s a s' hI hC h => Stamped.step hI hC h) hs.stamped hmeets hrun
    exact hstamped.accurate
  intro call w u sess hcall hu hsilent hrid hmem hload hclaims
  refine ⟨{ s with users := w.apply s.users }.set call w.next, by simp [step, hcall], fun hacc => ?_⟩
  have hmemu : u ∈ s.users := (lookup_eq_some.mp hu).1
  obtain ⟨u', hu', -, hclaims'⟩ := hacc sess hmem (w.load_of_silent hmemu hsilent sess ▸ hload)
  have hrow : (w.apply s.users).lookup sess.userID = some (w.row u) := by
    rw [w.lookup_apply, hu, bind_some, (w.epoch_row_of_silent_mem hmemu hmemu hsilent).1,
      if_neg Bool.false_ne_true]
  have heq : u' = w.row u := Option.some.inj (hu'.symm.trans hrow)
  exact w.claims_row_of_silent hsilent hrid (heq ▸ hclaims'.symm.trans hclaims)

/-- A `super_admin`, and the administrator of reseller 7. -/
def resellerPanel : State where
  users := ⟨[{ id := 1, role := .superAdmin, isActive := true },
    { id := 2, role := .reseller, isActive := true, resellerID := some 7 }], by decide⟩
  nextID := 3
  sessions := []
  calls := fun _ => none

lemma resellerPanel_fresh : Fresh resellerPanel :=
  ⟨rfl, fun _ => rfl, by decide⟩

def ownerSession : Session := { userID := 1, claims := ⟨.superAdmin, 0, false⟩, epoch := 0 }

def resellerSession : Session := { userID := 2, claims := ⟨.reseller, 7, false⟩, epoch := 0 }

/-- Both log in, the user is taken away from its reseller, and logs in again. -/
def released : List Action :=
  [.login 0 1, .mint 0 false, .login 0 2, .mint 0 false, .begin 0 (some ownerSession) (.provision 2 none),
    .commit 0 false, .login 0 2, .mint 0 false]

theorem accurate_unless_silent_released : ∃ s', Runs.run step resellerPanel released = some s' ∧ Accurate s' := by
  have hmeets : Runs.Meets step Announced resellerPanel released := by
    refine ⟨trivial, trivial, trivial, trivial, trivial, fun w hw u _ hsilent => ?_, trivial, trivial, trivial⟩
    cases (show some (Call.writing (.provision 2 none)) = some (.writing w) from hw)
    cases hsilent
  exact ⟨_, rfl, (accurate_unless_silent _).1 _ _ resellerPanel_fresh hmeets rfl⟩

/-- Both log in, the reseller is deleted, and the transaction that would bump the epochs fails. -/
def resellerDeleted : List Action :=
  [.login 0 1, .mint 0 false, .login 0 2, .mint 0 false,
    .begin 0 (some ownerSession) (.deleteReseller 7 true), .commit 0 false, .commit 0 true]

/-- The request is over, and the session of a reseller that no longer exists is still accepted for a user who
is now a restricted administrator. -/
theorem deleted_reseller_session_accepted :
    (Runs.run step resellerPanel resellerDeleted).map (fun s =>
      (s.calls 0).isNone && resellerSession ∈ s.sessions && load s.users resellerSession &&
        (s.users.lookup 2).map User.claims = some ⟨.admin, 0, true⟩) = some true := by
  decide +kernel

end Accounts
