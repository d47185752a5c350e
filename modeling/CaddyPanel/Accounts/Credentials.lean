import CaddyPanel.Accounts.SessionClaims

/-!
# Sessions and API keys, one request at a time

An API key (`internal/auth/apikey.go`) is good as long as its owner is active and has the epoch that the key was
issued at; the role is the one of the row. The requests that write `users` run alone here. What a credential that is
accepted stands for then follows from the rows alone, also where a reseller was deleted and its users keep their
sessions.
-/

namespace Accounts

open List Rows

structure ApiKey where
  userID : ℕ
  epoch : ℕ
  deriving DecidableEq

/-- The row of the owner, where the key is good. -/
def verifyAPIKey (users : Users) (key : ApiKey) : Option User :=
  (users.lookup key.userID).filter fun u => u.isActive && key.epoch = u.epoch

/-- The first transaction of a request that runs alone. What follows the deletion of a reseller is a request of its
own, since it can fail. -/
def perform (users : Users) (actor : Option Session) (req : Request) : Users :=
  match begin users actor req with
  | some (.counting w) => if activeSuperAdmins users ≤ 1 then users else w.apply users
  | some (.writing w) => w.apply users
  | _ => users

structure Desk where
  users : Users
  sessions : List Session
  keys : List ApiKey

namespace Desk

def admits (d : Desk) (sess : Session) : Bool :=
  sess ∈ d.sessions && load d.users sess

def owner (d : Desk) (key : ApiKey) : Option User :=
  if key ∈ d.keys then verifyAPIKey d.users key else none

/-- The id was given out before. -/
def mentions (d : Desk) (id : ℕ) : Bool :=
  d.sessions.any (·.userID = id) || d.keys.any (·.userID = id)

inductive Action where
  | create (id : ℕ) (role : Role) (isActive : Bool) (resellerID : Option ℕ)
  | login (id : ℕ)
  | impersonate (actor : Session) (id : ℕ)
  /-- a session ends: logout, expiry or a purge -/
  | drop (sess : Session)
  /-- `CreateAPIKey`, from the panel or from the pages of a client; the key is for the user of the session -/
  | issueKey (sess : Session)
  | revokeKey (key : ApiKey)
  | request (actor : Option Session) (req : Request)

def step (d : Desk) : Action → Option Desk
  | .create id role isActive resellerID =>
    if d.mentions id then none
    else (d.users.insert { id, role, isActive, resellerID }).map fun users => { d with users }
  | .login id => (loadSessionClaims d.users id).map fun sess => { d with sessions := sess :: d.sessions }
  | .impersonate actor id =>
    if d.admits actor then
      (Accounts.impersonate d.users actor id).map fun sess => { d with sessions := sess :: d.sessions }
    else none
  | .drop sess => some { d with sessions := d.sessions.erase sess }
  | .issueKey sess =>
    if d.admits sess && (mayManage sess || sess.claims.role = .client) then
      (d.users.lookup sess.userID).map fun u => { d with keys := ⟨u.id, u.epoch⟩ :: d.keys }
    else none
  | .revokeKey key => some { d with keys := d.keys.erase key }
  | .request actor req =>
    if actor.all d.admits then some { d with users := perform d.users actor req } else none

end Desk

/-! ### What a write leaves -/

/-- What becomes of a row that keeps its epoch. -/
inductive Quiet (u u' : User) : Prop
  | same (hclaims : u'.claims = u.claims)
  | orphaned (rid : ℕ) (hrid : u.resellerID = some rid) (h : u' = u.orphaned)

variable {users : Users} {u : User}

lemma quiet_updated {form : UserForm} {curRole : Role} (hrole : u.role = curRole) :
    u.epoch < (u.updated form curRole).epoch ∨
      (u.updated form curRole).epoch = u.epoch ∧ Quiet u (u.updated form curRole) := by
  unfold User.updated
  split
  · simp [User.bump, epoch_rewritten]
  rename_i hkeep
  simp only [Bool.or_eq_true, not_or, Bool.not_eq_true] at hkeep
  obtain ⟨hinv, hconfined⟩ := hkeep
  have hform : form.role = curRole := by
    simp only [invalidating, Bool.or_eq_false_iff] at hinv
    simpa using hinv.1.1
  exact .inr ⟨epoch_rewritten u form, .same (claims_rewritten (hrole.trans hform.symm) hconfined)⟩

lemma epoch_provisioned (u : User) (reseller : Option ℕ) : (u.provisioned reseller).epoch = u.epoch + 1 := by
  cases reseller with
  | some reseller => rfl
  | none =>
    simp only [User.provisioned]
    split <;> rfl

lemma Write.quiet_row (w : Write) (hcurrent : w.current users) (hu : u ∈ users) :
    u.epoch < (w.row u).epoch ∨ (w.row u).epoch = u.epoch ∧ Quiet u (w.row u) := by
  have hsame : u.epoch < u.epoch ∨ u.epoch = u.epoch ∧ Quiet u u := .inr ⟨rfl, .same rfl⟩
  cases w with
  | update form curRole =>
    simp only [Write.row]
    split
    · next hid => exact quiet_updated (hcurrent u hu hid)
    · exact hsame
  | delete id => exact hsame
  | provision id reseller =>
    simp only [Write.row]
    split
    · exact .inl (by rw [epoch_provisioned]; exact Nat.lt_succ_self _)
    · exact hsame
  | deleteReseller reseller freed =>
    simp only [Write.row]
    split
    · next hrid => exact .inr ⟨epoch_orphaned u, .orphaned reseller hrid rfl⟩
    · exact hsame
  | activate id =>
    simp only [Write.row]
    split
    · exact .inr ⟨rfl, .same rfl⟩
    · exact hsame
  | toggle | scope | deactivate | revoke =>
    simp only [Write.row]
    split
    · exact .inl (Nat.lt_succ_self _)
    · exact hsame

variable {actor sess : Session} {w w' : Write} {id epoch : ℕ} {R : User → Prop}

/-- A request that runs alone leaves the table, or writes it with what it has read. -/
lemma perform_cases (users : Users) (actor : Option Session) (req : Request) :
    perform users actor req = users ∨ ∃ w : Write, w.current users ∧ perform users actor req = w.apply users := by
  unfold perform
  split
  · next w h =>
    split
    · exact .inl rfl
    · cases begun_of_begin h with
      | counting _ hcurrent => exact .inr ⟨w, hcurrent, rfl⟩
  · next w h =>
    cases begun_of_begin h with
    | writing _ hcurrent => exact .inr ⟨w, hcurrent, rfl⟩
  · exact .inl rfl

/-! ### What a credential stands for -/

/-- The row bears out what a session says: word for word, by a role that is never confined, or as the restricted
administrator that is left of the user of a deleted reseller. -/
inductive Vouched (c : Claims) (u : User) : Prop
  | exact (h : c = u.claims)
  | role (hrole : c.role = u.role) (hfree : u.role = .superAdmin ∨ u.role = .client ∨ u.role = .api)
  | orphaned (hbound : c.resellerID ≠ 0) (hrole : c.role = .admin ∨ c.role = .reseller ∨ c.role = .support)
      (hadmin : u.role = .admin) (hrestricted : u.restricted)

/-- The epoch is past, or it is the one of the row and the row is as it says. -/
def Backed (users : Users) (id epoch : ℕ) (R : User → Prop) : Prop :=
  ∀ u ∈ users, u.id = id → epoch < u.epoch ∨ epoch = u.epoch ∧ R u

structure Credited (d : Desk) : Prop where
  session : ∀ sess ∈ d.sessions, Backed d.users sess.userID sess.epoch (Vouched sess.claims)
  key : ∀ k ∈ d.keys, Backed d.users k.userID k.epoch fun u => u.role ≠ .support

lemma Vouched.role_eq {c : Claims} (h : Vouched c u) : u.role = c.role ∨ u.role = .admin := by
  cases h with
  | exact h => exact .inl (by rw [h]; rfl)
  | role hrole _ => exact .inl hrole.symm
  | orphaned _ _ hadmin _ => exact .inr hadmin

lemma Vouched.quiet {c : Claims} {u' : User} (h : Vouched c u) (hne : u.resellerID ≠ some 0) (hq : Quiet u u') :
    Vouched c u' := by
  cases hq with
  | same hclaims =>
    have hrole : u'.role = u.role := congrArg Claims.role hclaims
    cases h with
    | exact h => exact .exact (h.trans hclaims.symm)
    | role hr hfree => exact .role (hr.trans hrole.symm) (hrole ▸ hfree)
    | orphaned hbound hr hadmin hrestricted =>
      refine .orphaned hbound hr (hrole.trans hadmin) ?_
      have heq := congrArg Claims.restricted hclaims
      simpa [User.claims, hrole, hadmin, hrestricted] using heq
  | orphaned rid hrid h' =>
    subst h'
    unfold User.orphaned
    split
    · next hkind =>
      cases h with
      | exact h =>
        refine .orphaned ?_ ?_ rfl rfl
        · simpa [h, User.claims, hrid] using hne
        rw [h]
        obtain hkind | hkind | hkind := hkind
        · exact .inr (.inl hkind)
        · exact .inl hkind
        · exact .inr (.inr hkind)
      | role _ hfree => exact absurd hkind (by obtain h | h | h := hfree <;> simp [h])
      | orphaned hbound hr _ _ => exact .orphaned hbound hr rfl rfl
    · next hkind =>
      have hfree : u.role = .superAdmin ∨ u.role = .client ∨ u.role = .api := by
        cases hrole : u.role <;> simp_all
      cases h with
      | exact h => exact .role (by rw [h]; rfl) hfree
      | role hr _ => exact .role hr hfree
      | orphaned _ _ hadmin _ => exact absurd (.inr (.inl hadmin)) hkind

lemma role_ne_support_quiet {u' : User} (h : u.role ≠ .support) (hq : Quiet u u') : u'.role ≠ .support := by
  cases hq with
  | same hclaims =>
    have hrole : u'.role = u.role := congrArg Claims.role hclaims
    rwa [hrole]
  | orphaned rid hrid h' =>
    subst h'
    unfold User.orphaned
    split
    · nofun
    · exact h

lemma Backed.apply (h : Backed users id epoch R)
    (hcurrent : w.current users) (hR : ∀ u ∈ users, ∀ u', R u → Quiet u u' → R u') :
    Backed (w.apply users) id epoch R := by
  intro u' hu' hid
  obtain ⟨u, hu, -, rfl⟩ := w.mem_apply.mp hu'
  rw [w.id_row] at hid
  obtain hrow | ⟨hepoch, hq⟩ := w.quiet_row hcurrent hu
  · obtain hlt | ⟨heq, -⟩ := h u hu hid
    · exact .inl (Nat.lt_trans hlt hrow)
    · exact .inl (heq ▸ hrow)
  · rw [hepoch]
    obtain hlt | ⟨heq, hRu⟩ := h u hu hid
    · exact .inl hlt
    · exact .inr ⟨heq, hR u hu _ hRu hq⟩

lemma backed_of_mem (hu : u ∈ users) (hR : R u) : Backed users u.id u.epoch R := by
  intro u' hu' hid
  obtain rfl : u' = u := Option.some.inj ((lookup_eq_some.mpr ⟨hu', hid⟩).symm.trans (lookup_key hu))
  exact .inr ⟨rfl, hR⟩

/-- The row of a credential that is accepted is as it says. -/
lemma Backed.of_accepted (h : Backed users id epoch R) (hu : u ∈ users)
    (hid : u.id = id) (hepoch : u.epoch = epoch) : R u := by
  obtain hlt | ⟨-, hR⟩ := h u hu hid
  · exact absurd hepoch (Nat.ne_of_gt hlt)
  · exact hR

lemma row_of_load (h : load users sess) : ∃ u ∈ users, u.id = sess.userID ∧ u.epoch = sess.epoch := by
  have hepoch : epochOK users sess.userID sess.epoch := (Bool.and_eq_true_iff.mp h).1
  obtain ⟨u, hu, heq⟩ := (Option.any_eq_true _ _).mp hepoch
  obtain ⟨hmem, hid⟩ := lookup_eq_some.mp hu
  exact ⟨u, hmem, hid, of_decide_eq_true heq⟩

/-! ### Credentials that are accepted -/

section Credited

variable {d d' : Desk}

variable {sess actor : Session}

/-- The user of a session that is admitted, and what the session says about it. -/
lemma Credited.vouched (h : Credited d) (hadmits : d.admits sess) :
    ∃ u, d.users.lookup sess.userID = some u ∧ Vouched sess.claims u := by
  obtain ⟨hmem, hload⟩ := Bool.and_eq_true_iff.mp hadmits
  obtain ⟨u, hu, hid, hepoch⟩ := row_of_load hload
  refine ⟨u, lookup_eq_some.mpr ⟨hu, hid⟩, ?_⟩
  exact (h.session sess (of_decide_eq_true hmem)).of_accepted hu hid hepoch

lemma owner_eq_some {key : ApiKey} {u : User} (h : d.owner key = some u) :
    key ∈ d.keys ∧ u ∈ d.users ∧ u.id = key.userID ∧ u.epoch = key.epoch := by
  unfold Desk.owner at h
  split at h
  · next hkey =>
    obtain ⟨hlookup, hgood⟩ := Option.filter_eq_some_iff.mp h
    obtain ⟨hu, hid⟩ := lookup_eq_some.mp hlookup
    exact ⟨hkey, hu, hid, (of_decide_eq_true (Bool.and_eq_true_iff.mp hgood).2).symm⟩
  · cases h

lemma Credited.apply (h : Credited d) (hne : ∀ u ∈ d.users, u.resellerID ≠ some 0) {w : Write}
    (hcurrent : w.current d.users) : Credited { d with users := w.apply d.users } where
  session sess hsess := (h.session sess hsess).apply hcurrent fun u hu _ hv hq => hv.quiet (hne u hu) hq
  key k hk := (h.key k hk).apply hcurrent fun _ _ _ hrole hq => role_ne_support_quiet hrole hq

lemma Credited.login (h : Credited d) (hnew : Backed d.users sess.userID sess.epoch
    (Vouched sess.claims)) : Credited { d with sessions := sess :: d.sessions } where
  session sess' hsess' := by
    obtain rfl | hold := mem_cons.mp hsess'
    · exact hnew
    · exact h.session sess' hold
  key := h.key

lemma backed_of_impersonate {id : ℕ} (h : impersonate users actor id = some sess) :
    Backed users sess.userID sess.epoch (Vouched sess.claims) := by
  obtain ⟨target, htarget, hrole, rfl⟩ := impersonate_eq_some h
  obtain ⟨u, hu, -, rfl⟩ := loadSessionClaims_eq_some htarget
  obtain ⟨hmem, rfl⟩ := lookup_eq_some.mp hu
  exact backed_of_mem hmem (.role hrole.symm (.inr (.inl hrole)))

/-- Every step keeps the credentials honest. -/
theorem Credited.step {a : Desk.Action} (h : Credited d) (hne : ∀ u ∈ d.users, u.resellerID ≠ some 0)
    (hstep : d.step a = some d') : Credited d' := by
  cases a with
  | create id role isActive resellerID =>
    simp only [Desk.step] at hstep
    split at hstep
    · cases hstep
    next hnew =>
    obtain ⟨users, hinsert, rfl⟩ := Option.map_eq_some_iff.mp hstep
    simp only [Desk.mentions, Bool.or_eq_true, any_eq_true, decide_eq_true_eq, not_or, not_exists,
      not_and] at hnew
    constructor
    · intro sess hsess u hu hid
      obtain hold | rfl := (mem_insert hinsert).mp hu
      · exact h.session sess hsess u hold hid
      · exact absurd hid.symm (hnew.1 sess hsess)
    · intro k hk u hu hid
      obtain hold | rfl := (mem_insert hinsert).mp hu
      · exact h.key k hk u hold hid
      · exact absurd hid.symm (hnew.2 k hk)
  | login id =>
    obtain ⟨sess, hsess, rfl⟩ := Option.map_eq_some_iff.mp hstep
    obtain ⟨u, hu, -, rfl⟩ := loadSessionClaims_eq_some hsess
    obtain ⟨hmem, rfl⟩ := lookup_eq_some.mp hu
    exact h.login (backed_of_mem hmem (.exact rfl))
  | impersonate actor id =>
    simp only [Desk.step] at hstep
    split at hstep
    · obtain ⟨sess, hsess, rfl⟩ := Option.map_eq_some_iff.mp hstep
      exact h.login (backed_of_impersonate hsess)
    · cases hstep
  | drop sess =>
    cases hstep
    exact ⟨fun sess' hsess' => h.session sess' (mem_of_mem_erase hsess'), h.key⟩
  | issueKey sess =>
    simp only [Desk.step] at hstep
    split at hstep
    · next hguard =>
      obtain ⟨hadmits, hwho⟩ := Bool.and_eq_true_iff.mp hguard
      obtain ⟨u, hu, rfl⟩ := Option.map_eq_some_iff.mp hstep
      obtain ⟨u', hu', hv⟩ := h.vouched hadmits
      obtain rfl : u' = u := Option.some.inj (hu'.symm.trans hu)
      have hrole : u'.role ≠ .support := by
        obtain heq | heq := hv.role_eq
        · rw [heq]
          intro hsupport
          simp [mayManage, hsupport] at hwho
        · simp [heq]
      refine ⟨h.session, fun k hk => ?_⟩
      obtain rfl | hold := mem_cons.mp hk
      · exact backed_of_mem (lookup_eq_some.mp hu).1 hrole
      · exact h.key k hold
    · cases hstep
  | revokeKey key =>
    cases hstep
    exact ⟨h.session, fun k hk => h.key k (mem_of_mem_erase hk)⟩
  | request actor req =>
    simp only [Desk.step] at hstep
    split at hstep
    · cases hstep
      obtain heq | ⟨w, hcurrent, heq⟩ := perform_cases d.users actor req
      · rw [heq]
        exact h
      · rw [heq]
        exact h.apply hne hcurrent
    · cases hstep

end Credited

end Accounts
