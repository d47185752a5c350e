import CaddyPanel.Handlers.Identities

/-!
# The last login method

`Unlink` (`handlers/oauth_identity.go`) removes an identity unless it is the last login method, in a transaction that
locks the row of the user; `Delete` of `handlers/passkey.go` removes a passkey with one statement. On MySQL the reads
of the transaction are those of one snapshot, taken after the lock; on SQLite there is one connection, which the
transaction holds to its end.
-/

namespace LoginMethods

open List Rows
open Identities (Driver)
open Runs

/-- A row of `webauthn_credentials` or of `oauth_identities`. -/
structure Credential where
  id : ℕ
  userID : ℕ
  deriving DecidableEq

/-- A transaction of `Unlink` that has the lock; `counted` is after its guard. -/
structure Unlinking where
  userID : ℕ
  identityID : ℕ
  counted : Bool := false

structure State where
  passwordSet : ℕ → Bool
  passkeys : Rows Credential.id
  identities : Rows Credential.id
  /-- one transaction for each locked user -/
  unlinking : Rows Unlinking.userID

inductive Event where
  | lock (userID identityID : ℕ)
  | count (userID : ℕ)
  | commit (userID : ℕ)
  /-- a query that fails, or a timeout -/
  | rollback (userID : ℕ)
  | deletePasskey (userID id : ℕ)

def held (userID : ℕ) (t : Rows Credential.id) : ℕ :=
  t.rows.countP (·.userID = userID)

def loginMethodCount (s : State) (userID : ℕ) : ℕ :=
  (if s.passwordSet userID then 1 else 0) + held userID s.passkeys + held userID s.identities

/-- `DELETE … WHERE id = ? AND user_id = ?` -/
def without (t : Rows Credential.id) (userID id : ℕ) : Rows Credential.id :=
  t.delete fun r => r.id = id && r.userID = userID

def State.release (s : State) (userID : ℕ) : State :=
  { s with unlinking := s.unlinking.delete (·.userID = userID) }

/-- A statement waits for the only connection of SQLite. -/
def blocked (driver : Driver) (s : State) : Bool :=
  driver = .sqlite3 && !s.unlinking.rows.isEmpty

def step (driver : Driver) (s : State) : Event → Option State
  | .lock userID identityID =>
    if blocked driver s then none
    else (s.unlinking.insert { userID, identityID }).map fun unlinking => { s with unlinking }
  | .count userID =>
    match s.unlinking.lookup userID with
    | some ⟨_, identityID, false⟩ =>
      -- the identity is the user's, and it is not the last method
      if (s.identities.lookup identityID).any (·.userID = userID) && 1 ≤ loginMethodCount s userID - 1 then
        some { s with unlinking := s.unlinking.update (·.userID = userID) fun c => { c with counted := true } }
      else some (s.release userID)
    | _ => none
  | .commit userID =>
    match s.unlinking.lookup userID with
    | some ⟨_, identityID, true⟩ =>
      some ({ s with identities := without s.identities userID identityID }.release userID)
    | _ => none
  | .rollback userID => some (s.release userID)
  | .deletePasskey userID id =>
    if blocked driver s then none else some { s with passkeys := without s.passkeys userID id }

variable {driver : Driver} {s t : State} {userID : ℕ} {e : Event}

/-! ### Credentials -/

lemma held_without_le (t : Rows Credential.id) (userID userID' id : ℕ) :
    held userID t ≤ held userID (without t userID' id) + 1 :=
  countP_delete (k := id) (fun r hr => by simp at hr; exact hr.1) t

lemma held_without_of_ne (t : Rows Credential.id) {userID userID' : ℕ} (h : userID' ≠ userID) (id : ℕ) :
    held userID (without t userID' id) = held userID t := by
  simp only [held, without, Rows.delete, countP_filter]
  refine countP_congr fun r _ => ?_
  by_cases hr : r.userID = userID
  · simp [hr, h.symm]
  · simp [hr]

lemma held_without_lt {t : Rows Credential.id} {r : Credential} (hr : r ∈ t) :
    held r.userID (without t r.userID r.id) < held r.userID t :=
  countP_delete_lt hr (by simp) (by simp)

lemma exists_of_held (t : Rows Credential.id) (userID : ℕ) (h : held userID t ≠ 0) : ∃ r ∈ t, r.userID = userID := by
  obtain ⟨r, hr, huser⟩ := countP_pos_iff.mp (Nat.pos_of_ne_zero h)
  exact ⟨r, hr, by simpa using huser⟩

/-! ### What is kept -/

/-- A password of the user's own, or identities alone with one that no open transaction takes away. -/
def Safe (userID : ℕ) (s : State) : Prop :=
  s.passwordSet userID ∨ held userID s.passkeys = 0 ∧ 1 ≤ held userID s.identities ∧
      ∀ c, s.unlinking.lookup userID = some c → c.counted → 2 ≤ held userID s.identities

lemma Safe.one_le (h : Safe userID s) : 1 ≤ loginMethodCount s userID := by
  unfold loginMethodCount
  obtain hpassword | ⟨-, hone, -⟩ := h
  · rw [if_pos hpassword]
    omega
  · omega

/-- Steps that leave the credentials and the guards that were passed. -/
lemma Safe.of_same {s t : State} (hs : Safe userID s) (hpassword : t.passwordSet = s.passwordSet)
    (hpasskeys : t.passkeys = s.passkeys) (hidentities : t.identities = s.identities)
    (hcounted : ∀ c, t.unlinking.lookup userID = some c → c.counted →
      s.unlinking.lookup userID = some c ∨ 2 ≤ loginMethodCount s userID) : Safe userID t := by
  obtain hset | ⟨hnone, hone, hopen⟩ := hs
  · exact .inl (hpassword ▸ hset)
  by_cases hset : s.passwordSet userID
  · exact .inl (hpassword ▸ hset)
  refine .inr ⟨hpasskeys ▸ hnone, hidentities ▸ hone, fun c hc hcount => ?_⟩
  rw [hidentities]
  obtain hold | htwo := hcounted c hc hcount
  · exact hopen c hold hcount
  · simpa [loginMethodCount, hset, hnone] using htwo

lemma lookup_release (s : State) (userID' : ℕ) {c : Unlinking}
    (h : (s.release userID').unlinking.lookup userID = some c) :
    s.unlinking.lookup userID = some c ∧ userID' ≠ userID := by
  simp only [State.release, lookup_delete] at h
  obtain ⟨hold, hne⟩ := Option.filter_eq_some_iff.mp h
  have hkey := (lookup_eq_some.mp hold).2
  refine ⟨hold, fun heq => ?_⟩
  simp [heq, hkey] at hne

lemma Safe.release (hs : Safe userID s) (userID' : ℕ) : Safe userID (s.release userID') :=
  hs.of_same rfl rfl rfl fun _ hc _ => .inl (lookup_release s userID' hc).1

/-- The user's own transaction takes one of two identities; those of others none. -/
lemma Safe.commit (hs : Safe userID s) {userID' identityID : ℕ}
    (hopen : s.unlinking.lookup userID' = some ⟨userID', identityID, true⟩) :
    Safe userID ({ s with identities := without s.identities userID' identityID }.release userID') := by
  obtain hset | ⟨hnone, hone, hcounted⟩ := hs
  · exact .inl hset
  refine .inr ⟨hnone, ?_, fun c hc hcount => ?_⟩
  · by_cases heq : userID' = userID
    · subst heq
      have htwo := hcounted _ hopen rfl
      have hle := held_without_le s.identities userID' userID' identityID
      exact Nat.le_of_succ_le_succ (htwo.trans hle)
    · exact (held_without_of_ne s.identities heq identityID).symm ▸ hone
  · obtain ⟨hold, hne⟩ := lookup_release _ userID' hc
    exact (held_without_of_ne s.identities hne identityID).symm ▸ hcounted c hold hcount

lemma Safe.step (hs : Safe userID s) (h : step driver s e = some t) : Safe userID t := by
  cases e with
  | lock userID' identityID =>
    simp only [LoginMethods.step] at h
    split_ifs at h
    obtain ⟨unlinking, hinsert, rfl⟩ := Option.map_eq_some_iff.mp h
    refine hs.of_same rfl rfl rfl fun c hc hcount => ?_
    rw [lookup_insert hinsert] at hc
    split_ifs at hc with heq
    · obtain rfl := Option.some.inj hc
      cases hcount
    · exact .inl hc
  | count userID' =>
    simp only [LoginMethods.step] at h
    split at h
    · next _ identityID hopen =>
      split_ifs at h with hguard
      · obtain rfl := Option.some.inj h
        refine hs.of_same rfl rfl rfl fun c hc hcount => ?_
        simp only [lookup_update] at hc
        obtain ⟨c₀, hc₀, rfl⟩ := Option.map_eq_some_iff.mp hc
        by_cases heq : c₀.userID = userID'
        · -- the guard of this transaction
          have huser : userID' = userID := heq.symm.trans (lookup_eq_some.mp hc₀).2
          have hmethods := (Bool.and_eq_true_iff.mp hguard).2
          rw [huser, decide_eq_true_eq] at hmethods
          exact .inr (by omega)
        · simp only [heq, decide_false, Bool.false_eq_true, if_false]
          exact .inl hc₀
      · exact Option.some.inj h ▸ hs.release userID'
    · cases h
  | commit userID' =>
    simp only [LoginMethods.step] at h
    split at h
    · next key identityID hopen =>
      obtain rfl : key = userID' := (lookup_eq_some.mp hopen).2
      exact Option.some.inj h ▸ hs.commit hopen
    · cases h
  | rollback userID' => exact Option.some.inj h ▸ hs.release userID'
  | deletePasskey userID' id =>
    simp only [LoginMethods.step] at h
    split_ifs at h
    obtain rfl := Option.some.inj h
    obtain hset | ⟨hnone, hrest⟩ := hs
    · exact .inl hset
    have hle : held userID (without s.passkeys userID' id) ≤ held userID s.passkeys :=
      filter_sublist.countP_le
    exact .inr ⟨Nat.le_zero.mp (hnone ▸ hle), hrest⟩

/-! ### Without a password and with passkeys -/

/-- No transaction is open. -/
def Idle (s : State) : Prop :=
  s.unlinking = ⟨[], nodup_nil⟩

lemma blocked_of_idle (hidle : Idle s) : blocked driver s = false := by
  rw [blocked, hidle]
  simp

/-- The transactions while one user unlinks. -/
def alone (c : Unlinking) : Rows Unlinking.userID :=
  ⟨[c], nodup_singleton _⟩

lemma lookup_alone (c : Unlinking) : (alone c).lookup c.userID = some c := by
  simp [alone, Rows.lookup]

lemma update_alone (c : Unlinking) :
    (alone c).update (·.userID = c.userID) (fun c => { c with counted := true }) =
      alone { c with counted := true } := by
  simp [alone, Rows.update]

lemma delete_alone (c : Unlinking) : (alone c).delete (·.userID = c.userID) = ⟨[], nodup_nil⟩ := by
  simp [alone, Rows.delete]

/-- One unlink, on its own. -/
lemma run_unlink (driver : Driver) (hidle : Idle s) {r : Credential} (hr : r ∈ s.identities)
    (htwo : 2 ≤ loginMethodCount s r.userID) :
    run (step driver) s [.lock r.userID r.id, .count r.userID, .commit r.userID] =
      some { s with identities := without s.identities r.userID r.id } := by
  have howned : (s.identities.lookup r.id).any (·.userID = r.userID) := by
    rw [lookup_key hr]
    simp
  have hguard : 1 ≤ loginMethodCount s r.userID - 1 := by omega
  have hlock : step driver s (.lock r.userID r.id) = some { s with unlinking := alone ⟨r.userID, r.id, false⟩ } := by
    simp only [step, blocked_of_idle hidle]
    rw [hidle]
    rfl
  have hcount : step driver { s with unlinking := alone ⟨r.userID, r.id, false⟩ } (.count r.userID) =
      some { s with unlinking := alone ⟨r.userID, r.id, true⟩ } := by
    have hsame : loginMethodCount { s with unlinking := alone ⟨r.userID, r.id, false⟩ } r.userID =
      loginMethodCount s r.userID := rfl
    simp only [step, lookup_alone ⟨r.userID, r.id, false⟩, howned, hsame, hguard, decide_true, Bool.and_self,
      if_true, update_alone ⟨r.userID, r.id, false⟩]
  have hcommit : step driver { s with unlinking := alone ⟨r.userID, r.id, true⟩ } (.commit r.userID) =
      some { s with identities := without s.identities r.userID r.id } := by
    have hempty : s.unlinking = ⟨[], nodup_nil⟩ := hidle
    simp only [step, lookup_alone ⟨r.userID, r.id, true⟩, State.release, delete_alone ⟨r.userID, r.id, true⟩, hempty]
  simp only [run, hlock, hcount, hcommit]

/-- As long as there is a passkey, every identity can be unlinked. -/
lemma exists_run_unlinked (driver : Driver) (hidle : Idle s) (hkeys : held userID s.passkeys ≠ 0) :
    ∃ es t, run (step driver) s es = some t ∧ Idle t ∧ t.passwordSet = s.passwordSet ∧
      held userID t.identities = 0 := by
  induction h : held userID s.identities using Nat.strong_induction_on generalizing s with
  | _ n ih =>
    by_cases hzero : held userID s.identities = 0
    · exact ⟨[], s, rfl, hidle, rfl, hzero⟩
    obtain ⟨r, hr, rfl⟩ := exists_of_held s.identities userID hzero
    have htwo : 2 ≤ loginMethodCount s r.userID := by
      unfold loginMethodCount
      omega
    obtain ⟨es, t, hrun, hrest⟩ := ih _ (h ▸ held_without_lt hr)
      (s := { s with identities := without s.identities r.userID r.id }) hidle hkeys rfl
    refine ⟨[.lock r.userID r.id, .count r.userID, .commit r.userID] ++ es, t, ?_, hrest⟩
    rw [run_append, run_unlink driver hidle hr htwo, Option.bind_some, hrun]

/-- Passkeys go one by one, with nothing that keeps the last of them. -/
lemma exists_run_deleted (driver : Driver) (userID : ℕ) (hidle : Idle s) :
    ∃ es t, run (step driver) s es = some t ∧ t.passwordSet = s.passwordSet ∧ t.identities = s.identities ∧
      held userID t.passkeys = 0 := by
  induction h : held userID s.passkeys using Nat.strong_induction_on generalizing s with
  | _ n ih =>
    by_cases hzero : held userID s.passkeys = 0
    · exact ⟨[], s, rfl, rfl, rfl, hzero⟩
    obtain ⟨r, hr, rfl⟩ := exists_of_held s.passkeys userID hzero
    obtain ⟨es, t, hrun, hrest⟩ := ih _ (h ▸ held_without_lt hr)
      (s := { s with passkeys := without s.passkeys r.userID r.id }) hidle rfl
    refine ⟨.deletePasskey r.userID r.id :: es, t, run_cons_eq_some.mpr ⟨_, ?_, hrun⟩, hrest⟩
    simp [step, blocked_of_idle hidle]

/-- A login method is left in every interleaving exactly if the user has a password, or no passkey at all. -/
theorem method_remains_iff (driver : Driver) (s : State) (userID : ℕ) (hidle : Idle s)
    (hmethod : 1 ≤ loginMethodCount s userID) :
    (∀ es t, run (step driver) s es = some t → 1 ≤ loginMethodCount t userID) ↔
      s.passwordSet userID ∨ held userID s.passkeys = 0 := by
  constructor
  · intro hall
    by_contra hnot
    obtain ⟨hpassword, hkeys⟩ := not_or.mp hnot
    obtain ⟨es₁, s₁, hrun₁, hidle₁, hset₁, hzero₁⟩ := exists_run_unlinked driver hidle hkeys
    obtain ⟨es₂, s₂, hrun₂, hset₂, hsame₂, hzero₂⟩ := exists_run_deleted driver userID hidle₁
    have hrun : run (step driver) s (es₁ ++ es₂) = some s₂ := by
      rw [run_append, hrun₁, Option.bind_some, hrun₂]
    have hone := hall _ s₂ hrun
    have hset : s₂.passwordSet userID = false := by
      rw [hset₂, hset₁]
      simpa using hpassword
    simp [loginMethodCount, hset, hzero₂, hsame₂, hzero₁] at hone
  · intro hsafe es t hrun
    refine (run_invariant (I := Safe userID) (fun s e t hs hstep => hs.step hstep) ?_ hrun).one_le
    obtain hpassword | hnone := hsafe
    · exact .inl hpassword
    by_cases hpassword : s.passwordSet userID
    · exact .inl hpassword
    refine .inr ⟨hnone, by simpa [loginMethodCount, hpassword, hnone] using hmethod, fun c hc => ?_⟩
    rw [hidle] at hc
    cases hc

/-- A user whose account was provisioned, with a passkey and an identity. -/
def provisioned : State where
  passwordSet := fun _ => false
  passkeys := ⟨[⟨3, 1⟩], by decide⟩
  identities := ⟨[⟨7, 1⟩], by decide⟩
  unlinking := ⟨[], by decide⟩

theorem method_remains_iff_provisioned :
    (∀ es t, run (step .mysql) provisioned es = some t → 1 ≤ loginMethodCount t 1) ↔
      provisioned.passwordSet 1 ∨ held 1 provisioned.passkeys = 0 :=
  method_remains_iff .mysql provisioned 1 rfl (by decide)

/-- The identity is unlinked, since there is a passkey, and then the passkey is deleted. -/
theorem no_method_remains : loginMethodCount provisioned 1 = 2 ∧
      (run (step .mysql) provisioned [.lock 1 7, .count 1, .commit 1, .deletePasskey 1 3]).map
        (fun t => loginMethodCount t 1) = some 0 ∧
      -- and so it is when the passkey goes between the guard and the deletion
      (run (step .mysql) provisioned [.lock 1 7, .count 1, .deletePasskey 1 3, .commit 1]).map
        (fun t => loginMethodCount t 1) = some 0 := by
  refine ⟨?_, ?_, ?_⟩ <;> decide +kernel

end LoginMethods
