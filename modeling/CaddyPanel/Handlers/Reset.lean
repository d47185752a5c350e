import CaddyPanel.Accounts.Credentials
import Mathlib.Order.Nat

/-!
# Password resets and the credentials from before them

`ResetSubmit` consumes the token, and writes the new password, the next epoch and the revocation of the API keys in a
second transaction. The credentials of a user are sessions, tickets for the second factor, API keys, cookies of trusted
devices and tokens for a reset; they are numbered as they are issued. A credential cannot be made up, so that a request
brings the number of one. What a request issues is listed at its last read of the row, and a request that comes with a
session is in flight from the moment the session is accepted.
-/

namespace Reset

open List Option Rows Runs
open Accounts (Session ApiKey UserForm Write Users User load loadSessionClaims impersonate updateAllowed
  loadSessionClaims_eq_some impersonate_eq_some)
open Function (update update_self update_of_ne)

inductive Credential where
  | session (sess : Session)
  | ticket (userID epoch : ℕ)
  | key (key : ApiKey)
  | trust (userID exp : ℕ)
  | reset (userID exp : ℕ)
  deriving DecidableEq

def Credential.isKeyOf (id : ℕ) : Credential → Bool
  | .key k => k.userID = id
  | _ => false

/-- A credential, and whether its store still has it: not expired in Redis, revoked or used. -/
structure Issued where
  cred : Credential
  live : Bool
  deriving DecidableEq

/-- What a request with a session is for. -/
inductive Errand where
  | endImpersonation
  | impersonate (id : ℕ)
  | issueKey
  | update (form : UserForm) (password : ℕ)

inductive Call where
  /-- `LoginSubmit` after `VerifyPassword`; `code` says whether a second factor is set up -/
  | proved (userID epoch : ℕ) (code : Bool)
  /-- after `Load` has accepted the session of that number -/
  | request (number : ℕ) (sess : Session) (errand : Errand)
  /-- `ResetSubmit` after `ConsumeResetToken` -/
  | consumed (number userID : ℕ)

/-- Times are in seconds; a password stands for its hash. -/
structure State where
  users : Users
  /-- the next value of the key, which is never used twice -/
  nextID : ℕ
  now : ℕ
  passwords : ℕ → ℕ
  /-- whether the user has an authenticator, SMS codes or e-mail codes -/
  codes : ℕ → Bool
  issued : List Issued
  calls : ℕ → Option Call

inductive Action where
  | create (role : Accounts.Role) (isActive : Bool) (resellerID : Option ℕ) (password : ℕ)
  /-- a transaction of another request; the password is that of a form which sets one -/
  | write (w : Write) (password : ℕ)
  | enrol (id : ℕ) (on : Bool)
  | wait (seconds : ℕ)
  /-- an expiry, a logout, a purge or a revocation -/
  | drop (number : ℕ)
  | password (call id password : ℕ)
  /-- the rest of `LoginSubmit`, with the cookie that the request brings -/
  | enter (call : ℕ) (cookie : Option ℕ)
  /-- a login by another path, which has its own proof of who it is -/
  | signIn (id : ℕ)
  | challenge (id : ℕ)
  | verify (number : ℕ) (matched trustDevice : Bool)
  | load (call number : ℕ) (errand : Errand)
  | finish (call : ℕ)
  | useKey (number : ℕ)
  | forgot (id : ℕ)
  | consume (call number : ℕ)
  | commit (call password : ℕ)
  /-- a call ends early: an error, or the client is gone -/
  | abandon (call : ℕ)

def trustDeviceTTL : ℕ := 30 * 24 * 60 * 60

def resetTokenTTL : ℕ := 30 * 60

namespace State

def set (s : State) (call : ℕ) (c : Option Call) : State :=
  { s with calls := update s.calls call c }

@[simp] lemma users_set (s : State) (call : ℕ) (c : Option Call) : (s.set call c).users = s.users := rfl

@[simp] lemma issued_set (s : State) (call : ℕ) (c : Option Call) : (s.set call c).issued = s.issued := rfl

@[simp] lemma calls_set (s : State) (call : ℕ) (c : Option Call) : (s.set call c).calls call = c :=
  update_self ..

def issue (s : State) (cred : Credential) : State :=
  { s with issued := s.issued ++ [⟨cred, true⟩] }

/-- The stores lose what `p` says. -/
def kill (s : State) (p : ℕ → Credential → Bool) : State :=
  { s with issued := s.issued.mapIdx fun i x => if p i x.cred then { x with live := false } else x }

def write (s : State) (w : Write) (password : ℕ) : State :=
  { s with
    users := w.apply s.users
    passwords :=
      match w with
      | .update form _ => if form.newPass then update s.passwords form.id password else s.passwords
      | _ => s.passwords }

/-- `Load`. -/
def session (s : State) (number : ℕ) : Option Session :=
  match s.issued[number]? with
  | some ⟨.session sess, true⟩ => if load s.users sess then some sess else none
  | _ => none

/-- `VerifyAPIKey`. -/
def key (s : State) (number : ℕ) : Option User :=
  match s.issued[number]? with
  | some ⟨.key k, true⟩ => Accounts.verifyAPIKey s.users k
  | _ => none

/-- `verifyTrustToken`. -/
def trusts (s : State) (id number : ℕ) : Bool :=
  match s.issued[number]? with
  | some ⟨.trust userID exp, _⟩ => userID = id && s.now < exp
  | _ => false

/-- `readPending2FA` and `claimsForPending`. -/
def pending (s : State) (number : ℕ) : Option Session :=
  match s.issued[number]? with
  | some ⟨.ticket userID epoch, true⟩ => (loadSessionClaims s.users userID).filter (·.epoch = epoch)
  | _ => none

/-- The `SELECT` of `ConsumeResetToken`. -/
def token (s : State) (number : ℕ) : Option ℕ :=
  match s.issued[number]? with
  | some ⟨.reset userID exp, true⟩ => if s.now < exp then some userID else none
  | _ => none

def finalizeLoginAt (s : State) (id epoch : ℕ) : State :=
  match (loadSessionClaims s.users id).filter (·.epoch = epoch) with
  | some sess => s.issue (.session sess)
  | none => s

def issuePending2FAAt (s : State) (id epoch : ℕ) : State :=
  match (s.users.lookup id).filter (·.epoch = epoch) with
  | some _ => s.issue (.ticket id epoch)
  | none => s

def perform (s : State) (number : ℕ) (sess : Session) : Errand → State
  | .endImpersonation =>
    match sess.impersonator with
    | some (id, _) =>
      let t := s.kill fun i _ => i = number
      match loadSessionClaims s.users id with
      | some admin => t.issue (.session admin)
      | none => t
    | none => s
  | .impersonate id =>
    match impersonate s.users sess id with
    | some sess' => s.issue (.session sess')
    | none => s
  | .issueKey =>
    if Accounts.mayManage sess || sess.claims.role = .client then
      match s.users.lookup sess.userID with
      | some u => s.issue (.key ⟨u.id, u.epoch⟩)
      | none => s
    else s
  | .update form password =>
    match s.users.lookup form.id with
    | some u => if updateAllowed sess form u then s.write (.update form u.role) password else s
    | none => s

/-- The second transaction of `ResetSubmit`. -/
def resetPassword (s : State) (id password : ℕ) : State :=
  { s.kill (fun _ cred => cred.isKeyOf id) with
    users := (Write.revoke [id]).apply s.users
    passwords := update s.passwords id password }

end State

def step (s : State) : Action → Option State
  | .create role isActive resellerID password =>
    (s.users.insert { id := s.nextID, role, isActive, resellerID }).map fun users =>
      { s with users, nextID := s.nextID + 1, passwords := update s.passwords s.nextID password }
  | .write w password => some (s.write w password)
  | .enrol id on => some { s with codes := update s.codes id on }
  | .wait seconds => some { s with now := s.now + seconds }
  | .drop number => some (s.kill fun i _ => i = number)
  | .password call id password =>
    if (s.calls call).isSome then none
    else some (s.set call (((s.users.lookup id).filter fun u => u.isActive && s.passwords id = password).map
      fun u => .proved id u.epoch (s.codes id)))
  | .enter call cookie =>
    match s.calls call with
    | some (.proved id epoch code) =>
      let t := s.set call none
      some (if code && cookie.any (s.trusts id) then t.finalizeLoginAt id epoch
        else if code then t.issuePending2FAAt id epoch
        else t.finalizeLoginAt id epoch)
    | _ => none
  | .signIn id =>
    some (match loadSessionClaims s.users id with
      | some sess => s.issue (.session sess)
      | none => s)
  | .challenge id =>
    some (match s.users.lookup id with
      | some u => s.issue (.ticket id u.epoch)
      | none => s)
  | .verify number matched trustDevice =>
    if !matched then some s
    else
      let t := s.kill fun i _ => i = number
      some (match s.pending number with
        | some sess =>
          if trustDevice then (t.issue (.trust sess.userID (s.now + trustDeviceTTL))).issue (.session sess)
          else t.issue (.session sess)
        | none => t)
  | .load call number errand =>
    if (s.calls call).isSome then none
    else some (s.set call ((s.session number).map fun sess => .request number sess errand))
  | .finish call =>
    match s.calls call with
    | some (.request number sess errand) => some ((s.set call none).perform number sess errand)
    | _ => none
  | .useKey _ => some s
  | .forgot id =>
    some (match (s.users.lookup id).filter (·.isActive) with
      | some _ => s.issue (.reset id (s.now + resetTokenTTL))
      | none => s)
  | .consume call number =>
    if (s.calls call).isSome then none
    else some (match s.token number with
      | some id => (s.kill fun i _ => i = number).set call (some (.consumed number id))
      | none => s)
  | .commit call password =>
    match s.calls call with
    | some (.consumed _ id) =>
      let t := s.set call none
      -- no row is the error `ErrUserGone` of the bump
      some (if (s.users.lookup id).isSome then t.resetPassword id password else t)
    | _ => none
  | .abandon call => some (s.set call none)

/-- A panel that was just set up. -/
def start : State where
  users := ⟨[], nodup_nil⟩
  nextID := 1
  now := 0
  passwords := fun _ => 0
  codes := fun _ => false
  issued := []
  calls := fun _ => none

/-! ### What a credential is good for -/

inductive Gain where
  /-- access as a user: an accepted session or key, or a new session -/
  | session
  | skip
  | password (userID : ℕ)
  deriving DecidableEq

/-- The number of the credential that a step goes by, and what it gives. -/
def gain (s : State) : Action → Option (ℕ × Gain)
  | .load _ number _ => (s.session number).map fun _ => (number, .session)
  | .useKey number => (s.key number).map fun _ => (number, .session)
  | .verify number matched _ => if matched then (s.pending number).map fun _ => (number, .session) else none
  | .enter call cookie =>
    match s.calls call with
    | some (.proved id _ true) => (cookie.filter (s.trusts id)).map fun number => (number, .skip)
    | _ => none
  | .finish call =>
    match s.calls call with
    | some (.request number sess .endImpersonation) =>
      (sess.impersonator.bind fun (id, _) => loadSessionClaims s.users id).map fun _ => (number, .session)
    | some (.request number sess (.update form _)) =>
      ((s.users.lookup form.id).filter fun u => form.newPass && updateAllowed sess form u).map
        fun _ => (number, .password form.id)
    | _ => none
  | .commit call _ =>
    match s.calls call with
    | some (.consumed number id) => (s.users.lookup id).map fun _ => (number, .password id)
    | _ => none
  | _ => none

def Gain.concerns (id : ℕ) : Gain → Prop
  | .session | .skip => True
  | .password userID => userID = id

/-- The user a session was issued to: an impersonation is the administrator's. -/
def holder (sess : Session) : ℕ :=
  match sess.impersonator with
  | some (id, _) => id
  | none => sess.userID

def Credential.holder : Credential → ℕ
  | .session sess => Reset.holder sess
  | .ticket userID _ => userID
  | .key k => k.userID
  | .trust userID _ => userID
  | .reset userID _ => userID

/-- The step gains nothing from the first `n` credentials, as far as they are those of the user. -/
def Void (n id : ℕ) (s : State) (a : Action) : Prop :=
  ∀ number g, gain s a = some (number, g) → number < n → ∀ x, s.issued[number]? = some x → x.cred.holder = id →
    ¬ g.concerns id

/-- The credential of the user is not ended by a new epoch. -/
def Issued.lasting (now id : ℕ) (x : Issued) : Bool :=
  match x.cred with
  | .trust userID exp => userID = id && now < exp
  | .reset userID exp => userID = id && x.live && now < exp
  | _ => false

/-- The call can still end with a session, or a new password, of the user. -/
def Call.pending (id : ℕ) : Call → Bool
  | .proved .. => false
  | .request _ sess .endImpersonation => sess.impersonator.any fun (admin, _) => admin = id
  | .request _ sess (.update form _) =>
    holder sess = id && form.id = id && form.newPass &&
      updateAllowed sess form { id := form.id, role := form.role, isActive := true }
  | .request .. => false
  | .consumed _ userID => userID = id

/-- The credential that a call came with. -/
def Call.number : Call → Option ℕ
  | .proved .. => none
  | .request number .. | .consumed number _ => some number

/-- Nothing outlives the reset that `call` is about to commit. -/
def Clear (s : State) (call id : ℕ) : Prop :=
  (∀ x ∈ s.issued, x.lasting s.now id = false) ∧
    ∀ c, c ≠ call → ∀ k, s.calls c = some k → k.pending id = false

/-! ### What a step changes -/

variable {s t : State} {id n : ℕ}

/-- The users and epochs that a credential is bound to. -/
def Credential.stamps : Credential → List (ℕ × ℕ)
  | .session sess => (sess.userID, sess.epoch) :: sess.impersonator.toList
  | .ticket userID epoch => [(userID, epoch)]
  | .key k => [(k.userID, k.epoch)]
  | .trust .. | .reset .. => []

/-- The epoch of a stamp is not ahead of the row, and its user was there. -/
def Bounded (s : State) (stamp : ℕ × ℕ) : Prop :=
  stamp.1 < s.nextID ∧ ∀ u, s.users.lookup stamp.1 = some u → stamp.2 ≤ u.epoch

structure Stamped (s : State) : Prop where
  ids : ∀ id u, s.users.lookup id = some u → id < s.nextID
  bounded : ∀ (i : ℕ) (x : Issued), s.issued[i]? = some x → ∀ stamp ∈ x.cred.stamps, Bounded s stamp
  requests : ∀ c number sess errand, s.calls c = some (.request number sess errand) →
    ∃ live, s.issued[number]? = some ⟨.session sess, live⟩
  tokens : ∀ c number id, s.calls c = some (.consumed number id) →
    ∃ exp live, s.issued[number]? = some ⟨.reset id exp, live⟩

variable {c i call number epoch now now₀ : ℕ} {users : Users} {u' u : User} {x x₀ : Issued} {sess actor : Session}

lemma Stamped.number_lt (h : Stamped s) {k : Call} (hk : s.calls c = some k) (hi : k.number = some i) :
    i < s.issued.length := by
  cases k with
  | proved => cases hi
  | request number sess errand =>
    cases hi
    obtain ⟨live, hx⟩ := h.requests c i sess errand hk
    exact (List.getElem?_eq_some_iff.mp hx).1
  | consumed number id =>
    cases hi
    obtain ⟨exp, live, hx⟩ := h.tokens c i id hk
    exact (List.getElem?_eq_some_iff.mp hx).1

/-- A call that a step begins, by what the step has read. -/
inductive Begun (s : State) : Call → Prop
  | proved (id epoch : ℕ) (code : Bool) : Begun s (.proved id epoch code)
  | request {number : ℕ} {sess : Session} (errand : Errand) (h : s.session number = some sess) :
      Begun s (.request number sess errand)
  | consumed {number id : ℕ} (h : s.token number = some id) : Begun s (.consumed number id)

structure Change (s t : State) : Prop where
  nextID : s.nextID ≤ t.nextID
  now : s.now ≤ t.now
  users : ∀ id u', t.users.lookup id = some u' →
    (∃ u, s.users.lookup id = some u ∧ u.epoch ≤ u'.epoch) ∨ s.nextID ≤ id ∧ id < t.nextID
  kept : ∀ (i : ℕ) (x : Issued), s.issued[i]? = some x → ∃ live, t.issued[i]? = some ⟨x.cred, live⟩ ∧ (live → x.live)
  fresh : ∀ (i : ℕ) (x : Issued), t.issued[i]? = some x → s.issued.length ≤ i → ∀ stamp ∈ x.cred.stamps, Bounded t stamp
  calls : ∀ c k, t.calls c = some k → s.calls c = some k ∨ Begun s k

lemma Change.refl (s : State) : Change s s where
  nextID := le_rfl
  now := le_rfl
  users := fun id u hu => .inl ⟨u, hu, le_rfl⟩
  kept := fun i x hx => ⟨x.live, hx, id⟩
  fresh := fun i x hx hi => by
    rw [getElem?_eq_none hi] at hx
    cases hx
  calls := fun _ _ hk => .inl hk

/-- A call that is set is one that the step begins. -/
lemma Change.set {k : Option Call} (h : Change s t) (hk : ∀ k' ∈ k, Begun s k') : Change s (t.set call k) where
  nextID := h.nextID
  now := h.now
  users := h.users
  kept := h.kept
  fresh := h.fresh
  calls := fun c k' hc => by
    obtain ⟨-, hc⟩ | ⟨-, hc⟩ := update_eq_some hc
    · exact .inr (hk k' hc)
    · exact h.calls c k' hc

lemma Change.ended (s : State) (call : ℕ) : Change s (s.set call none) :=
  (Change.refl s).set fun _ hk => (nomatch hk)

lemma Change.issue {cred : Credential} (h : Change s t) (hcred : ∀ stamp ∈ cred.stamps, Bounded t stamp) :
    Change s (t.issue cred) where
  nextID := h.nextID
  now := h.now
  users := h.users
  kept := fun i x hx => by
    obtain ⟨live, hkept, hlive⟩ := h.kept i x hx
    have hi : i < t.issued.length := (List.getElem?_eq_some_iff.mp hkept).1
    exact ⟨live, (List.getElem?_append_left hi).trans hkept, hlive⟩
  fresh := fun i x hx hi => by
    have hx : (t.issued ++ [⟨cred, true⟩])[i]? = some x := hx
    rw [getElem?_append] at hx
    split at hx
    · exact h.fresh i x hx hi
    rw [getElem?_singleton] at hx
    split at hx
    · cases hx
      exact hcred
    · cases hx
  calls := h.calls

lemma Change.kill (h : Change s t) (p : ℕ → Credential → Bool) : Change s (t.kill p) where
  nextID := h.nextID
  now := h.now
  users := h.users
  kept := fun i x hx => by
    obtain ⟨live, hkept, hlive⟩ := h.kept i x hx
    refine ⟨live && !p i x.cred, ?_, fun h => hlive (Bool.and_eq_true_iff.mp h).1⟩
    simp only [State.kill, getElem?_mapIdx, hkept, map_some]
    cases p i x.cred <;> simp
  fresh := fun i x hx hi => by
    simp only [State.kill, getElem?_mapIdx, map_eq_some_iff] at hx
    obtain ⟨x₀, hx₀, rfl⟩ := hx
    have hcred : (if p i x₀.cred then { x₀ with live := false } else x₀).cred = x₀.cred := by
      split <;> rfl
    rw [hcred]
    exact h.fresh i x₀ hx₀ hi
  calls := h.calls

lemma epoch_le_row (w : Write) (u : User) : u.epoch ≤ (w.row u).epoch := by
  cases hsilent : w.silent u with
  | true => exact (w.epoch_row_of_silent hsilent).ge
  | false => exact (w.advance_row u hsilent).epoch_le

lemma exists_of_lookup_apply {w : Write} (h : (w.apply users).lookup id = some u') :
    ∃ u, users.lookup id = some u ∧ u.epoch ≤ u'.epoch := by
  rw [Write.lookup_apply] at h
  obtain ⟨u, hu, hrow⟩ := bind_eq_some_iff.mp h
  split at hrow
  · cases hrow
  · cases hrow
    exact ⟨u, hu, epoch_le_row w u⟩

/-- A credential from before the change. -/
lemma Change.old (h : Change s t) (hi : i < s.issued.length) (hx : t.issued[i]? = some x) :
    ∃ x₀, s.issued[i]? = some x₀ ∧ x.cred = x₀.cred ∧ (x.live → x₀.live) := by
  have hx₀ : s.issued[i]? = some s.issued[i] := getElem?_eq_getElem hi
  obtain ⟨live, hkept, hlive⟩ := h.kept i _ hx₀
  cases hx.symm.trans hkept
  exact ⟨s.issued[i], hx₀, rfl, hlive⟩

/-- The rows are written after the rest. -/
lemma Change.write (h : Change s t) (w : Write) (passwords : ℕ → ℕ) :
    Change s { t with users := w.apply t.users, passwords } where
  nextID := h.nextID
  now := h.now
  users := fun id u' hu' => by
    obtain ⟨u, hu, hle⟩ := exists_of_lookup_apply hu'
    obtain ⟨u₀, hu₀, hle₀⟩ | hnew := h.users id u hu
    · exact .inl ⟨u₀, hu₀, hle₀.trans hle⟩
    · exact .inr hnew
  kept := h.kept
  fresh := fun i x hx hi stamp hstamp => by
    obtain ⟨hid, hepoch⟩ := h.fresh i x hx hi stamp hstamp
    refine ⟨hid, fun u' hu' => ?_⟩
    obtain ⟨u, hu, hle⟩ := exists_of_lookup_apply hu'
    exact (hepoch u hu).trans hle
  calls := h.calls

/-! ### The stamps of what is issued -/

lemma Stamped.of_lookup (hs : Stamped s) (hu : s.users.lookup id = some u) : Bounded s (id, u.epoch) := by
  refine ⟨hs.ids id u hu, fun u' hu' => ?_⟩
  cases hu.symm.trans hu'
  exact le_rfl

lemma Stamped.of_loadSessionClaims (hs : Stamped s) (h : loadSessionClaims s.users id = some sess) :
    ∀ stamp ∈ (Credential.session sess).stamps, Bounded s stamp := by
  obtain ⟨u, hu, -, rfl⟩ := loadSessionClaims_eq_some h
  exact forall_mem_singleton.mpr (hs.of_lookup hu)

lemma Stamped.of_impersonate (hs : Stamped s) (hactor : ∀ stamp ∈ (Credential.session actor).stamps, Bounded s stamp)
    (h : impersonate s.users actor id = some sess) : ∀ stamp ∈ (Credential.session sess).stamps, Bounded s stamp := by
  obtain ⟨target, htarget, -, rfl⟩ := impersonate_eq_some h
  intro stamp hstamp
  obtain rfl | hstamp := mem_cons.mp hstamp
  · exact hs.of_loadSessionClaims htarget _ mem_cons_self
  · obtain rfl := mem_toList.mp hstamp |> Option.some.inj
    exact hactor _ mem_cons_self

lemma Change.finalizeLoginAt (hs : Stamped s) (call id epoch : ℕ) :
    Change s ((s.set call none).finalizeLoginAt id epoch) := by
  unfold State.finalizeLoginAt
  split
  · next sess hsess =>
    exact (Change.ended s call).issue (hs.of_loadSessionClaims (filter_eq_some_iff.mp hsess).1)
  · exact .ended s call

lemma Change.issuePending2FAAt (hs : Stamped s) (call id epoch : ℕ) :
    Change s ((s.set call none).issuePending2FAAt id epoch) := by
  unfold State.issuePending2FAAt
  split
  · next u hu =>
    obtain ⟨hu, hepoch⟩ := filter_eq_some_iff.mp hu
    exact (Change.ended s call).issue (forall_mem_singleton.mpr (of_decide_eq_true hepoch ▸ hs.of_lookup hu))
  · exact .ended s call

lemma pending_eq_some (h : s.pending number = some sess) :
    ∃ userID epoch, s.issued[number]? = some ⟨.ticket userID epoch, true⟩ ∧
      loadSessionClaims s.users userID = some sess ∧ sess.epoch = epoch := by
  unfold State.pending at h
  split at h
  · next userID epoch hticket =>
    obtain ⟨hload, hepoch⟩ := filter_eq_some_iff.mp h
    exact ⟨userID, epoch, hticket, hload, of_decide_eq_true hepoch⟩
  · cases h

lemma session_eq_some (h : s.session number = some sess) :
    s.issued[number]? = some ⟨.session sess, true⟩ ∧ load s.users sess := by
  unfold State.session at h
  split at h
  · next sess' hsess =>
    split at h
    · next hload =>
      cases h
      exact ⟨hsess, hload⟩
    · cases h
  · cases h

lemma token_eq_some (h : s.token number = some id) :
    ∃ exp, s.issued[number]? = some ⟨.reset id exp, true⟩ ∧ s.now < exp := by
  unfold State.token at h
  split at h
  · next userID exp htoken =>
    split at h
    · next hexp =>
      cases h
      exact ⟨exp, htoken, hexp⟩
    · cases h
  · cases h

lemma change_perform (hs : Stamped s) {errand : Errand}
    (hsess : ∀ stamp ∈ (Credential.session sess).stamps, Bounded s stamp) :
    Change s ((s.set call none).perform number sess errand) := by
  have hset := Change.ended s call
  cases errand with
  | endImpersonation =>
    simp only [State.perform]
    split
    · split
      · next admin hadmin => exact (hset.kill _).issue (hs.of_loadSessionClaims hadmin)
      · exact hset.kill _
    · exact hset
  | impersonate id =>
    simp only [State.perform]
    split
    · next sess' hsess' => exact hset.issue (hs.of_impersonate hsess hsess')
    · exact hset
  | issueKey =>
    simp only [State.perform]
    split
    · split
      · next u hu =>
        exact hset.issue (forall_mem_singleton.mpr (hs.of_lookup (lookup_key (lookup_eq_some.mp hu).1)))
      · exact hset
    · exact hset
  | update form password =>
    simp only [State.perform]
    split
    · split
      · exact hset.write _ _
      · exact hset
    · exact hset

lemma step_change (hs : Stamped s) {a : Action} (h : step s a = some t) : Change s t := by
  have hsame := Change.refl s
  cases a with
  | create role isActive resellerID password =>
    obtain ⟨users, husers, rfl⟩ := map_eq_some_iff.mp h
    refine ⟨Nat.le_succ _, le_rfl, fun id u' hu' => ?_, hsame.kept, fun i x hx hi => ?_, hsame.calls⟩
    · obtain ⟨hmem, rfl⟩ := lookup_eq_some.mp hu'
      obtain hold | rfl := (mem_insert husers).mp hmem
      · exact .inl ⟨u', lookup_key hold, le_rfl⟩
      · exact .inr ⟨le_rfl, Nat.lt_succ_self _⟩
    · rw [getElem?_eq_none hi] at hx
      cases hx
  | write w password =>
    cases h
    exact hsame.write w _
  | enrol id on =>
    cases h
    exact ⟨hsame.nextID, hsame.now, hsame.users, hsame.kept, hsame.fresh, hsame.calls⟩
  | wait seconds =>
    cases h
    exact ⟨hsame.nextID, Nat.le_add_right _ _, hsame.users, hsame.kept, hsame.fresh, hsame.calls⟩
  | drop number =>
    cases h
    exact hsame.kill _
  | password call id password =>
    simp only [step] at h
    split at h
    · cases h
    cases h
    refine hsame.set fun k hk => ?_
    obtain ⟨u, -, rfl⟩ := map_eq_some_iff.mp hk
    exact .proved _ _ _
  | enter call cookie =>
    simp only [step] at h
    split at h
    · next id epoch code hcall =>
      cases h
      split
      · exact .finalizeLoginAt hs call id epoch
      split
      · exact .issuePending2FAAt hs call id epoch
      · exact .finalizeLoginAt hs call id epoch
    · cases h
  | signIn id =>
    cases h
    split
    · next sess hsess => exact hsame.issue (hs.of_loadSessionClaims hsess)
    · exact hsame
  | challenge id =>
    cases h
    split
    · next u hu => exact hsame.issue (forall_mem_singleton.mpr (hs.of_lookup hu))
    · exact hsame
  | verify number matched trustDevice =>
    simp only [step] at h
    split at h
    · cases h
      exact hsame
    cases h
    have hkill := hsame.kill fun i _ => i = number
    split
    · next sess hsess =>
      obtain ⟨userID, epoch, -, hload, -⟩ := pending_eq_some hsess
      have hstamps := hs.of_loadSessionClaims hload
      split
      · exact (hkill.issue (forall_mem_nil _)).issue hstamps
      · exact hkill.issue hstamps
    · exact hkill
  | load call number errand =>
    simp only [step] at h
    split at h
    · cases h
    cases h
    refine hsame.set fun k hk => ?_
    obtain ⟨sess, hsess, rfl⟩ := map_eq_some_iff.mp hk
    exact .request errand hsess
  | finish call =>
    simp only [step] at h
    split at h
    · next number sess errand hcall =>
      cases h
      obtain ⟨live, hissued⟩ := hs.requests call number sess errand hcall
      exact change_perform hs (hs.bounded number _ hissued)
    · cases h
  | useKey number =>
    cases h
    exact hsame
  | forgot id =>
    cases h
    split
    · exact hsame.issue (forall_mem_nil _)
    · exact hsame
  | consume call number =>
    simp only [step] at h
    split at h
    · cases h
    cases h
    split
    · next id hid =>
      refine (hsame.kill _).set fun k hk => ?_
      cases hk
      exact .consumed hid
    · exact hsame
  | commit call password =>
    simp only [step] at h
    split at h
    · cases h
      split
      · exact ((Change.ended s call).kill _).write _ _
      · exact .ended s call
    · cases h
  | abandon call =>
    cases h
    exact .ended s call

lemma Stamped.change (hs : Stamped s) (h : Change s t) : Stamped t := by
  have hissued : ∀ {number : ℕ} {cred : Credential} {live : Bool}, s.issued[number]? = some ⟨cred, live⟩ →
      ∃ live', t.issued[number]? = some ⟨cred, live'⟩ := by
    intro number cred live hx
    obtain ⟨live', hx', -⟩ := h.kept number _ hx
    exact ⟨live', hx'⟩
  constructor
  case ids =>
    intro id u' hu'
    obtain ⟨u, hu, -⟩ | hnew := h.users id u' hu'
    · exact (hs.ids id u hu).trans_le h.nextID
    · exact hnew.2
  case bounded =>
    intro i x hx stamp hstamp
    by_cases hi : s.issued.length ≤ i
    · exact h.fresh i x hx hi stamp hstamp
    -- a credential from before keeps its stamps, and the epochs only rise
    obtain ⟨x₀, hx₀, hcred, -⟩ := h.old (Nat.lt_of_not_le hi) hx
    obtain ⟨hid, hepoch⟩ := hs.bounded i x₀ hx₀ stamp (hcred ▸ hstamp)
    refine ⟨hid.trans_le h.nextID, fun u' hu' => ?_⟩
    obtain ⟨u, hu, hle⟩ | hnew := h.users _ u' hu'
    · exact (hepoch u hu).trans hle
    · exact absurd hid (Nat.not_lt_of_le hnew.1)
  case requests =>
    intro c number sess errand hc
    obtain hold | hbegun := h.calls c _ hc
    · obtain ⟨live, hx⟩ := hs.requests c number sess errand hold
      exact hissued hx
    · cases hbegun with
      | request _ hsess => exact hissued (session_eq_some hsess).1
  case tokens =>
    intro c number id hc
    obtain hold | hbegun := h.calls c _ hc
    · obtain ⟨exp, live, hx⟩ := hs.tokens c number id hold
      exact ⟨exp, hissued hx⟩
    cases hbegun with
    | consumed htoken =>
      obtain ⟨exp, hx, -⟩ := token_eq_some htoken
      exact ⟨exp, hissued hx⟩

lemma stamped_start : Stamped start where
  ids := fun _ _ h => (nomatch h)
  bounded := fun _ _ h => (nomatch h)
  requests := fun _ _ _ _ h => (nomatch h)
  tokens := fun _ _ _ h => (nomatch h)

lemma stamped_of_run {as : List Action} (h : Runs.run step start as = some s) : Stamped s :=
  run_invariant (fun _ _ _ hs hstep => hs.change (step_change hs hstep)) stamped_start h

/-! ### After a reset -/

/-- The first `n` credentials are of no more use to the user `id`. -/
structure Dead (n id : ℕ) (s : State) : Prop where
  length : n ≤ s.issued.length
  known : id < s.nextID
  stamps : ∀ (i : ℕ) (x : Issued), i < n → s.issued[i]? = some x → ∀ epoch, (id, epoch) ∈ x.cred.stamps →
    ∀ u, s.users.lookup id = some u → epoch < u.epoch
  lasting : ∀ (i : ℕ) (x : Issued), i < n → s.issued[i]? = some x → x.lasting s.now id = false
  calls : ∀ c k, s.calls c = some k → k.pending id → ∀ number ∈ k.number, n ≤ number

lemma holder_mem_stamps (sess : Session) : ∃ epoch, (holder sess, epoch) ∈ (Credential.session sess).stamps := by
  unfold holder
  split
  · next admin epoch himp => exact ⟨epoch, mem_cons_of_mem _ (by simp [himp])⟩
  · exact ⟨sess.epoch, mem_cons_self⟩

lemma current_of_load (h : load users sess) {stamp : ℕ × ℕ} (hstamp : stamp ∈ (Credential.session sess).stamps) :
    ∃ u, users.lookup stamp.1 = some u ∧ u.epoch = stamp.2 := by
  have hok : Accounts.epochOK users stamp.1 stamp.2 := by
    obtain ⟨huser, himp⟩ := Bool.and_eq_true_iff.mp h
    obtain rfl | hstamp := mem_cons.mp hstamp
    · exact huser
    · have hstamp : sess.impersonator = some stamp := mem_toList.mp hstamp
      simpa [hstamp] using himp
  obtain ⟨u, hu, hepoch⟩ := (any_eq_true _ _).mp hok
  exact ⟨u, hu, of_decide_eq_true hepoch⟩

/-- A stamp that is current is not one of the dead. -/
lemma Dead.not_current (hd : Dead n id s) (hi : i < n) (hx : s.issued[i]? = some x)
    (hstamp : (id, epoch) ∈ x.cred.stamps) (hu : s.users.lookup id = some u) : u.epoch ≠ epoch :=
  (hd.stamps i x hi hx epoch hstamp u hu).ne'

lemma Dead.session (hd : Dead n id s) (h : s.session number = some sess) (hlt : number < n) : holder sess ≠ id := by
  rintro rfl
  obtain ⟨hx, hload⟩ := session_eq_some h
  obtain ⟨epoch, hstamp⟩ := holder_mem_stamps sess
  obtain ⟨u, hu, hepoch⟩ := current_of_load hload hstamp
  exact hd.not_current hlt hx hstamp hu hepoch

lemma Dead.token (hd : Dead n id s) (h : s.token number = some id) : n ≤ number := by
  by_contra hlt
  obtain ⟨exp, hx, hexp⟩ := token_eq_some h
  have hlasting := hd.lasting number _ (Nat.lt_of_not_le hlt) hx
  simp [Issued.lasting, hexp] at hlasting

lemma lasting_mono (hcred : x.cred = x₀.cred) (hlive : x.live → x₀.live)
    (hnow : now₀ ≤ now) (h : x₀.lasting now₀ id = false) : x.lasting now id = false := by
  rw [Bool.eq_false_iff] at h ⊢
  refine fun hx => h ?_
  unfold Issued.lasting at hx ⊢
  rw [hcred] at hx
  split at hx
  · simp only [Bool.and_eq_true, decide_eq_true_eq] at hx ⊢
    exact ⟨hx.1, hnow.trans_lt hx.2⟩
  · simp only [Bool.and_eq_true, decide_eq_true_eq] at hx ⊢
    exact ⟨⟨hx.1.1, hlive hx.1.2⟩, hnow.trans_lt hx.2⟩
  · cases hx

lemma Call.holder_of_pending {errand : Errand}
    (h : (Call.request number sess errand).pending id) : holder sess = id := by
  cases errand with
  | endImpersonation =>
    obtain ⟨⟨admin, epoch⟩, himp, hadmin⟩ := (any_eq_true _ _).mp h
    simpa [holder, himp] using hadmin
  | update form password =>
    simp only [Call.pending, Bool.and_eq_true, decide_eq_true_eq] at h
    exact h.1.1.1
  | impersonate | issueKey => cases h

lemma Change.length_le (h : Change s t) : s.issued.length ≤ t.issued.length := by
  by_contra hlt
  have hlt : t.issued.length < s.issued.length := Nat.lt_of_not_le hlt
  obtain ⟨live, hx, -⟩ := h.kept t.issued.length _ (getElem?_eq_getElem hlt)
  rw [getElem?_eq_none le_rfl] at hx
  cases hx

lemma Dead.change (hd : Dead n id s) (h : Change s t) : Dead n id t where
  length := hd.length.trans h.length_le
  known := hd.known.trans_le h.nextID
  stamps := fun i x hi hx epoch hstamp u' hu' => by
    obtain ⟨x₀, hx₀, hcred, -⟩ := h.old (hi.trans_le hd.length) hx
    obtain ⟨u, hu, hle⟩ | hnew := h.users id u' hu'
    · exact (hd.stamps i x₀ hi hx₀ epoch (hcred ▸ hstamp) u hu).trans_le hle
    · exact absurd hd.known (Nat.not_lt_of_le hnew.1)
  lasting := fun i x hi hx => by
    obtain ⟨x₀, hx₀, hcred, hlive⟩ := h.old (hi.trans_le hd.length) hx
    exact lasting_mono hcred hlive h.now (hd.lasting i x₀ hi hx₀)
  calls := fun c k hk hpending number hnumber => by
    obtain hold | hbegun := h.calls c k hk
    · exact hd.calls c k hold hpending number hnumber
    cases hbegun with
    | proved => cases hpending
    | request errand hsess =>
      cases hnumber
      by_contra hlt
      exact hd.session hsess (Nat.lt_of_not_le hlt) (Call.holder_of_pending hpending)
    | consumed htoken =>
      cases hnumber
      have huser : _ = id := of_decide_eq_true hpending
      exact hd.token (huser ▸ htoken)

/-- An edit that is allowed for some role of the row is allowed for the one of the form. -/
lemma updateAllowed_form {form : UserForm} (h : updateAllowed sess form u) :
    updateAllowed sess form { id := form.id, role := form.role, isActive := true } := by
  simp only [updateAllowed, Bool.and_eq_true, Bool.or_eq_true, decide_eq_true_eq] at h ⊢
  obtain ⟨⟨⟨⟨⟨⟨hmanage, hrole⟩, -⟩, -⟩, -⟩, hrank⟩, hself⟩ := h
  refine ⟨⟨⟨⟨⟨⟨hmanage, hrole⟩, ?_⟩, ?_⟩, hrank⟩, hrank⟩, hself.imp_right fun h => ⟨trivial, h.2⟩⟩
  · rintro hclient
    simp [hclient] at hrole
  · rintro hreseller
    simp [hreseller] at hrole

lemma Dead.void (hs : Stamped s) (hd : Dead n id s) (a : Action) : Void n id s a := by
  intro number g hgain hlt x hx hholder hconcerns
  cases a with
  | load call number' errand =>
    obtain ⟨sess, hsess, heq⟩ := map_eq_some_iff.mp hgain
    cases heq
    cases hx.symm.trans (session_eq_some hsess).1
    exact hd.session hsess hlt hholder
  | useKey number' =>
    obtain ⟨u, hkey, heq⟩ := map_eq_some_iff.mp hgain
    cases heq
    unfold State.key at hkey
    split at hkey
    · next k hx' =>
      cases hx.symm.trans hx'
      obtain ⟨hu, hgood⟩ := filter_eq_some_iff.mp hkey
      have hepoch : k.epoch = u.epoch := of_decide_eq_true (Bool.and_eq_true_iff.mp hgood).2
      have hstamp : (id, k.epoch) ∈ (Credential.key k).stamps := by
        rw [← hholder]
        exact mem_singleton_self _
      have hu : s.users.lookup id = some u := hholder ▸ hu
      exact hd.not_current hlt hx hstamp hu hepoch.symm
    · cases hkey
  | verify number' matched trustDevice =>
    simp only [gain] at hgain
    split at hgain
    · obtain ⟨sess, hpending, heq⟩ := map_eq_some_iff.mp hgain
      cases heq
      obtain ⟨userID, epoch, hx', hload, hepoch⟩ := pending_eq_some hpending
      cases hx.symm.trans hx'
      obtain rfl : userID = id := hholder
      obtain ⟨u, hu, -, rfl⟩ := loadSessionClaims_eq_some hload
      exact hd.not_current hlt hx (mem_singleton_self _) hu hepoch
    · cases hgain
  | enter call cookie =>
    simp only [gain] at hgain
    split at hgain
    · next userID epoch hcall =>
      obtain ⟨number', hcookie, heq⟩ := map_eq_some_iff.mp hgain
      cases heq
      have htrust : s.trusts userID number := (filter_eq_some_iff.mp hcookie).2
      have hlasting := hd.lasting number x hlt hx
      unfold State.trusts at htrust
      split at htrust
      · next user exp live hx' =>
        cases hx.symm.trans hx'
        obtain rfl : user = id := hholder
        rw [Bool.and_eq_true] at htrust
        simp [Issued.lasting, of_decide_eq_true htrust.2] at hlasting
      · cases htrust
    · cases hgain
  | finish call =>
    simp only [gain] at hgain
    split at hgain
    · next number' sess hcall =>
      obtain ⟨admin, hadmin, heq⟩ := map_eq_some_iff.mp hgain
      cases heq
      obtain ⟨⟨userID, epoch⟩, himp, -⟩ := bind_eq_some_iff.mp hadmin
      obtain ⟨live, hx'⟩ := hs.requests _ _ _ _ hcall
      cases hx.symm.trans hx'
      have hpending : (Call.request number sess .endImpersonation).pending id := by
        simpa [Call.pending, himp, Credential.holder, holder] using hholder
      exact (hd.calls _ _ hcall hpending number rfl).not_gt hlt
    · next number' sess form password hcall =>
      obtain ⟨u, hu, heq⟩ := map_eq_some_iff.mp hgain
      cases heq
      obtain ⟨hnew, hallowed⟩ := Bool.and_eq_true_iff.mp (filter_eq_some_iff.mp hu).2
      obtain ⟨live, hx'⟩ := hs.requests _ _ _ _ hcall
      cases hx.symm.trans hx'
      have hholder : holder sess = id := hholder
      have hform : form.id = id := hconcerns
      have hpending : (Call.request number sess (.update form password)).pending id := by
        simp only [Call.pending, hholder, hform, hnew, decide_true, Bool.true_and]
        exact hform ▸ updateAllowed_form hallowed
      exact (hd.calls _ _ hcall hpending number rfl).not_gt hlt
    · cases hgain
  | commit call password =>
    simp only [gain] at hgain
    split at hgain
    · next number' userID hcall =>
      obtain ⟨u, -, heq⟩ := map_eq_some_iff.mp hgain
      cases heq
      have hpending : (Call.consumed number userID).pending id := decide_eq_true hconcerns
      exact (hd.calls _ _ hcall hpending number rfl).not_gt hlt
    · cases hgain
  | create | write | enrol | wait | drop | password | signIn | challenge | forgot | consume | abandon => cases hgain

/-! ### What a reset leaves is used -/

lemma lookup_activate (hu : users.lookup id = some u) :
    ((Write.activate id).apply users).lookup id = some { u with isActive := true } := by
  have hid : u.id = id := (lookup_eq_some.mp hu).2
  rw [Write.lookup_apply, hu]
  simp [Write.deletes, Write.row, hid]

section Uses

variable {call number : ℕ} {u : User} (hu : s.users.lookup id = some u)

include hu

variable {i exp epoch password c : ℕ}

/-- The account is active and has a code; the password of the row is given, and the cookie is brought. -/
lemma exists_skip {live : Bool} (hcall : s.calls call = none)
    (hx : s.issued[number]? = some ⟨.trust id exp, live⟩) (hexp : s.now < exp) :
    ∃ as t, Runs.run step s as = some t ∧ t.issued = s.issued ∧
      gain t (.enter call (some number)) = some (number, .skip) := by
  let s₁ : State :=
    { s with users := (Write.activate id).apply s.users, codes := update s.codes id true }
  have hlookup : s₁.users.lookup id = some { u with isActive := true } := lookup_activate hu
  have hpassword : step s₁ (.password call id (s.passwords id)) =
      some (s₁.set call (some (.proved id u.epoch true))) := by
    have hcode : s₁.codes id := update_self ..
    have hsame : s₁.passwords id = s.passwords id := rfl
    rw [step, hlookup, hcall, hcode, hsame]
    simp [Option.filter]
  refine ⟨[.write (.activate id) 0, .enrol id true, .password call id (s.passwords id)],
    s₁.set call (some (.proved id u.epoch true)), ?_, rfl, ?_⟩
  · exact run_cons_eq_some.mpr ⟨_, rfl, run_cons_eq_some.mpr ⟨s₁, rfl,
      run_cons_eq_some.mpr ⟨_, hpassword, rfl⟩⟩⟩
  · have htrusts : (s₁.set call (some (.proved id u.epoch true))).trusts id number := by
      simp [State.trusts, State.set, s₁, hx, hexp]
    simp [gain, htrusts]

lemma exists_password (hcall : s.calls call = none)
    (hx : s.issued[number]? = some ⟨.reset id exp, true⟩) (hexp : s.now < exp) :
    ∃ as t, Runs.run step s as = some t ∧ t.issued[number]? = some ⟨.reset id exp, false⟩ ∧
      gain t (.commit call 0) = some (number, .password id) := by
  have htoken : s.token number = some id := by simp [State.token, hx, hexp]
  refine ⟨[.consume call number], (s.kill fun i _ => i = number).set call (some (.consumed number id)), ?_, ?_, ?_⟩
  · exact run_cons_eq_some.mpr ⟨_, by simp [step, hcall, htoken], rfl⟩
  · simp [State.kill, hx]
  · simp [gain, State.kill, hu]

lemma exists_session {sess : Session} (himp : sess.impersonator = some (id, epoch))
    (hcall : s.calls call = some (.request number sess .endImpersonation)) :
    ∃ as t, Runs.run step s as = some t ∧ t.issued = s.issued ∧ gain t (.finish call) = some (number, .session) := by
  refine ⟨[.write (.activate id) 0], s.write (.activate id) 0, rfl, rfl, ?_⟩
  have hload : loadSessionClaims (s.write (.activate id) 0).users id ≠ none := by
    have hlookup : (s.write (.activate id) 0).users.lookup id = some { u with isActive := true } := lookup_activate hu
    simp [loadSessionClaims, hlookup]
  obtain ⟨admin, hadmin⟩ := ne_none_iff_exists'.mp hload
  have hcall : (s.write (.activate id) 0).calls call = some (.request number sess .endImpersonation) := hcall
  simp [gain, hcall, himp, hadmin]

lemma exists_update {sess : Session} {form : UserForm} (hform : form.id = id) (hnew : form.newPass)
    (hallowed : updateAllowed sess form { id := form.id, role := form.role, isActive := true })
    (hcall : s.calls call = some (.request number sess (.update form password))) :
    ∃ as t, Runs.run step s as = some t ∧ t.issued = s.issued ∧
      gain t (.finish call) = some (number, .password id) := by
  subst hform
  let w : Write := .update ⟨form.id, form.role, true, false⟩ u.role
  refine ⟨[.write w 0], s.write w 0, rfl, rfl, ?_⟩
  have hid : u.id = form.id := (lookup_eq_some.mp hu).2
  have hlookup : (s.write w 0).users.lookup form.id = some (u.updated ⟨form.id, form.role, true, false⟩ u.role) := by
    have happly : (s.write w 0).users = w.apply s.users := rfl
    rw [happly, Write.lookup_apply, hu]
    simp [w, Write.deletes, Write.row, hid]
  have hrole : (u.updated ⟨form.id, form.role, true, false⟩ u.role).role = form.role := by
    simp only [User.updated, User.rewritten]
    split <;> split <;> rfl
  have hallowed' : updateAllowed sess form (u.updated ⟨form.id, form.role, true, false⟩ u.role) := by
    simp only [updateAllowed, hrole] at hallowed ⊢
    exact hallowed
  have hcall : (s.write w 0).calls call = some (.request number sess (.update form password)) := hcall
  simp [gain, hcall, hlookup, hnew, hallowed']

/-! ### Where nothing is of use -/

variable (hvoid : ∀ bs, Runs.Meets step (Void n id) s bs)

omit hu in
include hvoid in
lemma not_concerns_of_void {bs : List Action} {t : State} {a : Action} {g : Gain} {x : Issued}
    (hrun : Runs.run step s bs = some t) (hgain : gain t a = some (i, g)) (hi : i < n)
    (hx : t.issued[i]? = some x) (hholder : x.cred.holder = id) : ¬ g.concerns id :=
  ((hvoid (bs ++ [a])).of_run hrun).1 i g hgain hi x hx hholder

include hvoid

lemma lasting_eq_false_of_void {x : Issued} (hcall : s.calls call = none) (hx : s.issued[i]? = some x)
    (hi : i < n) : x.lasting s.now id = false := by
  by_contra hlasting
  obtain ⟨cred, live⟩ := x
  cases cred with
  | trust userID exp =>
    simp only [Issued.lasting, Bool.not_eq_false, Bool.and_eq_true, decide_eq_true_eq] at hlasting
    obtain ⟨rfl, hexp⟩ := hlasting
    obtain ⟨as, t, hrun, hsame, hgain⟩ := exists_skip hu hcall hx hexp
    rw [← hsame] at hx
    exact not_concerns_of_void hvoid hrun hgain hi hx rfl trivial
  | reset userID exp =>
    simp only [Issued.lasting, Bool.not_eq_false, Bool.and_eq_true, decide_eq_true_eq] at hlasting
    obtain ⟨⟨rfl, rfl⟩, hexp⟩ := hlasting
    obtain ⟨as, t, hrun, hused, hgain⟩ := exists_password hu hcall hx hexp
    exact not_concerns_of_void hvoid hrun hgain hi hused rfl rfl
  | session | ticket | key => exact hlasting rfl

lemma pending_eq_false_of_void (hs : Stamped s) {k : Call} (hk : s.calls c = some k)
    (hold : ∀ i, k.number = some i → i < n) : k.pending id = false := by
  by_contra hpending
  rw [Bool.not_eq_false] at hpending
  cases k with
  | proved => cases hpending
  | consumed i userID =>
    obtain rfl : userID = id := of_decide_eq_true hpending
    obtain ⟨exp, live, hx⟩ := hs.tokens c i userID hk
    have hgain : gain s (.commit c 0) = some (i, .password userID) := by
      simp [gain, hk, hu]
    exact not_concerns_of_void hvoid (run_nil s) hgain (hold i rfl) hx rfl rfl
  | request i sess errand =>
    have hholder := Call.holder_of_pending hpending
    obtain ⟨live, hx⟩ := hs.requests c i sess errand hk
    cases errand with
    | endImpersonation =>
      obtain ⟨⟨admin, epoch⟩, himp, hadmin⟩ := (any_eq_true _ _).mp hpending
      obtain rfl : admin = id := of_decide_eq_true hadmin
      obtain ⟨as, t, hrun, hsame, hgain⟩ := exists_session hu himp hk
      rw [← hsame] at hx
      exact not_concerns_of_void hvoid hrun hgain (hold i rfl) hx hholder trivial
    | update form password =>
      simp only [Call.pending, Bool.and_eq_true, decide_eq_true_eq] at hpending
      obtain ⟨⟨⟨-, hform⟩, hnew⟩, hallowed⟩ := hpending
      obtain ⟨as, t, hrun, hsame, hgain⟩ := exists_update hu hform hnew hallowed hk
      rw [← hsame] at hx
      exact not_concerns_of_void hvoid hrun hgain (hold i rfl) hx hholder rfl
    | impersonate | issueKey => cases hpending

end Uses

/-! ### The commit of a reset -/

section Commit

variable {call number password : ℕ} {u : User} (hs : Stamped s) (hcall : s.calls call = some (.consumed number id))
  (hu : s.users.lookup id = some u)

include hu

lemma lookup_resetPassword : ((s.set call none).resetPassword id password).users.lookup id = some u.bump := by
  have hid : u.id = id := (lookup_eq_some.mp hu).2
  have hlookup : ((Write.revoke [id]).apply s.users).lookup id = some u.bump := by
    rw [Write.lookup_apply, hu]
    simp [Write.deletes, Write.row, hid]
  exact hlookup

include hcall

lemma commit_eq (h : step s (.commit call password) = some t) : t = (s.set call none).resetPassword id password := by
  simp only [step, hcall, hu, isSome_some, Option.some.injEq] at h
  exact h.symm

include hs

lemma dead_of_commit (hclear : Clear s call id) (h : step s (.commit call password) = some t) :
    Dead s.issued.length id t := by
  have hchange := step_change hs h
  obtain rfl := commit_eq hcall hu h
  constructor
  case length => exact hchange.length_le
  case known => exact hs.ids id u hu
  case stamps =>
    intro i x hi hx epoch hstamp u' hu'
    obtain ⟨x₀, hx₀, hcred, -⟩ := hchange.old hi hx
    have hle : epoch ≤ u.epoch := (hs.bounded i x₀ hx₀ (id, epoch) (hcred ▸ hstamp)).2 u hu
    cases (lookup_resetPassword hu).symm.trans hu'
    exact Nat.lt_succ_of_le hle
  case lasting =>
    intro i x hi hx
    obtain ⟨x₀, hx₀, hcred, hlive⟩ := hchange.old hi hx
    exact lasting_mono hcred hlive le_rfl (hclear.1 x₀ (mem_of_getElem? hx₀))
  case calls =>
    intro c k hk hpending
    obtain ⟨hc, hk⟩ := (update_eq_some hk).resolve_left nofun
    rw [hclear.2 c hc k hk] at hpending
    cases hpending

/-- Nothing that was issued before the commit is of use in any run after it just where nothing outlives it. -/
lemma void_iff_clear (h : step s (.commit call password) = some t) :
    (∀ bs, Runs.Meets step (Void s.issued.length id) t bs) ↔ Clear s call id := by
  have hchange := step_change hs h
  have hstamped := hs.change hchange
  constructor
  · intro hvoid
    obtain rfl := commit_eq hcall hu h
    have hlookup := @lookup_resetPassword s id call password u hu
    refine ⟨fun x hx => ?_, fun c hc k hk => ?_⟩
    · obtain ⟨i, hx⟩ := List.mem_iff_getElem?.mp hx
      have hi := (List.getElem?_eq_some_iff.mp hx).1
      have hfree : ((s.set call none).resetPassword id password).calls call = none := State.calls_set s call none
      obtain ⟨cred, live⟩ := x
      cases cred with
      | key => rfl
      | session | ticket | trust | reset =>
        exact lasting_eq_false_of_void hlookup hvoid hfree
          (by simp [State.resetPassword, State.kill, hx, Credential.isKeyOf]) hi
    · have hk' : ((s.set call none).resetPassword id password).calls c = some k :=
        (update_of_ne hc _ _).trans hk
      exact pending_eq_false_of_void hlookup hvoid hstamped hk' fun i hi => hs.number_lt hk hi
  · intro hclear bs
    have hdead := dead_of_commit hs hcall hu hclear h
    refine meets_of_invariant (I := fun t => Stamped t ∧ Dead s.issued.length id t) (fun t a t' ht h => ?_)
      (fun t a ht => ht.2.void ht.1 a) ⟨hstamped, hdead⟩ bs
    have hchange := step_change ht.1 h
    exact ⟨ht.1.change hchange, ht.2.change hchange⟩

end Commit

/-- In every run: after the commit of a reset, no credential of the user from before it gives access, skips a factor or
sets the password again in any continuation, just where at the commit the user has no unexpired cookie of a trusted
device, no unused and unexpired token, and no call in flight that ends with a session or a new password for the user. -/
theorem old_credentials_void_iff (call number id password : ℕ) {as : List Action} {s t : State}
    (hrun : Runs.run step start as = some s) (hcall : s.calls call = some (.consumed number id))
    (huser : (s.users.lookup id).isSome) (h : step s (.commit call password) = some t) :
    (∀ bs, Runs.Meets step (Void s.issued.length id) t bs) ↔ Clear s call id := by
  obtain ⟨u, hu⟩ := isSome_iff_exists.mp huser
  exact void_iff_clear (stamped_of_run hrun) hcall hu h

/-- A client with a session, an API key and a ticket asks for a reset. -/
def withSession : List Action :=
  [.create .client true none 7, .signIn 1, .load 9 0 .issueKey, .finish 9, .challenge 1, .forgot 1, .consume 9 3]

theorem old_credentials_void_iff_session : ∃ s t, Runs.run step start withSession = some s ∧
    step s (.commit 9 8) = some t ∧ ∀ bs, Runs.Meets step (Void s.issued.length 1) t bs := by
  have hrun : Runs.run step start withSession = some ((Runs.run step start withSession).getD start) := rfl
  refine ⟨_, _, hrun, rfl, (old_credentials_void_iff 9 3 1 8 hrun rfl rfl rfl).mpr ⟨?_, ?_⟩⟩
  · decide
  intro c hc k hk
  have hcalls : ((Runs.run step start withSession).getD start).calls =
      Function.update (Function.update (Function.update (fun _ => none) 9
        (some (.request 0 { userID := 1, claims := ⟨.client, 0, false⟩, epoch := 0 } .issueKey))) 9 none) 9
        (some (.consumed 3 1)) := rfl
  rw [hcalls, Function.update_of_ne hc, Function.update_of_ne hc, Function.update_of_ne hc] at hk
  cases hk

/-- A client trusts a device and asks for a reset twice. -/
def withCookie : List Action :=
  [.create .client true none 7, .enrol 1 true, .challenge 1, .verify 0 true true, .forgot 1, .forgot 1, .consume 9 3]

/-- After the reset with the first token, the cookie from before it still skips the second factor, and the other token
sets the password again. -/
theorem old_cookie_and_token_work : ∃ s t, Runs.run step start withCookie = some s ∧
    s.calls 9 = some (.consumed 3 1) ∧ step s (.commit 9 8) = some t ∧
    ¬ Runs.Meets step (Void s.issued.length 1) t [.password 9 1 8, .enter 9 (some 1)] ∧
    ¬ Runs.Meets step (Void s.issued.length 1) t [.consume 9 4, .commit 9 99] := by
  refine ⟨_, _, rfl, rfl, rfl, fun h => ?_, fun h => ?_⟩
  · exact h.2.1 1 .skip rfl (by decide) ⟨.trust 1 trustDeviceTTL, true⟩ rfl rfl trivial
  · exact h.2.1 4 (.password 1) rfl (by decide) ⟨.reset 1 resetTokenTTL, false⟩ rfl rfl rfl

end Reset
