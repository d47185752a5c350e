import CaddyPanel.Lib.Rows
import CaddyPanel.Lib.Runs

/-!
# Panel users and their sessions

The handlers that write the `users` table: `UsersUpdate`, `UsersToggle`, `UsersDelete`, `UsersScopeUpdate`
(`handlers/admin.go`), `GDPRDelete`, `ResellerProvisionAdmin`, `ResellersDelete` and its API twin, `ClientsBulk`
and `ClientsDelete`; and the sessions of `internal/auth`. A handler reads the row it is about, checks its guards
and writes later, so that a request is a call that other calls can run between: `begin` reads and checks,
`count` is the guard for the last `super_admin`, `commit` is the transaction.
-/

namespace Accounts

inductive Role where
  | superAdmin
  | admin
  | support
  | client
  | api
  | reseller
  deriving DecidableEq, Repr

/-- A row of `users`, with its rows of `admin_client_scope`. -/
structure User where
  id : ℕ
  role : Role
  isActive : Bool
  resellerID : Option ℕ := none
  restricted : Bool := false
  scope : List ℕ := []
  epoch : ℕ := 0
  deriving DecidableEq

abbrev Users := Rows User.id

/-! ### Sessions -/

/-- What a session says about the rights of its user; no reseller is `0`. -/
structure Claims where
  role : Role
  resellerID : ℕ
  restricted : Bool
  deriving DecidableEq

structure Session where
  userID : ℕ
  claims : Claims
  epoch : ℕ
  /-- the id and the epoch of the administrator who impersonates the user -/
  impersonator : Option (ℕ × ℕ) := none
  deriving DecidableEq

/-- The claims a row stands for: a reseller without its reseller is restricted whatever the flag says. -/
def User.claims (u : User) : Claims where
  role := u.role
  resellerID := u.resellerID.getD 0
  restricted := u.restricted || (u.role = .reseller && u.resellerID.getD 0 = 0)

def loadSessionClaims (users : Users) (id : ℕ) : Option Session :=
  (users.lookup id).bind fun u =>
    if u.isActive then some { userID := id, claims := u.claims, epoch := u.epoch } else none

def epochOK (users : Users) (id stamped : ℕ) : Bool :=
  (users.lookup id).any fun u => u.epoch = stamped

/-- `epochValid`, the part of `Manager.Load` that reads the database. -/
def load (users : Users) (sess : Session) : Bool :=
  epochOK users sess.userID sess.epoch && sess.impersonator.all fun (id, epoch) => epochOK users id epoch

/-- The session of `UsersImpersonate`: the target is a client, and its other claims are not copied. -/
def impersonate (users : Users) (actor : Session) (id : ℕ) : Option Session :=
  if actor.claims.role = .superAdmin ∧ actor.impersonator = none ∧ id ≠ actor.userID then
    (loadSessionClaims users id).bind fun target =>
      if target.claims.role = .client then
        some { target with claims := ⟨.client, 0, false⟩, impersonator := some (actor.userID, actor.epoch) }
      else none
  else none

lemma loadSessionClaims_eq_some {users : Users} {id : ℕ} {sess : Session} (h : loadSessionClaims users id = some sess) :
    ∃ u, users.lookup id = some u ∧ u.isActive ∧ sess = { userID := id, claims := u.claims, epoch := u.epoch } := by
  obtain ⟨u, hu, hsess⟩ := Option.bind_eq_some_iff.mp h
  split at hsess
  · next hactive => exact ⟨u, hu, hactive, (Option.some.inj hsess).symm⟩
  · cases hsess

lemma impersonate_eq_some {users : Users} {actor sess : Session} {id : ℕ} (h : impersonate users actor id = some sess) :
    ∃ target, loadSessionClaims users id = some target ∧ target.claims.role = .client ∧
      sess = { target with claims := ⟨.client, 0, false⟩, impersonator := some (actor.userID, actor.epoch) } := by
  unfold impersonate at h
  split at h
  · obtain ⟨target, htarget, hsess⟩ := Option.bind_eq_some_iff.mp h
    split at hsess
    · next hrole => exact ⟨target, htarget, hrole, (Option.some.inj hsess).symm⟩
    · cases hsess
  · cases h

/-! ### Requests -/

structure UserForm where
  id : ℕ
  role : Role
  isActive : Bool
  newPass : Bool

inductive Request where
  | update (form : UserForm)
  | toggle (id : ℕ)
  | delete (id : ℕ)
  | scope (id : ℕ) (restricted : Bool) (clients : List ℕ)
  | erase (id : ℕ)
  /-- bind the user to the reseller, or release it -/
  | provision (id : ℕ) (reseller : Option ℕ)
  /-- `listed`: whether its users can be read, which is not checked -/
  | deleteReseller (reseller : ℕ) (listed : Bool)
  /-- the account of a client, through the Clients page or the API -/
  | suspendClient (id : ℕ)
  | activateClient (id : ℕ)
  | deleteClient (id : ℕ)
  /-- a new password, or the suspension of a reseller -/
  | revoke (ids : List ℕ)
  | impersonate (id : ℕ)

/-- The transaction that a request comes to. -/
inductive Write where
  | update (form : UserForm) (curRole : Role)
  | toggle (id : ℕ)
  | delete (id : ℕ)
  | scope (id : ℕ) (restricted : Bool) (clients : List ℕ)
  | deactivate (id : ℕ)
  | provision (id : ℕ) (reseller : Option ℕ)
  | deleteReseller (reseller : ℕ) (freed : List ℕ)
  | activate (id : ℕ)
  | revoke (ids : List ℕ)

inductive Call where
  /-- before the count of the active `super_admin`s -/
  | counting (w : Write)
  | writing (w : Write)
  /-- a session that is not stored yet -/
  | minting (sess : Session)

/-- Who reaches `/admin/users`: the boundary of the panel stops limited administrators. -/
def mayManage (actor : Session) : Bool :=
  actor.claims.role = .superAdmin ||
    (actor.claims.role = .admin && actor.claims.resellerID = 0 && !actor.claims.restricted)

/-- Only a `super_admin` acts on a `super_admin`. -/
def outranks (actor : Session) (role : Role) : Bool :=
  role ≠ .superAdmin || actor.claims.role = .superAdmin

def updateAllowed (actor : Session) (form : UserForm) (u : User) : Bool :=
  mayManage actor && (form.role = .support || form.role = .admin || form.role = .superAdmin) &&
    u.role ≠ .client && u.role ≠ .reseller && outranks actor u.role && outranks actor form.role &&
    (actor.userID ≠ form.id || (form.role = u.role && form.isActive))

def beginUpdate (users : Users) (actor : Session) (form : UserForm) : Option Call :=
  (users.lookup form.id).bind fun u =>
    if updateAllowed actor form u then
      if u.role = .superAdmin ∧ (form.role ≠ .superAdmin ∨ form.isActive = false) then
        some (.counting (.update form u.role))
      else some (.writing (.update form u.role))
    else none

def beginToggle (users : Users) (actor : Session) (id : ℕ) : Option Call :=
  (users.lookup id).bind fun u =>
    if mayManage actor ∧ actor.userID ≠ id ∧ outranks actor u.role then some (.writing (.toggle id)) else none

def beginDelete (users : Users) (actor : Session) (id : ℕ) : Option Call :=
  (users.lookup id).bind fun u =>
    if mayManage actor ∧ actor.userID ≠ id ∧ outranks actor u.role then
      if u.role = .superAdmin then some (.counting (.delete id)) else some (.writing (.delete id))
    else none

/-- The handlers that only a `super_admin` may call, with the roles they do not act on. -/
def beginAsSuperAdmin (users : Users) (actor : Session) (id : ℕ) (except : List Role) (w : Write) :
    Option Call :=
  (users.lookup id).bind fun u =>
    if actor.claims.role = .superAdmin ∧ u.role ∉ except then some (.writing w) else none

def boundTo (users : Users) (reseller : ℕ) : List ℕ :=
  (users.rows.filter fun u => u.resellerID = some reseller).map User.id

/-- What a request comes to; `none` where it is refused. The actor is absent where a request carries an API key
or a token instead of a session. -/
def begin (users : Users) : Option Session → Request → Option Call
  | some actor, .update form => beginUpdate users actor form
  | some actor, .toggle id => beginToggle users actor id
  | some actor, .delete id => beginDelete users actor id
  | some actor, .scope id restricted clients =>
    beginAsSuperAdmin users actor id [.superAdmin, .client] (.scope id restricted clients)
  | some actor, .erase id => beginAsSuperAdmin users actor id [.superAdmin] (.deactivate id)
  | some actor, .provision id reseller =>
    beginAsSuperAdmin users actor id [.superAdmin] (.provision id reseller)
  | some actor, .impersonate id => (impersonate users actor id).map .minting
  | _, .deleteReseller reseller listed =>
    some (.writing (.deleteReseller reseller (if listed then boundTo users reseller else [])))
  | _, .suspendClient id => some (.writing (.deactivate id))
  | _, .activateClient id => some (.writing (.activate id))
  | _, .deleteClient id => some (.writing (.delete id))
  | _, .revoke ids => some (.writing (.revoke ids))
  | none, _ => none

/-! ### Writes -/

def User.bump (u : User) : User :=
  { u with epoch := u.epoch + 1 }

/-- `invalidating` of `UsersUpdate`, decided before the transaction. -/
def invalidating (form : UserForm) (curRole : Role) : Bool :=
  form.role ≠ curRole || !form.isActive || form.newPass

/-- Whether `ClearConfinementTx` changes a row. -/
def User.confined (u : User) : Bool :=
  u.restricted || u.resellerID.isSome || u.scope ≠ []

/-- The row of `UsersUpdate` before the bump; a promotion clears the confinement. -/
def User.rewritten (u : User) (form : UserForm) : User :=
  if form.role = .superAdmin then
    { u with role := form.role, isActive := form.isActive, restricted := false, resellerID := none, scope := [] }
  else { u with role := form.role, isActive := form.isActive }

def User.updated (u : User) (form : UserForm) (curRole : Role) : User :=
  if invalidating form curRole || (form.role = .superAdmin && u.confined) then (u.rewritten form).bump
  else u.rewritten form

def User.provisioned (u : User) : Option ℕ → User
  | some reseller =>
    { u with
      resellerID := some reseller
      role := if u.role = Role.admin ∨ u.role = Role.support then .reseller else u.role : User }.bump
  | none =>
    if u.role = .reseller then { u with resellerID := none, role := .admin, restricted := true }.bump
    else { u with resellerID := none }.bump

/-- The transaction of `reseller.Store.Delete` for one of its users; it does not touch the epoch. -/
def User.orphaned (u : User) : User :=
  if u.role = .reseller ∨ u.role = .admin ∨ u.role = .support then
    { u with resellerID := none, role := .admin, restricted := true }
  else { u with resellerID := none }

/-- What a write makes of a row that it does not delete. -/
def Write.row (u : User) : Write → User
  | .update form curRole => if u.id = form.id then u.updated form curRole else u
  | .toggle id => if u.id = id then { u with isActive := !u.isActive }.bump else u
  | .delete _ => u
  | .scope id restricted clients => if u.id = id then { u with restricted, scope := clients }.bump else u
  | .deactivate id => if u.id = id then { u with isActive := false }.bump else u
  | .provision id reseller => if u.id = id then u.provisioned reseller else u
  | .deleteReseller reseller _ => if u.resellerID = some reseller then u.orphaned else u
  | .activate id => if u.id = id then { u with isActive := true } else u
  | .revoke ids => if u.id ∈ ids then u.bump else u

def Write.deletes (u : User) : Write → Bool
  | .delete id => u.id = id
  | _ => false

lemma User.id_rewritten (u : User) (form : UserForm) : (u.rewritten form).id = u.id := by
  unfold User.rewritten
  split <;> rfl

lemma User.id_provisioned (u : User) (reseller : Option ℕ) : (u.provisioned reseller).id = u.id := by
  cases reseller with
  | some reseller => rfl
  | none =>
    simp only [User.provisioned]
    split <;> rfl

lemma Write.id_row (w : Write) (u : User) : (w.row u).id = u.id := by
  cases w with
  | delete id => rfl
  | update form curRole =>
    simp only [Write.row]
    split
    · unfold User.updated
      split <;> exact u.id_rewritten form
    · rfl
  | provision id reseller =>
    simp only [Write.row]
    split
    · exact u.id_provisioned reseller
    · rfl
  | deleteReseller reseller freed =>
    simp only [Write.row]
    split
    · unfold User.orphaned
      split <;> rfl
    · rfl
  | toggle | scope | deactivate | activate | revoke =>
    simp only [Write.row]
    split <;> rfl

def Write.apply (w : Write) (users : Users) : Users :=
  (users.delete fun u => w.deletes u).update (fun _ => true) (fun u => w.row u) fun u => w.id_row u

lemma Write.lookup_apply (w : Write) (users : Users) (id : ℕ) :
    (w.apply users).lookup id = (users.lookup id).bind fun u => if w.deletes u then none else some (w.row u) := by
  rw [Write.apply, Rows.lookup_update, Rows.lookup_delete]
  cases users.lookup id with
  | none => rfl
  | some u => cases hdel : w.deletes u <;> simp [hdel]

lemma Write.mem_apply (w : Write) {users : Users} {u : User} :
    u ∈ w.apply users ↔ ∃ u₀ ∈ users, w.deletes u₀ = false ∧ w.row u₀ = u := by
  have hmem : u ∈ w.apply users ↔ ∃ u₀ ∈ users.delete fun u => w.deletes u, w.row u₀ = u := List.mem_map
  simp only [hmem, Rows.mem_delete, and_assoc]

/-- The transaction that follows: deleted resellers' users are revoked on their own. -/
def Write.next : Write → Option Call
  | .deleteReseller _ freed => some (.writing (.revoke freed))
  | _ => none

/-! ### Steps -/

structure State where
  users : Users
  /-- the next value of the key, which is never used twice -/
  nextID : ℕ
  sessions : List Session
  calls : ℕ → Option Call

inductive Action where
  | create (role : Role) (isActive : Bool) (resellerID : Option ℕ)
  | login (call id : ℕ)
  /-- the session is stored, or cannot be -/
  | mint (call : ℕ) (fails : Bool)
  /-- a session ends: logout, expiry or a purge -/
  | drop (sess : Session)
  | begin (call : ℕ) (actor : Option Session) (req : Request)
  | count (call : ℕ) (fails : Bool)
  | commit (call : ℕ) (fails : Bool)

def State.set (s : State) (call : ℕ) (c : Option Call) : State :=
  { s with calls := Function.update s.calls call c }

def activeSuperAdmins (users : Users) : ℕ :=
  users.rows.countP fun u => u.role = .superAdmin && u.isActive

/-- A request that comes with a session starts only if the session is stored and accepted. -/
def admitted (s : State) (actor : Option Session) : Bool :=
  actor.all fun sess => sess ∈ s.sessions && load s.users sess

def step (s : State) : Action → Option State
  | .create role isActive resellerID =>
    (s.users.insert { id := s.nextID, role, isActive, resellerID }).map fun users =>
      { s with users, nextID := s.nextID + 1 }
  | .login call id =>
    if (s.calls call).isSome then none
    else some (s.set call ((loadSessionClaims s.users id).map .minting))
  | .mint call fails =>
    match s.calls call with
    | some (.minting sess) =>
      some ({ s with sessions := if fails then s.sessions else sess :: s.sessions }.set call none)
    | _ => none
  | .drop sess => some { s with sessions := s.sessions.erase sess }
  | .begin call actor req =>
    if (s.calls call).isSome || !admitted s actor then none else some (s.set call (begin s.users actor req))
  | .count call fails =>
    match s.calls call with
    | some (.counting w) =>
      -- an unreadable count is zero
      let n := if fails then 0 else activeSuperAdmins s.users
      some (s.set call (if n ≤ 1 then none else some (.writing w)))
    | _ => none
  | .commit call fails =>
    match s.calls call with
    | some (.writing w) =>
      some (if fails then s.set call none else { s with users := w.apply s.users }.set call w.next)
    | _ => none

end Accounts
