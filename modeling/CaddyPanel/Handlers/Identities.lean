import CaddyPanel.Lib.Rows
import CaddyPanel.Lib.Runs
import CaddyPanel.Lib.Text

/-!
# Who owns an external identity

`OIDCCallback` and `OAuth2Callback` (`handlers/auth.go`, `handlers/oauth_providers.go`) find the account of an
identity, or link the identity to the account of the session, and store it with `SaveIdentity`
(`handlers/oauth_identity.go`). Each query is a step of its own that other requests can run between; only
`provisionSSOUser` is one transaction. Queries do not fail here, and the roles and names of new accounts are left
out.
-/

namespace Identities

open List Option
open Text (Str)
open Runs

inductive Driver where
  | mysql
  | sqlite3
  deriving DecidableEq

/-- The database, and the normalisation of addresses. -/
structure Env where
  driver : Driver
  /-- what the collation of the database compares -/
  fold : Str → Str
  /-- NFKC and lower case -/
  norm : Str → Str

structure Identity where
  provider : Str
  issuer : Str
  subject : Str
  deriving DecidableEq

/-- A row of `users`. -/
structure Account where
  id : ℕ
  email : Str
  isActive : Bool
  emailVerified : Bool
  deriving DecidableEq

/-- A row of `oauth_identities`. -/
structure Link where
  identity : Identity
  userID : ℕ
  email : Option Str
  deriving DecidableEq

/-- The unique key `uq_oauth_identity`. -/
def Env.key (env : Env) (i : Identity) : Str × Str × Str :=
  (env.fold i.provider, env.fold i.issuer, env.fold i.subject)

abbrev Env.Links (env : Env) := Rows fun l : Link => env.key l.identity

/-! ### `SaveIdentity` -/

section Save

variable {env : Env}

def ownerOf (links : env.Links) (i : Identity) : Option ℕ :=
  (links.lookup (env.key i)).map Link.userID

/-- `NULLIF(?, '')` -/
def nullIf (email : Str) : Option Str :=
  if email = [] then none else some email

/-- The address that the upsert leaves in a row that was there: the owner's new one, if it has one. -/
def refreshed (l : Link) (userID : ℕ) (email : Str) : Option Str :=
  if l.userID = userID then (nullIf email).or l.email else l.email

/-- The rows that `ON DUPLICATE KEY UPDATE` and `ON CONFLICT … DO UPDATE` report for a row that was there. -/
def Env.affected (env : Env) (l : Link) (email : Option Str) : ℕ :=
  match env.driver with
  | .mysql => if email = l.email then 0 else 2
  | .sqlite3 => 1

def upsert (links : env.Links) (userID : ℕ) (i : Identity) (email : Str) : env.Links × ℕ :=
  match links.lookup (env.key i) with
  | none => ((links.insert ⟨i, userID, nullIf email⟩).getD links, 1)
  | some l =>
    let email' := refreshed l userID email
    (links.update (fun r => env.key r.identity = env.key i) (fun r => { r with email := email' }) (fun _ => rfl),
      env.affected l email')

/-- The whole function in one transaction; `none` is `ErrIdentityOwnedByOther`. -/
def saveIdentity (links : env.Links) (userID : ℕ) (i : Identity) (email : Str) : Option env.Links :=
  let (links', n) := upsert links userID i email
  if n = 1 ∨ ownerOf links' i = some userID then some links' else none

end Save

/-! ### Callbacks -/

inductive Flow where
  | oidc (issuer : Str) (allowUnverifiedEmail : Bool)
  | oauth2 (provider : Str)
  deriving DecidableEq

/-- What the provider says about the caller. -/
structure Callback where
  flow : Flow
  subject : Str
  email : Str
  emailVerified : Bool
  autoProvision : Bool
  deriving DecidableEq

def Callback.identity (c : Callback) : Identity :=
  match c.flow with
  | .oidc issuer _ => ⟨"oidc", issuer, c.subject⟩
  | .oauth2 provider => ⟨provider, provider, c.subject⟩

def Callback.isOIDC (c : Callback) : Bool :=
  match c.flow with
  | .oidc .. => true
  | .oauth2 _ => false

/-- The gate of both flows, for logins and links. -/
def vouched (env : Env) (c : Callback) : Bool :=
  match c.flow with
  | .oidc _ allowUnverifiedEmail => c.emailVerified || allowUnverifiedEmail
  | .oauth2 _ => c.emailVerified && env.norm c.email ≠ []

inductive Stage where
  | find
  | resolve (linkedUID : Option ℕ)
  | provision
  /-- the check for another identity of the account -/
  | compare (u : Account)
  /-- `oidcLinkIdentity`: the check for another owner of the identity -/
  | precheck (userID : ℕ)
  | save (userID : ℕ)
  /-- the second query of `SaveIdentity` -/
  | confirm (userID : ℕ)
  deriving DecidableEq

structure Call where
  callback : Callback
  stage : Stage

structure State (env : Env) where
  users : Rows Account.id
  links : env.Links
  calls : ℕ → Option Call
  /-- the logins and links that succeeded -/
  granted : List (Identity × ℕ)

inductive Event where
  | login (call : ℕ) (callback : Callback)
  /-- the session is that of the user for whom the link was started -/
  | link (call userID : ℕ) (callback : Callback)
  | advance (call : ℕ)

variable {env : Env}

def State.owner (s : State env) (i : Identity) : Option ℕ :=
  ownerOf s.links i

def State.set (s : State env) (call : ℕ) (c : Option Call) : State env :=
  { s with calls := Function.update s.calls call c }

/-- The request goes on with another query. -/
def State.to (s : State env) (call : ℕ) (c : Callback) (stage : Stage) : State env :=
  s.set call (some ⟨c, stage⟩)

/-- The request is refused. -/
def State.refuse (s : State env) (call : ℕ) : State env :=
  s.set call none

def State.grant (s : State env) (call : ℕ) (i : Identity) (userID : ℕ) : State env :=
  { s with granted := (i, userID) :: s.granted }.set call none

/-- What is left of a login when its account is known. -/
def State.enter (s : State env) (call : ℕ) (c : Callback) (u : Account) : State env :=
  if u.isActive then s.to call c (.save u.id) else s.refuse call

/-- `SELECT … FROM users WHERE email = ?` -/
def State.byEmail (s : State env) (email : Str) : Option Account :=
  s.users.rows.find? fun u => env.fold u.email = env.fold (env.norm email)

def resolve (s : State env) (call : ℕ) (c : Callback) (linkedUID : Option ℕ) : State env :=
  match linkedUID.elim (s.byEmail c.email) s.users.lookup with
  | none => if c.autoProvision then s.to call c .provision else s.refuse call
  | some u =>
    if linkedUID.isSome || !c.isOIDC then s.enter call c u
    else if u.emailVerified then s.to call c (.compare u)
    else s.refuse call

/-- `provisionSSOUser`: the new account and its identity, or neither; addresses are unique. -/
def provision (s : State env) (call : ℕ) (c : Callback) : State env :=
  match s.byEmail c.email, saveIdentity s.links s.users.next c.identity c.email with
  | none, some links =>
    { s with
      users := s.users.insertNext fun id => ⟨id, env.norm c.email, true, c.isOIDC⟩
      links := links }.to call c (.save s.users.next)
  | _, _ => s.refuse call

def compare (s : State env) (call : ℕ) (c : Callback) (u : Account) : State env :=
  match s.links.rows.find? fun l => l.userID = u.id && env.fold l.identity.provider = env.fold "oidc" with
  | none => s.enter call c u
  | some l =>
    if l.identity.subject ≠ [] ∧
        (l.identity.subject ≠ c.identity.subject ∨ l.identity.issuer ≠ c.identity.issuer) then s.refuse call
    else s.enter call c u

def advance (s : State env) (call : ℕ) (c : Callback) : Stage → State env
  | .find => s.to call c (.resolve ((s.owner c.identity).filter (0 < ·)))
  | .resolve linkedUID => resolve s call c linkedUID
  | .provision => provision s call c
  | .compare u => compare s call c u
  | .precheck userID =>
    if (s.owner c.identity).all (· = userID) then s.to call c (.save userID) else s.refuse call
  | .save userID =>
    let (links, n) := upsert s.links userID c.identity c.email
    let s' := { s with links := links }
    if n = 1 then s'.grant call c.identity userID else s'.to call c (.confirm userID)
  | .confirm userID =>
    if s.owner c.identity = some userID then s.grant call c.identity userID else s.refuse call

def step (s : State env) : Event → Option (State env)
  | .login call c =>
    if (s.calls call).isSome || !vouched env c then none else some (s.to call c .find)
  | .link call userID c =>
    if (s.calls call).isSome || !vouched env c then none else some (s.to call c (.precheck userID))
  | .advance call => (s.calls call).map fun c => advance s call c.callback c.stage

/-! ### Owners -/

section Owners

variable {links links' : env.Links} {userID : ℕ} {i j : Identity} {email : Str}

/-- An upsert gives an identity to its user if it had no owner, and changes no owner otherwise. -/
lemma ownerOf_upsert (links : env.Links) (userID : ℕ) (i j : Identity) (email : Str) :
    ownerOf (upsert links userID i email).1 j =
      if env.key j = env.key i then some ((ownerOf links i).getD userID) else ownerOf links j := by
  unfold upsert ownerOf
  cases hl : links.lookup (env.key i) with
  | none =>
    have hfree : links.lookup (env.key (Link.mk i userID (nullIf email)).identity) = none := hl
    obtain ⟨t, ht⟩ := Rows.exists_insert hfree
    rw [ht, getD_some, Rows.lookup_insert ht]
    split <;> rfl
  | some l =>
    -- the update writes the address only
    have hkeep : ∀ r : Link, (if env.key r.identity = env.key i then
        { r with email := refreshed l userID email } else r).userID = r.userID := by
      intro r
      split <;> rfl
    simp only [Rows.lookup_update, Option.map_map, Function.comp_def, decide_eq_true_eq, hkeep]
    split
    · next hkey => rw [hkey, hl, Option.map_some, Option.getD_some]
    · rfl

lemma ownerOf_upsert_of_some (userID : ℕ) (i : Identity) (email : Str) {o : ℕ} (h : ownerOf links j = some o) :
    ownerOf (upsert links userID i email).1 j = some o := by
  rw [ownerOf_upsert]
  split
  · next hkey =>
    have h' : ownerOf links i = some o := by rw [← h, ownerOf, ownerOf, hkey]
    rw [h', getD_some]
  · exact h

/-- One affected row means a new row on MySQL, and nothing on SQLite. -/
lemma affected_eq_one (links : env.Links) (userID : ℕ) (i : Identity) (email : Str) :
    (upsert links userID i email).2 = 1 ↔ ownerOf links i = none ∨ env.driver = .sqlite3 := by
  unfold upsert ownerOf
  cases links.lookup (env.key i) with
  | none => simp
  | some l =>
    simp only [Env.affected]
    cases env.driver with
    | mysql =>
      simp only
      split <;> simp
    | sqlite3 => simp

end Owners

/-! ### What a step does -/

/-- The table and the successes after a step: nothing new, an upsert whose affected rows are still to be judged, or a
success. -/
inductive Change (s : State env) (e : Event) (t : State env) : Prop
  | same (hlinks : t.links = s.links) (hgranted : t.granted = s.granted)
  | stores (userID : ℕ) (i : Identity) (email : Str) (hlinks : t.links = (upsert s.links userID i email).1)
    (hgranted : t.granted = s.granted)
  | grants (call : ℕ) (c : Callback) (userID : ℕ) (he : e = .advance call)
    (hcall : s.calls call = some ⟨c, .save userID⟩)
    (hlinks : t.links = (upsert s.links userID c.identity c.email).1)
    (hone : (upsert s.links userID c.identity c.email).2 = 1) (hgranted : t.granted = (c.identity, userID) :: s.granted)
  | confirms (userID : ℕ) (i : Identity) (howner : s.owner i = some userID) (hlinks : t.links = s.links)
    (hgranted : t.granted = (i, userID) :: s.granted)

variable {s t : State env} {e : Event}

lemma change_set (s : State env) (call : ℕ) (c : Option Call) : Change s e (s.set call c) :=
  .same rfl rfl

lemma change_enter (s : State env) (call : ℕ) (c : Callback) (u : Account) : Change s e (s.enter call c u) := by
  unfold State.enter
  split <;> exact change_set s call _

lemma change_resolve (s : State env) (call : ℕ) (c : Callback) (linkedUID : Option ℕ) :
    Change s e (resolve s call c linkedUID) := by
  unfold resolve
  split
  · split <;> exact change_set s call _
  split_ifs
  · exact change_enter s call c _
  · exact change_set s call _
  · exact change_set s call _

lemma change_compare (s : State env) (call : ℕ) (c : Callback) (u : Account) : Change s e (compare s call c u) := by
  unfold compare
  split
  · exact change_enter s call c u
  split
  · exact change_set s call _
  · exact change_enter s call c u

lemma change_provision (s : State env) (call : ℕ) (c : Callback) : Change s e (provision s call c) := by
  unfold provision
  split
  · next links _ hsave =>
    unfold saveIdentity at hsave
    simp only at hsave
    split_ifs at hsave
    exact .stores s.users.next c.identity c.email (Option.some.inj hsave).symm rfl
  · exact change_set s call _

lemma change_step (h : step s e = some t) : Change s e t := by
  cases e with
  | login call c =>
    simp only [step] at h
    split_ifs at h
    exact Option.some.inj h ▸ change_set s call _
  | link call userID c =>
    simp only [step] at h
    split_ifs at h
    exact Option.some.inj h ▸ change_set s call _
  | advance call =>
    obtain ⟨⟨c, stage⟩, hcall, rfl⟩ := map_eq_some_iff.mp h
    cases stage with
    | find => exact change_set s call _
    | resolve linkedUID => exact change_resolve s call c linkedUID
    | provision => exact change_provision s call c
    | compare u => exact change_compare s call c u
    | precheck userID =>
      simp only [advance]
      split <;> exact change_set s call _
    | save userID =>
      simp only [advance]
      split
      · next hone => exact .grants call c userID rfl hcall rfl hone rfl
      · exact .stores userID c.identity c.email rfl rfl
    | confirm userID =>
      simp only [advance]
      split
      · next howner => exact .confirms userID c.identity howner rfl rfl
      · exact change_set s call _

/-- What no step takes back: owners and successes. -/
structure Keeps (s t : State env) : Prop where
  owners : ∀ i o, s.owner i = some o → t.owner i = some o
  granted : ∀ g ∈ s.granted, g ∈ t.granted

lemma Change.keeps (h : Change s e t) : Keeps s t := by
  have hsame : t.links = s.links → ∀ i o, s.owner i = some o → t.owner i = some o := by
    intro hlinks i o ho
    rwa [State.owner, hlinks]
  have hstored : ∀ userID i email, t.links = (upsert s.links userID i email).1 →
      ∀ j o, s.owner j = some o → t.owner j = some o := by
    intro userID i email hlinks j o ho
    rw [State.owner, hlinks]
    exact ownerOf_upsert_of_some userID i email ho
  cases h with
  | same hlinks hgranted => exact ⟨hsame hlinks, fun g hg => hgranted ▸ hg⟩
  | stores userID i email hlinks hgranted => exact ⟨hstored userID i email hlinks, fun g hg => hgranted ▸ hg⟩
  | grants call c userID _ _ hlinks _ hgranted =>
    exact ⟨hstored userID c.identity c.email hlinks, fun g hg => hgranted ▸ mem_cons_of_mem _ hg⟩
  | confirms userID i _ hlinks hgranted =>
    exact ⟨hsame hlinks, fun g hg => hgranted ▸ mem_cons_of_mem _ hg⟩

/-! ### Successes and owners -/

/-- Each login and link that succeeded has left its identity with its user. -/
def Owned (s : State env) : Prop :=
  ∀ i userID, (i, userID) ∈ s.granted → s.owner i = some userID

/-- On SQLite, the step stores for a user an identity that another user owns. -/
def Foreign (s : State env) : Event → Prop
  | .advance call => env.driver = .sqlite3 ∧ ∃ c userID o, s.calls call = some ⟨c, .save userID⟩ ∧
      s.owner c.identity = some o ∧ o ≠ userID
  | _ => False

/-- A success that lasts although another user owns its identity. -/
def Misplaced (s : State env) : Prop :=
  ∃ i userID o, (i, userID) ∈ s.granted ∧ s.owner i = some o ∧ o ≠ userID

lemma not_misplaced (h : Owned s) : ¬Misplaced s := by
  rintro ⟨i, userID, o, hmem, ho, hne⟩
  exact hne (Option.some.inj (ho.symm.trans (h i userID hmem)))

lemma Keeps.misplaced (h : Keeps s t) (hs : Misplaced s) : Misplaced t := by
  obtain ⟨i, userID, o, hmem, ho, hne⟩ := hs
  exact ⟨i, userID, o, h.granted _ hmem, h.owners i o ho, hne⟩

/-- The upsert of the step reports one row, and the owner stays. -/
lemma misplaced_of_foreign (h : Foreign s e) (hstep : step s e = some t) : Misplaced t := by
  cases e with
  | login call c => exact h.elim
  | link call userID c => exact h.elim
  | advance call =>
    obtain ⟨hdriver, c, userID, o, hcall, ho, hne⟩ := h
    have hone := (affected_eq_one s.links userID c.identity c.email).mpr (.inr hdriver)
    simp only [step, hcall, map_some, advance, hone] at hstep
    obtain rfl := Option.some.inj hstep
    exact ⟨c.identity, userID, o, mem_cons_self, ownerOf_upsert_of_some userID c.identity c.email ho, hne⟩

lemma Owned.step (hs : Owned s) (hforeign : ¬Foreign s e) (hstep : step s e = some t) : Owned t := by
  have hchange := change_step hstep
  have hold : ∀ i userID, (i, userID) ∈ s.granted → t.owner i = some userID :=
    fun i userID hmem => hchange.keeps.owners i userID (hs i userID hmem)
  cases hchange with
  | same _ hgranted => exact fun i userID hmem => hold i userID (hgranted ▸ hmem)
  | stores _ _ _ _ hgranted => exact fun i userID hmem => hold i userID (hgranted ▸ hmem)
  | grants call c uid he hcall hlinks hone hgranted =>
    intro i userID hmem
    rw [hgranted] at hmem
    obtain heq | hmem := mem_cons.mp hmem
    · obtain ⟨rfl, rfl⟩ := Prod.mk.inj heq
      rw [State.owner, hlinks, ownerOf_upsert, if_pos rfl]
      cases ho : ownerOf s.links c.identity with
      | none => rfl
      | some o =>
        -- one affected row and an owner: the database is SQLite, and the owner must be the user
        have hdriver := ((affected_eq_one _ _ _ _).mp hone).resolve_left (by simp [ho])
        by_contra hne
        subst he
        exact hforeign ⟨hdriver, c, userID, o, hcall, ho, fun h => hne (by rw [h, getD_some])⟩
    · exact hold i userID hmem
  | confirms uid j howner hlinks hgranted =>
    intro i userID hmem
    rw [hgranted] at hmem
    obtain heq | hmem := mem_cons.mp hmem
    · obtain ⟨rfl, rfl⟩ := Prod.mk.inj heq
      rw [State.owner, hlinks]
      exact howner
    · exact hold i userID hmem

/-- In every interleaving owners stay, and each success is the owner's, as long as no user stores the identity of
another one on SQLite. -/
theorem owned_iff_no_foreign (s : State env) (es : List Event) (t : State env) (hgranted : s.granted = [])
    (hrun : run step s es = some t) :
    (Owned t ∧ ∀ i o, s.owner i = some o → t.owner i = some o) ↔ Meets step (fun s e => ¬Foreign s e) s es := by
  constructor
  · rintro ⟨howned, -⟩
    refine meets_of_not_fault (B := Misplaced) ?_ ?_ hrun (not_misplaced howned)
    · exact fun s e t hs hstep => (change_step hstep).keeps.misplaced hs
    · exact fun s e t hC hstep => misplaced_of_foreign (not_not.mp hC) hstep
  intro hmeets
  refine ⟨run_invariant_of_meets (I := Owned) (fun s e t hs hC hstep => hs.step hC hstep) ?_ hmeets hrun, ?_⟩
  · intro i userID hmem
    rw [hgranted] at hmem
    cases hmem
  · exact run_invariant (I := fun t => ∀ i o, s.owner i = some o → t.owner i = some o)
      (fun s₁ e s₂ hs hstep i o ho => (change_step hstep).keeps.owners i o (hs i o ho)) (fun i o ho => ho) hrun

/-! ### A login and a link at the same time -/

/-- Two accounts and no identity yet. -/
def twoAccounts (driver : Driver) : State ⟨driver, id, id⟩ where
  users := ⟨[⟨1, "a@x", true, true⟩, ⟨2, "b@x", true, true⟩], by decide⟩
  links := ⟨[], nodup_nil⟩
  calls := fun _ => none
  granted := []

def shared : Callback where
  flow := .oidc "idp" false
  subject := "s"
  email := "a@x"
  emailVerified := true
  autoProvision := false

/-- User 1 signs in with the identity while user 2 links it: both have found it free. -/
def race : List Event :=
  [.login 0 shared, .link 1 2 shared, .advance 0, .advance 0, .advance 0, .advance 1, .advance 0, .advance 1]

theorem owned_iff_no_foreign_race : ∃ t, run step (twoAccounts .mysql) race = some t ∧
    ((Owned t ∧ ∀ i o, (twoAccounts .mysql).owner i = some o → t.owner i = some o) ↔
      Meets step (fun s e => ¬Foreign s e) (twoAccounts .mysql) race) := by
  have hsome : (run step (twoAccounts .mysql) race).isSome := by decide +kernel
  obtain ⟨t, ht⟩ := isSome_iff_exists.mp hsome
  exact ⟨t, ht, owned_iff_no_foreign (twoAccounts .mysql) race t rfl ht⟩

/-- On SQLite user 2 is told that the identity was linked, and user 1 owns it. -/
theorem linked_to_another : (run step (twoAccounts .sqlite3) race).map (fun t => (t.granted, t.owner shared.identity)) =
      some ([(shared.identity, 2), (shared.identity, 1)], some 1) := by
  decide +kernel

end Identities
