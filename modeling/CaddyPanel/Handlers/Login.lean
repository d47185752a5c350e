import CaddyPanel.Accounts.Users

/-!
# Logins and the second factor

`LoginSubmit` and `SSOJump` end without a session, with one, or with a ticket for the pages on which a second factor is
verified. `RequireAdmin2FA` counts four kinds of factors. What the requests bring and what the queries and stores
answer is an environment; a query that fails is read in the way each handler reads it. `SSOJump` asks `users` for a
column that no migration adds.
-/

namespace Login

open Accounts (Role)

/-! ### The table of users -/

inductive Migration where
  | add (columns : List String)
  | drop (columns : List String)

def Migration.apply (columns : List String) : Migration → List String
  | .add new => columns ++ new
  | .drop old => columns.filter fun c => !old.contains c

/-- What the migrations do to the columns of `users`, from `00001_init.sql` on. -/
def migrations : List Migration :=
  [.add ["id", "email", "password_hash", "role", "full_name", "is_active", "totp_secret", "totp_enabled",
      "oidc_subject", "oidc_issuer", "last_login_at", "created_at", "updated_at"],
    .add ["totp_secret_enc"],
    .add ["phone_e164"],
    .add ["sms_otp_enabled", "sms_otp_pending_hash", "sms_otp_pending_exp"],
    .add ["email_otp_enabled", "email_otp_pending_hash", "email_otp_pending_exp"],
    .add ["has_passkey"],
    .add ["totp_pending_secret", "totp_pending_exp", "totp_pending_attempts"],
    .add ["password_set"],
    .drop ["oidc_subject", "oidc_issuer"],
    .add ["email_verified"],
    .add ["reseller_id"],
    .add ["is_restricted"],
    .add ["auth_epoch"]]

def migrated : List String :=
  migrations.foldl Migration.apply []

/-- The columns that the query of `SSOJump` for the user names. -/
def selected : List String :=
  ["id", "role", "client_id", "is_active", "email"]

lemma selected_iff {extra : List String} : selected.all (migrated ++ extra).contains ↔ "client_id" ∈ extra := by
  have hmigrated : "client_id" ∉ migrated := by decide
  have hothers : "id" ∈ migrated ∧ "role" ∈ migrated ∧ "is_active" ∈ migrated ∧ "email" ∈ migrated := by decide
  obtain ⟨hid, hrole, hactive, hemail⟩ := hothers
  simp [selected, hmigrated, hid, hrole, hactive, hemail]

/-- A row of `users`, and how many rows of `webauthn_credentials` it has. -/
structure Account where
  role : Role
  isActive : Bool
  totpEnabled : Bool
  smsOTPEnabled : Bool
  emailOTPEnabled : Bool
  passkeys : ℕ
  authEpoch : ℕ

def admin2FAEnrolled (u : Account) : Bool :=
  u.totpEnabled || u.smsOTPEnabled || u.emailOTPEnabled || 0 < u.passkeys

/-- The tag of the factor in the audit record. -/
inductive Mfa where
  | none
  | trusted
  | totp
  | recovery
  | sms
  | email
  deriving DecidableEq

inductive Outcome where
  | refused
  /-- the ticket is bound to the epoch -/
  | ticket (epoch : ℕ)
  | session (mfa : Mfa)
  deriving DecidableEq

/-- What a query for one row comes to. -/
inductive Read where
  | row
  | noRows
  | failed
  deriving DecidableEq

/-! ### The pages for the second factor -/

inductive Method where
  | blank
  | totp
  | recovery
  | sms
  | email
  | unknown
  deriving DecidableEq

structure Options where
  hasTOTP : Bool
  hasSMS : Bool
  hasEmail : Bool
  hasRecovery : Bool

/-- `twoFAOptions`: a query that fails leaves its answers at their zero values. -/
def twoFAOptions (u : Account) (fails recoveryLeft : Bool) : Options :=
  if fails then ⟨false, false, false, recoveryLeft⟩
  else ⟨u.totpEnabled, u.smsOTPEnabled, u.emailOTPEnabled, recoveryLeft⟩

def Options.defaultMethod (o : Options) : Method :=
  if o.hasTOTP then .totp
  else if o.hasEmail then .email
  else if o.hasSMS then .sms
  else if o.hasRecovery then .recovery
  else .blank

def twoFAMethodEnrolled (o : Options) : Method → Bool
  | .totp => o.hasTOTP
  | .sms => o.hasSMS
  | .email => o.hasEmail
  | _ => true

inductive Page where
  | picker
  | smsOTP
  | emailOTP

/-- A submission of a second factor. `claims` is the epoch that `loadSessionClaims` finds. -/
structure Challenge where
  page : Page
  ticketRead : Bool
  locked : Bool
  optionsFail : Bool
  recoveryLeft : Bool
  method : Method
  secretRead : Bool
  totpMatches : Bool
  totpUnused : Bool
  recoveryMatches : Bool
  smsMatches : Bool
  emailMatches : Bool
  ticketConsumed : Bool
  claims : Option ℕ
  sessionStored : Bool

/-- The comparison of the code, on the picker page. -/
def Challenge.compare (c : Challenge) : Method → Option Mfa
  | .totp =>
    if !c.secretRead then none
    else if c.totpMatches && c.totpUnused then some .totp
    else if c.recoveryMatches then some .recovery
    else none
  | .recovery => if c.recoveryMatches then some .recovery else none
  | .sms => if c.smsMatches then some .sms else none
  | .email => if c.emailMatches then some .email else none
  | .blank | .unknown => none

/-- The end of every page: the ticket is spent, and the claims are those of its epoch. -/
def Challenge.finish (c : Challenge) (epoch : ℕ) (mfa : Option Mfa) : Outcome :=
  match mfa with
  | none => .refused
  | some mfa =>
    if c.ticketConsumed && c.claims = some epoch && c.sessionStored then .session mfa else .refused

/-- The method that is used: the one that was asked for, else the default. -/
def Challenge.chosen (c : Challenge) (o : Options) : Method :=
  if c.method ≠ .blank then c.method else if o.defaultMethod ≠ .blank then o.defaultMethod else .totp

def totpVerify (u : Account) (epoch : ℕ) (c : Challenge) : Outcome :=
  if !c.ticketRead || c.locked then .refused
  else
    let o := twoFAOptions u c.optionsFail c.recoveryLeft
    if !twoFAMethodEnrolled o (c.chosen o) then .refused else c.finish epoch (c.compare (c.chosen o))

/-- `SMSOTPVerify` and `EmailOTPVerify`. -/
def otpVerify (epoch : ℕ) (c : Challenge) (matched : Bool) (mfa : Mfa) : Outcome :=
  if !c.ticketRead || c.locked then .refused else c.finish epoch (if matched then some mfa else none)

def smsOTPVerify (epoch : ℕ) (c : Challenge) : Outcome :=
  otpVerify epoch c c.smsMatches .sms

def emailOTPVerify (epoch : ℕ) (c : Challenge) : Outcome :=
  otpVerify epoch c c.emailMatches .email

def verifySecondFactor (u : Account) (epoch : ℕ) (c : Challenge) : Outcome :=
  match c.page with
  | .picker => totpVerify u epoch c
  | .smsOTP => smsOTPVerify epoch c
  | .emailOTP => emailOTPVerify epoch c

/-! ### The first factor -/

structure PasswordEnv where
  csrfOk : Bool
  emailGiven : Bool
  passwordGiven : Bool
  locked : Bool
  captchaOn : Bool
  captchaOk : Bool
  dbUp : Bool
  /-- as it is read; a failing query reads as not disabled -/
  passwordLoginDisabled : Bool
  userRead : Read
  passwordOk : Bool
  stateWired : Bool
  trustToken : Bool
  ticketStored : Bool
  claims : Option ℕ
  sessionStored : Bool

/-- `finalizeLoginAt`. -/
def finalizeLoginAt (claims : Option ℕ) (proofEpoch : ℕ) (sessionStored : Bool) (mfa : Mfa) : Outcome :=
  if claims = some proofEpoch && sessionStored then .session mfa else .refused

def loginSubmit (u : Account) (e : PasswordEnv) : Outcome :=
  if !e.csrfOk then .refused
  else if !e.emailGiven || !e.passwordGiven then .refused
  else if e.locked then .refused
  else if e.captchaOn && !e.captchaOk then .refused
  else if !e.dbUp then .refused
  else if e.userRead ≠ .row then .refused
  else if !u.isActive then .refused
  else if e.passwordLoginDisabled && u.role ≠ .admin then .refused
  else if !e.passwordOk then .refused
  else if (u.totpEnabled || u.smsOTPEnabled || u.emailOTPEnabled) && e.stateWired && e.trustToken then
    finalizeLoginAt e.claims u.authEpoch e.sessionStored .trusted
  else if u.totpEnabled || u.smsOTPEnabled || u.emailOTPEnabled then
    if e.ticketStored then .ticket u.authEpoch else .refused
  else finalizeLoginAt e.claims u.authEpoch e.sessionStored .none

structure SsoEnv where
  dbUp : Bool
  /-- settings as they are read -/
  enabled : Bool
  allowAdmin : Bool
  paramsOk : Bool
  inWindow : Bool
  secretRead : Bool
  sigOk : Bool
  nonceFresh : Bool
  /-- columns of `users` that no migration adds -/
  extra : List String
  /-- with these columns -/
  userRead : Read
  factorsFail : Bool
  recoveryLeft : Bool
  /-- the epoch that the ticket is stored with -/
  ticketStored : Option ℕ
  claims : Option ℕ
  sessionStored : Bool

/-- What the query for the user comes to: a column that is not there is an error. -/
def SsoEnv.found (e : SsoEnv) : Read :=
  if selected.all (migrated ++ e.extra).contains then e.userRead else .failed

def ssoJump (u : Account) (e : SsoEnv) : Outcome :=
  if !e.dbUp then .refused
  else if !e.enabled then .refused
  else if !e.paramsOk || !e.inWindow then .refused
  else if !e.secretRead || !e.sigOk || !e.nonceFresh then .refused
  else if e.found ≠ .row then .refused
  else if !u.isActive then .refused
  else if (u.role = .superAdmin || u.role = .admin || u.role = .reseller) && !e.allowAdmin then .refused
  else
    let o := twoFAOptions u e.factorsFail e.recoveryLeft
    if o.hasTOTP || o.hasSMS || o.hasEmail then
      match e.ticketStored with
      | some epoch => .ticket epoch
      | none => .refused
    else if e.claims.isSome && e.sessionStored then .session .none
    else .refused

/-! ### A login -/

inductive Path where
  | password
  | sso
  deriving DecidableEq

structure Env where
  password : PasswordEnv
  sso : SsoEnv
  challenge : Challenge

/-- A login by one of the two paths, with the page it is sent to. -/
def login (path : Path) (u : Account) (env : Env) : Outcome :=
  let first :=
    match path with
    | .password => loginSubmit u env.password
    | .sso => ssoJump u env.sso
  match first with
  | .ticket epoch => verifySecondFactor u epoch env.challenge
  | other => other

/-- The factor of the session was verified in this login. -/
def Verified (env : Env) : Mfa → Prop
  | .none => False
  | .trusted => env.password.trustToken
  | .totp => env.challenge.totpMatches
  | .recovery => env.challenge.recoveryMatches
  | .sms => env.challenge.smsMatches
  | .email => env.challenge.emailMatches

/-- The user has one of the factors that a login asks for. -/
def hasCode (u : Account) : Bool :=
  u.totpEnabled || u.smsOTPEnabled || u.emailOTPEnabled

variable {u : Account} {env : Env} {mfa : Mfa} {epoch : ℕ}

lemma verified_of_compare {method : Method} (h : env.challenge.compare method = some mfa) : Verified env mfa := by
  cases method with
  | totp =>
    simp only [Challenge.compare] at h
    split at h
    · cases h
    split at h
    · next hmatch =>
      cases h
      exact (Bool.and_eq_true _ _ ▸ hmatch).1
    · split at h
      · next hmatch =>
        cases h
        exact hmatch
      · cases h
  | recovery | sms | email =>
    simp only [Challenge.compare] at h
    split at h
    · next hmatch =>
      cases h
      exact hmatch
    · cases h
  | blank | unknown => cases h

lemma compare_of_finish {c : Challenge} {compared : Option Mfa} (h : c.finish epoch compared = .session mfa) :
    compared = some mfa := by
  cases compared with
  | none => cases h
  | some m =>
    simp only [Challenge.finish] at h
    split at h
    · cases h
      rfl
    · cases h

/-- A check that is passed on the way to a session. -/
lemma guard_eq_session {p : Prop} [Decidable p] {o : Outcome} :
    (if p then .refused else o) = .session mfa ↔ ¬ p ∧ o = .session mfa := by
  by_cases hp : p <;> simp [hp]

/-- The pages give a session only for a code that matches. -/
lemma verified_of_verifySecondFactor (h : verifySecondFactor u epoch env.challenge = .session mfa) :
    Verified env mfa := by
  have hotp : ∀ {matched : Bool} {m : Mfa}, otpVerify epoch env.challenge matched m = .session mfa →
      matched ∧ m = mfa := by
    intro matched m h
    have hcompared := compare_of_finish (guard_eq_session.mp h).2
    cases matched with
    | false => cases hcompared
    | true => exact ⟨rfl, Option.some.inj hcompared⟩
  simp only [verifySecondFactor] at h
  split at h
  · simp only [totpVerify, guard_eq_session] at h
    exact verified_of_compare (compare_of_finish h.2.2)
  · obtain ⟨hmatch, rfl⟩ := hotp h
    exact hmatch
  · obtain ⟨hmatch, rfl⟩ := hotp h
    exact hmatch

lemma finalizeLoginAt_session {claims : Option ℕ} {stored : Bool} {m : Mfa}
    (h : finalizeLoginAt claims epoch stored m = .session mfa) : mfa = m := by
  simp only [finalizeLoginAt] at h
  split at h
  · cases h
    rfl
  · cases h

/-- A password gives a session at once for a trusted device, or where no code is set up. -/
lemma loginSubmit_session {e : PasswordEnv} (h : loginSubmit u e = .session mfa) :
    mfa = .trusted ∧ e.trustToken ∨ mfa = .none ∧ hasCode u = false ∧ u.isActive := by
  simp only [loginSubmit, guard_eq_session] at h
  obtain ⟨-, -, -, -, -, -, hactive, -, -, h⟩ := h
  split at h
  · next htrusted =>
    rw [Bool.and_eq_true] at htrusted
    exact .inl ⟨finalizeLoginAt_session h, htrusted.2⟩
  · split at h
    · split at h <;> cases h
    · next hcode => exact .inr ⟨finalizeLoginAt_session h, by simpa [hasCode] using hcode, by simpa using hactive⟩

/-- On the migrated table a jump finds no user. -/
lemma ssoJump_refused {e : SsoEnv} (h : e.extra = []) : ssoJump u e = .refused := by
  have hfound : e.found = .failed := if_neg fun hall => by simpa [h] using selected_iff.mp hall
  simp only [ssoJump, hfound]
  split_ifs <;> first | rfl | simp_all

/-- A password and all stores are as they should be, and no code is brought. -/
def plain (u : Account) : Env where
  password := ⟨true, true, true, false, false, true, true, false, .row, true, true, false, true, some u.authEpoch, true⟩
  sso := ⟨true, true, true, true, true, true, true, true, [], .row, false, false, some u.authEpoch,
    some u.authEpoch, true⟩
  challenge := ⟨.picker, true, false, false, false, .blank, true, false, false, false, false, false, true,
    some u.authEpoch, true⟩

lemma login_plain (hactive : u.isActive) (hcode : hasCode u = false) :
    login .password u (plain u) = .session .none := by
  simp only [hasCode] at hcode
  simp [login, loginSubmit, plain, finalizeLoginAt, hactive, hcode]

/-- What a login does not ask for a code with is a trusted device, or an account without codes. -/
lemma verified_of_login {path : Path} (hmigrated : env.sso.extra = [])
    (hcode : u.isActive → path = .password → hasCode u) (h : login path u env = .session mfa) : Verified env mfa := by
  simp only [login] at h
  split at h
  · exact verified_of_verifySecondFactor h
  cases path with
  | password =>
    obtain ⟨rfl, htrust⟩ | ⟨-, hnone, hactive⟩ := loginSubmit_session h
    · exact htrust
    · exact absurd (hcode hactive rfl) (by simp [hnone])
  | sso =>
    rw [ssoJump_refused hmigrated] at h
    cases h

/-- An administrator whose one factor is a passkey. -/
def passkeyOnly : Account :=
  ⟨.admin, true, false, false, false, 1, 4⟩

end Login
