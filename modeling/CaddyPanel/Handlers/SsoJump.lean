import CaddyPanel.Caddyapi.BuildRoute
import CaddyPanel.Handlers.Login
import CaddyPanel.Lib.UrlEscape
import CaddyPanel.Lib.Utf8

/-!
# One login for each SSO-jump link

`SSOJump` (`handlers/auth.go`) takes a signed link from a billing system: it checks the form, the window and the
signature of the link, claims a marker in Redis under the signature, and looks the user up. The requests here are
those with one link, in all its spellings; other links have other markers. The database and Redis answer, Redis
within the deadline of the request. Times are in nanoseconds.
-/

namespace SsoJump

open List Option Text
open Login (Account Outcome migrated selected)
open Runs

/-! ### The table of users -/

structure User extends Account where
  id : ℕ
  email : Str

structure System where
  /-- columns of `users` that no migration adds -/
  extra : List String
  /-- addresses are unique, whatever their case -/
  users : Rows fun u : User => toLower u.email
  enabled : Bool
  allowAdmin : Bool
  /-- `none` where no secret can be read -/
  secret : Option Str
  /-- HMAC-SHA256 in hexadecimal digits -/
  mac : Str → Str → Str
  mac_length : ∀ key message, (mac key message).length = 64
  mac_hex : ∀ key message, (mac key message).all (fun c => c.isDigit || 'a' ≤ c && c ≤ 'f')

/-- `SELECT id, role, COALESCE(client_id,0), is_active FROM users WHERE LOWER(email)=?`: a column that is not there is
an error, which is read as an unknown user. -/
def findUser (sys : System) (email : Str) : Option User :=
  if selected.all (migrated ++ sys.extra).contains then sys.users.lookup email else none

/-! ### Links -/

structure Query where
  email : Str
  exp : Str
  sig : Str
  deriving DecidableEq

/-- A query after `TrimSpace` and `ToLower`. -/
structure Link where
  email : Str
  exp : Str
  sig : Str
  deriving DecidableEq

def Query.link (q : Query) : Link :=
  ⟨toLower (trimSpace q.email), q.exp, toLower (trimSpace q.sig)⟩

/-- `[a-zA-Z0-9.\-]` -/
def domainChar (c : Char) : Bool :=
  c.isAlphanum || c = '.' || c = '-'

/-- `ssoJumpEmailRe`: the last dot of the domain is before the top level. -/
def emailRe (email : Str) : Bool :=
  let user := before '@' email
  let domain := behind '@' email
  let top := (before '.' domain.reverse).reverse
  let rest := (behind '.' domain.reverse).reverse
  email.contains '@' && domain.contains '.' &&
    user ≠ [] && user.all (fun c => c.isAlphanum || "._%+-".toList.contains c) &&
    rest ≠ [] && rest.all domainChar && 2 ≤ top.length && top.all Char.isAlpha

/-- `ssoJumpSigRe` -/
def sigRe (sig : Str) : Bool :=
  sig.length = 64 && sig.all fun c => c.isDigit || 'a' ≤ c && c ≤ 'f'

/-- `url.QueryEscape` -/
def queryEscape (s : Str) : Str :=
  (Utf8.encode s).flatMap fun b =>
    let c := Char.ofNat b.toNat
    if b.toNat < 128 && (c.isAlphanum || "-_.~".toList.contains c) then [c]
    else if c = ' ' then ['+']
    else ['%', Url.hexDigit (b.toNat / 16), Url.hexDigit (b.toNat % 16)]

def message (l : Link) : Str :=
  "email=" ++ queryEscape l.email ++ "&exp=" ++ l.exp

def second : ℤ := 1000000000

/-- `time.Unix` of `strconv.ParseInt`. -/
def Link.expiry (l : Link) : Option ℤ :=
  (Caddyapi.atoi l.exp).map (· * second)

/-- The signature is that of the secret. -/
def Signed (sys : System) (l : Link) : Bool :=
  sys.secret.any fun key => l.sig = sys.mac key (message l)

/-- The link has not expired, and it does so in ten minutes. -/
def inWindow (now : ℤ) (l : Link) : Bool :=
  l.expiry.any fun exp => now ≤ exp && exp ≤ now + 600 * second

/-- All that is checked before the marker. -/
def admitted (sys : System) (now : ℤ) (l : Link) : Bool :=
  sys.enabled && l.email ≠ [] && l.exp ≠ [] && l.sig ≠ [] && emailRe l.email && sigRe l.sig && inWindow now l &&
    Signed sys l

/-! ### Requests -/

/-- How a request ends, and for whom. -/
structure End where
  user : Option ℕ
  outcome : Outcome
  deriving DecidableEq

def refused : End := ⟨none, .refused⟩

/-- What the rest of the handler is answered. -/
def jumpEnv (sys : System) (u : User) : Login.SsoEnv where
  dbUp := true
  enabled := true
  allowAdmin := sys.allowAdmin
  paramsOk := true
  inWindow := true
  secretRead := true
  sigOk := true
  nonceFresh := true
  extra := sys.extra
  userRead := .row
  factorsFail := false
  recoveryLeft := false
  ticketStored := some u.authEpoch
  claims := some u.authEpoch
  sessionStored := true

/-- The request after its marker is set. -/
def finish (sys : System) (email : Str) : End :=
  match findUser sys email with
  | none => refused
  | some u => ⟨some u.id, Login.ssoJump u.toAccount (jumpEnv sys u)⟩

structure State where
  now : ℤ
  /-- when the marker of the signature expires -/
  marker : Option ℤ := none
  /-- requests that were admitted, with the time -/
  checked : List (ℕ × ℤ) := []
  /-- requests that have set the marker -/
  claimed : List ℕ := []
  ended : List End := []

inductive Event where
  | wait (time : ℕ)
  | arrive (call : ℕ) (q : Query)
  /-- `SetNX` -/
  | claim (call : ℕ) (at_ : ℤ)
  | enter (call : ℕ)

/-- The marker lasts for a minute after the link. -/
def Link.markerEnd (l : Link) : ℤ :=
  l.expiry.getD 0 + 60 * second

def step (sys : System) (l : Link) (s : State) : Event → Option State
  | .wait time => some { s with now := s.now + time }
  | .arrive call q =>
    if q.link ≠ l then none
    else if admitted sys s.now l then some { s with checked := (call, s.now) :: s.checked }
    else some { s with ended := refused :: s.ended }
  | .claim call at_ =>
    -- the request has a deadline of five seconds
    if (call, at_) ∉ s.checked ∨ at_ + 5 * second < s.now then none
    else if s.marker.any (s.now < ·) then
      some { s with checked := s.checked.erase (call, at_), ended := refused :: s.ended }
    else
      some { s with
        marker := some l.markerEnd
        checked := s.checked.erase (call, at_)
        claimed := call :: s.claimed }
  | .enter call =>
    if call ∈ s.claimed then
      some { s with claimed := s.claimed.erase call, ended := finish sys l.email :: s.ended }
    else none

variable {sys : System} {l : Link} {s t : State} {e : Event} {u : User}

/-! ### The user of a link -/

lemma findUser_eq (sys : System) (email : Str) :
    findUser sys email = if "client_id" ∈ sys.extra then sys.users.lookup email else none := by
  simp only [findUser, Login.selected_iff]

/-- A client that is active gets a session, or a ticket for its second factor. -/
lemma finish_of_client (hcolumn : "client_id" ∈ sys.extra) (hu : u ∈ sys.users) (hactive : u.isActive)
    (hrole : u.role = .client) :
    (finish sys (toLower u.email)).user = some u.id ∧ (finish sys (toLower u.email)).outcome ≠ .refused := by
  have hfound : findUser sys (toLower u.email) = some u := by
    rw [findUser_eq, if_pos hcolumn]
    exact Rows.lookup_key hu
  rw [finish, hfound]
  have hcolumns : selected.all (migrated ++ sys.extra).contains := Login.selected_iff.mpr hcolumn
  simp only [Login.ssoJump, Login.SsoEnv.found, jumpEnv, hrole, hcolumns, if_true]
  split_ifs <;> simp_all

lemma admitted_iff (hsigned : Signed sys l) (now : ℤ) :
    admitted sys now l ↔ sys.enabled ∧ emailRe l.email ∧ inWindow now l := by
  have hsig : sigRe l.sig := by
    obtain ⟨key, -, hkey⟩ := (any_eq_true _ _).mp hsigned
    rw [of_decide_eq_true hkey, sigRe, sys.mac_length, sys.mac_hex]
    rfl
  have hsig_ne : l.sig ≠ [] := by
    intro h
    rw [h] at hsig
    cases hsig
  have hemail_ne : emailRe l.email → l.email ≠ [] := by
    intro h hnil
    rw [hnil] at h
    cases h
  have hexp_ne : inWindow now l → l.exp ≠ [] := by
    intro h hnil
    simp [inWindow, Link.expiry, hnil, Caddyapi.atoi] at h
  simp only [admitted, Bool.and_eq_true, hsig, hsigned, decide_eq_true_eq, and_true, hsig_ne, ne_eq, not_false_eq_true,
    and_true]
  constructor
  · rintro ⟨⟨⟨⟨henabled, -⟩, -⟩, hemail⟩, hwindow⟩
    exact ⟨henabled, hemail, hwindow⟩
  · rintro ⟨henabled, hemail, hwindow⟩
    exact ⟨⟨⟨⟨henabled, hemail_ne hemail⟩, hexp_ne hwindow⟩, hemail⟩, hwindow⟩

/-! ### What a step does -/

inductive Move (sys : System) (l : Link) (s : State) : Event → State → Prop
  | wait (time : ℕ) : Move sys l s (.wait time) { s with now := s.now + time }
  | accept (call : ℕ) (q : Query) (hlink : q.link = l) (hadmitted : admitted sys s.now l) :
    Move sys l s (.arrive call q) { s with checked := (call, s.now) :: s.checked }
  | reject (call : ℕ) (q : Query) (hlink : q.link = l) (hadmitted : admitted sys s.now l = false) :
    Move sys l s (.arrive call q) { s with ended := refused :: s.ended }
  | replay (call : ℕ) (at_ : ℤ) (hmem : (call, at_) ∈ s.checked) (hmarker : s.marker.any (s.now < ·)) :
    Move sys l s (.claim call at_) { s with checked := s.checked.erase (call, at_), ended := refused :: s.ended }
  | claim (call : ℕ) (at_ : ℤ) (hmem : (call, at_) ∈ s.checked) (htime : s.now ≤ at_ + 5 * second)
    (hmarker : s.marker.any (s.now < ·) = false) :
    Move sys l s (.claim call at_) { s with
      marker := some l.markerEnd
      checked := s.checked.erase (call, at_)
      claimed := call :: s.claimed }
  | enter (call : ℕ) (hmem : call ∈ s.claimed) :
    Move sys l s (.enter call) { s with claimed := s.claimed.erase call, ended := finish sys l.email :: s.ended }

lemma move_of_step (h : step sys l s e = some t) : Move sys l s e t := by
  cases e with
  | wait time => exact Option.some.inj h ▸ .wait time
  | arrive call q =>
    simp only [step] at h
    split_ifs at h with hlink hadmitted
    · exact Option.some.inj h ▸ .accept call q (not_not.mp hlink) hadmitted
    · exact Option.some.inj h ▸ .reject call q (not_not.mp hlink) (by simpa using hadmitted)
  | claim call at_ =>
    simp only [step] at h
    split_ifs at h with hready hmarker
    · obtain ⟨hmem, -⟩ := not_or.mp hready
      exact Option.some.inj h ▸ .replay call at_ (not_not.mp hmem) hmarker
    · obtain ⟨hmem, htime⟩ := not_or.mp hready
      exact Option.some.inj h ▸ .claim call at_ (not_not.mp hmem) (Int.not_lt.mp htime) (by simpa using hmarker)
  | enter call =>
    simp only [step] at h
    split_ifs at h with hmem
    exact Option.some.inj h ▸ .enter call hmem

/-! ### How often a link is good -/

/-- The requests that did not end with a refusal. -/
def granted (s : State) : ℕ :=
  s.ended.countP fun e => e.outcome ≠ .refused

@[simp] lemma granted_refused (s : State) (checked : List (ℕ × ℤ)) :
    granted { s with checked := checked, ended := refused :: s.ended } = granted s := by
  simp [granted, refused]

/-- One request ends in a session or a challenge for the user, and all others are refused. -/
def ExactlyOne (u : User) (s : State) : Prop :=
  granted s = 1 ∧ ∀ e ∈ s.ended, e.outcome ≠ .refused → e.user = some u.id

/-- What the link needs of the system, beside its signature and the time. -/
def Ready (sys : System) (l : Link) : Prop :=
  sys.enabled ∧ emailRe l.email ∧ "client_id" ∈ sys.extra

/-- A request within the ten minutes before the link expires. -/
def Timely (l : Link) (s : State) : Event → Prop
  | .arrive _ _ => inWindow s.now l
  | _ => False

/-- Nothing is granted where no request is admitted, or an admitted one is refused all the same. -/
lemma granted_eq_zero {C : State → Event → Prop} {P : Prop}
    (hadmitted : ∀ s call q, C s (.arrive call q) → admitted sys s.now l → P)
    (hrefused : P → finish sys l.email = refused) {es : List Event}
    (hstart : s.checked = [] ∧ s.claimed = [] ∧ granted s = 0) (hmeets : Meets (step sys l) C s es)
    (hrun : run (step sys l) s es = some t) : granted t = 0 := by
  have hinv : (t.checked ≠ [] ∨ t.claimed ≠ [] → P) ∧ granted t = 0 := by
    refine run_invariant_of_meets (I := fun s => (s.checked ≠ [] ∨ s.claimed ≠ [] → P) ∧ granted s = 0) ?_ ?_ hmeets hrun
    · rintro s e t ⟨hopen, hzero⟩ hC hstep
      cases move_of_step hstep with
      | wait time => exact ⟨hopen, hzero⟩
      | accept call q _ h => exact ⟨fun _ => hadmitted s call q hC h, hzero⟩
      | reject call q _ _ => exact ⟨hopen, (granted_refused s s.checked).trans hzero⟩
      | replay call at_ hmem _ =>
        exact ⟨fun _ => hopen (.inl (ne_nil_of_mem hmem)), (granted_refused s _).trans hzero⟩
      | claim call at_ hmem _ _ => exact ⟨fun _ => hopen (.inl (ne_nil_of_mem hmem)), hzero⟩
      | enter call hmem =>
        have hP := hopen (.inr (ne_nil_of_mem hmem))
        rw [hrefused hP]
        exact ⟨fun _ => hP, (granted_refused s s.checked).trans hzero⟩
    · obtain ⟨hchecked, hclaimed, hzero⟩ := hstart
      exact ⟨fun h => by simp [hchecked, hclaimed] at h, hzero⟩
  exact hinv.2

/-- The marker is set once: by a request that goes on to its session, or has ended in one. -/
structure Once (u : User) (exp : ℤ) (s : State) : Prop where
  early : ∀ c ∈ s.checked, c.2 ≤ exp
  marked : s.marker = none ∧ s.claimed = [] ∧ granted s = 0 ∨
    s.marker = some (exp + 60 * second) ∧ s.claimed.length + granted s = 1
  users : ∀ e ∈ s.ended, e.outcome ≠ .refused → e.user = some u.id

lemma Once.step {exp : ℤ} (hready : Ready sys l) (hsigned : Signed sys l) (hexp : l.expiry = some exp)
    (hu : u ∈ sys.users) (hactive : u.isActive) (hrole : u.role = .client) (hemail : l.email = toLower u.email)
    (hs : Once u exp s) (hstep : step sys l s e = some t) : Once u exp t := by
  have hrefused : ∀ e ∈ refused :: s.ended, e.outcome ≠ .refused → e.user = some u.id := by
    intro e he hne
    obtain rfl | he := mem_cons.mp he
    · exact absurd rfl hne
    · exact hs.users e he hne
  cases move_of_step hstep with
  | wait time => exact ⟨hs.early, hs.marked, hs.users⟩
  | accept call q _ hadmitted =>
    refine ⟨fun c hc => ?_, hs.marked, hs.users⟩
    obtain rfl | hc := mem_cons.mp hc
    · have hwindow := ((admitted_iff hsigned s.now).mp hadmitted).2.2
      simp only [inWindow, hexp, any_some, Bool.and_eq_true, decide_eq_true_eq] at hwindow
      exact hwindow.1
    · exact hs.early c hc
  | reject call q _ _ => exact ⟨hs.early, by simpa using hs.marked, hrefused⟩
  | replay call at_ _ _ =>
    exact ⟨fun c hc => hs.early c (mem_of_mem_erase hc), by simpa using hs.marked, hrefused⟩
  | claim call at_ hmem htime hmarker =>
    refine ⟨fun c hc => hs.early c (mem_of_mem_erase hc), .inr ⟨?_, ?_⟩, hs.users⟩
    · rw [Link.markerEnd, hexp, getD_some]
    obtain ⟨-, hclaimed, hzero⟩ | ⟨hmarked, -⟩ := hs.marked
    · have hgranted : granted s = 0 := hzero
      simp only [hclaimed, length_singleton]
      exact congrArg (1 + ·) hgranted
    · -- the marker outlives every request that was admitted
      have hearly := hs.early _ hmem
      simp only [hmarked, any_some, decide_eq_false_iff_not] at hmarker
      simp only [second] at hmarker htime
      omega
  | enter call hmem =>
    obtain ⟨huser, houtcome⟩ := finish_of_client hready.2.2 hu hactive hrole
    rw [← hemail] at huser houtcome
    refine ⟨hs.early, ?_, fun e he hne => ?_⟩
    · obtain ⟨-, hclaimed, -⟩ | ⟨hmarked, hone⟩ := hs.marked
      · simp [hclaimed] at hmem
      refine .inr ⟨hmarked, ?_⟩
      have hlength := length_erase_of_mem hmem
      have hpos := length_pos_of_mem hmem
      have hgranted : granted { s with claimed := s.claimed.erase call, ended := finish sys l.email :: s.ended } =
          granted s + 1 := countP_cons_of_pos (by simpa using houtcome)
      rw [hgranted]
      simp only [hlength]
      omega
    · obtain rfl | he := mem_cons.mp he
      · exact huser
      · exact hs.users e he hne

/-- A request that was admitted sets the marker or finds it. -/
def Pending (s : State) : Prop :=
  s.marker ≠ none ∨ s.checked ≠ []

lemma Pending.step (hs : Pending s) (hstep : step sys l s e = some t) : Pending t := by
  cases move_of_step hstep with
  | wait time => exact hs
  | accept call q _ _ => exact .inr (cons_ne_nil _ _)
  | reject call q _ _ => exact hs
  | replay call at_ _ hmarker =>
    refine .inl fun hnone => ?_
    have hnone : s.marker = none := hnone
    simp [hnone] at hmarker
  | claim call at_ _ _ _ => exact .inl (by simp)
  | enter call _ => exact hs

/-- Exactly one of the requests with a link is granted, if the database has the column that the lookup of the user asks
for: no migration adds it. -/
theorem exactly_one_iff (sys : System) (u : User) (l : Link) (start t : State) (es : List Event)
    (hu : u ∈ sys.users) (hactive : u.isActive) (hrole : u.role = .client) (hemail : l.email = toLower u.email)
    (hsigned : Signed sys l) (hstart : start = { now := start.now }) (hrun : run (step sys l) start es = some t)
    (hdone : t.checked = [] ∧ t.claimed = []) :
    ExactlyOne u t ↔ Ready sys l ∧ Occurs (step sys l) (Timely l) start es := by
  have hempty : start.checked = [] ∧ start.claimed = [] ∧ granted start = 0 := by
    rw [hstart]
    exact ⟨rfl, rfl, rfl⟩
  constructor
  · rintro ⟨hone, -⟩
    by_contra hnot
    have hzero : granted t = 0 := by
      obtain hready | htimely := not_and_or.mp hnot
      · refine granted_eq_zero (C := fun _ _ => True) (P := sys.enabled ∧ emailRe l.email)
          (fun s _ _ _ h => ?_) (fun h => ?_) hempty (meets_of_forall_mem fun _ _ => trivial) hrun
        · obtain ⟨henabled, hemail, -⟩ := (admitted_iff hsigned s.now).mp h
          exact ⟨henabled, hemail⟩
        · -- the request was admitted, so that it is the column that is missing
          rw [finish, findUser_eq, if_neg fun hcolumn => hready ⟨h.1, h.2, hcolumn⟩]
      · exact granted_eq_zero (P := False) (fun s _ _ hlate h => hlate ((admitted_iff hsigned s.now).mp h).2.2)
          False.elim hempty (meets_of_not_occurs htimely) hrun
    omega
  rintro ⟨hready, es₁, e, es₂, s, hes, hrun₁, htimely⟩
  obtain ⟨call, q, rfl⟩ : ∃ call q, e = .arrive call q := by
    cases e with
    | arrive call q => exact ⟨call, q, rfl⟩
    | wait | claim | enter => exact htimely.elim
  obtain ⟨exp, hexp, -⟩ := (any_eq_true _ _).mp htimely
  have honce : Once u exp t := by
    refine run_invariant (I := Once u exp)
      (fun s e t hs hstep => hs.step hready hsigned hexp hu hactive hrole hemail hstep) ?_ hrun
    rw [hstart]
    exact ⟨nofun, .inl ⟨rfl, rfl, rfl⟩, nofun⟩
  have hpending : Pending t := by
    rw [hes, run_append, hrun₁] at hrun
    obtain ⟨s', hstep, hrun₂⟩ := run_cons_eq_some.mp hrun
    refine run_invariant (I := Pending) (fun s e t hs hstep => hs.step hstep) ?_ hrun₂
    cases move_of_step hstep with
    | accept call q _ _ => exact .inr (cons_ne_nil _ _)
    | reject call q _ hadmitted =>
      rw [(admitted_iff hsigned s.now).mpr ⟨hready.1, hready.2.1, htimely⟩] at hadmitted
      cases hadmitted
  refine ⟨?_, honce.users⟩
  obtain ⟨hmarker, -, -⟩ | ⟨-, hone⟩ := honce.marked
  · obtain hmarked | hchecked := hpending
    · exact absurd hmarker hmarked
    · exact absurd hdone.1 hchecked
  · simpa [hdone.2] using hone

/-! ### The migrated table -/

def customer : User where
  id := 7
  email := "a@shop.example"
  role := .client
  isActive := true
  totpEnabled := false
  smsOTPEnabled := false
  emailOTPEnabled := false
  passkeys := 0
  authEpoch := 0

/-- Hexadecimal digits that depend on the key and the message. -/
def digest (key message : Str) : Str :=
  let n := (key ++ message).foldl (fun n c => 257 * n + c.toNat) 1
  (List.range 64).map fun i => Nat.digitChar (n / 16 ^ i % 16)

lemma digest_hex (key message : Str) : (digest key message).all fun c => c.isDigit || 'a' ≤ c && c ≤ 'f' := by
  have hdigit : ∀ d < 16, (Nat.digitChar d).isDigit || 'a' ≤ Nat.digitChar d && Nat.digitChar d ≤ 'f' := by decide
  rw [digest, List.all_map]
  exact List.all_eq_true.mpr fun i _ => hdigit _ (Nat.mod_lt _ (by decide))

def panel (extra : List String) : System where
  extra := extra
  users := ⟨[customer], nodup_singleton _⟩
  enabled := true
  allowAdmin := false
  secret := some "k"
  mac := digest
  mac_length := fun _ _ => by simp [digest]
  mac_hex := digest_hex

def invitation : Query :=
  ⟨"a@shop.example", "1000", digest "k" "email=a%40shop.example&exp=1000"⟩

def start : State := { now := 900 * second }

def visit : List Event :=
  [.arrive 1 invitation, .claim 1 (900 * second), .enter 1]

theorem exactly_one_iff_migrated : ∃ t, run (step (panel []) invitation.link) start visit = some t ∧
    (ExactlyOne customer t ↔
      Ready (panel []) invitation.link ∧ Occurs (step (panel []) invitation.link) (Timely invitation.link) start visit) := by
  have hdone : (run (step (panel []) invitation.link) start visit).any
      (fun t => t.checked = [] ∧ t.claimed = []) := by decide +kernel
  obtain ⟨t, ht, hend⟩ := (any_eq_true _ _).mp hdone
  exact ⟨t, ht, exactly_one_iff (panel []) customer invitation.link start t visit (mem_singleton.mpr rfl) rfl rfl
    (by decide) (by decide +kernel) rfl ht (of_decide_eq_true hend)⟩

/-- The only request with a good link is refused, and its marker is spent; with the column it has a session. -/
theorem client_refused : Signed (panel []) invitation.link ∧ inWindow start.now invitation.link ∧
      (run (step (panel []) invitation.link) start visit).map (·.ended) = some [refused] ∧
      (run (step (panel ["client_id"]) invitation.link) start visit).map (·.ended) =
        some [⟨some 7, .session .none⟩] := by
  decide +kernel

end SsoJump
