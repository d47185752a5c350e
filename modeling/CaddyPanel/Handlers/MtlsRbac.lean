import Mathlib.Data.List.Dedup
import CaddyPanel.Lib.Paths
import CaddyPanel.Lib.Url

/-!
# mTLS path rules (`internal/httpserver/handlers/admin_mtls_rbac.go`)

Caddy asks the panel before it forwards a request on a route with path rules; the panel answers 200
when the presented certificate holds the roles that the rules for the requested path require.
-/

namespace MtlsRbac

open List Text

structure PathRule where
  pattern : Str
  roleName : Str
  deriving DecidableEq

def isWildcard (pattern : Str) : Bool :=
  "/*".toList.isSuffixOf pattern

/-- A trailing slash-star makes the pattern a prefix. -/
def pathMatchesPattern (path pattern : Str) : Bool :=
  if isWildcard pattern then pattern.dropLast.isPrefixOf path else path = pattern

/-- Any exact match outranks any prefix. -/
def score (rule : PathRule) : Int :=
  rule.pattern.length + if isWildcard rule.pattern then 0 else 2 ^ 20

/-- One turn of the loop over the rules: the best score so far and the roles that have it. -/
def considerRule (p : Str) (acc : Int × List Str) (rule : PathRule) : Int × List Str :=
  if ¬pathMatchesPattern p rule.pattern then acc
  else if acc.1 < score rule then (score rule, [rule.roleName])
  else if score rule = acc.1 then (acc.1, acc.2 ++ [rule.roleName])
  else acc

def mostSpecificRoles (p : Str) (rules : List PathRule) : List Str :=
  (rules.foldl (considerRule p) (-1, [])).2

/-! ### The forms of a request path -/

/-- Up to `n` further decodings, while they succeed and change the path. -/
def decodeMore : Nat → Str → Str
  | 0, p => p
  | n + 1, p =>
    if '%' ∈ p then
      match Url.pathUnescape p with
      | none => p
      | some d => if d = p then p else decodeMore n d
    else p

def hasForbiddenByte (p : Str) : Bool :=
  '\\' ∈ p ∨ '\x00' ∈ p

/-- The decoded path as sent and cleaned; `none` rejects the request. -/
def rbacPathForms (authorityOk : Str → Bool) (origURI : Str) : Option (List Str) :=
  match Url.parseRequestURI authorityOk origURI with
  | none => none
  | some path =>
    if ¬Paths.isRooted path then none
    else
      let p := decodeMore 3 path
      if hasForbiddenByte p then none else some [p, Paths.cleanDir p]

/-! ### The check -/

structure Leaf where
  fingerprint : Str
  notAfter : Nat

/-- What the handler is configured with, and the library code it calls. -/
structure Panel where
  keySet : Bool
  allowUnsigned : Bool
  verifyToken : (nodeID routeID : Nat) → (token : Str) → Bool
  parseCert : (pem : Str) → Option Leaf
  authorityOk : Str → Bool

/-- The queries of the handler; `none` is a failed query or a missing row. -/
structure Tables where
  served : (routeID nodeID : Nat) → Option Nat
  pathRules : (routeID : Nat) → Option (List PathRule)
  mtlsCAID : (routeID : Nat) → Option Nat
  activeCert : (caID : Nat) → (serial : Str) → Option (Nat × Str)
  roleCount : (certID : Nat) → (role : Str) → Option Nat

/-- The subrequest: the numbers are 0 where they do not parse as positive ones. -/
structure Check where
  routeID : Nat
  forwardedURI : Str
  urlPath : Str
  token : Str
  nodeID : Nat
  serial : Str
  fingerprint : Str
  now : Nat

def Check.origURI (r : Check) : Str :=
  if r.forwardedURI = [] then r.urlPath else r.forwardedURI

def rbacCallerAllowed (P : Panel) (db : Tables) (r : Check) : Bool :=
  let token := trimSpace r.token
  if token = [] ∨ r.nodeID = 0 ∨ P.keySet = false then P.allowUnsigned
  else if ¬P.verifyToken r.nodeID r.routeID token then false
  else
    match db.served r.routeID r.nodeID with
    | none => false
    | some n => n ≠ 0

/-- The certificate row of the presented leaf, known by serial and fingerprint. -/
def presentedCert (P : Panel) (db : Tables) (r : Check) : Option Nat :=
  match db.mtlsCAID r.routeID with
  | none => none
  | some caID =>
    let serial := trimSpace r.serial
    let fp := toLower (trimSpace r.fingerprint)
    if caID = 0 ∨ serial = [] ∨ fp = [] then none
    else
      (db.activeCert caID serial).bind fun (certID, pem) =>
        (P.parseCert pem).bind fun leaf =>
          if leaf.fingerprint = fp ∧ r.now < leaf.notAfter then some certID else none

def holdsRole (db : Tables) (certID : Nat) (role : Str) : Bool :=
  match db.roleCount certID role with
  | none => false
  | some n => n ≠ 0

/-- The roles required by any of the forms, as a set. -/
def requiredRoles (forms : List Str) (rules : List PathRule) : List Str :=
  (forms.flatMap fun p => mostSpecificRoles p rules).dedup

/-- The answer once the required roles are known; no rule for the path allows it. -/
def answerRoles (P : Panel) (db : Tables) (r : Check) (required : List Str) : Nat :=
  if required = [] then 200
  else
    match presentedCert P db r with
    | none => 403
    | some certID => if required.all (holdsRole db certID) then 200 else 403

/-- The answer once the rules of the route are loaded; no rules means no restriction. -/
def answerRules (P : Panel) (db : Tables) (r : Check) (rules : List PathRule) : Nat :=
  if rules = [] then 200
  else
    match rbacPathForms P.authorityOk r.origURI with
    | none => 403
    | some forms => answerRoles P db r (requiredRoles forms rules)

/-- The status `MTLSRBACCheck` answers. -/
def MTLSRBACCheck (P : Panel) (db : Option Tables) (r : Check) : Nat :=
  if r.routeID = 0 then 400
  else
    match db with
    | none => 503
    | some db =>
      if rbacCallerAllowed P db r = false then 403
      else
        match db.pathRules r.routeID with
        | none => 500
        | some rules => answerRules P db r rules

/-! ### The most specific rules -/

/-- No rule that matches `p` outranks `rule`, which matches it itself. -/
def MostSpecific (p : Str) (rules : List PathRule) (rule : PathRule) : Prop :=
  rule ∈ rules ∧ pathMatchesPattern p rule.pattern ∧
    ∀ other ∈ rules, pathMatchesPattern p other.pattern → score other ≤ score rule

/-- What the loop knows once it has seen `rules`. -/
structure Tally (p : Str) (rules : List PathRule) (acc : Int × List Str) : Prop where
  le : ∀ rule ∈ rules, pathMatchesPattern p rule.pattern → score rule ≤ acc.1
  mem : ∀ role, role ∈ acc.2 ↔ ∃ rule ∈ rules, pathMatchesPattern p rule.pattern ∧
    score rule = acc.1 ∧ rule.roleName = role
  hit : acc.1 = -1 ∨ ∃ rule ∈ rules, pathMatchesPattern p rule.pattern ∧ score rule = acc.1

variable {rules : List PathRule} {p role x uri : Str} {forms required : List Str}

lemma Tally.considerRule {acc : Int × List Str} (h : Tally p rules acc) (r : PathRule) :
    Tally p (rules ++ [r]) (considerRule p acc r) := by
  obtain ⟨hle, hmem, hhit⟩ := h
  unfold MtlsRbac.considerRule
  by_cases hr : pathMatchesPattern p r.pattern
  · rw [if_neg (by simp [hr])]
    split_ifs with hlt heq
    · exact ⟨by grind, by grind, by grind⟩
    · exact ⟨by grind, by grind, by grind⟩
    · exact ⟨by grind, by grind, by grind⟩
  · rw [if_pos hr]
    exact ⟨by grind, by grind, by grind⟩

lemma tally_foldl (p : Str) (rules : List PathRule) : Tally p rules (rules.foldl (considerRule p) (-1, [])) := by
  induction rules using List.reverseRecOn with
  | nil => exact ⟨by simp, by simp, .inl rfl⟩
  | append_singleton rules r ih =>
    rw [foldl_append]
    exact ih.considerRule r

theorem mem_mostSpecificRoles :
    role ∈ mostSpecificRoles p rules ↔ ∃ rule, MostSpecific p rules rule ∧ rule.roleName = role := by
  obtain ⟨hle, hmem, hhit⟩ := tally_foldl p rules
  rw [mostSpecificRoles, hmem]
  constructor
  · rintro ⟨rule, hin, hmatch, hscore, hrole⟩
    refine ⟨rule, ⟨hin, hmatch, fun other ho hm => ?_⟩, hrole⟩
    rw [hscore]
    exact hle other ho hm
  rintro ⟨rule, ⟨hin, hmatch, hmax⟩, hrole⟩
  refine ⟨rule, hin, hmatch, Int.le_antisymm (hle rule hin hmatch) ?_, hrole⟩
  rcases hhit with hnone | ⟨best, hbest, hm, hs⟩
  · unfold score
    split_ifs <;> omega
  · rw [← hs]
    exact hmax best hbest hm

lemma isWildcard_iff : isWildcard x ↔ ∃ y, x = y ++ ['/', '*'] := by
  rw [isWildcard, isSuffixOf_iff_suffix]
  constructor
  · rintro ⟨y, rfl⟩
    exact ⟨y, rfl⟩
  · rintro ⟨y, rfl⟩
    exact ⟨y, rfl⟩

lemma pathMatchesPattern_self (x : Str) : pathMatchesPattern x x := by
  unfold pathMatchesPattern
  split_ifs
  · exact isPrefixOf_iff_prefix.mpr <| dropLast_prefix x
  · simp

/-- A path read as a pattern outranks every other pattern that matches the path. -/
lemma score_lt_own {rule own : PathRule} (hown : own.pattern = x)
    (hne : rule.pattern ≠ x) (h : pathMatchesPattern x rule.pattern) : score rule < score own := by
  unfold pathMatchesPattern at h
  split_ifs at h with hw
  · obtain ⟨y, hy⟩ := isWildcard_iff.mp hw
    obtain ⟨z, hz⟩ := isPrefixOf_iff_prefix.mp h
    have hdrop : rule.pattern.dropLast = y ++ ['/'] := by
      rw [hy, show y ++ ['/', '*'] = (y ++ ['/']) ++ ['*'] by simp, dropLast_concat]
    rw [hdrop] at hz
    have hlen : x.length = y.length + 1 + z.length := by simp [← hz]; omega
    have hrule : rule.pattern.length = y.length + 2 := by simp [hy]
    simp only [score, hw, if_true, hown]
    by_cases hx : isWildcard x
    · obtain ⟨y', hy'⟩ := isWildcard_iff.mp hx
      match z with
      | [] =>
        have hlast := congrArg List.getLast? (hz.trans hy')
        simp at hlast
      | [c] =>
        have hlast := congrArg List.getLast? (hz.trans hy')
        simp at hlast
        rw [hlast] at hz
        exact absurd (by rw [hy, ← hz]; simp) hne
      | _ :: _ :: _ =>
        simp only [length_cons] at hlen
        omega
    · rw [if_neg hx]
      omega
  · simp only [decide_eq_true_eq] at h
    exact absurd h.symm hne

/-- At a path that stands among the patterns, only rules with that very pattern decide. -/
lemma mostSpecific_own {own rule : PathRule} (hown : own ∈ rules)
    (hx : own.pattern = x) (h : MostSpecific x rules rule) : rule.pattern = x := by
  by_contra hne
  have hlt := score_lt_own hx hne h.2.1
  have hle := h.2.2 own hown (hx ▸ pathMatchesPattern_self x)
  omega

/-! ### When the rules are enforced -/

/-- The path a standard backend sees: decoded once, dot segments removed. -/
def backendPath (authorityOk : Str → Bool) (uri : Str) : Option Str :=
  (Url.parseRequestURI authorityOk uri).map Paths.cleanDir

/-- The presented certificate holds the role. -/
def CertHolds (P : Panel) (db : Tables) (r : Check) (role : Str) : Prop :=
  ∃ certID, presentedCert P db r = some certID ∧ holdsRole db certID role

/-- Whatever the rules of the route and the certificate, a request with this URI is let through only
with the roles that the most specific rule for the backend's path requires. -/
def RulesEnforced (authorityOk : Str → Bool) (uri : Str) : Prop :=
  ∀ (P : Panel) (db : Tables) (r : Check) (rules : List PathRule) (b : Str),
    P.authorityOk = authorityOk → r.origURI = uri → db.pathRules r.routeID = some rules →
    rules ≠ [] → MTLSRBACCheck P (some db) r = 200 → backendPath authorityOk uri = some b →
    ∀ role ∈ mostSpecificRoles b rules, CertHolds P db r role

/-- Decoding the path of an accepted URI further does not change what cleaning leaves of it. -/
def DecodingSettled (authorityOk : Str → Bool) (uri : Str) : Prop :=
  ∀ path, Url.parseRequestURI authorityOk uri = some path → Paths.isRooted path →
    hasForbiddenByte (decodeMore 3 path) = false →
    Paths.cleanDir path = Paths.cleanDir (decodeMore 3 path)

lemma answerRoles_eq_ok {P : Panel} {db : Tables} {r : Check} :
    answerRoles P db r required = 200 ↔ ∀ role ∈ required, CertHolds P db r role := by
  unfold answerRoles CertHolds
  by_cases hnil : required = []
  · simp [hnil]
  rw [if_neg hnil]
  cases presentedCert P db r with
  | none =>
    obtain ⟨role, hrole⟩ := exists_mem_of_ne_nil _ hnil
    simp only [Nat.reduceEqDiff, false_iff]
    intro h
    obtain ⟨certID, hcert, -⟩ := h role hrole
    cases hcert
  | some certID => simp

/-- A 200 on a route with rules: the caller and the path are accepted, and every role that one of
the forms of the path requires is held. -/
lemma check_eq_ok_iff {P : Panel} {db : Tables} {r : Check}
    (hrules : db.pathRules r.routeID = some rules) (hne : rules ≠ []) :
    MTLSRBACCheck P (some db) r = 200 ↔ r.routeID ≠ 0 ∧ rbacCallerAllowed P db r ∧
      ∃ forms, rbacPathForms P.authorityOk r.origURI = some forms ∧
        ∀ p ∈ forms, ∀ role ∈ mostSpecificRoles p rules, CertHolds P db r role := by
  simp only [MTLSRBACCheck, hrules, answerRules, if_neg hne]
  by_cases hid : r.routeID = 0
  · simp [hid]
  cases hcaller : rbacCallerAllowed P db r with
  | false => simp [hid]
  | true =>
    cases rbacPathForms P.authorityOk r.origURI with
    | none => simp [hid]
    | some forms =>
      simp only [hid, if_false, Bool.true_eq_false, answerRoles_eq_ok, requiredRoles, mem_dedup, mem_flatMap]
      constructor
      · intro h
        exact ⟨hid, trivial, forms, rfl, fun p hp role hrole => h role ⟨p, hp, hrole⟩⟩
      · rintro ⟨-, -, forms', hforms, h⟩ role ⟨p, hp, hrole⟩
        cases hforms
        exact h p hp role hrole

lemma rbacPathForms_eq_some {authorityOk : Str → Bool} :
    rbacPathForms authorityOk uri = some forms ↔
      ∃ path, Url.parseRequestURI authorityOk uri = some path ∧ Paths.isRooted path ∧
        hasForbiddenByte (decodeMore 3 path) = false ∧
        forms = [decodeMore 3 path, Paths.cleanDir (decodeMore 3 path)] := by
  unfold rbacPathForms
  cases Url.parseRequestURI authorityOk uri with
  | none => simp
  | some path =>
    simp only [Option.some.injEq, exists_eq_left']
    cases Paths.isRooted path with
    | false => simp
    | true =>
      cases hasForbiddenByte (decodeMore 3 path) with
      | true => simp
      | false => simp [eq_comm]

section Escape

variable (authorityOk : Str → Bool) (uri b p : Str)

/-- Rules that name the backend's path and the two forms the check looks at. -/
def escapeRules : List PathRule :=
  [⟨b, "admin"⟩, ⟨p, "guest"⟩, ⟨Paths.cleanDir p, "guest"⟩]

def escapePanel : Panel where
  keySet := false
  allowUnsigned := true
  verifyToken := fun _ _ _ => false
  parseCert := fun _ => some ⟨"f", 1⟩
  authorityOk := authorityOk

/-- One certificate, which holds the role of the forms only. -/
def escapeTables : Tables where
  served := fun _ _ => none
  pathRules := fun _ => some (escapeRules b p)
  mtlsCAID := fun _ => some 1
  activeCert := fun _ _ => some (1, [])
  roleCount := fun _ role => some (if role = "guest" then 1 else 0)

def escapeCheck : Check where
  routeID := 1
  forwardedURI := uri
  urlPath := uri
  token := []
  nodeID := 0
  serial := "1"
  fingerprint := "f"
  now := 0

lemma origURI_escapeCheck : (escapeCheck uri).origURI = uri := by
  unfold Check.origURI escapeCheck
  split_ifs <;> rfl

variable {b p}

/-- Neither form requires the role of the backend's path. -/
lemma guest_of_form {x role : Str} (hx : x = p ∨ x = Paths.cleanDir p) (hb : b ≠ x)
    (h : role ∈ mostSpecificRoles x (escapeRules b p)) : role = "guest" := by
  obtain ⟨rule, hrule, rfl⟩ := mem_mostSpecificRoles.mp h
  have hown : ⟨x, "guest"⟩ ∈ escapeRules b p := by
    rcases hx with rfl | rfl <;> simp [escapeRules]
  have hpat := mostSpecific_own hown rfl hrule
  have hmem := hrule.1
  simp only [escapeRules, mem_cons, not_mem_nil, or_false] at hmem
  rcases hmem with rfl | rfl | rfl
  · exact absurd hpat hb
  · rfl
  · rfl

lemma admin_mem_roles (hp : b ≠ p) (hc : b ≠ Paths.cleanDir p) :
    "admin".toList ∈ mostSpecificRoles b (escapeRules b p) := by
  rw [mem_mostSpecificRoles]
  refine ⟨⟨b, "admin"⟩, ⟨by simp [escapeRules], pathMatchesPattern_self b, ?_⟩, rfl⟩
  intro other hother hmatch
  simp only [escapeRules, mem_cons, not_mem_nil, or_false] at hother
  rcases hother with rfl | rfl | rfl
  · exact Int.le_refl _
  · exact Int.le_of_lt (score_lt_own rfl hp.symm hmatch)
  · exact Int.le_of_lt (score_lt_own rfl hc.symm hmatch)

lemma check_escape {path : Str} (hparse : Url.parseRequestURI authorityOk uri = some path)
    (hroot : Paths.isRooted path) (hbyte : hasForbiddenByte (decodeMore 3 path) = false)
    (hp : b ≠ decodeMore 3 path) (hc : b ≠ Paths.cleanDir (decodeMore 3 path)) :
    MTLSRBACCheck (escapePanel authorityOk) (some (escapeTables b (decodeMore 3 path))) (escapeCheck uri) = 200 := by
  have hrules : (escapeTables b (decodeMore 3 path)).pathRules (escapeCheck uri).routeID =
      some (escapeRules b (decodeMore 3 path)) := rfl
  rw [check_eq_ok_iff hrules (by simp [escapeRules]), origURI_escapeCheck]
  refine ⟨by simp [escapeCheck], rfl, _,
    rbacPathForms_eq_some.mpr ⟨path, hparse, hroot, hbyte, rfl⟩, fun x hx role hrole => ?_⟩
  simp only [mem_cons, not_mem_nil, or_false] at hx
  have hb : b ≠ x := by rcases hx with rfl | rfl <;> assumption
  rw [guest_of_form hx hb hrole]
  exact ⟨1, rfl, rfl⟩

end Escape

/-- The rules are enforced on the path the backend sees exactly for the URIs whose path further
decoding leaves alone, up to cleaning. -/
theorem rules_enforced_iff (authorityOk : Str → Bool) (uri : Str) :
    RulesEnforced authorityOk uri ↔ DecodingSettled authorityOk uri := by
  constructor
  · intro henf path hparse hroot hbyte
    by_contra hclean
    have hback : backendPath authorityOk uri = some (Paths.cleanDir path) := by
      simp [backendPath, hparse]
    have hform : Paths.cleanDir path ≠ decodeMore 3 path := by
      intro heq
      apply hclean
      rw [← heq, Paths.cleanDir_cleanDir hroot]
    obtain ⟨certID, hcert, hrole⟩ := henf (escapePanel authorityOk) _ (escapeCheck uri) _ _ rfl
      (origURI_escapeCheck uri) rfl (by simp [escapeRules])
      (check_escape authorityOk uri hparse hroot hbyte hform hclean) hback _
      (admin_mem_roles hform hclean)
    simp [holdsRole, escapeTables] at hrole
  · intro hsettled P db r rules b hauth huri hrules hne hok hback role hrole
    obtain ⟨-, -, forms, hforms, hheld⟩ := (check_eq_ok_iff hrules hne).mp hok
    rw [hauth, huri, rbacPathForms_eq_some] at hforms
    obtain ⟨path, hparse, hroot, hbyte, rfl⟩ := hforms
    have hb : Paths.cleanDir (decodeMore 3 path) = b := by
      rw [← hsettled path hparse hroot hbyte]
      simpa [backendPath, hparse] using hback
    exact hheld b (by simp [hb]) role hrole

/-- `/admin/%2561` reaches the backend as `/admin/%61`, where the wildcard rule asks for the admin
role; the check looks at `/admin/a`, which has a rule of its own. -/
theorem rules_not_enforced_double_encoded : ¬RulesEnforced (fun _ => true) "/admin/%2561" := by
  intro h
  obtain ⟨certID, hcert, hrole⟩ := h (escapePanel fun _ => true) { escapeTables [] [] with
      pathRules := fun _ => some [⟨"/admin/*", "admin"⟩, ⟨"/admin/a", "guest"⟩] }
    (escapeCheck "/admin/%2561") _ "/admin/%61" rfl rfl rfl (by decide) (by decide)
    (by decide) "admin" (by decide)
  simp [holdsRole, escapeTables] at hrole

end MtlsRbac
