import CaddyPanel.Handlers.Portal
import CaddyPanel.Routes.Ownership
import CaddyPanel.Routes.RouteUpdate

/-!
# Editing a host in the admin panel (`HostsUpdate`)

The part of the form that decides which hostnames a route claims: domain, aliases, path prefix,
wildcard zone and the TLS settings that a wildcard alias excludes.
-/

namespace HostEdit

open List Runs
open Text (Str trimSpace toLower)
open Caddyapi (Idna wildcardHost)
open Ownership (isHostSeparator addedHosts matcherChangedForUpdate)

/-! ### Hostnames -/

def domainChar (c : Char) : Bool :=
  ('a' ≤ c && c ≤ 'z') || ('A' ≤ c && c ≤ 'Z') || ('0' ≤ c && c ≤ '9') || c = '-' || c = '.'

/-- `validDomain`; `isIP` is the test of `net.ParseIP`. -/
def validDomain (isIP : Str → Bool) (d : Str) : Bool :=
  d ≠ [] && d.length ≤ 253 && !isIP d && !(".." <:+: d) && d.contains '.' && d.all domainChar &&
    (d.splitOn '.').all fun label =>
      label ≠ [] && label.length ≤ 63 && label.head? ≠ some '-' && label.getLast? ≠ some '-'

inductive EditError where
  | caNotActive
  | zoneMustCoverDomain
  | noDNSProvider (zone : Str)
  | wildcardAliasNeedsZone (name : Str)
  | wildcardAliasNotAllowed (name zone : Str)
  | invalidAlias (name : Str)
  | aliasClash
  | domainRequired
  | invalidDomain
  | invalidPathPrefix
  | wildcardAliasWithTLS
  | wildcardAliasWithPath
  | wildcardAliasNeedsPlatformAdmin (name : Str)
  | domainClash
  /-- a field that says nothing about hostnames -/
  | otherField
  deriving DecidableEq

section Aliases

variable (idna : Idna) (isIP : Str → Bool)

def checkWildcardAlias (d zone : Str) : Except EditError Unit :=
  if zone = [] then .error (.wildcardAliasNeedsZone d)
  else if d ≠ wildcardHost zone || !validDomain isIP zone || !Caddyapi.validHostMatcher idna d then
    .error (.wildcardAliasNotAllowed d zone)
  else .ok ()

/-- One name of the list; `out` has the names so far. -/
def sanitizeAlias (primary zone : Str) (out : List Str) (p : Str) : Except EditError (List Str) :=
  let d := toLower (trimSpace p)
  if d = [] || d = primary || out.contains d then .ok out
  else if d.contains '*' then (checkWildcardAlias idna isIP d zone).map fun _ => out ++ [d]
  else if validDomain isIP d && Caddyapi.validHostMatcher idna d then .ok (out ++ [d])
  else .error (.invalidAlias p)

def sanitizeAliases (raw primary zone : Str) : Except EditError Str :=
  if trimSpace raw = [] then .ok []
  else
    (((raw.splitOnP isHostSeparator).filter (· ≠ [])).foldlM
      (sanitizeAlias idna isIP primary zone) []).map fun out => [','].intercalate out

end Aliases

/-- `wildcardAliasZone`. -/
def wildcardAliasZone (enabled : Bool) (zone : Str) : Str :=
  if enabled then zone else []

/-- `keepProvenHosts`. -/
def keepProvenHosts (proven next : Str) : Str :=
  [','].intercalate
    ((Ownership.splitHostCSV next).filter fun v => (Ownership.splitHostCSV proven).contains v)

/-! ### The edit -/

/-- A route with the columns that the API writes. -/
structure HostRow where
  base : Portal.Row
  columns : Routes.RouteUpdate.Columns

/-- The row as it is compiled. -/
def HostRow.row (h : HostRow) : Portal.Row :=
  { h.base with
    pathPrefix := h.columns.pathPrefix
    route := { h.base.route with requireClientCert := h.columns.requireClientCert } }

structure HostForm where
  domain : Str
  aliases : Str := []
  pathPrefix : Str := []
  wildcardEnabled : Bool := false
  wildcardZone : Str := []
  requireClientCert : Bool := false
  tlsPQOnly : Bool := false
  /-- the other columns -/
  columns : Routes.RouteUpdate.Columns
  /-- the other settings -/
  route : Caddyapi.Route := { id := [], hosts := [] }

/-- What the handler learns from the session and other tables. -/
structure EditEnv where
  platformAdmin : Bool := true
  caActive : Bool := true
  /-- a DNS provider has the name of the zone -/
  providerNamed : Bool := true
  aliasClash : Bool := false
  domainClash : Bool := false
  otherFieldsOk : Bool := true

def failIf (b : Bool) (e : EditError) : Except EditError Unit :=
  if b then .error e else .ok ()

/-- The zone covers the domain and has a provider, unless it is the stored one. -/
def checkWildcard (env : EditEnv) (form : HostForm) (h : HostRow) (domain zone : Str) :
    Except EditError Unit :=
  if form.wildcardEnabled then do
    failIf (zone = [] || (domain ≠ zone && !('.' :: zone).isSuffixOf domain)) .zoneMustCoverDomain
    failIf (!(h.base.wildcardEnabled && h.base.wildcardZone = zone) && !env.providerNamed)
      (.noDNSProvider zone)
  else .ok ()

/-- The prefix covers the root. -/
def rootPath (path : Str) : Bool :=
  path = [] || path = "/"

/-- The limits on a wildcard alias. -/
def checkWildcardAliases (env : EditEnv) (form : HostForm) (h : HostRow) (path aliases : Str) :
    Except EditError Unit := do
  failIf (aliases.contains '*' && (form.requireClientCert || form.tlsPQOnly)) .wildcardAliasWithTLS
  failIf (aliases.contains '*' && !rootPath path) .wildcardAliasWithPath
  match (addedHosts h.base.aliases aliases).find? fun a => "*.".toList.isPrefixOf a with
  | some a => failIf (!env.platformAdmin) (.wildcardAliasNeedsPlatformAdmin a)
  | none => return ()

/-- The columns that the edit writes. -/
def HostForm.apply (env : EditEnv) (form : HostForm) (h : HostRow) (domain path zone aliases : Str) :
    HostRow where
  base :=
    { h.base with
      domain := domain
      aliases := aliases
      aliasesVerified := if env.platformAdmin then aliases
        else keepProvenHosts h.base.aliasesVerified aliases
      domainVerified := h.base.domainVerified && (env.platformAdmin ||
        !matcherChangedForUpdate (toLower h.base.domain) h.columns.pathPrefix h.base.aliases domain
          path aliases)
      wildcardEnabled := form.wildcardEnabled
      wildcardZone := zone
      route := { form.route with tlsPQOnly := form.tlsPQOnly } }
  columns :=
    { form.columns with pathPrefix := path, requireClientCert := form.requireClientCert }

def hostsUpdate (idna : Idna) (isIP : Str → Bool) (env : EditEnv) (form : HostForm) (h : HostRow) :
    Except EditError HostRow := do
  let domain := trimSpace (toLower form.domain)
  let zone := toLower (trimSpace form.wildcardZone)
  failIf (form.requireClientCert && !env.caActive) .caNotActive
  checkWildcard env form h domain zone
  let aliases ← sanitizeAliases idna isIP form.aliases domain
    (wildcardAliasZone form.wildcardEnabled zone)
  failIf (aliases ≠ [] && env.aliasClash) .aliasClash
  failIf (domain = []) .domainRequired
  failIf (!validDomain isIP domain || !Caddyapi.validHostMatcher idna domain) .invalidDomain
  let path ← (Routes.RouteUpdate.normalizePath form.pathPrefix).mapError fun _ => .invalidPathPrefix
  checkWildcardAliases env form h path aliases
  failIf (matcherChangedForUpdate (toLower h.base.domain) h.columns.pathPrefix h.base.aliases domain
    path aliases && env.domainClash) .domainClash
  failIf (!env.otherFieldsOk) .otherField
  return form.apply env h domain path zone aliases

/-! ### Names that the form accepts -/

open Caddyapi (hostChar hostChar_facts)

/-- In lower case the characters of a domain are those of a matcher. -/
lemma hostChar_toLower {c : Char} (h : domainChar c.toLower) : hostChar c.toLower := by
  have hlt : c.toLower.toNat < 128 := by
    simp only [domainChar, Bool.or_eq_true, Bool.and_eq_true, decide_eq_true_eq] at h
    rcases h with (((h | h) | h) | h) | h
    · exact lt_of_le_of_lt (show c.toLower.toNat ≤ 'z'.toNat from h.2) (by decide)
    · exact lt_of_le_of_lt (show c.toLower.toNat ≤ 'Z'.toNat from h.2) (by decide)
    · exact lt_of_le_of_lt (show c.toLower.toNat ≤ '9'.toNat from h.2) (by decide)
    · rw [h]; decide
    · rw [h]; decide
  have hc : c.toNat < 128 := by
    by_contra hge
    have hself : c.toLower = c := by
      unfold Char.toLower
      rw [dif_neg]
      rintro ⟨-, hz⟩
      have hz' : c.toNat ≤ 90 := hz
      omega
    rw [hself] at hlt
    exact hge hlt
  have hall : ∀ n < 128, domainChar (Char.ofNat n).toLower →
      hostChar (Char.ofNat n).toLower := by decide
  have hn := hall c.toNat hc
  rw [Char.ofNat_toNat] at hn
  exact hn h

/-- A name that the alias list keeps. -/
structure CleanAlias (zone d : Str) : Prop where
  ne : d ≠ []
  chars : ∀ c ∈ d, hostChar c
  star : '*' ∈ d → zone ≠ [] ∧ d = wildcardHost zone

variable {idna : Idna} {isIP : Str → Bool}

variable {d s zone primary p a raw aliases : Str}

lemma domainChar_of_validDomain (h : validDomain isIP d) : ∀ c ∈ d, domainChar c := by
  simp only [validDomain, Bool.and_eq_true] at h
  exact all_eq_true.mp h.1.2

lemma hostChar_of_validDomain (h : validDomain isIP (toLower s)) : ∀ c ∈ toLower s, hostChar c := by
  intro c hc
  obtain ⟨c', -, rfl⟩ := mem_map.mp hc
  exact hostChar_toLower (domainChar_of_validDomain h _ hc)

lemma not_star_of_validDomain (h : validDomain isIP d) : '*' ∉ d := by
  intro hc
  exact absurd (domainChar_of_validDomain h '*' hc) (by decide)

lemma checkWildcardAlias_eq_ok (h : checkWildcardAlias idna isIP d zone = .ok ()) :
    zone ≠ [] ∧ d = wildcardHost zone ∧ validDomain isIP zone := by
  unfold checkWildcardAlias at h
  split_ifs at h with hzone hbad
  simp only [Bool.or_eq_true, decide_eq_true_eq, Bool.not_eq_true', not_or, ne_eq, not_not,
    Bool.not_eq_false] at hbad
  exact ⟨hzone, hbad.1.1, hbad.1.2⟩

lemma sanitizeAlias_clean {out out' : List Str} (hout : ∀ d ∈ out, CleanAlias zone d)
    (h : sanitizeAlias idna isIP primary zone out p = .ok out') : ∀ d ∈ out', CleanAlias zone d := by
  have happend : ∀ d, CleanAlias zone d → ∀ x ∈ out ++ [d], CleanAlias zone x := by
    intro d hd x hx
    rcases mem_append.mp hx with hx | hx
    · exact hout x hx
    · rwa [mem_singleton.mp hx]
  unfold sanitizeAlias at h
  dsimp only at h
  split_ifs at h with hskip hstar hvalid
  · cases h
    exact hout
  all_goals
    have hne : toLower (trimSpace p) ≠ [] := by
      rintro hnil
      simp [hnil] at hskip
  · obtain ⟨_, hcheck, rfl⟩ := map_eq_ok.mp h
    obtain ⟨hzone, hd, hvalid⟩ := checkWildcardAlias_eq_ok hcheck
    refine happend _ ⟨hne, fun c hc => ?_, fun _ => ⟨hzone, hd⟩⟩
    obtain ⟨c', -, rfl⟩ := mem_map.mp hc
    rw [hd] at hc
    -- the star, the dot and a name in lower case
    rcases mem_append.mp hc with hstar | hc
    · have : c'.toLower = '*' ∨ c'.toLower = '.' := by simpa using hstar
      rcases this with hc' | hc' <;> rw [hc'] <;> rfl
    · exact hostChar_toLower (domainChar_of_validDomain hvalid _ hc)
  · cases h
    rw [Bool.and_eq_true] at hvalid
    refine happend _ ⟨hne, hostChar_of_validDomain hvalid.1, fun hc => ?_⟩
    exact absurd hc (not_star_of_validDomain hvalid.1)

/-- The list that an accepted form is stored as. -/
lemma clean_of_sanitizeAliases (h : sanitizeAliases idna isIP raw primary zone = .ok aliases) :
    ∃ out, aliases = [','].intercalate out ∧ ∀ d ∈ out, CleanAlias zone d := by
  unfold sanitizeAliases at h
  split_ifs at h with hraw
  · cases h
    exact ⟨[], rfl, by simp⟩
  · obtain ⟨out, hfold, rfl⟩ := map_eq_ok.mp h
    exact ⟨out, rfl, foldlM_invariant (I := fun out => ∀ d ∈ out, CleanAlias zone d)
      (fun _ _ _ hclean hstep => sanitizeAlias_clean hclean hstep) (by simp) hfold⟩

lemma separator_of_hostChar {c : Char} (h : hostChar c) : [',', ' ', '\t', '\n', '\r', ';'].contains c = false := by
  have hall : ∀ n < 128, hostChar (Char.ofNat n) →
      [',', ' ', '\t', '\n', '\r', ';'].contains (Char.ofNat n) = false := by decide
  have hc := hall c.toNat (hostChar_facts h).2.2
  rw [Char.ofNat_toNat] at hc
  exact hc h

/-- The stored list is read back as it was joined. -/
lemma mem_of_mem_splitHosts {out : List Str} (hout : ∀ d ∈ out, CleanAlias zone d)
    (ha : a ∈ Portal.splitHosts ([','].intercalate out)) : a ∈ out := by
  obtain ⟨ha, hne⟩ := mem_filter.mp ha
  obtain ⟨x, hx, rfl⟩ := mem_map.mp ha
  rcases eq_or_ne out [] with rfl | hout'
  · obtain rfl : x = [] := by simpa using hx
    simp [trimSpace, toLower] at hne
  rw [Text.splitOnP_intercalate (by decide) hout' fun d hd c hc =>
    separator_of_hostChar ((hout d hd).chars c hc)] at hx
  have hchars := (hout x hx).chars
  rw [Text.trimSpace_eq_self fun c hc => (hostChar_facts (hchars c hc)).1,
    Text.toLower_eq_self fun c hc => (hostChar_facts (hchars c hc)).2.1]
  exact hx

/-- A star in the stored list stands in the wildcard of the zone. -/
lemma star_of_sanitizeAliases (h : sanitizeAliases idna isIP raw primary zone = .ok aliases) :
    ∀ a ∈ Portal.splitHosts aliases, '*' ∈ a → zone ≠ [] ∧ a = wildcardHost zone ∧ '*' ∈ aliases := by
  obtain ⟨out, rfl, hout⟩ := clean_of_sanitizeAliases h
  intro a ha hstar
  have ha' := mem_of_mem_splitHosts hout ha
  obtain ⟨hzone, hstar'⟩ := (hout a ha').star hstar
  exact ⟨hzone, hstar', Text.mem_intercalate ha' hstar⟩

/-! ### What an accepted edit leaves -/

lemma failIf_eq_ok {b : Bool} {e : EditError} {u : Unit} (h : failIf b e = .ok u) : b = false := by
  unfold failIf at h
  split_ifs at h with hb
  exact Bool.eq_false_iff.mpr hb

/-- The names, the path and the zone that an accepted edit has checked. -/
structure Accepted (idna : Idna) (isIP : Str → Bool) (env : EditEnv) (form : HostForm) (h h' : HostRow)
    (domain path zone aliases : Str) : Prop where
  valid : validDomain isIP domain
  sanitized : sanitizeAliases idna isIP form.aliases domain
    (wildcardAliasZone form.wildcardEnabled zone) = .ok aliases
  root : '*' ∈ aliases → rootPath path
  applied : h' = form.apply env h domain path zone aliases

lemma accepted_of_hostsUpdate {env : EditEnv} {form : HostForm} {h h' : HostRow}
    (hok : hostsUpdate idna isIP env form h = .ok h') :
    ∃ domain path zone aliases, Accepted idna isIP env form h h' domain path zone aliases := by
  obtain ⟨-, -, hok⟩ := bind_eq_ok.mp hok
  obtain ⟨-, -, hok⟩ := bind_eq_ok.mp hok
  obtain ⟨aliases, haliases, hok⟩ := bind_eq_ok.mp hok
  obtain ⟨-, -, hok⟩ := bind_eq_ok.mp hok
  obtain ⟨-, -, hok⟩ := bind_eq_ok.mp hok
  obtain ⟨_, hdomain, hok⟩ := bind_eq_ok.mp hok
  obtain ⟨path, -, hok⟩ := bind_eq_ok.mp hok
  obtain ⟨_, hwild, hok⟩ := bind_eq_ok.mp hok
  obtain ⟨-, -, hok⟩ := bind_eq_ok.mp hok
  obtain ⟨-, -, hok⟩ := bind_eq_ok.mp hok
  obtain ⟨-, -, hwild⟩ := bind_eq_ok.mp hwild
  obtain ⟨_, hpath, -⟩ := bind_eq_ok.mp hwild
  cases hok
  refine ⟨_, path, _, aliases, ?_, haliases, fun hstar => ?_, rfl⟩
  · simpa using (Bool.or_eq_false_iff.mp (failIf_eq_ok hdomain)).1
  · have hroot := failIf_eq_ok hpath
    simpa [hstar] using hroot

end HostEdit
