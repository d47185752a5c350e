import CaddyPanel.Caddyapi.BuildRoute
import CaddyPanel.Lib.Groups
import CaddyPanel.Lib.Paths

/-!
# Emission order (`EmissionOrder`)

The web server takes the first route that matches, so of two routes that share a host the narrower
one has to come first. Routes that can match one host are joined into a group, and every group is
sorted among the places its routes have.
-/

namespace Caddyapi

open List
open Text (Str trimSpace toLower)

def labels (h : Str) : List Str :=
  h.splitOn '.'

/-- `unicode.ToLower` and `idna.ToASCII`. A label that begins with `xn--` is decoded first, so that ASCII text is left
as it is only where it has none. -/
structure Idna where
  lower : Char → Char
  toASCII : Str → Option Str
  lower_ascii : ∀ c : Char, c.toNat < 128 → lower c = c.toLower
  lower_lower : ∀ c, lower (lower c) = lower c
  toASCII_ascii : ∀ s : Str, (∀ c ∈ s, c.toNat < 128) → (∀ l ∈ labels s, ¬ "xn--" <+: l) → toASCII s = some s

/-- A conversion that knows ASCII names only. -/
def asciiIdna : Idna where
  lower := Char.toLower
  toASCII := fun s => if s.all (·.toNat < 128) then some s else none
  lower_ascii := fun _ _ => rfl
  lower_lower := Text.of_toLower_ascii (by decide)
  toASCII_ascii := fun _ hascii _ => if_pos (all_eq_true.mpr fun c hc => decide_eq_true (hascii c hc))

variable (idna : Idna)

/-! ### Host matchers -/

/-- Trailing dots, but not the only character. -/
def stripRootDots (h : Str) : Str :=
  let rest := (h.reverse.dropWhile (· = '.')).reverse
  if rest = [] then h.take 1 else rest

/-- `NormalizeHost`. -/
def normalizeHost (h : Str) : Str :=
  let h := (trimSpace h).map idna.lower
  if h = [] then []
  else
    let h := stripRootDots h
    match idna.toASCII h with
    | some ascii => if ascii = [] then h else ascii.map idna.lower
    | none => h

def labelChar (c : Char) : Bool :=
  ('a' ≤ c && c ≤ 'z') || ('0' ≤ c && c ≤ '9') || c = '-' || c = '_'

def validLabel (label : Str) : Bool :=
  label = "*" ||
    (label ≠ [] && label.length ≤ 63 && !label.contains '*' && label.head? ≠ some '-' &&
      label.getLast? ≠ some '-' && label.all labelChar)

/-- `ValidHostMatcher`: a matcher whose shape the overlap test can reason about. -/
def validHostMatcher (h : Str) : Bool :=
  let raw := trimSpace h
  let n := normalizeHost idna h
  raw ≠ [] && raw.head? ≠ some '.' && raw.getLast? ≠ some '.' && n ≠ [] && n.length ≤ 253 &&
    !n.any (fun c => "\x7b\x7d:/ \t\r\n".toList.contains c) && (idna.toASCII n).isSome &&
    (labels n).all validLabel

/-- Label by label; a star takes any one label. -/
def labelsIntersect : List Str → List Str → Bool
  | [], [] => true
  | a :: as, b :: bs =>
    (a = "*" || b = "*" || toLower a = toLower b) && labelsIntersect as bs
  | _, _ => false

def hostPatternsIntersect (a b : Str) : Bool :=
  labelsIntersect (labels a) (labels b)

/-- `HostsOverlap`: what cannot be modelled overlaps everything. -/
def hostsOverlap (a b : Str) : Bool :=
  let a := normalizeHost idna a
  let b := normalizeHost idna b
  a = [] || b = [] || !validHostMatcher idna a || !validHostMatcher idna b ||
    hostPatternsIntersect a b

def hostSetIsCatchAll (hs : List Str) : Bool :=
  hs.all fun h => normalizeHost idna h = []

def hostSetsOverlap (a b : List Str) : Bool :=
  hostSetIsCatchAll idna a || hostSetIsCatchAll idna b || a.any fun x => b.any (hostsOverlap idna x)

/-! ### How the web server matches a host -/

def labelsMatch : List Str → List Str → Bool
  | [], [] => true
  | p :: ps, l :: ls => (p = "*" || toLower p = toLower l) && labelsMatch ps ls
  | _, _ => false

/-- `MatchHost` converts an entry to ASCII and compares it label by label. One that cannot be converted makes the server
refuse the whole configuration; here it takes nothing. -/
def entryMatches (host h : Str) : Bool :=
  (idna.toASCII h).any fun t => labelsMatch (labels t) (labels host)

/-- A set without hosts takes every request. -/
def hostMatches (hosts : List Str) (host : Str) : Bool :=
  hosts.isEmpty || hosts.any (entryMatches idna host)

/-- The panel compares the entry in the form in which the server does, and normalises it to no other one. -/
def Faithful (h : Str) : Prop :=
  (idna.toASCII h).map toLower = some (normalizeHost idna h) ∧ normalizeHost idna h ≠ [] ∧
    normalizeHost idna (normalizeHost idna h) = normalizeHost idna h

instance (h : Str) : Decidable (Faithful idna h) :=
  inferInstanceAs (Decidable (_ ∧ _ ∧ _))

variable {idna}

variable {as bs ls a b hosts ps : List Str} {host n h h' x y : Str} {c : Char} {hp : Helpers} {i j : Nat}

lemma labelsIntersect_of_match (ha : labelsMatch as ls) (hb : labelsMatch bs ls) : labelsIntersect as bs := by
  induction ls generalizing as bs with
  | nil =>
    cases as with
    | cons a as => cases ha
    | nil =>
      cases bs with
      | cons b bs => cases hb
      | nil => rfl
  | cons l ls ih =>
    cases as with
    | nil => cases ha
    | cons a as =>
      cases bs with
      | nil => cases hb
      | cons b bs =>
        simp only [labelsMatch, Bool.and_eq_true, Bool.or_eq_true, decide_eq_true_eq] at ha hb
        simp only [labelsIntersect, Bool.and_eq_true, Bool.or_eq_true, decide_eq_true_eq]
        refine ⟨?_, ih ha.2 hb.2⟩
        rcases ha.1 with ha | ha
        · exact .inl (.inl ha)
        rcases hb.1 with hb | hb
        · exact .inl (.inr hb)
        · exact .inr (ha.trans hb.symm)

lemma labelsMatch_toLower (ps ls : List Str) : labelsMatch (ps.map toLower) ls = labelsMatch ps ls := by
  have hstar : ∀ p : Str, toLower p = "*" ↔ p = "*" := by
    intro p
    refine ⟨fun h => ?_, fun h => by rw [h]; rfl⟩
    obtain ⟨c, rfl, hc⟩ := map_eq_singleton_iff.mp h
    have hsame := Text.of_toLower_ascii (f := (decide <| · = '*')) (by decide) c
    exact congrArg (fun c : Char => [c]) ((decide_eq_decide.mp hsame).mp hc)
  induction ps generalizing ls with
  | nil => rfl
  | cons p ps ih =>
    cases ls with
    | nil => rfl
    | cons l ls => simp only [map_cons, labelsMatch, hstar, Text.toLower_toLower, ih]

/-- What a faithful entry takes can be read off its normalised form. -/
lemma Faithful.entryMatches (hf : Faithful idna h) :
    entryMatches idna host h = labelsMatch (labels (normalizeHost idna h)) (labels host) := by
  obtain ⟨t, ht, hlower⟩ := Option.map_eq_some_iff.mp hf.1
  rw [Caddyapi.entryMatches, ht, ← hlower, Option.any_some, labels, labels, labels, Text.splitOn_toLower_dot,
    labelsMatch_toLower]

/-- Two matchers that take one host overlap. -/
theorem hostSetsOverlap_of_matches (hfa : ∀ h ∈ a, Faithful idna h) (hfb : ∀ h ∈ b, Faithful idna h)
    (ha : hostMatches idna a host) (hb : hostMatches idna b host) : hostSetsOverlap idna a b := by
  unfold hostSetsOverlap
  rcases Bool.or_eq_true_iff.mp ha with ha | ha
  · rw [isEmpty_iff.mp ha]
    rfl
  rcases Bool.or_eq_true_iff.mp hb with hb | hb
  · rw [isEmpty_iff.mp hb, Bool.or_assoc, Bool.or_comm]
    rfl
  obtain ⟨x, hx, hx'⟩ := any_eq_true.mp ha
  obtain ⟨y, hy, hy'⟩ := any_eq_true.mp hb
  rw [(hfa x hx).entryMatches] at hx'
  rw [(hfb y hy).entryMatches] at hy'
  rw [Bool.or_eq_true]
  refine .inr (any_eq_true.mpr ⟨x, hx, any_eq_true.mpr ⟨y, hy, ?_⟩⟩)
  unfold hostsOverlap hostPatternsIntersect
  dsimp only
  rw [labelsIntersect_of_match hx' hy', Bool.or_true]

lemma mem_stripRootDots (hc : c ∈ stripRootDots h) : c ∈ h := by
  unfold stripRootDots at hc
  dsimp only at hc
  split_ifs at hc
  · exact mem_of_mem_take hc
  · exact mem_reverse.mp ((dropWhile_sublist _).subset (mem_reverse.mp hc))

lemma lower_of_mem_normalizeHost (hc : c ∈ normalizeHost idna h) : c.toLower = c := by
  obtain ⟨d, rfl⟩ : ∃ d, idna.lower d = c := by
    unfold normalizeHost at hc
    dsimp only at hc
    split_ifs at hc with hnil
    · cases hc
    split at hc
    · split_ifs at hc
      · exact (mem_map.mp (mem_stripRootDots hc)).imp fun _ hd => hd.2
      · exact (mem_map.mp hc).imp fun _ hd => hd.2
    · exact (mem_map.mp (mem_stripRootDots hc)).imp fun _ hd => hd.2
  by_cases hascii : (idna.lower d).toNat < 128
  · rw [← idna.lower_ascii _ hascii, idna.lower_lower]
  · exact Text.char_toLower_of_le (Nat.le_of_not_lt hascii)

lemma labelsIntersect_comm (as bs : List Str) : labelsIntersect as bs = labelsIntersect bs as := by
  induction as generalizing bs with
  | nil => cases bs <;> rfl
  | cons a as ih =>
    cases bs with
    | nil => rfl
    | cons b bs =>
      rw [labelsIntersect, ih bs, Bool.or_comm (decide (a = _))]
      congr 2
      exact decide_eq_decide.mpr eq_comm

lemma labelsIntersect_self (as : List Str) : labelsIntersect as as := by
  induction as with
  | nil => rfl
  | cons a as ih => simp [labelsIntersect, ih]

lemma hostSetsOverlap_self (a : List Str) : hostSetsOverlap idna a a := by
  cases a with
  | nil => rfl
  | cons x a =>
    have hover : hostsOverlap idna x x := by
      unfold hostsOverlap hostPatternsIntersect
      dsimp only
      rw [labelsIntersect_self, Bool.or_true]
    simp [hostSetsOverlap, hover]

lemma hostsOverlap_comm (a b : Str) : hostsOverlap idna a b = hostsOverlap idna b a := by
  unfold hostsOverlap hostPatternsIntersect
  dsimp only
  rw [labelsIntersect_comm]
  cases decide (normalizeHost idna a = []) <;> cases decide (normalizeHost idna b = []) <;>
    cases validHostMatcher idna (normalizeHost idna a) <;>
    cases validHostMatcher idna (normalizeHost idna b) <;> rfl

lemma hostSetsOverlap_comm (a b : List Str) : hostSetsOverlap idna a b = hostSetsOverlap idna b a := by
  unfold hostSetsOverlap
  rw [Bool.or_comm (hostSetIsCatchAll idna a)]
  congr 1
  rw [Bool.eq_iff_iff]
  simp only [any_eq_true]
  constructor
  · rintro ⟨x, hx, y, hy, hover⟩
    exact ⟨y, hy, x, hx, hostsOverlap_comm x y ▸ hover⟩
  · rintro ⟨x, hx, y, hy, hover⟩
    exact ⟨y, hy, x, hx, hostsOverlap_comm x y ▸ hover⟩

/-- A character that a valid matcher can have. -/
def hostChar (c : Char) : Bool :=
  labelChar c || c = '*' || c = '.'

lemma hostChar_facts (h : hostChar c) : Text.isSpace c = false ∧ c.toLower = c ∧ c.toNat < 128 := by
  have hlt : c.toNat < 128 := by
    simp only [hostChar, labelChar, Bool.or_eq_true, Bool.and_eq_true, decide_eq_true_eq] at h
    rcases h with ((((h | h) | rfl) | rfl) | rfl) | rfl
    · exact lt_of_le_of_lt (show c.toNat ≤ 'z'.toNat from h.2) (by decide)
    · exact lt_of_le_of_lt (show c.toNat ≤ '9'.toNat from h.2) (by decide)
    all_goals decide
  have hall : ∀ n < 128, hostChar (Char.ofNat n) →
      Text.isSpace (Char.ofNat n) = false ∧ (Char.ofNat n).toLower = Char.ofNat n := by decide
  have hc := hall c.toNat hlt
  rw [Char.ofNat_toNat] at hc
  exact ⟨(hc h).1, (hc h).2, hlt⟩

lemma hostChar_of_valid (h : (labels n).all validLabel) : ∀ c ∈ n, hostChar c := by
  intro c hc
  rcases @Text.mem_of_mem_splitOn n c '.' hc with rfl | ⟨label, hlabel, hc⟩
  · rfl
  have hvalid := all_eq_true.mp h label hlabel
  simp only [validLabel, Bool.or_eq_true, Bool.and_eq_true, decide_eq_true_eq] at hvalid
  rcases hvalid with rfl | hvalid
  · obtain rfl : c = '*' := by simpa using hc
    rfl
  · have hchar := all_eq_true.mp hvalid.2 c hc
    unfold hostChar
    rw [hchar, Bool.true_or, Bool.true_or]

/-! ### Keys -/

/-- A longer prefix takes fewer requests. -/
def pathSpecificity (r : Route) : Nat :=
  let p := trimSpace r.pathPrefix
  if p = "/" then 0 else Text.byteLength p

def wildcardRank (r : Route) : Nat :=
  if r.hosts.any (·.contains '*') then 1 else 0

/-- Of equally specific routes one that denies or asks for credentials comes first. -/
def denyRank (hp : Helpers) (r : Route) : Nat :=
  if r.mtlsDenyOnMisconfig || r.portalDenyOnMisconfig then 0
  else if routeAuthGated hp r then 1
  else 2

/-- The comparison of the stable sort. -/
def emitsBefore (hp : Helpers) (a b : Route) : Bool :=
  if pathSpecificity a ≠ pathSpecificity b then pathSpecificity b < pathSpecificity a
  else if wildcardRank a ≠ wildcardRank b then wildcardRank a < wildcardRank b
  else denyRank hp a < denyRank hp b

/-- `a` may stand in front of `b`. -/
def EmitLe (hp : Helpers) (a b : Route) : Prop :=
  emitsBefore hp b a = false

instance (hp : Helpers) : DecidableRel (EmitLe hp) :=
  fun a b => inferInstanceAs (Decidable (emitsBefore hp b a = false))

lemma emitLe_iff {a b : Route} : EmitLe hp a b ↔
    pathSpecificity b < pathSpecificity a ∨ (pathSpecificity a = pathSpecificity b ∧
      (wildcardRank a < wildcardRank b ∨ (wildcardRank a = wildcardRank b ∧ denyRank hp a ≤ denyRank hp b))) := by
  unfold EmitLe emitsBefore
  split_ifs with hpath hwild
  · simp only [decide_eq_false_iff_not]
    omega
  · simp only [decide_eq_false_iff_not]
    omega
  · simp only [decide_eq_false_iff_not]
    omega

/-- What the sort reads of a route. -/
def emitKey (hp : Helpers) (r : Route) : Nat × Nat × Nat :=
  (pathSpecificity r, wildcardRank r, denyRank hp r)

lemma emitLe_congr {a a' b b' : Route} (ha : emitKey hp a = emitKey hp a')
    (hb : emitKey hp b = emitKey hp b') : EmitLe hp a b ↔ EmitLe hp a' b' := by
  simp only [emitKey, Prod.mk.injEq] at ha hb
  rw [emitLe_iff, emitLe_iff, ha.1, ha.2.1, ha.2.2, hb.1, hb.2.1, hb.2.2]

instance (hp : Helpers) : Std.Total (EmitLe hp) where
  total a b := by
    rw [emitLe_iff, emitLe_iff]
    omega

instance (hp : Helpers) : IsTrans Route (EmitLe hp) where
  trans a b c hab hbc := by
    rw [emitLe_iff] at hab hbc ⊢
    omega

/-! ### Groups -/

instance : Inhabited Route := ⟨{ id := [], hosts := [] }⟩

variable (idna)

/-- The host matchers of a route as the web server compares them. -/
def matcherHosts (r : Route) : List Str :=
  (r.hosts.map (normalizeHost idna)).filter (· ≠ [])

/-- Every matcher with the index of its route. -/
def hostEntries (routes : List Route) : List (Str × Nat) :=
  routes.zipIdx.flatMap fun ri => (matcherHosts idna ri.1).map fun h => (h, ri.2)

/-- The routes of a matcher, by index. -/
def byHost (routes : List Route) (h : Str) : List Nat :=
  ((hostEntries idna routes).filter fun e => e.1 = h).map Prod.snd

/-- A route without a host matcher takes every host. -/
def catchAllPairs (routes : List Route) : List (Nat × Nat) :=
  routes.zipIdx.flatMap fun ri =>
    if matcherHosts idna ri.1 = [] then (List.range routes.length).map fun j => (ri.2, j) else []

def sameHostPairs (routes : List Route) (hosts : List Str) : List (Nat × Nat) :=
  hosts.flatMap fun h =>
    match byHost idna routes h with
    | [] => []
    | i :: js => js.map fun j => (i, j)

/-- Distinct matchers that take one host: a wildcard covers concrete names. -/
def overlapPairs (routes : List Route) : List Str → List (Nat × Nat)
  | [] => []
  | h :: hosts =>
    ((hosts.filter (hostsOverlap idna h)).map fun h' =>
      ((byHost idna routes h).headD 0, (byHost idna routes h').headD 0)) ++
      overlapPairs routes hosts

/-- The root of each route's group. -/
def groupOf (routes : List Route) : Nat → Nat :=
  let hosts := ((hostEntries idna routes).map Prod.fst).eraseDups
  Groups.joinAll id
    (catchAllPairs idna routes ++ sameHostPairs idna routes hosts ++ overlapPairs idna routes hosts)

/-- `EmissionOrder`. -/
def emissionOrder (hp : Helpers) (routes : List Route) : List Nat :=
  Groups.order (groupOf idna routes)
    (fun i j => EmitLe hp (routes.getD i default) (routes.getD j default)) routes.length

def sortRoutesForEmission (hp : Helpers) (routes : List Route) : List Route :=
  (emissionOrder idna hp routes).map fun i => routes.getD i default

variable {idna} {routes : List Route}

lemma mem_hostEntries : (h, i) ∈ hostEntries idna routes ↔
    ∃ hi : i < routes.length, h ∈ matcherHosts idna routes[i] := by
  unfold hostEntries
  simp only [mem_flatMap, mem_map, Prod.mk.injEq, Prod.exists, mem_zipIdx_iff_getElem?]
  constructor
  · rintro ⟨r, k, hk, h', hh', rfl, rfl⟩
    obtain ⟨hlt, rfl⟩ := List.getElem?_eq_some_iff.mp hk
    exact ⟨hlt, hh'⟩
  · rintro ⟨hi, hh⟩
    exact ⟨routes[i], i, getElem?_eq_getElem hi, h, hh, rfl, rfl⟩

lemma mem_byHost : i ∈ byHost idna routes h ↔ (h, i) ∈ hostEntries idna routes := by
  simp [byHost]

/-- The routes of one matcher are in the group of the first of them. -/
lemma groupOf_byHost (hi : i ∈ byHost idna routes h) :
    groupOf idna routes i = groupOf idna routes ((byHost idna routes h).headD 0) := by
  cases hb : byHost idna routes h with
  | nil =>
    rw [hb] at hi
    cases hi
  | cons k js =>
    rw [hb] at hi
    rcases mem_cons.mp hi with rfl | hj
    · rfl
    symm
    apply Groups.joinAll_of_mem
    refine mem_append_left _ (mem_append_right _ (mem_flatMap.mpr ⟨h, ?_, ?_⟩))
    · rw [mem_eraseDups]
      have hmem : i ∈ byHost idna routes h := hb ▸ mem_cons_of_mem _ hj
      exact mem_map.mpr ⟨_, mem_byHost.mp hmem, rfl⟩
    · rw [hb]
      exact mem_map.mpr ⟨i, hj, rfl⟩

lemma mem_overlapPairs (hh : h ∈ hosts) (hh' : h' ∈ hosts) (hne : h ≠ h') (hover : hostsOverlap idna h h' = true) :
    ((byHost idna routes h).headD 0, (byHost idna routes h').headD 0) ∈
        overlapPairs idna routes hosts ∨
      ((byHost idna routes h').headD 0, (byHost idna routes h).headD 0) ∈ overlapPairs idna routes hosts := by
  induction hosts with
  | nil => cases hh
  | cons k hosts ih =>
    rcases mem_cons.mp hh with rfl | hmem
    · rcases mem_cons.mp hh' with rfl | hmem'
      · exact absurd rfl hne
      · exact .inl (mem_append_left _ (mem_map.mpr ⟨h', mem_filter.mpr ⟨hmem', hover⟩, rfl⟩))
    rcases mem_cons.mp hh' with rfl | hmem'
    · rw [hostsOverlap_comm] at hover
      exact .inr (mem_append_left _ (mem_map.mpr ⟨h, mem_filter.mpr ⟨hmem, hover⟩, rfl⟩))
    · rcases ih hmem hmem' with h | h
      · exact .inl (mem_append_right _ h)
      · exact .inr (mem_append_right _ h)

/-- The panel compares every entry of the routes as the server does. -/
def FaithfulHosts (idna : Idna) (routes : List Route) : Prop :=
  ∀ r ∈ routes, ∀ h ∈ r.hosts, Faithful idna h

lemma groupOf_of_catchAll (hi : i < routes.length) (hj : j < routes.length)
    (h : hostSetIsCatchAll idna routes[i].hosts) : groupOf idna routes i = groupOf idna routes j := by
  apply Groups.joinAll_of_mem
  have hnil : matcherHosts idna routes[i] = [] := by
    simpa [matcherHosts, hostSetIsCatchAll] using h
  refine mem_append_left _ (mem_append_left _ (mem_flatMap.mpr ⟨(routes[i], i), ?_, ?_⟩))
  · rw [mem_zipIdx_iff_getElem?]
    exact getElem?_eq_getElem hi
  · rw [if_pos hnil]
    exact mem_map.mpr ⟨j, mem_range.mpr hj, rfl⟩

/-- Two matchers that overlap as they are compared join their routes. -/
lemma groupOf_of_hostsOverlap (hi : i < routes.length) (hj : j < routes.length)
    (hx : x ∈ routes[i].hosts) (hy : y ∈ routes[j].hosts) (hxne : normalizeHost idna x ≠ [])
    (hyne : normalizeHost idna y ≠ []) (hover : hostsOverlap idna (normalizeHost idna x) (normalizeHost idna y)) :
    groupOf idna routes i = groupOf idna routes j := by
  have hmem : ∀ {k : Nat} (hk : k < routes.length) {z : Str}, z ∈ routes[k].hosts →
      normalizeHost idna z ≠ [] → (normalizeHost idna z, k) ∈ hostEntries idna routes := by
    intro k hk z hz hne
    exact mem_hostEntries.mpr ⟨hk, mem_filter.mpr ⟨mem_map_of_mem hz, by simpa using hne⟩⟩
  have hxi := hmem hi hx hxne
  have hyj := hmem hj hy hyne
  rw [groupOf_byHost (mem_byHost.mpr hxi), groupOf_byHost (mem_byHost.mpr hyj)]
  by_cases heq : normalizeHost idna x = normalizeHost idna y
  · rw [heq]
  have hdedup : ∀ {k : Nat} {z : Str}, (z, k) ∈ hostEntries idna routes →
      z ∈ ((hostEntries idna routes).map Prod.fst).eraseDups := fun hz =>
    mem_eraseDups.mpr (mem_map.mpr ⟨_, hz, rfl⟩)
  rcases @mem_overlapPairs idna _ _ _ routes (hdedup hxi) (hdedup hyj) heq hover with h | h
  · exact Groups.joinAll_of_mem (mem_append_right _ h)
  · exact (Groups.joinAll_of_mem (mem_append_right _ h)).symm

/-- Routes whose matchers overlap are in one group. -/
theorem groupOf_of_overlap (hi : i < routes.length) (hj : j < routes.length)
    (hfi : ∀ h ∈ routes[i].hosts, Faithful idna h) (hfj : ∀ h ∈ routes[j].hosts, Faithful idna h)
    (h : hostSetsOverlap idna routes[i].hosts routes[j].hosts) : groupOf idna routes i = groupOf idna routes j := by
  unfold hostSetsOverlap at h
  rw [Bool.or_eq_true, Bool.or_eq_true] at h
  rcases h with (h | h) | h
  · exact groupOf_of_catchAll hi hj h
  · exact (groupOf_of_catchAll hj hi h).symm
  obtain ⟨x, hx, h⟩ := any_eq_true.mp h
  obtain ⟨y, hy, hover⟩ := any_eq_true.mp h
  obtain ⟨-, hxne, hxx⟩ := hfi x hx
  obtain ⟨-, hyne, hyy⟩ := hfj y hy
  refine groupOf_of_hostsOverlap hi hj hx hy hxne hyne ?_
  unfold hostsOverlap at hover ⊢
  rwa [hxx, hyy]

/-- Routes that take one host are in one group. -/
lemma groupOf_of_hostMatches (hi : i < routes.length) (hj : j < routes.length)
    (hfi : ∀ h ∈ routes[i].hosts, Faithful idna h) (hfj : ∀ h ∈ routes[j].hosts, Faithful idna h)
    (hmi : hostMatches idna routes[i].hosts host) (hmj : hostMatches idna routes[j].hosts host) :
    groupOf idna routes i = groupOf idna routes j :=
  groupOf_of_overlap hi hj hfi hfj (hostSetsOverlap_of_matches hfi hfj hmi hmj)

lemma filter_sortRoutesForEmission_of_groupOf {m : Route → Bool} (hm : ∀ i (hi : i < routes.length) j
      (hj : j < routes.length), m routes[i] → m routes[j] → groupOf idna routes i = groupOf idna routes j) :
    (sortRoutesForEmission idna hp routes).filter m = (routes.filter m).insertionSort (EmitLe hp) := by
  apply Groups.filter_sortGroups (groupOf idna routes) (EmitLe hp)
  intro i hi j hj hmi hmj
  rw [getD_eq_getElem _ _ hi] at hmi
  rw [getD_eq_getElem _ _ hj] at hmj
  exact hm i hi j hj hmi hmj

/-- Seen through a predicate whose routes overlap pairwise, the emission order is the order of the
keys, and of the input where those agree. -/
theorem filter_sortRoutesForEmission {m : Route → Bool} (hfaithful : FaithfulHosts idna routes)
    (hm : ∀ a ∈ routes, ∀ b ∈ routes, m a → m b → hostSetsOverlap idna a.hosts b.hosts) :
    (sortRoutesForEmission idna hp routes).filter m = (routes.filter m).insertionSort (EmitLe hp) :=
  filter_sortRoutesForEmission_of_groupOf fun _ hi _ hj hmi hmj =>
    groupOf_of_overlap hi hj (hfaithful _ (getElem_mem hi)) (hfaithful _ (getElem_mem hj))
      (hm _ (getElem_mem hi) _ (getElem_mem hj) hmi hmj)

lemma sortRoutesForEmission_perm : (sortRoutesForEmission idna hp routes).Perm routes :=
  Groups.sortGroups_perm (groupOf idna routes) (EmitLe hp) routes

lemma mem_sortRoutesForEmission {r : Route} : r ∈ sortRoutesForEmission idna hp routes ↔ r ∈ routes :=
  Groups.mem_sortGroups (groupOf idna routes) (EmitLe hp)

end Caddyapi
