import CaddyPanel.Lib.Url

/-!
# URLs that are written and read again

The path of a URL in Go's `net/url` is kept decoded, with the text it was read from where the two do not determine
each other. A client writes it into the request line, and the server there decodes it once more.
-/

namespace Url

open List Text

/-- `shouldEscape` of a byte in a path. -/
def shouldEscape (c : Char) : Bool :=
  !(isLetter c || c.isDigit || "-_.~$&+,/:;=@".toList.contains c)

/-- A digit of `upperhex`. -/
def hexDigit (n : Nat) : Char :=
  "0123456789ABCDEF".toList.getD n '0'

def escapeChar (c : Char) : Str :=
  if shouldEscape c then ['%', hexDigit (c.toNat / 16), hexDigit (c.toNat % 16)] else [c]

/-- `url.PathEscape` of a whole path. -/
def escape (s : Str) : Str :=
  s.flatMap escapeChar

def validEncoded (s : Str) : Bool :=
  s.all fun c => "!$&'()*+,;=:@[]%".toList.contains c || !shouldEscape c

/-- The fields of a `url.URL` that go into the request line. -/
structure Location where
  path : Str
  rawPath : Str
  rawQuery : Str
  forceQuery : Bool
  deriving DecidableEq

/-- `setPath`: the decoded path, and the text where it is not the default encoding. -/
def setPath (p : Str) : Option (Str × Str) :=
  (pathUnescape p).map fun path => (path, if p = escape path then [] else p)

/-- `url.Parse` of a text with a scheme and an authority. -/
def parseAbsolute (authorityOk : Str → Bool) (raw : Str) : Option Location :=
  if containsCTLByte (before '#' raw) then none
  else
    (getScheme (before '#' raw)).bind fun (scheme, rest) =>
      let forceQuery := rest.getLast? = some '?' && rest.count '?' = 1
      let hier := before '?' rest
      if scheme ≠ [] && "//".toList.isPrefixOf hier && authorityOk (before '/' (hier.drop 2)) then
        (setPath ((hier.drop 2).dropWhile (· ≠ '/'))).bind fun (path, rawPath) =>
          -- the fragment is dropped, but it has to decode
          if (pathUnescape (behind '#' raw)).isSome then some ⟨path, rawPath, behind '?' rest, forceQuery⟩ else none
      else none

def escapedPath (u : Location) : Str :=
  if u.rawPath ≠ [] && validEncoded u.rawPath && pathUnescape u.rawPath = some u.path then u.rawPath
  else if u.path = "*" then "*"
  else escape u.path

def requestURI (u : Location) : Str :=
  (if escapedPath u = [] then "/".toList else escapedPath u) ++
    if u.forceQuery || u.rawQuery ≠ [] then '?' :: u.rawQuery else []

/-- A text stands for bytes. -/
def IsBytes (s : Str) : Prop :=
  ∀ c ∈ s, c.toNat < 256

instance (s : Str) : Decidable (IsBytes s) :=
  List.decidableBAll (fun c : Char => c.toNat < 256) s

variable {s t scheme rest raw path base body : Str} {c : Char} {authorityOk : Str → Bool} {u : Location}

lemma before_append (h : c ∉ s) (t : Str) : before c (s ++ t) = s ++ before c t :=
  takeWhile_append_of_pos fun d hd => by simpa using fun hdc : d = c => h (hdc ▸ hd)

lemma before_cons (c : Char) (t : Str) : before c (c :: t) = [] := by
  simp [before]

lemma before_of_not_mem (h : c ∉ s) : before c s = s := by
  simpa [before] using before_append h []

lemma before_append_of_mem (h : c ∈ s) (t : Str) : before c (s ++ t) = before c s := by
  obtain ⟨u, v, rfl, hu⟩ := eq_append_cons_of_mem h
  rw [append_assoc, before_append hu, before_append hu, cons_append, before_cons, before_cons]

/-! ### Decoding -/

lemma pathUnescape_cons (hc : c ≠ '%') (s : Str) : pathUnescape (c :: s) = (pathUnescape s).map (c :: ·) := by
  rw [pathUnescape]
  · rintro a b s rfl
    exact absurd rfl hc
  · exact hc

lemma pathUnescape_append_of_not_mem (h : '%' ∉ s) (t : Str) :
    pathUnescape (s ++ t) = (pathUnescape t).map (s ++ ·) := by
  induction s with
  | nil => simp
  | cons c s ih =>
    rw [mem_cons, not_or] at h
    rw [cons_append, pathUnescape_cons (Ne.symm h.1), ih h.2, Option.map_map]
    rfl

/-- A decoded text is shorter where something was decoded. -/
lemma length_le_of_pathUnescape (h : pathUnescape s = some t) :
    t.length ≤ s.length ∧ ('%' ∈ s → t.length < s.length) := by
  induction s using pathUnescape.induct generalizing t with
  | case1 =>
    cases h
    simp
  | case2 a b s hhex ih =>
    rw [pathUnescape, if_pos hhex] at h
    obtain ⟨t, ht, rfl⟩ := Option.map_eq_some_iff.mp h
    have := (ih ht).1
    simp only [length_cons]
    omega
  | case3 a b s hhex =>
    rw [pathUnescape, if_neg hhex] at h
    cases h
  | case4 s hs =>
    rw [pathUnescape] at h
    · cases h
    · exact hs
  | case5 c s hc hc' ih =>
    have hpercent : c ≠ '%' := hc'
    rw [pathUnescape_cons hpercent] at h
    obtain ⟨t, ht, rfl⟩ := Option.map_eq_some_iff.mp h
    obtain ⟨hle, hlt⟩ := ih ht
    simp only [mem_cons]
    refine ⟨Nat.succ_le_succ hle, ?_⟩
    rintro (rfl | hmem)
    · exact absurd rfl hpercent
    · exact Nat.succ_lt_succ (hlt hmem)

lemma unhex_lt (h : isHex c) : unhex c < 16 := by
  simp only [isHex, Bool.or_eq_true, Bool.and_eq_true, decide_eq_true_eq] at h
  have hle : ∀ a b : Char, a ≤ b ↔ a.toNat ≤ b.toNat := fun a b => Iff.rfl
  simp only [hle, Char.reduceToNat] at h
  simp only [unhex, hle, Char.reduceToNat]
  split <;> [skip; split] <;> omega

lemma isBytes_pathUnescape (hs : IsBytes s) (h : pathUnescape s = some t) : IsBytes t := by
  induction s using pathUnescape.induct generalizing t with
  | case1 =>
    cases h
    exact hs
  | case2 a b s hhex ih =>
    rw [pathUnescape, if_pos hhex] at h
    obtain ⟨t, ht, rfl⟩ := Option.map_eq_some_iff.mp h
    rw [Bool.and_eq_true] at hhex
    refine forall_mem_cons.mpr ⟨?_, ih (fun c hc => hs c (by simp [hc])) ht⟩
    have hbyte : 16 * unhex a + unhex b < 256 := by
      have := unhex_lt hhex.1
      have := unhex_lt hhex.2
      omega
    have hvalid : Nat.isValidChar (16 * unhex a + unhex b) := .inl (by omega)
    rw [Char.ofNat, dif_pos hvalid]
    exact hbyte
  | case3 a b s hhex =>
    rw [pathUnescape, if_neg hhex] at h
    cases h
  | case4 s hshort =>
    rw [pathUnescape] at h
    · cases h
    · exact hshort
  | case5 c s hc hc' ih =>
    have hpercent : c ≠ '%' := hc'
    rw [pathUnescape_cons hpercent] at h
    obtain ⟨t, ht, rfl⟩ := Option.map_eq_some_iff.mp h
    obtain ⟨hbyte, hrest⟩ := forall_mem_cons.mp hs
    exact forall_mem_cons.mpr ⟨hbyte, ih hrest ht⟩

lemma schemeFrom_isSuffix (h : schemeFrom s = some (scheme, rest)) : rest <:+ s := by
  induction s generalizing scheme with
  | nil => cases h
  | cons c s ih =>
    simp only [schemeFrom] at h
    split at h
    · cases h
      exact suffix_cons c _
    split at h
    · obtain ⟨⟨sch, r⟩, hr, hpair⟩ := Option.map_eq_some_iff.mp h
      cases hpair
      exact (ih hr).trans (suffix_cons c s)
    · cases h

lemma getScheme_isSuffix (h : getScheme s = some (scheme, rest)) : rest <:+ s := by
  cases s with
  | nil =>
    cases h
    exact suffix_refl _
  | cons c s =>
    simp only [getScheme] at h
    split at h
    · cases h
    split at h
    · split at h
      · next hscheme =>
        cases h
        exact (schemeFrom_isSuffix hscheme).trans (suffix_cons c s)
      · cases h
        exact suffix_refl _
    · cases h
      exact suffix_refl _

lemma isBytes_parseRequestURI (hraw : IsBytes raw)
    (h : parseRequestURI authorityOk raw = some path) : IsBytes path := by
  simp only [parseRequestURI] at h
  split at h
  · cases h
  split at h
  · cases h
    exact hraw
  obtain ⟨⟨scheme, rest⟩, hscheme, h⟩ := Option.bind_eq_some_iff.mp h
  have hrest : IsBytes (before '?' rest) := fun c hc =>
    hraw c ((getScheme_isSuffix hscheme).subset ((before_isPrefix '?' rest).subset hc))
  split at h
  · split at h
    · cases h
    · cases h
      exact nofun
  · split at h
    · split at h
      · refine isBytes_pathUnescape (fun c hc => hrest c ?_) h
        exact mem_of_mem_drop ((dropWhile_suffix _).subset hc)
      · cases h
    · exact isBytes_pathUnescape hrest h

/-! ### Encoding -/

lemma hexDigit_spec : ∀ n < 16, isHex (hexDigit n) ∧ unhex (hexDigit n) = n := by
  decide +kernel

lemma pathUnescape_escape (h : IsBytes s) : pathUnescape (escape s) = some s := by
  induction s with
  | nil => rfl
  | cons c s ih =>
    have hrest := ih fun d hd => h d (mem_cons_of_mem c hd)
    change pathUnescape (escapeChar c ++ escape s) = _
    by_cases hc : shouldEscape c
    · have hlt : c.toNat < 256 := h c mem_cons_self
      obtain ⟨hhi, hhi'⟩ := hexDigit_spec (c.toNat / 16) (by omega)
      obtain ⟨hlo, hlo'⟩ := hexDigit_spec (c.toNat % 16) (by omega)
      have hvalue : 16 * (c.toNat / 16) + c.toNat % 16 = c.toNat := by omega
      rw [escapeChar, if_pos hc]
      simp only [cons_append, nil_append, pathUnescape, hhi, hlo, hhi', hlo', hvalue, hrest]
      simp
    · have hpercent : c ≠ '%' := by
        rintro rfl
        exact hc (by decide)
      rw [escapeChar, if_neg hc, singleton_append, pathUnescape_cons hpercent, hrest]
      rfl

lemma validEncoded_escape (h : IsBytes s) : validEncoded (escape s) := by
  have hdigit : ∀ n < 16, shouldEscape (hexDigit n) = false := by decide +kernel
  simp only [validEncoded, escape, all_flatMap, all_eq_true]
  intro c hc d hd
  have hlt : c.toNat < 256 := h c hc
  simp only [escapeChar] at hd
  split at hd
  · simp only [mem_cons, not_mem_nil, or_false] at hd
    rcases hd with rfl | rfl | rfl
    · rfl
    · simp [hdigit (c.toNat / 16) (by omega)]
    · simp [hdigit (c.toNat % 16) (by omega)]
  · next hc =>
    cases mem_singleton.mp hd
    simp [hc]

/-- An encoded path has no query in it and no control byte. -/
lemma validEncoded_spec (h : validEncoded s) : '?' ∉ s ∧ containsCTLByte s = false := by
  have hchar : ∀ c ∈ s, ("!$&'()*+,;=:@[]%".toList.contains c || !shouldEscape c) := all_eq_true.mp h
  constructor
  · intro hmem
    exact absurd (hchar '?' hmem) (by decide)
  have hctl : ∀ n < 128, n < 0x20 ∨ n = 0x7f →
      ("!$&'()*+,;=:@[]%".toList.contains (Char.ofNat n) || !shouldEscape (Char.ofNat n)) = false := by
    decide +kernel
  refine any_eq_false.mpr fun c hc hctl' => ?_
  have hc' : c.toNat < 0x20 ∨ c.toNat = 0x7f := by simpa using hctl'
  have := hctl c.toNat (by omega) hc'
  rw [Char.ofNat_toNat, hchar c hc] at this
  cases this

/-- What the client writes for a path. -/
lemma escapedPath_spec (hbytes : IsBytes u.path) (hrooted : u.path.head? = some '/')
    (hraw : u.rawPath = [] ∨ u.rawPath.head? = some '/') :
    (escapedPath u).head? = some '/' ∧ validEncoded (escapedPath u) ∧ pathUnescape (escapedPath u) = some u.path := by
  obtain ⟨p, hp⟩ : ∃ p, u.path = '/' :: p := head?_eq_some_iff.mp hrooted
  simp only [escapedPath]
  split
  · next h =>
    simp only [Bool.and_eq_true, decide_eq_true_eq] at h
    obtain ⟨⟨hne, hvalid⟩, hdecode⟩ := h
    exact ⟨hraw.resolve_left hne, hvalid, hdecode⟩
  split
  · next h =>
    rw [hp] at h
    cases h
  · refine ⟨?_, validEncoded_escape hbytes, pathUnescape_escape hbytes⟩
    rw [hp]
    rfl

/-- The server that gets the request decodes the path that the client has. -/
theorem parseRequestURI_requestURI (authorityOk : Str → Bool) (hbytes : IsBytes u.path)
    (hrooted : u.path.head? = some '/') (hraw : u.rawPath = [] ∨ u.rawPath.head? = some '/')
    (hquery : containsCTLByte u.rawQuery = false) : parseRequestURI authorityOk (requestURI u) = some u.path := by
  obtain ⟨hhead, hvalid, hdecode⟩ := escapedPath_spec hbytes hrooted hraw
  obtain ⟨e, he⟩ := head?_eq_some_iff.mp hhead
  obtain ⟨hquestion, hctl⟩ := validEncoded_spec hvalid
  rw [he] at hquestion hctl hdecode
  obtain ⟨q, hq, hqctl, hqbefore⟩ : ∃ q, requestURI u = '/' :: e ++ q ∧ containsCTLByte q = false ∧
      before '?' q = [] := by
    refine ⟨_, by rw [requestURI, he, if_neg (cons_ne_nil _ _)], ?_⟩
    split
    · exact ⟨by simpa [containsCTLByte] using hquery, before_cons _ _⟩
    · exact ⟨rfl, rfl⟩
  have hbefore : before '?' ('/' :: e ++ q) = '/' :: e := by
    rw [before_append hquestion, hqbefore, append_nil]
  have hctl' : containsCTLByte ('/' :: e ++ q) = false := by
    simp_all [containsCTLByte]
  have hscheme : getScheme ('/' :: e ++ q) = some ([], '/' :: e ++ q) := by
    simp [getScheme, isLetter]
  have hstar : '/' :: e ++ q ≠ "*".toList := by simp
  have hslash : "/".toList.isPrefixOf ('/' :: e) := rfl
  rw [hq, parseRequestURI, hctl', hscheme]
  simp only [Bool.false_or, cons_append, isEmpty_cons, Bool.false_eq_true] at hstar hbefore ⊢
  simp only [if_neg hstar, Option.bind_some, hbefore, hslash, hdecode, not_true_eq_false, if_false, ne_eq,
    false_and]

/-! ### A path behind an origin -/

/-- A scheme and an authority, without a path. -/
def IsOrigin (base : Str) : Prop :=
  ∃ authority, base = "http://" ++ authority ∧ ∀ c ∈ authority, c ≠ '/' ∧ c ≠ '?' ∧ c ≠ '#'

/-- What a text behind an origin is read as. -/
lemma parseAbsolute_origin (hbase : IsOrigin base)
    (hbody : body.head? = some '/') (h : parseAbsolute authorityOk (base ++ body) = some u) :
    pathUnescape (before '?' (before '#' body)) = some u.path ∧
      (u.rawPath = [] ∨ u.rawPath = before '?' (before '#' body)) ∧ containsCTLByte u.rawQuery = false := by
  obtain ⟨a, rfl, ha⟩ := hbase
  have hhash : before '#' ("http://" ++ a ++ body) = "http://" ++ a ++ before '#' body := by
    refine before_append ?_ body
    simpa using fun hmem => (ha '#' hmem).2.2 rfl
  have hscheme : ∀ s : Str, getScheme ("http://".toList ++ s) = some ("http".toList, "//".toList ++ s) := fun s => rfl
  have hquestion : before '?' ("//" ++ (a ++ before '#' body)) = "//" ++ a ++ before '?' (before '#' body) := by
    rw [← append_assoc]
    refine before_append ?_ _
    simpa using fun hmem => (ha '?' hmem).2.1 rfl
  rw [parseAbsolute, hhash, append_assoc, hscheme] at h
  simp only [Option.bind_some, hquestion] at h
  have hpath : (("//" ++ a ++ before '?' (before '#' body)).drop 2).dropWhile (· ≠ '/') =
      before '?' (before '#' body) := by
    obtain ⟨b, rfl⟩ := head?_eq_some_iff.mp hbody
    have ha' : ∀ c ∈ a, decide (c ≠ '/') := fun c hc => decide_eq_true (ha c hc).1
    change (a ++ before '?' (before '#' ('/' :: b))).dropWhile (· ≠ '/') = _
    rw [dropWhile_append_of_pos ha']
    simp [before]
  rw [hpath] at h
  split at h
  · cases h
  rename_i hctl
  split at h
  · obtain ⟨⟨path, rawPath⟩, hset, h⟩ := Option.bind_eq_some_iff.mp h
    obtain ⟨path', hdecode, hpair⟩ := Option.map_eq_some_iff.mp hset
    cases hpair
    split at h
    · cases h
      refine ⟨hdecode, ?_, ?_⟩
      · split
        · exact .inl rfl
        · exact .inr rfl
      · refine any_eq_false.mpr fun c hc => ?_
        have hrest : c ∈ "//" ++ (a ++ before '#' body) :=
          (dropWhile_suffix _).subset (mem_of_mem_tail hc)
        exact any_eq_false.mp (Bool.eq_false_iff.mpr hctl) c (mem_append_right "http:" hrest)
    · cases h
  · cases h

/-- Behind an origin the path that the server there decodes is the one that was read. -/
theorem upstream_origin (hbase : IsOrigin base) (hbody : body.head? = some '/') (hbytes : IsBytes body)
    (h : parseAbsolute authorityOk (base ++ body) = some u) :
    ∃ p, pathUnescape (before '?' (before '#' body)) = some p ∧
      parseRequestURI authorityOk (requestURI u) = some p := by
  obtain ⟨hdecode, hraw, hquery⟩ := parseAbsolute_origin hbase hbody h
  obtain ⟨b, rfl⟩ := head?_eq_some_iff.mp hbody
  have hcons : before '?' (before '#' ('/' :: b)) = '/' :: before '?' (before '#' b) := by simp [before]
  refine ⟨u.path, hdecode, parseRequestURI_requestURI authorityOk ?_ ?_ ?_ hquery⟩
  · refine isBytes_pathUnescape (fun c hc => hbytes c ?_) hdecode
    exact (before_isPrefix _ _).subset ((before_isPrefix _ _).subset hc)
  · obtain ⟨p, -, hp⟩ := Option.map_eq_some_iff.mp hdecode
    rw [← hp, head?_cons]
  · refine hraw.imp_right fun hraw => ?_
    rw [hraw, hcons, head?_cons]

end Url
