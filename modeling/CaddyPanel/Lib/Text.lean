import Mathlib.Algebra.Group.Int.Defs
import Mathlib.Algebra.GroupWithZero.Nat
import Mathlib.Data.List.DropRight
import Mathlib.Data.List.Infix

/-!
# Text

Strings are lists of characters. The operations are those of Go's `strings` package that the panel
uses.
-/

namespace Text

open List

abbrev Str := List Char

instance : LawfulBEq Str := inferInstance

/-- A literal stands for its characters. -/
instance : Coe String Str := ⟨String.toList⟩

/-- `unicode.IsSpace`. -/
def isSpace (c : Char) : Bool :=
  c.toNat ∈ [0x09, 0x0a, 0x0b, 0x0c, 0x0d, 0x20, 0x85, 0xa0, 0x1680, 0x2028, 0x2029, 0x202f, 0x205f,
    0x3000] || (0x2000 ≤ c.toNat && c.toNat ≤ 0x200a)

/-- `strings.TrimSpace`. -/
def trimSpace (s : Str) : Str :=
  ((s.dropWhile isSpace).reverse.dropWhile isSpace).reverse

/-- The part before the first `c`, all of `s` where there is none. -/
def before (c : Char) (s : Str) : Str :=
  s.takeWhile (· ≠ c)

/-- The part behind the first `c`. -/
def behind (c : Char) (s : Str) : Str :=
  (s.dropWhile (· ≠ c)).tail

/-- `strings.Fields`. -/
def fields (s : Str) : List Str :=
  (s.splitOnP isSpace).filter (· ≠ [])

/-- The length in UTF-8. -/
def byteLength (s : Str) : Nat :=
  (s.map Char.utf8Size).sum

/-- `strings.ToLower` on ASCII text. -/
def toLower (s : Str) : Str :=
  s.map Char.toLower

lemma trimSpace_isPrefix (s : Str) : trimSpace s <+: s.dropWhile isSpace := by
  have h := dropWhile_suffix (l := (s.dropWhile isSpace).reverse) isSpace
  rw [← reverse_prefix, reverse_reverse] at h
  exact h

variable {s p x : Str} {c sep : Char} {parts : List Str}

lemma trimSpace_eq_self (h : ∀ c ∈ s, isSpace c = false) : trimSpace s = s := by
  have hdrop : ∀ t : Str, (∀ c ∈ t, isSpace c = false) → t.dropWhile isSpace = t := by
    intro t ht
    cases t with
    | nil => rfl
    | cons c t => rw [dropWhile_cons, ht c mem_cons_self]; rfl
  unfold trimSpace
  rw [hdrop s h, hdrop s.reverse fun c hc => h c (mem_reverse.mp hc), reverse_reverse]

lemma toLower_eq_self (h : ∀ c ∈ s, c.toLower = c) : toLower s = s := by
  conv_rhs => rw [← map_id s]
  exact map_congr_left h

/-- Only ASCII letters change. -/
lemma char_toLower_of_le (h : 128 ≤ c.toNat) : c.toLower = c := by
  unfold Char.toLower
  rw [dif_neg]
  intro hc
  have hle : c.toNat ≤ 90 := hc.2
  omega

/-- What `toLower` does not change on the ASCII characters, it does not change. -/
lemma of_toLower_ascii {β : Type*} {f : Char → β} (h : ∀ n < 128, f (Char.ofNat n).toLower = f (Char.ofNat n))
    (c : Char) : f c.toLower = f c := by
  by_cases hc : c.toNat < 128
  · have hsame := h c.toNat hc
    rwa [Char.ofNat_toNat] at hsame
  · rw [char_toLower_of_le (Nat.le_of_not_lt hc)]

lemma eq_of_toLower_eq_dot (h : c.toLower = '.') : c = '.' := by
  have hsame := of_toLower_ascii (f := (decide <| · = '.')) (by decide) c
  simpa [h] using hsame

lemma mem_toLower (h : c ∈ toLower s) : c.toLower = c := by
  obtain ⟨d, -, rfl⟩ := mem_map.mp h
  exact of_toLower_ascii (by decide) d

lemma mem_of_mem_trimSpace (h : c ∈ trimSpace s) : c ∈ s :=
  (dropWhile_suffix isSpace).subset ((trimSpace_isPrefix s).subset h)

lemma trimSpace_trimSpace (s : Str) : trimSpace (trimSpace s) = trimSpace s := by
  -- the text is a prefix of one that does not start with a space
  have hfront : (trimSpace s).dropWhile isSpace = trimSpace s := by
    obtain ⟨t, ht⟩ := trimSpace_isPrefix s
    cases hs : trimSpace s with
    | nil => rfl
    | cons c cs =>
      have hdrop : ((c :: cs) ++ t).dropWhile isSpace = (c :: cs) ++ t := by
        rw [← hs, ht]
        exact dropWhile_idempotent _ _
      rw [cons_append, dropWhile_cons] at hdrop
      split at hdrop
      · have hlength := congrArg List.length hdrop
        have hle := (dropWhile_suffix (l := cs ++ t) isSpace).length_le
        simp only [length_cons] at hlength
        omega
      · rename_i hspace
        rw [dropWhile_cons, if_neg hspace]
  have hback : ((trimSpace s).reverse.dropWhile isSpace) = (trimSpace s).reverse := by
    unfold trimSpace
    rw [reverse_reverse]
    exact dropWhile_idempotent _ _
  unfold trimSpace at hfront hback ⊢
  rw [hfront, hback, reverse_reverse]

lemma trimSpace_toLower (s : Str) : trimSpace (toLower s) = toLower (trimSpace s) := by
  have hdrop : ∀ t : Str, (t.map Char.toLower).dropWhile isSpace =
      (t.dropWhile isSpace).map Char.toLower := by
    intro t
    rw [dropWhile_map]
    congr 2
    funext c
    exact of_toLower_ascii (by decide) c
  unfold trimSpace toLower
  rw [hdrop, ← map_reverse, hdrop, map_reverse]

lemma toLower_toLower (s : Str) : toLower (toLower s) = toLower s :=
  toLower_eq_self fun _ hc => mem_toLower hc

lemma before_isPrefix (c : Char) (s : Str) : before c s <+: s :=
  takeWhile_prefix _

lemma before_append_behind {c : Char} {s : Str} (h : c ∈ s) : before c s ++ c :: behind c s = s := by
  induction s with
  | nil => cases h
  | cons a s ih =>
    by_cases ha : a = c
    · simp [before, behind, ha]
    · simpa [before, behind, ha] using ih ((mem_cons.mp h).resolve_left (Ne.symm ha))

lemma splitOn_of_mem {c : Char} {s : Str} (h : c ∈ s) : s.splitOn c = before c s :: (behind c s).splitOn c := by
  conv_lhs => rw [← before_append_behind h]
  have hfront : ∀ x ∈ before c s, (x == c) = false := fun x hx => by simpa using mem_takeWhile_imp hx
  exact splitOnP_append_cons_of_forall_mem hfront c (beq_self_eq_true c) _

/-- No part has a separator in it. -/
lemma eq_false_of_mem_splitOnP {α : Type*} {p : α → Bool} {s : List α} : ∀ x ∈ s.splitOnP p, ∀ c ∈ x, p c = false := by
  induction s with
  | nil => simp
  | cons a s ih =>
    rw [splitOnP_cons_eq_if_modifyHead]
    split_ifs with ha
    · rw [forall_mem_cons]
      exact ⟨by simp, ih⟩
    cases hs : s.splitOnP p with
    | nil => simp
    | cons x xs =>
      rw [hs, forall_mem_cons] at ih
      rw [modifyHead_cons, forall_mem_cons, forall_mem_cons]
      exact ⟨⟨Bool.eq_false_iff.mpr ha, ih.1⟩, ih.2⟩

lemma not_mem_of_mem_splitOn : ∀ x ∈ p.splitOn c, c ∉ x := by
  intro x hx hc
  simpa using eq_false_of_mem_splitOnP x hx c hc

/-- A character of a text separates two parts or stands in one. -/
lemma mem_of_mem_splitOnP {p : Char → Bool} (h : c ∈ s) : p c ∨ ∃ part ∈ s.splitOnP p, c ∈ part := by
  induction s with
  | nil => cases h
  | cons a s ih =>
    rw [splitOnP_cons_eq_if_modifyHead]
    by_cases ha : p a
    · rcases mem_cons.mp h with rfl | h
      · exact .inl ha
      rcases ih h with hc | ⟨part, hpart, hc⟩
      · exact .inl hc
      · rw [if_pos ha]
        exact .inr ⟨part, mem_cons_of_mem _ hpart, hc⟩
    rw [if_neg ha]
    cases hs : s.splitOnP p with
    | nil => exact absurd hs (splitOnP_ne_nil _ _)
    | cons first rest =>
      rcases mem_cons.mp h with rfl | h
      · exact .inr ⟨_, mem_cons_self, mem_cons_self⟩
      rcases ih h with hc | ⟨part, hpart, hc⟩
      · exact .inl hc
      rw [hs] at hpart
      rcases mem_cons.mp hpart with rfl | hpart
      · exact .inr ⟨_, mem_cons_self, mem_cons_of_mem _ hc⟩
      · exact .inr ⟨part, mem_cons_of_mem _ hpart, hc⟩

lemma mem_of_mem_splitOn (h : c ∈ s) : c = sep ∨ ∃ part ∈ s.splitOn sep, c ∈ part := by
  rcases mem_of_mem_splitOnP (p := (· == sep)) h with hc | hpart
  · exact .inl (beq_iff_eq.mp hc)
  · exact .inr hpart

lemma splitOn_toLower_dot (s : Str) : (toLower s).splitOn '.' = (s.splitOn '.').map toLower := by
  induction s with
  | nil => rfl
  | cons c s ih =>
    have hdot : (c.toLower == '.') = (c == '.') := by
      rw [Bool.eq_iff_iff, beq_iff_eq, beq_iff_eq]
      constructor
      · exact eq_of_toLower_eq_dot
      · rintro rfl
        rfl
    have hlower : toLower (c :: s) = c.toLower :: toLower s := rfl
    rw [hlower, List.splitOn, List.splitOn, splitOnP_cons_eq_if_modifyHead,
      splitOnP_cons_eq_if_modifyHead, hdot]
    rw [List.splitOn, List.splitOn] at ih
    split_ifs
    · rw [ih]
      rfl
    rw [ih]
    cases s.splitOnP (· == '.') with
    | nil => rfl
    | cons x xs => rfl

/-- A joined list is split into its parts again, whatever other characters separate as well. -/
lemma splitOnP_intercalate {p : Char → Bool} (hsep : p sep)
    (hne : parts ≠ []) (h : ∀ x ∈ parts, ∀ c ∈ x, p c = false) : ([sep].intercalate parts).splitOnP p = parts := by
  induction parts with
  | nil => exact absurd rfl hne
  | cons x parts ih =>
    have hx : ∀ c ∈ x, p c = false := h x mem_cons_self
    cases parts with
    | nil => simpa using splitOnP_eq_singleton hx
    | cons y parts =>
      have hrest := ih (cons_ne_nil y parts) fun z hz => h z (mem_cons_of_mem x hz)
      rw [intercalate_cons_cons, append_assoc, singleton_append,
        splitOnP_append_cons_of_forall_mem hx sep hsep, hrest]

lemma isInfix_intercalate {sep x : Str} (hx : x ∈ parts) : x <:+: sep.intercalate parts := by
  induction parts with
  | nil => cases hx
  | cons y parts ih =>
    cases parts with
    | nil =>
      obtain rfl : x = y := by simpa using hx
      simp
    | cons z parts =>
      rcases mem_cons.mp hx with rfl | hx
      · exact (prefix_append x _).isInfix
      · exact (ih hx).trans ((suffix_append sep _).trans (suffix_append y _)).isInfix

/-- A word without the separator lies on one side of it. -/
lemma isInfix_append_cons {α : Type*} {w l r : List α} {x : α} (hx : x ∉ w) :
    w <:+: l ++ x :: r ↔ w <:+: l ∨ w <:+: r := by
  constructor
  · rintro ⟨s, t, h⟩
    rw [append_assoc, append_eq_append_iff] at h
    obtain ⟨a, rfl, h⟩ | ⟨c, rfl, h⟩ := h
    · obtain ⟨b, rfl, -⟩ | ⟨c, rfl, h⟩ := append_eq_append_iff.mp h
      · exact .inl ⟨s, b, by simp⟩
      cases c with
      | nil => exact .inl ⟨s, [], by simp⟩
      | cons y c => simp_all
    · cases c with
      | nil => cases w <;> simp_all
      | cons y c =>
        obtain ⟨rfl, rfl⟩ := cons.inj h
        exact .inr ⟨c, t, by simp⟩
  · rintro (h | h)
    · exact h.trans (prefix_append _ _).isInfix
    · exact h.trans ((suffix_cons x r).trans (suffix_append l _)).isInfix

lemma mem_intercalate {sep x : Str} (hx : x ∈ parts) (hc : c ∈ x) : c ∈ sep.intercalate parts :=
  (isInfix_intercalate hx).subset hc

lemma isInfix_of_mem_splitOnP {p : Char → Bool} (hx : x ∈ s.splitOnP p) : x <:+: s := by
  -- the first part grows at its front, so it has to stand at the front of the text
  have hparts : ∃ first rest, s.splitOnP p = first :: rest ∧ first <+: s ∧ ∀ y ∈ rest, y <:+: s := by
    clear hx
    induction s with
    | nil => exact ⟨[], [], rfl, prefix_rfl, by simp⟩
    | cons a s ih =>
      obtain ⟨first, rest, hsplit, hfirst, hrest⟩ := ih
      have hbehind : s <:+: a :: s := (suffix_cons a s).isInfix
      rw [splitOnP_cons_eq_if_modifyHead, hsplit]
      split_ifs
      · refine ⟨[], first :: rest, rfl, ⟨a :: s, rfl⟩, forall_mem_cons.mpr ⟨?_, ?_⟩⟩
        · exact hfirst.isInfix.trans hbehind
        · exact fun y hy => (hrest y hy).trans hbehind
      · exact ⟨a :: first, rest, rfl, cons_prefix_cons.mpr ⟨rfl, hfirst⟩, fun y hy => (hrest y hy).trans hbehind⟩
  obtain ⟨first, rest, hsplit, hfirst, hrest⟩ := hparts
  rcases mem_cons.mp (hsplit ▸ hx) with rfl | hx
  · exact hfirst.isInfix
  · exact hrest x hx

lemma isInfix_of_mem_splitOn (hx : x ∈ s.splitOn sep) : x <:+: s :=
  isInfix_of_mem_splitOnP hx

lemma mem_of_mem_of_mem_splitOn (hx : x ∈ s.splitOn sep) (hc : c ∈ x) : c ∈ s :=
  (isInfix_of_mem_splitOn hx).subset hc

end Text
