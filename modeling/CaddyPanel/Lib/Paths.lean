import CaddyPanel.Lib.Text

/-!
# Slash-separated paths

`clean` is Go's `path.Clean`, computed on the segments between the slashes.
-/

namespace Paths

open List Text

/-- One segment is taken in: empty and `.` segments are dropped, `..` takes the last one back. The
segments seen so far are held last first. -/
def push (rooted : Bool) (acc : List Str) (seg : Str) : List Str :=
  if seg = [] ∨ seg = "." then acc
  else if seg = ".." then
    match acc with
    | [] => if rooted then [] else [seg]
    | top :: rest => if top = ".." then seg :: acc else rest
  else seg :: acc

/-- The segments left of a path. -/
def resolve (rooted : Bool) (segs : List Str) : List Str :=
  (segs.foldl (push rooted) []).reverse

def isRooted (p : Str) : Bool :=
  p.head? = some '/'

/-- `path.Clean`. -/
def clean (p : Str) : Str :=
  let segs := resolve (isRooted p) (p.splitOn '/')
  if isRooted p then '/' :: ['/'].intercalate segs
  else if segs = [] then "."
  else ['/'].intercalate segs

/-- `path.Clean`, with a trailing slash kept. -/
def cleanDir (p : Str) : Str :=
  let c := clean p
  if "/".toList.isSuffixOf p ∧ c ≠ "/" then c ++ "/" else c

/-! ### Cleaning a rooted path twice -/

/-- A segment that cleaning keeps as it is. -/
def Plain (seg : Str) : Prop :=
  seg ≠ [] ∧ seg ≠ "." ∧ seg ≠ ".." ∧ '/' ∉ seg

variable {acc segs : List Str} {seg p : Str}

lemma push_plain {rooted : Bool} (h : Plain seg) : push rooted acc seg = seg :: acc := by
  obtain ⟨h₁, h₂, h₃, -⟩ := h
  simp only [push, h₁, h₂, h₃, or_self, if_false]

lemma plain_push (hacc : ∀ x ∈ acc, Plain x) (hseg : '/' ∉ seg) : ∀ x ∈ push true acc seg, Plain x := by
  unfold push
  by_cases h₁ : seg = [] ∨ seg = "."
  · rw [if_pos h₁]
    exact hacc
  rw [if_neg h₁]
  by_cases h₂ : seg = ".."
  · rw [if_pos h₂]
    match acc with
    | [] => simp
    | top :: rest =>
      obtain ⟨htop, hrest⟩ := forall_mem_cons.mp hacc
      simp only [htop.2.2.1]
      exact hrest
  · rw [if_neg h₂, forall_mem_cons]
    obtain ⟨h₃, h₄⟩ := not_or.mp h₁
    exact ⟨⟨h₃, h₄, h₂, hseg⟩, hacc⟩

lemma plain_resolve (h : ∀ x ∈ segs, '/' ∉ x) : ∀ x ∈ resolve true segs, Plain x := by
  have hfold : ∀ acc : List Str, (∀ x ∈ acc, Plain x) →
      ∀ x ∈ segs.foldl (push true) acc, Plain x := by
    induction segs with
    | nil => exact fun acc hacc => hacc
    | cons seg segs ih =>
      intro acc hacc
      obtain ⟨hseg, hsegs⟩ := forall_mem_cons.mp h
      exact ih hsegs _ (plain_push hacc hseg)
  intro x hx
  exact hfold [] (by simp) x (mem_reverse.mp hx)

lemma foldl_push_plain {rooted : Bool} (h : ∀ x ∈ segs, Plain x) :
    segs.foldl (push rooted) acc = segs.reverse ++ acc := by
  induction segs generalizing acc with
  | nil => rfl
  | cons seg segs ih =>
    obtain ⟨hseg, hsegs⟩ := forall_mem_cons.mp h
    simp [push_plain hseg, ih hsegs]

/-- The segments of a path, and the slash a path starts with. -/
lemma splitOn_slash_cons (p : Str) : ('/' :: p).splitOn '/' = [] :: p.splitOn '/' := by
  simp [splitOn_cons_eq_if_modifyHead]

lemma splitOn_append_slash (p : Str) : (p ++ "/").splitOn '/' = p.splitOn '/' ++ [[]] := by
  have h := splitOn_append_cons_self (a := '/') p []
  simpa using h

/-- What cleaning leaves of a rooted path, slash for slash. -/
lemma resolve_join (h : ∀ x ∈ segs, Plain x) : resolve true (('/' :: ['/'].intercalate segs).splitOn '/') = segs := by
  rw [splitOn_slash_cons]
  cases segs with
  | nil => decide
  | cons seg segs =>
    rw [splitOn_intercalate '/' (fun x hx => (h x hx).2.2.2) (by simp)]
    have hfold := @foldl_push_plain [] (seg :: segs) true h
    simp only [resolve, foldl_cons, push, true_or, if_true] at hfold ⊢
    rw [hfold]
    simp

lemma resolve_append_nil (rooted : Bool) (segs : List Str) : resolve rooted (segs ++ [[]]) = resolve rooted segs := by
  simp [resolve, push]

/-- A cleaned path other than the root does not end in a slash. -/
lemma not_slash_isSuffix_join (h : ∀ x ∈ segs, Plain x) (hne : segs ≠ []) : ¬"/" <:+ '/' :: ['/'].intercalate segs := by
  rintro ⟨x, hx⟩
  have hsplit := splitOn_append_slash x
  rw [hx, splitOn_slash_cons, splitOn_intercalate '/' (fun y hy => (h y hy).2.2.2) hne] at hsplit
  have hlast := congrArg List.getLast? hsplit
  rw [getLast?_append_of_ne_nil _ (by simp), getLast?_cons_of_ne_nil hne] at hlast
  exact (h [] (mem_of_getLast? hlast)).1 rfl

lemma clean_rooted (hp : isRooted p) : clean p = '/' :: ['/'].intercalate (resolve true (p.splitOn '/')) := by
  simp [clean, hp]

lemma isRooted_cleanDir (hp : isRooted p) : isRooted (cleanDir p) := by
  simp only [cleanDir, clean_rooted hp]
  split_ifs <;> rfl

lemma resolve_cleanDir (hp : isRooted p) : resolve true ((cleanDir p).splitOn '/') = resolve true (p.splitOn '/') := by
  have hplain := plain_resolve (not_mem_of_mem_splitOn (c := '/') (p := p))
  simp only [cleanDir, clean_rooted hp]
  split_ifs
  · rw [splitOn_append_slash, resolve_append_nil, resolve_join hplain]
  · exact resolve_join hplain

lemma clean_cleanDir (hp : isRooted p) : clean (cleanDir p) = clean p := by
  rw [clean_rooted (isRooted_cleanDir hp), resolve_cleanDir hp, clean_rooted hp]

/-- Cleaning a rooted path a second time changes nothing. -/
theorem cleanDir_cleanDir (hp : isRooted p) : cleanDir (cleanDir p) = cleanDir p := by
  have hplain := plain_resolve (not_mem_of_mem_splitOn (c := '/') (p := p))
  conv_lhs => rw [cleanDir, clean_cleanDir hp]
  by_cases hroot : clean p = "/"
  · simp only [cleanDir, hroot, ne_eq, not_true_eq_false, and_false]
  by_cases hslash : "/".toList.isSuffixOf p
  · have hdir : cleanDir p = clean p ++ "/" := if_pos ⟨hslash, hroot⟩
    have hsuffix : "/".toList.isSuffixOf (cleanDir p) := by
      rw [hdir, isSuffixOf_iff_suffix]
      exact suffix_append _ _
    exact (if_pos ⟨hsuffix, hroot⟩).trans hdir.symm
  have hdir : cleanDir p = clean p := if_neg fun h => hslash h.1
  have hne : resolve true (p.splitOn '/') ≠ [] := by
    intro hnil
    rw [clean_rooted hp, hnil] at hroot
    exact hroot rfl
  have hsuffix : ¬"/".toList.isSuffixOf (clean p) := by
    rw [isSuffixOf_iff_suffix, clean_rooted hp]
    exact not_slash_isSuffix_join hplain hne
  rw [hdir]
  exact if_neg fun h => hsuffix h.1

end Paths
