import CaddyPanel.Lib.Text
import Mathlib.Data.Nat.Find

/-!
# Records in a growing log

A log is a list that is only appended to, and a record ends with a separator. A reader takes a window
of the log behind its offset, up to the last separator in it. `LineAt.le_of_last` says that such a
reader never cuts a record, and `LineAt.exists_in_window` that it always finds something to take
where no record is longer than the window.
-/

namespace Tail

open List

variable {α : Type*} {sep : α}

variable {i j window offset pos : ℕ} {log log' : List α}

lemma getElem?_of_isPrefix (h : log <+: log') (hi : i < log.length) : log'[i]? = log[i]? := by
  obtain ⟨rest, rfl⟩ := h
  exact getElem?_append_left hi

section ThroughLast

variable [DecidableEq α]

/-- The list up to its last separator. -/
def throughLast (sep : α) (l : List α) : List α :=
  l.rdropWhile (· ≠ sep)

lemma throughLast_isPrefix (sep : α) (l : List α) : throughLast sep l <+: l :=
  rdropWhile_prefix _ _

variable {l : List α}

lemma throughLast_eq_nil_iff : throughLast sep l = [] ↔ sep ∉ l := by
  rw [throughLast, rdropWhile_eq_nil_iff]
  constructor
  · intro h hmem
    simpa using h sep hmem
  · intro h x hx
    have hne : x ≠ sep := fun heq => h (heq ▸ hx)
    simpa using hne

lemma getLast?_throughLast (h : throughLast sep l ≠ []) : (throughLast sep l).getLast? = some sep := by
  have hlast := rdropWhile_last_not (· ≠ sep) l h
  rw [decide_eq_true_eq, not_not] at hlast
  rw [getLast?_eq_some_getLast h]
  exact congrArg some hlast

/-- No separator is behind. -/
lemma length_throughLast_gt {i : ℕ} (h : l[i]? = some sep) : i < (throughLast sep l).length := by
  by_contra hi
  obtain ⟨rest, hrest⟩ := throughLast_isPrefix sep l
  have hmem : sep ∈ rest := by
    rw [← hrest, getElem?_append_right (Nat.le_of_not_lt hi)] at h
    exact mem_of_getElem? h
  have hdrop : rest = l.rtakeWhile (· ≠ sep) := by
    have hboth : throughLast sep l ++ l.rtakeWhile (· ≠ sep) = l := rdropWhile_append_rtakeWhile
    exact append_cancel_left (hrest.trans hboth.symm)
  rw [hdrop] at hmem
  have hne := mem_rtakeWhile_imp hmem
  simp at hne

lemma getElem?_pred_throughLast (h : throughLast sep l ≠ []) : l[(throughLast sep l).length - 1]? = some sep := by
  have hlast := getLast?_throughLast h
  rw [getLast?_eq_getElem?] at hlast
  have hpos := length_pos_iff.mpr h
  rw [getElem?_of_isPrefix (throughLast_isPrefix sep l) (by omega)]
  exact hlast

/-- Where the last separator is. -/
lemma length_throughLast_eq {k : ℕ} (hk : l[k]? = some sep)
    (hnone : ∀ i, k < i → l[i]? ≠ some sep) : (throughLast sep l).length = k + 1 := by
  have hgt := length_throughLast_gt hk
  have hne : throughLast sep l ≠ [] := length_pos_iff.mp (by omega)
  have hlast := getElem?_pred_throughLast hne
  by_contra hlength
  exact hnone _ (by omega) hlast

end ThroughLast

/-! ### Records -/

/-- The record from `start` to `stop`, the separator included. -/
structure LineAt (sep : α) (log : List α) (start stop : ℕ) : Prop where
  lt : start < stop
  ends : log[stop - 1]? = some sep
  inside : ∀ i, start ≤ i → i < stop - 1 → log[i]? ≠ some sep
  begins : start = 0 ∨ log[start - 1]? = some sep

namespace LineAt

variable {log log' : List α} {start stop offset : ℕ}

lemma stop_le (h : LineAt sep log start stop) : stop ≤ log.length := by
  obtain ⟨hlt, -⟩ := List.getElem?_eq_some_iff.mp h.ends
  omega

lemma mono (h : LineAt sep log start stop) (hlog : log <+: log') : LineAt sep log' start stop := by
  have hstop := h.stop_le
  have hlt := h.lt
  refine ⟨h.lt, ?_, fun i hi hi' => ?_, ?_⟩
  · rw [getElem?_of_isPrefix hlog (by omega)]
    exact h.ends
  · rw [getElem?_of_isPrefix hlog (by omega)]
    exact h.inside i hi hi'
  rcases h.begins with hstart | hstart
  · exact .inl hstart
  refine .inr ?_
  rw [getElem?_of_isPrefix hlog (by omega)]
  exact hstart

/-- A reader that stops behind a separator has not stopped inside the record. -/
lemma le_of_last (h : LineAt sep log start stop) {i : ℕ} (hi : log[i]? = some sep) (hstart : start ≤ i) :
    stop ≤ i + 1 := by
  by_contra hlt
  exact h.inside i hstart (by omega) hi

/-- Where there is no separator between the offset and the start, the offset is the start. -/
lemma eq_of_none_before (h : LineAt sep log start stop) (hoffset : offset ≤ start)
    (hnone : ∀ i, offset ≤ i → i < start → log[i]? ≠ some sep) : offset = start := by
  rcases h.begins with hstart | hstart
  · omega
  · by_contra hne
    exact hnone (start - 1) (by omega) (by omega) hstart

end LineAt

/-- Each separator ends a record. -/
lemma exists_lineAt (hj : log[j]? = some sep) : ∃ s, s ≤ j ∧ LineAt sep log s (j + 1) := by
  have hdown : ∀ k, k ≤ j → (∀ i, k ≤ i → i < j → log[i]? ≠ some sep) →
      ∃ s, s ≤ j ∧ LineAt sep log s (j + 1) := by
    intro k
    induction k with
    | zero => exact fun _ hnone => ⟨0, Nat.zero_le j, j.succ_pos, hj, hnone, .inl rfl⟩
    | succ k ih =>
      intro hk hnone
      by_cases hsep : log[k]? = some sep
      · exact ⟨k + 1, hk, Nat.lt_succ_of_le hk, hj, hnone, .inr hsep⟩
      refine ih (Nat.le_of_succ_le hk) fun i hi hij => ?_
      rcases Nat.eq_or_lt_of_le hi with rfl | hi
      · exact hsep
      · exact hnone i hi hij
  exact hdown j (le_refl j) fun i hi hij => absurd hij (Nat.not_lt.mpr hi)

/-- Where every record fits in the window, the window behind an offset has a separator if the log
has one there. -/
lemma exists_in_window
    (hshort : ∀ s t, LineAt sep log s t → t - s ≤ window) (hj : log[j]? = some sep) (hoffset : offset ≤ j) :
    ∃ i, offset ≤ i ∧ i < offset + window ∧ log[i]? = some sep := by
  classical
  have hex : ∃ i, offset ≤ i ∧ log[i]? = some sep := ⟨j, hoffset, hj⟩
  obtain ⟨hge, hsep⟩ := Nat.find_spec hex
  obtain ⟨s, hs, hline⟩ := exists_lineAt hsep
  refine ⟨Nat.find hex, hge, ?_, hsep⟩
  have hlength := hshort s _ hline
  -- the record begins at or in front of the offset: it begins behind a separator
  have hstart : s ≤ offset := by
    rcases hline.begins with hzero | hbefore
    · omega
    by_contra hlt
    have hmin := Nat.find_min hex (m := s - 1) (by omega)
    exact hmin ⟨by omega, hbefore⟩
  omega

/-! ### Positions of records -/

/-- The places of parts that are written one behind the other with a separator between them. -/
def positions : ℕ → List (List α) → List (ℕ × List α)
  | _, [] => []
  | pos, r :: rs => (pos, r) :: positions (pos + r.length + 1) rs

lemma map_snd_positions (pos : ℕ) (rs : List (List α)) : (positions pos rs).map Prod.snd = rs := by
  induction rs generalizing pos with
  | nil => rfl
  | cons r rs ih => rw [positions, map_cons, ih]

lemma le_of_mem_positions {rs : List (List α)} {x : ℕ × List α} (h : x ∈ positions pos rs) : pos ≤ x.1 := by
  induction rs generalizing pos with
  | nil => cases h
  | cons r rs ih =>
    rcases mem_cons.mp h with rfl | h
    · exact le_refl _
    · have := ih h
      omega

lemma nodup_positions (pos : ℕ) (rs : List (List α)) : ((positions pos rs).map Prod.fst).Nodup := by
  induction rs generalizing pos with
  | nil => exact nodup_nil
  | cons r rs ih =>
    rw [positions, map_cons, nodup_cons]
    refine ⟨fun hmem => ?_, ih _⟩
    obtain ⟨x, hx, heq⟩ := mem_map.mp hmem
    have := le_of_mem_positions hx
    omega

/-- Where a part stands in a log that ends with a separator. -/
lemma exists_of_mem_positions {rs : List (List α)} {x : ℕ × List α} (h : x ∈ positions pos rs) :
    ∃ before behind, [sep].intercalate rs = before ++ x.2 ++ behind ∧ x.1 = pos + before.length ∧
      (before = [] ∨ before.getLast? = some sep) ∧ (behind = [] ∨ behind.head? = some sep) := by
  induction rs generalizing pos with
  | nil => cases h
  | cons r rs ih =>
    have hlog : [sep].intercalate (r :: rs) = r ++ (if rs = [] then [] else sep :: [sep].intercalate rs) := by
      cases rs <;> simp
    rcases mem_cons.mp h with rfl | h
    · exact ⟨[], _, hlog, rfl, .inl rfl, by split <;> simp⟩
    obtain ⟨before, behind, heq, hpos, hbefore, hbehind⟩ := ih h
    have hne : rs ≠ [] := by
      rintro rfl
      cases h
    refine ⟨r ++ sep :: before, behind, by simp [hlog, hne, heq], by simp; omega, .inr ?_, hbehind⟩
    obtain rfl | hbefore := hbefore
    · simp
    · simp [getLast?_cons, hbefore]

/-- Where a part stands in a log that ends with a separator. -/
lemma drop_of_mem_positions {rs : List (List α)} (hrs : ∀ r ∈ rs, sep ∉ r)
    (hlast : ([sep].intercalate rs).getLast? = some sep) {x : ℕ × List α} (h : x ∈ positions pos rs) (hne : x.2 ≠ []) :
    (∃ rest, ([sep].intercalate rs).drop (x.1 - pos) = x.2 ++ sep :: rest) ∧
      (x.1 = pos ∨ ([sep].intercalate rs)[x.1 - pos - 1]? = some sep) := by
  obtain ⟨before, behind, hlog, hpos, hbefore, hbehind⟩ := @exists_of_mem_positions _ sep _ _ _ h
  have hsub : x.1 - pos = before.length := by omega
  rw [hlog, hsub]
  constructor
  · obtain rfl | hbehind := hbehind
    · -- the last part has no separator
      have hsep : sep ∈ x.2 := mem_of_getLast? (by simpa [hlog, hne] using hlast)
      exact absurd hsep (hrs _ (map_snd_positions pos rs ▸ mem_map_of_mem h))
    · obtain ⟨rest, rfl⟩ := head?_eq_some_iff.mp hbehind
      exact ⟨rest, by simp⟩
  · obtain rfl | hbefore := hbefore
    · exact .inl hpos
    · obtain ⟨init, rfl⟩ := getLast?_eq_some_iff.mp hbefore
      exact .inr (by simp)

end Tail
