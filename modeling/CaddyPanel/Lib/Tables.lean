import Mathlib.Algebra.GroupWithZero.Nat
import Mathlib.Data.List.AList

/-!
# Counting the rows of a keyed table

A table is an association list with distinct keys. `count p t` is `SELECT COUNT(*) … WHERE p`; the
two lemmas say what a `DELETE` and an `INSERT` or `UPDATE` of one row do to it.
-/

namespace Tables

open List

variable {κ α : Type*} [DecidableEq κ]

abbrev Table (κ α : Type*) := AList (fun _ : κ => α)

/-- How many rows of the table satisfy `p`. -/
def count (p : α → Bool) (t : Table κ α) : Nat :=
  t.entries.countP fun e => p e.2

/-- Whether a row, where there is one, counts. -/
def weight (p : α → Bool) (row : Option α) : Nat :=
  if row.any p then 1 else 0

@[simp] lemma weight_none (p : α → Bool) : weight p none = 0 := rfl

@[simp] lemma weight_some (p : α → Bool) (v : α) : weight p (some v) = if p v then 1 else 0 := rfl

private lemma countP_kerase (p : α → Bool) (k : κ) (l : List (Sigma fun _ : κ => α)) :
    (l.kerase k).countP (fun e => p e.2) + weight p (l.dlookup k) = l.countP fun e => p e.2 := by
  induction l with
  | nil => rfl
  | cons e l ih =>
    obtain ⟨k', v⟩ := e
    by_cases h : k = k'
    · subst h
      have hkerase : List.kerase k (⟨k, v⟩ :: l) = l := kerase_cons_eq rfl
      rw [hkerase, dlookup_cons_eq, countP_cons, weight_some]
    · rw [kerase_cons_ne h, dlookup_cons_ne _ _ h, countP_cons, countP_cons, ← ih]
      omega

/-- A row that is deleted is one row less where it counted. -/
theorem count_erase (p : α → Bool) (k : κ) (t : Table κ α) : count p (t.erase k) + weight p (t.lookup k) = count p t :=
  countP_kerase p k t.entries

/-- A row that is written counts in the place of the row it replaces. -/
theorem count_insert (p : α → Bool) (k : κ) (v : α) (t : Table κ α) :
    count p (t.insert k v) + weight p (t.lookup k) = count p t + weight p (some v) := by
  have herase := count_erase p k t
  have hinsert : count p (t.insert k v) = count p (t.erase k) + weight p (some v) := by
    simp only [count, AList.entries_insert, countP_cons]
    rfl
  omega

lemma sum_countP_cons {ι : Type*} (q : ι → α → Bool) (a : α) (rows : List α) (groups : List ι) :
    (groups.map fun i => (a :: rows).countP (q i)).sum =
      (groups.map fun i => rows.countP (q i)).sum + groups.countP fun i => q i a := by
  induction groups with
  | nil => rfl
  | cons i groups ih =>
    rw [map_cons, sum_cons, ih]
    simp only [map_cons, sum_cons, countP_cons]
    omega

/-- Rows that are each of one of several groups are at most the rows of the groups together. -/
lemma countP_le_sum {ι : Type*} {groups : List ι} {p : α → Bool} {q : ι → α → Bool}
    (h : ∀ a, p a → ∃ i ∈ groups, q i a) (rows : List α) :
    rows.countP p ≤ (groups.map fun i => rows.countP (q i)).sum := by
  induction rows with
  | nil => simp
  | cons a rows ih =>
    rw [sum_countP_cons, countP_cons]
    refine Nat.add_le_add ih ?_
    split
    · next hp => exact countP_pos_iff.mpr (h a hp)
    · exact Nat.zero_le _

end Tables
