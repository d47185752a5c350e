import Mathlib.Algebra.Order.Group.Nat
import Mathlib.Data.Nat.Find

/-!
# Infinite runs

The states of a system that takes a step for every label of an infinite sequence. What should happen
at last is proved by contradiction: as long as it does not happen, a number grows without a bound
(`exists_past_bound`), or one falls for ever (`exists_of_decreasing`).
-/

namespace Traces

variable {σ α : Type*} (step : σ → α → σ)

/-- The state before the label `n`. -/
def trace (s : σ) (labels : ℕ → α) : ℕ → σ
  | 0 => s
  | n + 1 => step (trace s labels n) (labels n)

variable {step} {s : σ} {labels : ℕ → α}

/-- What a step that meets `C` preserves holds in every state of a run that meets `C`. -/
theorem trace_invariant {I : σ → Prop} {C : σ → α → Prop} (hstep : ∀ s a, I s → C s a → I (step s a)) (hs : I s)
    (hC : ∀ n, C (trace step s labels n) (labels n)) (n : ℕ) : I (trace step s labels n) := by
  induction n with
  | zero => exact hs
  | succ n ih => exact hstep _ _ ih (hC n)

/-- A number that never falls and grows at infinitely many moments passes every bound. -/
theorem exists_past_bound {active : ℕ → Prop} (hactive : ∀ n, ∃ m, n ≤ m ∧ active m) (pos : ℕ → ℕ)
    {start : ℕ} (hstep : ∀ n, start ≤ n → pos n ≤ pos (n + 1) ∧ (active n → pos n < pos (n + 1)))
    (bound : ℕ) : ∃ n, start ≤ n ∧ bound < pos n := by
  have hle : ∀ n m, start ≤ n → n ≤ m → pos n ≤ pos m := by
    intro n m hn hm
    induction m, hm using Nat.le_induction with
    | base => exact le_refl _
    | succ m hm ih => exact ih.trans (hstep m (hn.trans hm)).1
  induction bound with
  | zero =>
    obtain ⟨m, hm, hact⟩ := hactive start
    exact ⟨m + 1, Nat.le_succ_of_le hm, Nat.lt_of_le_of_lt (Nat.zero_le _) ((hstep m hm).2 hact)⟩
  | succ bound ih =>
    obtain ⟨n, hn, hpos⟩ := ih
    obtain ⟨m, hm, hact⟩ := hactive n
    refine ⟨m + 1, Nat.le_succ_of_le (hn.trans hm), ?_⟩
    have hlow := hle n m hn hm
    have hnext := (hstep m (hn.trans hm)).2 hact
    omega

/-- What is not put off for ever: as long as it does not happen, a number falls. -/
theorem exists_of_decreasing {P : ℕ → Prop} (rank : ℕ → ℕ) (h : ∀ n, ¬ P n → rank (n + 1) < rank n) : ∃ n, P n := by
  by_contra hnever
  push Not at hnever
  have hbound : ∀ n, rank n + n ≤ rank 0 := by
    intro n
    induction n with
    | zero => exact le_rfl
    | succ n ih =>
      have hlt := h n (hnever n)
      omega
  have hlast := hbound (rank 0 + 1)
  omega

/-- The last time before `n` at which `P` holds. -/
lemma exists_last {P : ℕ → Prop} {n : ℕ} (h : ∃ k, k < n ∧ P k) : ∃ k, k < n ∧ P k ∧ ∀ j, k < j → j < n → ¬P j := by
  classical
  obtain ⟨k, hlt, hP⟩ := h
  have hle := Nat.findGreatest_le (P := P) (n - 1)
  refine ⟨_, by omega, Nat.findGreatest_spec (Nat.le_sub_one_of_lt hlt) hP, fun j hj hjn => ?_⟩
  exact Nat.findGreatest_is_greatest hj (Nat.le_sub_one_of_lt hjn)

end Traces
