import Mathlib.Data.Int.Log
import Mathlib.Data.Rat.Floor
import Mathlib.Tactic.Positivity

/-!
# Binary64 numbers

A binary64 number is its sign and its magnitude, a rational that rounding to nearest (ties to even)
leaves as it is.
-/

namespace Float64

/-! ### Rounding -/

/-- The exponent of the last place at a magnitude. -/
def ulpExp (q : ℚ) : ℤ :=
  max (-1074) (Int.log 2 q - 52)

def ulp (q : ℚ) : ℚ :=
  2 ^ ulpExp q

def roundHalfEven (x : ℚ) : ℤ :=
  if x - ⌊x⌋ < 1 / 2 then ⌊x⌋
  else if 1 / 2 < x - ⌊x⌋ then ⌊x⌋ + 1
  else if ⌊x⌋ % 2 = 0 then ⌊x⌋
  else ⌊x⌋ + 1

def round (q : ℚ) : ℚ :=
  roundHalfEven (q / ulp q) * ulp q

/-- The nearest number of the format; `none` is an overflow. -/
def nearest (q : ℚ) : Option ℚ :=
  if round q < 2 ^ 1024 then some (round q) else none

lemma roundHalfEven_intCast (n : ℤ) : roundHalfEven n = n := by
  simp [roundHalfEven]

lemma roundHalfEven_mem (x : ℚ) : roundHalfEven x = ⌊x⌋ ∨ roundHalfEven x = ⌊x⌋ + 1 := by
  unfold roundHalfEven
  split_ifs <;> simp

lemma roundHalfEven_nonneg {x : ℚ} (h : 0 ≤ x) : 0 ≤ roundHalfEven x := by
  have hfloor : 0 ≤ ⌊x⌋ := Int.floor_nonneg.mpr h
  rcases roundHalfEven_mem x with h | h <;> omega

lemma ulp_pos (q : ℚ) : 0 < ulp q :=
  zpow_pos two_pos _

lemma round_nonneg {q : ℚ} (h : 0 ≤ q) : 0 ≤ round q := by
  have hdiv : 0 ≤ q / ulp q := div_nonneg h (ulp_pos q).le
  have hround : (0 : ℚ) ≤ roundHalfEven (q / ulp q) := by exact_mod_cast roundHalfEven_nonneg hdiv
  exact mul_nonneg hround (ulp_pos q).le

lemma roundHalfEven_le_add_half (x : ℚ) : (roundHalfEven x : ℚ) ≤ x + 1 / 2 := by
  have hfloor : (⌊x⌋ : ℚ) ≤ x := Int.floor_le x
  unfold roundHalfEven
  split_ifs <;> push_cast <;> linarith

/-- Rounding a normal number adds at most a part in `2 ^ 53`. -/
lemma round_le_mul {q : ℚ} (hq : 2 ^ (-1022 : ℤ) ≤ q) : round q ≤ q * (1 + 2 ^ (-53 : ℤ)) := by
  have hpos : 0 < q := (zpow_pos two_pos _).trans_le hq
  have hlog : -1022 ≤ Int.log 2 q := (Int.zpow_le_iff_le_log one_lt_two hpos).mp (by exact_mod_cast hq)
  have hexp : ulpExp q = Int.log 2 q + -52 := by
    unfold ulpExp
    omega
  have hulp : ulp q ≤ q * 2 ^ (-52 : ℤ) := by
    rw [ulp, hexp, zpow_add₀ two_ne_zero]
    exact mul_le_mul_of_nonneg_right (by exact_mod_cast Int.zpow_log_le_self one_lt_two hpos)
      (zpow_pos two_pos _).le
  calc round q ≤ (q / ulp q + 1 / 2) * ulp q :=
        mul_le_mul_of_nonneg_right (roundHalfEven_le_add_half _) (ulp_pos q).le
    _ = q + ulp q / 2 := by
        rw [add_mul, div_mul_cancel₀ q (ulp_pos q).ne']
        ring
    _ ≤ q + q * 2 ^ (-52 : ℤ) / 2 := by gcongr
    _ = q * (1 + 2 ^ (-53 : ℤ)) := by
        ring

/-- A whole number of last places stays as it is. -/
lemma round_eq_self {q : ℚ} {m : ℤ} (h : q = m * ulp q) : round q = q := by
  have hdiv : q / ulp q = m := by
    rw [div_eq_iff (ulp_pos q).ne']
    exact h
  rw [round, hdiv, roundHalfEven_intCast]
  exact h.symm

/-- A significand of at most 53 bits at an exponent of the format needs no rounding. -/
lemma round_mul_zpow {m : ℤ} {e : ℤ} (hm : 0 ≤ m) (hm' : m ≤ 2 ^ 53) (he : -1074 ≤ e) :
    round (m * 2 ^ e) = m * 2 ^ e := by
  rcases hm.eq_or_lt with rfl | hpos
  · simp [round, roundHalfEven]
  have hval : (0 : ℚ) < m * 2 ^ e := mul_pos (by exact_mod_cast hpos) (zpow_pos two_pos e)
  rcases hm'.lt_or_eq with hlt | rfl
  · -- the last place of the value is at `e` or below it
    have hlog : Int.log 2 ((m : ℚ) * 2 ^ e) < e + 53 := by
      rw [← Int.lt_zpow_iff_log_lt one_lt_two hval]
      push_cast
      rw [zpow_add₀ two_ne_zero, mul_comm]
      refine mul_lt_mul_of_pos_left ?_ (zpow_pos two_pos e)
      exact_mod_cast hlt
    have hexp : ulpExp (m * 2 ^ e) ≤ e := by
      unfold ulpExp
      omega
    obtain ⟨k, hk⟩ := Int.le.dest hexp
    refine round_eq_self (m := m * 2 ^ k) ?_
    rw [ulp]
    push_cast
    rw [mul_assoc, ← zpow_natCast, ← zpow_add₀ two_ne_zero, add_comm, hk]
  · have hpow : ((2 ^ 53 : ℤ) : ℚ) * 2 ^ e = 2 ^ (e + 53) := by
      rw [zpow_add₀ two_ne_zero, mul_comm]
      norm_num
    have hexp : ulpExp ((2 : ℚ) ^ (e + 53)) = e + 1 := by
      have hlog : Int.log 2 ((2 : ℚ) ^ (e + 53)) = e + 53 := by
        exact_mod_cast Int.log_zpow (R := ℚ) one_lt_two (e + 53)
      rw [ulpExp]
      omega
    rw [hpow]
    refine round_eq_self (m := 2 ^ 52) ?_
    rw [ulp, hexp, zpow_add₀ two_ne_zero, zpow_add₀ two_ne_zero]
    ring

lemma round_natCast {n : ℕ} (hn : n ≤ 2 ^ 53) : round n = n := by
  have h : round (((n : ℤ) : ℚ) * 2 ^ (0 : ℤ)) = ((n : ℤ) : ℚ) * 2 ^ (0 : ℤ) :=
    round_mul_zpow (by positivity) (by exact_mod_cast hn) (by norm_num)
  simpa using h

lemma nearest_eq_some {q r : ℚ} (h : nearest q = some r) : r = round q ∧ r < 2 ^ 1024 := by
  unfold nearest at h
  split_ifs at h with hlt
  cases h
  exact ⟨rfl, hlt⟩

/-! ### Numbers of the format -/

/-- A finite number; zero has a sign too. -/
structure F64 where
  neg : Bool
  mag : ℚ
  nonneg : 0 ≤ mag
  exact : nearest mag = some mag
  deriving DecidableEq

end Float64
