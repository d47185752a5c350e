import Mathlib.Tactic.Ring
import CaddyPanel.Lib.Utf8

/-!
# Numbers as bytes, and lists in blocks

A number is written in big-endian order with a fixed number of bytes, and read back modulo the size
of the field. A list that was cut into blocks of one length has its prefixes and suffixes at whole
numbers of blocks.
-/

namespace Frames

open List
open Utf8 (Bytes)

/-! ### Big-endian numbers -/

/-- The last `width` digits of the number in base 256. -/
def put : ℕ → ℕ → Bytes
  | 0, _ => []
  | width + 1, n => UInt8.ofNat (n / 256 ^ width) :: put width n

def get (b : Bytes) : ℕ :=
  b.foldl (fun n digit => n * 256 + digit.toNat) 0

@[simp] lemma length_put (width n : ℕ) : (put width n).length = width := by
  induction width with
  | zero => rfl
  | succ width ih => simp [put, ih]

lemma foldl_put (width n k : ℕ) :
    (put width n).foldl (fun n digit => n * 256 + digit.toNat) k = k * 256 ^ width + n % 256 ^ width := by
  induction width generalizing k with
  | zero => simp [put, Nat.mod_one]
  | succ width ih =>
    have hdigit : (UInt8.ofNat (n / 256 ^ width)).toNat = n / 256 ^ width % 256 := by simp
    simp only [put, foldl_cons]
    rw [ih, hdigit, pow_succ, Nat.mod_mul]
    ring

lemma get_put (width n : ℕ) : get (put width n) = n % 256 ^ width := by
  rw [get, foldl_put, Nat.zero_mul, Nat.zero_add]

lemma put_inj {width m n : ℕ} (h : put width m = put width n) : m % 256 ^ width = n % 256 ^ width := by
  rw [← get_put, ← get_put, h]

/-! ### Blocks of one length -/

section Blocks

variable {α : Type*} {size : ℕ} {blocks : List (List α)}

lemma length_flatten (h : ∀ b ∈ blocks, b.length = size) : blocks.flatten.length = blocks.length * size := by
  induction blocks with
  | nil => simp
  | cons b blocks ih =>
    have hb := h b mem_cons_self
    rw [flatten_cons, length_append, hb, ih fun b hb => h b (mem_cons_of_mem _ hb), length_cons]
    ring

/-- The list splits after `q` blocks. -/
lemma flatten_split (h : ∀ b ∈ blocks, b.length = size) (rest : List α) {q : ℕ} (hq : q ≤ blocks.length) :
    blocks.flatten ++ rest = (blocks.take q).flatten ++ ((blocks.drop q).flatten ++ rest) ∧
      (blocks.take q).flatten.length = q * size := by
  constructor
  · rw [← append_assoc, ← flatten_append, take_append_drop]
  · rw [length_flatten fun b hb => h b (mem_of_mem_take hb), length_take, Nat.min_eq_left hq]

lemma take_flatten (h : ∀ b ∈ blocks, b.length = size) (rest : List α) {q : ℕ} (hq : q ≤ blocks.length) :
    (blocks.flatten ++ rest).take (q * size) = (blocks.take q).flatten := by
  obtain ⟨hsplit, hlength⟩ := flatten_split h rest hq
  rw [hsplit, ← hlength, take_left]

lemma drop_flatten (h : ∀ b ∈ blocks, b.length = size) (rest : List α) {q : ℕ} (hq : q ≤ blocks.length) :
    (blocks.flatten ++ rest).drop (q * size) = (blocks.drop q).flatten ++ rest := by
  obtain ⟨hsplit, hlength⟩ := flatten_split h rest hq
  rw [hsplit, ← hlength, drop_left]

/-- Where a suffix begins with a block. -/
lemma le_length_of_mul_le (h : ∀ b ∈ blocks, b.length = size) {rest : List α}
    (hrest : rest.length < size) {q : ℕ} (hq : q * size ≤ (blocks.flatten ++ rest).length) : q ≤ blocks.length := by
  rw [length_append, length_flatten h] at hq
  have hlt : q * size < (blocks.length + 1) * size := by
    rw [Nat.succ_mul]
    omega
  exact Nat.le_of_lt_succ (Nat.lt_of_mul_lt_mul_right hlt)

end Blocks

end Frames
