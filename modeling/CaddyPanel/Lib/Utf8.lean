import CaddyPanel.Lib.Text

/-!
# Bytes of a text

A text is a list of characters, and what is sent and stored is its encoding. A program that cuts the
bytes at a given length may leave a part of a character behind; `valid_take_iff` says where it does
not. `toValid` drops such parts.
-/

namespace Utf8

open List
open Text (Str byteLength)

abbrev Bytes := List UInt8

/-- The byte of an ASCII character. -/
def byte (c : Char) : UInt8 :=
  UInt8.ofNat c.toNat

def encode (s : Str) : Bytes :=
  s.flatMap String.utf8EncodeChar

/-- The bytes are those of a text. -/
def Valid (b : Bytes) : Prop :=
  ∃ s : Str, encode s = b

@[simp] lemma encode_nil : encode [] = [] := rfl

@[simp] lemma encode_cons (c : Char) (s : Str) :
    encode (c :: s) = String.utf8EncodeChar c ++ encode s := rfl

@[simp] lemma encode_append (s t : Str) : encode (s ++ t) = encode s ++ encode t :=
  flatMap_append

@[simp] lemma length_encode (s : Str) : (encode s).length = byteLength s := by
  induction s with
  | nil => rfl
  | cons c s ih => simp [byteLength, ih]

lemma valid_encode (s : Str) : Valid (encode s) :=
  ⟨s, rfl⟩

/-! ### Decoding -/

/-- The character that the bytes begin with. -/
def head? (b : Bytes) : Option Char :=
  b.toByteArray.utf8DecodeChar? 0

lemma head?_append (c : Char) (b : Bytes) : head? (String.utf8EncodeChar c ++ b) = some c := by
  unfold head?
  rw [toByteArray_append]
  exact ByteArray.utf8DecodeChar?_utf8EncodeChar_append

variable {c d k : Char} {b a : Bytes}

lemma exists_of_head? (h : head? b = some c) : ∃ rest, b = String.utf8EncodeChar c ++ rest := by
  obtain ⟨l, hl⟩ := ByteArray.exists_of_utf8DecodeChar?_eq_some h
  refine ⟨l.data.toList, ?_⟩
  have hdata := congrArg (fun a => a.data.toList) hl
  simpa using hdata

/-- No encoding begins another. -/
lemma encodeChar_append_inj (h : String.utf8EncodeChar c ++ a = String.utf8EncodeChar d ++ b) : c = d ∧ a = b := by
  have hhead := congrArg head? h
  rw [head?_append, head?_append, Option.some.injEq] at hhead
  subst hhead
  exact ⟨rfl, append_cancel_left h⟩

lemma valid_append_char : Valid (String.utf8EncodeChar c ++ b) ↔ Valid b := by
  constructor
  · rintro ⟨s, hs⟩
    cases s with
    | nil =>
      have hlength := congrArg List.length hs
      have hpos := c.utf8Size_pos
      simp only [encode_nil, length_nil, length_append, String.length_utf8EncodeChar] at hlength
      omega
    | cons d s => exact ⟨s, (encodeChar_append_inj hs).2⟩
  · rintro ⟨s, rfl⟩
    exact ⟨c :: s, rfl⟩

lemma valid_append {s : Str} : Valid (encode s ++ b) ↔ Valid b := by
  induction s with
  | nil => simp
  | cons c s ih => rw [encode_cons, append_assoc, valid_append_char, ih]

/-! ### Cutting at a length -/

/-- Whether the first `n` bytes end with a character. -/
def boundary : Nat → Str → Bool
  | 0, _ => true
  | _ + 1, [] => true
  | n + 1, c :: s => c.utf8Size ≤ n + 1 && boundary (n + 1 - c.utf8Size) s

/-- A part of a character is not a text. -/
lemma not_valid_take_char {n : Nat} (hpos : 0 < n) (hn : n < c.utf8Size) :
    ¬ Valid ((String.utf8EncodeChar c).take n) := by
  rintro ⟨s, hs⟩
  have hlength := congrArg List.length hs
  simp only [length_encode, length_take, String.length_utf8EncodeChar] at hlength
  cases s with
  | nil =>
    simp only [byteLength, map_nil, sum_nil] at hlength
    omega
  | cons d s =>
    have hwhole : String.utf8EncodeChar d ++ (encode s ++ (String.utf8EncodeChar c).drop n) =
        String.utf8EncodeChar c ++ [] := by
      rw [← append_assoc, ← encode_cons, hs, take_append_drop, append_nil]
    obtain ⟨rfl, -⟩ := encodeChar_append_inj hwhole
    simp only [byteLength, map_cons, sum_cons] at hlength
    omega

/-- The bytes up to a length are a text where the cut is between two characters. -/
theorem valid_take_iff (n : Nat) (s : Str) : Valid ((encode s).take n) ↔ boundary n s := by
  induction s generalizing n with
  | nil => cases n <;> simpa [boundary] using valid_encode []
  | cons c s ih =>
    cases n with
    | zero => simpa [boundary] using valid_encode []
    | succ n =>
      rw [encode_cons, boundary, Bool.and_eq_true, decide_eq_true_eq]
      by_cases hfit : c.utf8Size ≤ n + 1
      · rw [take_append, String.length_utf8EncodeChar, take_of_length_le (by simpa using hfit),
          valid_append_char, ih]
        simp [hfit]
      · rw [take_append_of_le_length (by rw [String.length_utf8EncodeChar]; omega)]
        simp only [hfit, false_and, iff_false]
        exact not_valid_take_char n.succ_pos (by omega)

/-! ### Dropping what is no character -/

/-- The characters of the bytes, with `bad` for a byte that is none; the first `skip` bytes belong to
a character that was read before. -/
def chars (bad : Str) : Nat → Bytes → Str
  | _, [] => []
  | skip + 1, _ :: rest => chars bad skip rest
  | 0, b :: rest =>
    match head? (b :: rest) with
    | some c => c :: chars bad (c.utf8Size - 1) rest
    | none => bad ++ chars bad 0 rest

/-- The text that a program sees in the bytes. -/
def decode (b : Bytes) : Str :=
  chars ['\ufffd'] 0 b

/-- `strings.ToValidUTF8` with nothing in the place of what is dropped. -/
def toValid (b : Bytes) : Bytes :=
  encode (chars [] 0 b)

lemma valid_toValid (b : Bytes) : Valid (toValid b) :=
  valid_encode _

lemma byteLength_chars_le (skip : Nat) (b : Bytes) : byteLength (chars [] skip b) ≤ b.length - skip := by
  induction b generalizing skip with
  | nil => simp [chars, byteLength]
  | cons x rest ih =>
    cases skip with
    | succ skip =>
      have hrest := ih skip
      simp only [chars, length_cons]
      omega
    | zero =>
      rw [chars, nil_append]
      split
      · rename_i c hc
        obtain ⟨tail, htail⟩ := exists_of_head? hc
        have hlength := congrArg List.length htail
        have hrest := ih (c.utf8Size - 1)
        simp only [length_cons, length_append, String.length_utf8EncodeChar] at hlength
        simp only [byteLength, map_cons, sum_cons, length_cons] at hrest ⊢
        omega
      · have hrest := ih 0
        simp only [length_cons]
        omega

lemma length_toValid_le (b : Bytes) : (toValid b).length ≤ b.length := by
  rw [toValid, length_encode]
  exact byteLength_chars_le 0 b

/-! ### ASCII -/

lemma encodeChar_ascii (hk : k.toNat < 128) : String.utf8EncodeChar k = [byte k] := by
  have hle : k.val.toNat ≤ 0x7f := by
    have := hk
    unfold Char.toNat at this
    omega
  simp only [String.utf8EncodeChar, hle]
  rfl

/-- The other characters have no ASCII byte. -/
lemma le_of_mem_encodeChar (hc : 128 ≤ c.toNat) {b : UInt8} (hb : b ∈ String.utf8EncodeChar c) : 128 ≤ b.toNat := by
  have hle : ¬ c.val.toNat ≤ 0x7f := by
    unfold Char.toNat at hc
    omega
  simp only [String.utf8EncodeChar, hle, ↓reduceIte] at hb
  split_ifs at hb
  all_goals
    simp only [mem_cons, not_mem_nil, or_false] at hb
    rcases hb with rfl | rfl | rfl | rfl
  all_goals
    rw [UInt8.toNat_ofNat']
    omega

lemma byte_toNat (hk : k.toNat < 128) : (byte k).toNat = k.toNat := by
  rw [byte, UInt8.toNat_ofNat']
  omega

lemma byte_mem_encodeChar (hk : k.toNat < 128) : byte k ∈ String.utf8EncodeChar c ↔ c = k := by
  constructor
  · intro h
    by_cases hc : c.toNat < 128
    · rw [encodeChar_ascii hc, mem_singleton] at h
      have hnat := congrArg UInt8.toNat h
      rw [byte_toNat hk, byte_toNat hc] at hnat
      exact Char.toNat_inj.mp hnat.symm
    · have hge := le_of_mem_encodeChar (Nat.le_of_not_lt hc) h
      rw [byte_toNat hk] at hge
      omega
  · rintro rfl
    rw [encodeChar_ascii hk]
    exact mem_singleton_self _

lemma byte_mem_encode (hk : k.toNat < 128) {s : Str} : byte k ∈ encode s ↔ k ∈ s := by
  simp only [encode, mem_flatMap, byte_mem_encodeChar hk]
  exact ⟨fun ⟨c, hc, h⟩ => h ▸ hc, fun h => ⟨k, h, rfl⟩⟩

/-- What is left of a text without its last byte. -/
lemma dropLast_encode (s : Str) (c : Char) : (encode (s ++ [c])).dropLast =
    encode s ++ (String.utf8EncodeChar c).take (c.utf8Size - 1) := by
  have hne : String.utf8EncodeChar c ≠ [] := by
    rw [← length_pos_iff, String.length_utf8EncodeChar]
    exact c.utf8Size_pos
  simp only [encode_append, encode_cons, encode_nil, append_nil]
  rw [dropLast_append_of_ne_nil hne, dropLast_eq_take, String.length_utf8EncodeChar]

lemma length_dropLast_encode (s : Str) (c : Char) :
    (encode (s ++ [c])).dropLast.length = byteLength s + c.utf8Size - 1 := by
  rw [length_dropLast, length_encode, byteLength, map_append]
  simp [byteLength]

lemma le_of_mem_part {b : UInt8} (hb : b ∈ (String.utf8EncodeChar c).take (c.utf8Size - 1)) : 128 ≤ b.toNat := by
  by_cases hc : c.toNat < 128
  · have hsize : c.utf8Size = 1 := by
      rw [← String.length_utf8EncodeChar, encodeChar_ascii hc]
      rfl
    rw [hsize] at hb
    cases hb
  · exact le_of_mem_encodeChar (Nat.le_of_not_lt hc) (mem_of_mem_take hb)

/-- Without its last byte a text is one only where it ends in ASCII. -/
lemma valid_dropLast_iff {s : Str} : Valid (encode (s ++ [c])).dropLast ↔ c.utf8Size = 1 := by
  have hpos := c.utf8Size_pos
  rw [dropLast_encode, valid_append]
  constructor
  · intro h
    by_contra hsize
    exact not_valid_take_char (by omega) (by omega) h
  · intro h
    rw [h]
    exact valid_encode []

end Utf8
