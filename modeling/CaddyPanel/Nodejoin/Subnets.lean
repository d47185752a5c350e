import CaddyPanel.Lib.IP
import CaddyPanel.Nodejoin.Redeem

/-!
# The subnet of the nodes (`AllocateNodeIP`)

The allocator cuts the last byte off the text of the subnet and tries 253 others, whatever the length
of the prefix.
-/

namespace Nodejoin

open IP List
open Text (Str)

/-- The address with another last byte. -/
def host (addr : BitVec 32) (i : ℕ) : BitVec 32 :=
  .ofNat 32 (addr.toNat / 256 * 256 + i)

variable {addr control v : BitVec 32} {i ones : ℕ} {used : List (BitVec 32)}

lemma toNat_host (hi : i < 256) : (host addr i).toNat = addr.toNat / 256 * 256 + i := by
  have := addr.isLt
  rw [host, BitVec.toNat_ofNat]
  omega

/-- The text of the first three bytes. -/
def network (addr : BitVec 32) : Str :=
  ['.'].intercalate ((range 3).map fun i => Nat.toDigits 10 (octet addr i).toNat)

lemma dotted_eq (v : BitVec 32) : dotted v = network v ++ '.' :: Nat.toDigits 10 (octet v 3).toNat := by
  simp [dotted, network, range_succ, intercalate, intersperse]

lemma dotted_host (hi : i < 256) : dotted (host addr i) = network addr ++ '.' :: Nat.toDigits 10 i := by
  have hlast : (addr.toNat / 256 * 256 + i) % 256 = i := by omega
  have hrest (j) : (addr.toNat / 256 * 256 + i) / (256 * j) % 256 = addr.toNat / (256 * j) % 256 := by
    rw [← Nat.div_div_eq_div_mul, ← Nat.div_div_eq_div_mul]
    congr 2
    omega
  simp [dotted_eq, network, range_succ, toNat_octet, toNat_host hi, hlast, hrest 1, hrest 256, hrest 65536]

/-- The settings with an IPv4 subnet and the panel's own address. -/
def onSubnet (addr : BitVec 32) (ones : ℕ) (control : BitVec 32) : ControlPlane :=
  ⟨[], dotted control, dotted addr ++ '/' :: Nat.toDigits 10 ones⟩

lemma subnetBase_onSubnet : subnetBase (onSubnet addr ones control).subnet = some (network addr) := by
  have hoctet i := (parseOctet_toDigits (octet addr i)).2
  have hslash : ∀ c ∈ dotted addr, c ≠ '/' := by
    rintro c hc rfl
    simp [dotted, range_succ, intercalate, intersperse, (hoctet _).2] at hc
  have hip : (onSubnet addr ones control).subnet.takeWhile (· ≠ '/') = dotted addr := by
    rw [onSubnet, takeWhile_append_of_pos fun c hc => decide_eq_true (hslash c hc)]
    simp
  rw [subnetBase, if_pos (by simp [onSubnet]), hip, dotted_eq, if_pos (by simp), reverse_append, reverse_cons,
    append_assoc, dropWhile_append_of_pos fun c hc => decide_eq_true ?_]
  · simp
  · exact ne_of_mem_of_not_mem (mem_reverse.mp hc) (hoctet 3).1

/-- The addresses that are tried. -/
def candidates (addr : BitVec 32) : List (BitVec 32) :=
  (range' 2 253).map (host addr)

lemma mem_candidates :
    v ∈ candidates addr ↔ v.toNat / 256 = addr.toNat / 256 ∧ 2 ≤ v.toNat % 256 ∧ v.toNat % 256 < 255 := by
  rw [candidates, mem_map]
  constructor
  · rintro ⟨i, hi, rfl⟩
    have := mem_range'_1.mp hi
    rw [toNat_host (by omega)]
    omega
  · intro h
    refine ⟨v.toNat % 256, mem_range'_1.mpr (by omega), BitVec.eq_of_toNat_eq ?_⟩
    rw [toNat_host (by omega)]
    omega

lemma allocateNodeIP_onSubnet : allocateNodeIP (onSubnet addr ones control) (used.map dotted) =
    ((candidates addr).find? (· ∉ control :: used)).map dotted := by
  have htexts : ((range' 2 253).map fun i => network addr ++ '.' :: Nat.toDigits 10 i) =
      (candidates addr).map dotted := by
    rw [candidates, map_map]
    refine map_congr_left fun i hi => (dotted_host ?_).symm
    have := mem_range'_1.mp hi
    omega
  have hfree (v) : dotted v ≠ dotted control ∧ dotted v ∉ used.map dotted ↔ v ∉ control :: used := by
    rw [mem_map_of_injective dotted_injective, dotted_injective.ne_iff, mem_cons, not_or]
  rw [allocateNodeIP, subnetBase_onSubnet, Option.bind_eq_bind, Option.bind_some, htexts, find?_map]
  simp only [Function.comp_def, onSubnet, hfree]

/-- An address of the subnet that is neither its first nor its last one. -/
def Inner (addr : BitVec 32) (ones : ℕ) (v : BitVec 32) : Prop :=
  block4 addr ones v ∧ v.toNat % 2 ^ (32 - ones) ≠ 0 ∧ v.toNat % 2 ^ (32 - ones) ≠ 2 ^ (32 - ones) - 1

/-- The result is a free inner address, or there is none. -/
def Sound (addr : BitVec 32) (ones : ℕ) (taken : List (BitVec 32)) : Option (BitVec 32) → Prop
  | some v => Inner addr ones v ∧ v ∉ taken
  | none => ∀ v, Inner addr ones v → v ∈ taken

/-- `AllocateNodeIP` returns a free inner address wherever there is one. -/
def Allocates (addr : BitVec 32) (ones : ℕ) (control : BitVec 32) (used : List (BitVec 32)) : Prop :=
  Sound addr ones (control :: used)
    ((allocateNodeIP (onSubnet addr ones control) (used.map dotted)).bind parseIPv4)

lemma allocates_eq : Allocates addr ones control used =
    Sound addr ones (control :: used) ((candidates addr).find? (· ∉ control :: used)) := by
  rw [Allocates, allocateNodeIP_onSubnet, Option.bind_map,
    show parseIPv4 ∘ dotted = some from funext parseIPv4_dotted, Option.bind_fun_some]

/-- It is right for every set of nodes if it tries the inner addresses and no others. -/
lemma forall_allocates_iff : (∀ used, Allocates addr ones control used) ↔
    ∀ v ≠ control, v ∈ candidates addr ↔ Inner addr ones v := by
  simp only [allocates_eq]
  refine ⟨fun h v hc => ⟨fun hv => ?_, fun hv => ?_⟩, fun h used => ?_⟩
  · -- the nodes have all other candidates
    have hlast := h ((candidates addr).filter (· ≠ v))
    cases hfind : (candidates addr).find? (· ∉ control :: (candidates addr).filter (· ≠ v)) with
    | none => simpa [hc] using find?_eq_none.mp hfind v hv
    | some w =>
      have hw := mem_of_find?_eq_some hfind
      rw [hfind] at hlast
      grind [Sound]
  · -- the nodes have all candidates
    have hnone : (candidates addr).find? (· ∉ control :: candidates addr) = none := by
      simp +contextual [find?_eq_none]
    have hall := h (candidates addr)
    rw [hnone] at hall
    exact (mem_cons.mp (hall v hv)).resolve_left hc
  cases hfind : (candidates addr).find? (· ∉ control :: used) with
  | none => grind [Sound, find?_eq_none.mp hfind]
  | some v => grind [Sound, find?_some hfind, mem_of_find?_eq_some hfind]

lemma inner_of (hones : ones ≤ 24) (hblock : v.toNat / 256 / 2 ^ (24 - ones) = addr.toNat / 256 / 2 ^ (24 - ones))
    (hlast : v.toNat % 256 ≠ 0 ∧ v.toNat % 256 ≠ 255) : Inner addr ones v := by
  have hsize : 2 ^ (32 - ones) = 256 * 2 ^ (24 - ones) := by
    rw [show 32 - ones = 8 + (24 - ones) by omega, Nat.pow_add]
  have hmod := Nat.mod_mul_right_mod v.toNat 256 (2 ^ (24 - ones))
  have := Nat.two_pow_pos (24 - ones)
  rw [Inner, block4_eq_true, hsize, ← Nat.div_div_eq_div_mul, ← Nat.div_div_eq_div_mul, hblock]
  exact ⟨rfl, by omega, by omega⟩

/-- Of two addresses in a row that it gets wrong, one is not the control address. -/
lemma not_forall_allocates (w : BitVec 32) {b : ℕ} (hb : b < 255)
    (hwrong : ∀ i, i = b ∨ i = b + 1 → ¬(host w i ∈ candidates addr ↔ Inner addr ones (host w i))) :
    ¬∀ used, Allocates addr ones control used := by
  rw [forall_allocates_iff]
  intro h
  have hcontrol i (hi : i = b ∨ i = b + 1) : host w i = control := by_contra fun hc => hwrong i hi (h _ hc)
  have hsame := congrArg BitVec.toNat ((hcontrol b (.inl rfl)).trans (hcontrol (b + 1) (.inr rfl)).symm)
  rw [toNat_host (by omega), toNat_host (by omega)] at hsame
  omega

/-- A subnet of more than 256 addresses has others beside the candidates. -/
lemma not_forall_allocates_of_lt (hones : ones < 24) : ¬∀ used, Allocates addr ones control used := by
  obtain ⟨w, hw⟩ : ∃ w : BitVec 32, w.toNat / 256 ≠ addr.toNat / 256 ∧ w.toNat / 256 / 2 = addr.toNat / 256 / 2 := by
    refine ⟨.ofNat 32 (addr.toNat + 256 - 512 * (addr.toNat / 256 % 2)), ?_⟩
    rw [BitVec.toNat_ofNat]
    omega
  refine not_forall_allocates w (by omega : 1 < 255) fun i hi hiff => ?_
  have hnat : (host w i).toNat = _ := toNat_host (by omega)
  have hblock : (host w i).toNat / 256 / 2 ^ (24 - ones) = addr.toNat / 256 / 2 ^ (24 - ones) := by
    rw [show 24 - ones = 1 + (23 - ones) by omega, Nat.pow_add, ← Nat.div_div_eq_div_mul, ← Nat.div_div_eq_div_mul]
    congr 1
    omega
  have hmem := mem_candidates.mp (hiff.mpr (inner_of hones.le hblock (by omega)))
  omega

/-- A subnet of fewer than 256 addresses leaves candidates outside. -/
lemma not_forall_allocates_of_gt (hgt : 24 < ones) (hle : ones ≤ 32) : ¬∀ used, Allocates addr ones control used := by
  -- two candidates in the other half of the 256 addresses
  refine not_forall_allocates addr (by omega : 128 - 126 * (addr.toNat / 128 % 2) < 255) fun i hi hiff => ?_
  have hnat : (host addr i).toNat = _ := toNat_host (by omega)
  have hblock := block4_eq_true.mp (hiff.mp (mem_candidates.mpr (by omega))).1
  have := congrArg (· / 2 ^ (ones - 25)) hblock
  simp only [Nat.div_div_eq_div_mul, ← Nat.pow_add, show 32 - ones + (ones - 25) = 7 by omega] at this
  rcases Nat.mod_two_eq_zero_or_one (addr.toNat / 128) with hlow | hhigh <;> omega

end Nodejoin
