import CaddyPanel.Lib.Url

/-!
# IP addresses

Addresses as Go's `net.IP` has them: 128 bits, an IPv4 address in its IPv6-mapped form, whichever way it was written.
`parseIP` reads both notations, and a network contains addresses of its own family only.
-/

namespace IP

open List Text

abbrev Addr := BitVec 128

/-- The 16-byte form of an IPv4 address. -/
def mapped (v : BitVec 32) : Addr :=
  0xffff#96 ++ v

def is4 (ip : Addr) : Bool :=
  ip.extractLsb' 32 96 = 0xffff#96

/-- `To4`. -/
def to4 (ip : Addr) : Option (BitVec 32) :=
  if is4 ip then some (ip.extractLsb' 0 32) else none

/-! ### Reading an address -/

/-- One field of an IPv4 address, without a leading zero. -/
def parseOctet (s : Str) : Option Nat :=
  let n := s.foldl (fun n c => 10 * n + (c.toNat - '0'.toNat)) 0
  if s ≠ [] && s.all Char.isDigit && (s.length = 1 || s.head? ≠ some '0') && n ≤ 255 then some n else none

/-- `parseIPv4Fields`. -/
def parseIPv4 (s : Str) : Option (BitVec 32) :=
  match (s.splitOn '.').map parseOctet with
  | [some a, some b, some c, some d] => some (BitVec.ofNat 32 (((a * 256 + b) * 256 + c) * 256 + d))
  | _ => none

def hexValue (s : Str) : Nat :=
  s.foldl (fun n c => 16 * n + Url.unhex c) 0

/-- The loop of `parseIPv6`: the groups that were read, and how many of them stand before the `::`. -/
def parseGroups : Nat → List Nat → Option Nat → Str → Option (List Nat × Option Nat)
  | 0, _, _, _ => none
  | fuel + 1, groups, ellipsis, s =>
    let hex := s.takeWhile Url.isHex
    let read := groups ++ [hexValue hex]
    if hex = [] || 4 < hex.length then none
    else
      match s.dropWhile Url.isHex with
      | [] => some (read, ellipsis)
      | '.' :: _ =>
        -- the last two groups may be an IPv4 address
        if ellipsis = none && groups.length ≠ 6 || 6 < groups.length then none
        else (parseIPv4 s).map fun (v : BitVec 32) => (groups ++ [(v >>> 16).toNat, (v.setWidth 16).toNat], ellipsis)
      | [':'] => none
      | ':' :: ':' :: rest =>
        if ellipsis.isSome then none
        else if rest = [] then some (read, some read.length)
        else parseGroups fuel read (some read.length) rest
      | ':' :: rest => parseGroups fuel read ellipsis rest
      | _ => none

/-- The address of eight groups, with zeros for the `::`. -/
def ofGroups (groups : List Nat) (ellipsis : Option Nat) : Option Addr :=
  let addr (gs : List Nat) : Addr := gs.foldl (fun acc g => (acc <<< 16) ||| BitVec.ofNat 128 g) 0
  match ellipsis with
  | none => if groups.length = 8 then some (addr groups) else none
  | some e =>
    if groups.length < 8 then
      some (addr (groups.take e ++ List.replicate (8 - groups.length) 0 ++ groups.drop e))
    else none

def parseIPv6 (s : Str) : Option Addr :=
  match s with
  | [':', ':'] => some 0
  | ':' :: ':' :: rest => (parseGroups 8 [] (some 0) rest).bind fun (groups, e) => ofGroups groups e
  | _ => (parseGroups 8 [] none s).bind fun (groups, e) => ofGroups groups e

/-- A character of an address; `net.ParseIP` takes no zone. -/
def isAddrChar (c : Char) : Bool :=
  Url.isHex c || c = ':' || c = '.'

/-- `net.ParseIP`: the first dot or colon says which notation it is. -/
def parseIP (s : Str) : Option Addr :=
  if s.all isAddrChar then
    match s.find? fun c => c = '.' || c = ':' with
    | some '.' => (parseIPv4 s).map mapped
    | some ':' => parseIPv6 s
    | _ => none
  else none

example : parseIP "::ffff:203.0.113.7" = parseIP "203.0.113.7" := by decide +kernel

example : parseIP "2001:db8::1:0" = some 0x20010db8000000000000000000010000#128 := by decide +kernel

lemma isSpace_of_isAddrChar {c : Char} (h : isAddrChar c) : isSpace c = false := by
  have hle : ∀ a b : Char, a ≤ b ↔ a.toNat ≤ b.toNat := fun a b => Iff.rfl
  simp only [isAddrChar, Url.isHex, Bool.or_eq_true, Bool.and_eq_true, decide_eq_true_eq, hle, Char.reduceToNat] at h
  rcases h with (h | rfl) | rfl
  · simp only [isSpace, mem_cons, not_mem_nil, or_false, decide_eq_false_iff_not, Bool.or_eq_false_iff,
      Bool.and_eq_false_imp, decide_eq_true_eq]
    omega
  · rfl
  · rfl

variable {ip addr : Addr} {s : Str} {fuel n w ones : Nat}

lemma isAddrChar_of_parseIP (h : parseIP s = some ip) : ∀ c ∈ s, isAddrChar c := by
  simp only [parseIP] at h
  split at h
  · next hall => exact all_eq_true.mp hall
  · cases h

lemma colons_of_parseGroups {groups : List Nat} {out : List Nat} {e : Option Nat}
    (h : parseGroups fuel groups none s = some (out, e)) (hip : ofGroups out e = some ip) :
    6 ≤ s.count ':' + groups.length ∨ 2 ≤ s.count ':' := by
  induction fuel generalizing groups s with
  | zero => cases h
  | succ fuel ih =>
    have hcount : s.count ':' = (s.dropWhile Url.isHex).count ':' := by
      conv_lhs => rw [← takeWhile_append_dropWhile (p := Url.isHex) (l := s), count_append]
      rw [Nat.add_eq_right, count_eq_zero]
      intro hmem
      exact absurd (mem_takeWhile_imp hmem) (by decide)
    rw [hcount]
    simp only [parseGroups] at h
    split at h
    · cases h
    split at h
    · cases h
      simp [ofGroups] at hip
      omega
    · split at h
      · cases h
      rename_i hplace
      simp only [decide_true, Bool.true_and, Bool.or_eq_true, decide_eq_true_eq, not_or] at hplace
      omega
    · cases h
    · next rest heq => simp [heq]
    · next rest heq =>
      have hrest := ih h
      simp only [heq, count_cons_self, length_append, length_cons, length_nil] at hrest ⊢
      omega
    · cases h

lemma colons_of_parseIPv6 (h : parseIPv6 s = some ip) : 2 ≤ s.count ':' := by
  simp only [parseIPv6] at h
  split at h
  · decide
  · simp
  obtain ⟨⟨groups, e⟩, hgroups, hip⟩ := Option.bind_eq_some_iff.mp h
  have := colons_of_parseGroups hgroups hip
  simp only [length_nil] at this
  omega

lemma isDigit_of_parseOctet (h : parseOctet s = some n) : ∀ c ∈ s, c.isDigit := by
  simp only [parseOctet] at h
  split at h
  · next hs =>
    simp only [Bool.and_eq_true] at hs
    exact all_eq_true.mp hs.1.1.2
  · cases h

lemma not_colon_of_parseIPv4 {v : BitVec 32} (h : parseIPv4 s = some v) : ':' ∉ s := by
  intro hmem
  have hparts : ':' = '.' ∨ ∃ x ∈ s.splitOn '.', ':' ∈ x := Text.mem_of_mem_splitOn hmem
  obtain hsep | ⟨x, hx, hcolon⟩ := hparts
  · cases hsep
  have hpart : ∃ n, parseOctet x = some n := by
    have hx' := mem_map_of_mem (f := parseOctet) hx
    simp only [parseIPv4] at h
    split at h
    · next hparts =>
      rw [hparts] at hx'
      simp only [mem_cons, not_mem_nil, or_false] at hx'
      rcases hx' with hx' | hx' | hx' | hx' <;> exact ⟨_, hx'⟩
    · cases h
  obtain ⟨n, hn⟩ := hpart
  exact absurd (isDigit_of_parseOctet hn ':' hcolon) (by decide)

/-- An address is not taken for a host and a port: it has no colon or more than one. -/
lemma colons_of_parseIP (h : parseIP s = some ip) : s.count ':' ≠ 1 := by
  simp only [parseIP] at h
  split at h
  · split at h
    · obtain ⟨v, hv, -⟩ := Option.map_eq_some_iff.mp h
      rw [count_eq_zero.mpr (not_colon_of_parseIPv4 hv)]
      exact Nat.zero_ne_one
    · have := colons_of_parseIPv6 h
      omega
    · cases h
  · cases h

/-! ### Networks -/

/-- A `net.IPNet`; `none` is the one without an address, which contains nothing. -/
inductive Network where
  | v4 (addr mask : BitVec 32)
  | v6 (addr mask : Addr)
  | none

def Network.contains (n : Network) (ip : Addr) : Bool :=
  match n with
  | .v4 addr mask => (to4 ip).any fun v => v &&& mask = addr &&& mask
  | .v6 addr mask => !is4 ip && ip &&& mask = addr &&& mask
  | .none => false

/-! ### The kinds of addresses -/

def octet (v : BitVec 32) (i : Nat) : BitVec 8 :=
  v.extractLsb' (24 - 8 * i) 8

def byte (ip : Addr) (i : Nat) : BitVec 8 :=
  ip.extractLsb' (120 - 8 * i) 8

def isUnspecified (ip : Addr) : Bool :=
  ip = mapped 0 || ip = 0

def isLoopback (ip : Addr) : Bool :=
  match to4 ip with
  | some v => octet v 0 = 127
  | none => ip = 1

def isPrivate (ip : Addr) : Bool :=
  match to4 ip with
  | some v => octet v 0 = 10 || octet v 0 = 172 && octet v 1 &&& 0xf0 = 16 || octet v 0 = 192 && octet v 1 = 168
  | none => byte ip 0 &&& 0xfe = 0xfc

def isMulticast (ip : Addr) : Bool :=
  match to4 ip with
  | some v => octet v 0 &&& 0xf0 = 0xe0
  | none => byte ip 0 = 0xff

def isInterfaceLocalMulticast (ip : Addr) : Bool :=
  byte ip 0 = 0xff && byte ip 1 &&& 0x0f = 0x01

def isLinkLocalMulticast (ip : Addr) : Bool :=
  match to4 ip with
  | some v => octet v 0 = 224 && octet v 1 = 0 && octet v 2 = 0
  | none => byte ip 0 = 0xff && byte ip 1 &&& 0x0f = 0x02

def isLinkLocalUnicast (ip : Addr) : Bool :=
  match to4 ip with
  | some v => octet v 0 = 169 && octet v 1 = 254
  | none => byte ip 0 = 0xfe && byte ip 1 &&& 0xc0 = 0x80

/-! ### Blocks of addresses -/

/-- The addresses with the first `ones` bits of another one. -/
def block4 (addr : BitVec 32) (ones : Nat) (v : BitVec 32) : Bool :=
  v >>> (32 - ones) = addr >>> (32 - ones)

def block6 (addr : Addr) (ones : Nat) (ip : Addr) : Bool :=
  ip >>> (128 - ones) = addr >>> (128 - ones)

lemma ushiftRight_inj {x y : BitVec w} : x >>> n = y >>> n ↔ x.toNat / 2 ^ n = y.toNat / 2 ^ n := by
  rw [← BitVec.toNat_inj, BitVec.toNat_ushiftRight, BitVec.toNat_ushiftRight, Nat.shiftRight_eq_div_pow,
    Nat.shiftRight_eq_div_pow]

lemma block4_eq_true {addr v : BitVec 32} :
    block4 addr ones v ↔ v.toNat / 2 ^ (32 - ones) = addr.toNat / 2 ^ (32 - ones) := by
  rw [block4, decide_eq_true_eq, ushiftRight_inj]

lemma block6_eq_true : block6 addr ones ip ↔ ip.toNat / 2 ^ (128 - ones) = addr.toNat / 2 ^ (128 - ones) := by
  rw [block6, decide_eq_true_eq, ushiftRight_inj]

lemma toNat_octet (v : BitVec 32) (i : Nat) : (octet v i).toNat = v.toNat / 2 ^ (24 - 8 * i) % 256 := by
  rw [octet, BitVec.extractLsb'_toNat, Nat.shiftRight_eq_div_pow]

lemma toNat_byte (ip : Addr) (i : Nat) : (byte ip i).toNat = ip.toNat / 2 ^ (120 - 8 * i) % 256 := by
  rw [byte, BitVec.extractLsb'_toNat, Nat.shiftRight_eq_div_pow]

/-- A test of the high bits of a byte asks for a range of it. -/
lemma and_high_eq (b : BitVec 8) :
    (b &&& 0xf0 = 16 ↔ b.toNat / 16 = 1) ∧ (b &&& 0xc0 = 64 ↔ b.toNat / 64 = 1) ∧
      (b &&& 0xfe = 0xfc ↔ b.toNat / 2 = 126) ∧ (b &&& 0xc0 = 0x80 ↔ b.toNat / 64 = 2) := by
  revert b
  decide +kernel

section
variable {ip : Addr} {v : BitVec 32}

lemma isLoopback_of_to4 (h : to4 ip = some v) : isLoopback ip = block4 0x7f000000#32 8 v := by
  rw [Bool.eq_iff_iff, block4_eq_true]
  simp only [isLoopback, h, decide_eq_true_eq, ← BitVec.toNat_inj, toNat_octet, BitVec.ofNat_eq_ofNat,
    BitVec.toNat_ofNat]
  omega

lemma isPrivate_of_to4 (h : to4 ip = some v) : isPrivate ip =
    (block4 0x0a000000#32 8 v || block4 0xac100000#32 12 v || block4 0xc0a80000#32 16 v) := by
  rw [Bool.eq_iff_iff, Bool.or_eq_true, Bool.or_eq_true, block4_eq_true, block4_eq_true, block4_eq_true]
  simp only [isPrivate, h, Bool.or_eq_true, Bool.and_eq_true, decide_eq_true_eq, (and_high_eq _).1]
  simp only [← BitVec.toNat_inj, toNat_octet, BitVec.ofNat_eq_ofNat, BitVec.toNat_ofNat]
  omega

lemma isLinkLocalUnicast_of_to4 (h : to4 ip = some v) : isLinkLocalUnicast ip = block4 0xa9fe0000#32 16 v := by
  rw [Bool.eq_iff_iff, block4_eq_true]
  simp only [isLinkLocalUnicast, h, Bool.and_eq_true, decide_eq_true_eq, ← BitVec.toNat_inj, toNat_octet,
    BitVec.ofNat_eq_ofNat, BitVec.toNat_ofNat]
  omega

/-- `100.64.0.0/10` by its first two bytes. -/
lemma cgnat_eq (v : BitVec 32) :
    (decide (octet v 0 = 100) && decide (octet v 1 &&& 0xC0 = 64)) = block4 0x64400000#32 10 v := by
  rw [Bool.eq_iff_iff, block4_eq_true]
  simp only [Bool.and_eq_true, decide_eq_true_eq, (and_high_eq _).2.1]
  simp only [← BitVec.toNat_inj, toNat_octet, BitVec.ofNat_eq_ofNat, BitVec.toNat_ofNat]
  omega

lemma isPrivate_of_not4 (h : to4 ip = none) : isPrivate ip = block6 (0xfc#8 ++ 0#120) 7 ip := by
  rw [Bool.eq_iff_iff, block6_eq_true]
  simp only [isPrivate, h, decide_eq_true_eq, (and_high_eq _).2.2.1, toNat_byte]
  rw [show (0xfc#8 ++ 0#120).toNat = 0xfc * 2 ^ 120 from rfl]
  omega

lemma isLinkLocalUnicast_of_not4 (h : to4 ip = none) : isLinkLocalUnicast ip = block6 (0xfe80#16 ++ 0#112) 10 ip := by
  rw [Bool.eq_iff_iff, block6_eq_true]
  simp only [isLinkLocalUnicast, h, Bool.and_eq_true, decide_eq_true_eq, (and_high_eq _).2.2.2]
  simp only [← BitVec.toNat_inj, toNat_byte, BitVec.ofNat_eq_ofNat, BitVec.toNat_ofNat]
  rw [show (0xfe80#16 ++ 0#112).toNat = 0xfe80 * 2 ^ 112 from rfl]
  omega

end

/-! ### The dotted text -/

/-- `String` of an IPv4 address. -/
def dotted (v : BitVec 32) : Str :=
  ['.'].intercalate ((range 4).map fun i => Nat.toDigits 10 (octet v i).toNat)

lemma parseOctet_toDigits (b : BitVec 8) : parseOctet (Nat.toDigits 10 b.toNat) = some b.toNat ∧
    '.' ∉ Nat.toDigits 10 b.toNat ∧ '/' ∉ Nat.toDigits 10 b.toNat := by
  revert b
  decide +kernel

lemma parseIPv4_dotted (v : BitVec 32) : parseIPv4 (dotted v) = some v := by
  have hoctet i := parseOctet_toDigits (octet v i)
  have hsplit : (dotted v).splitOn '.' = (range 4).map fun i => Nat.toDigits 10 (octet v i).toNat := by
    refine splitOn_intercalate _ ?_ (by simp)
    simp only [mem_map, forall_exists_index, and_imp, forall_apply_eq_imp_iff₂]
    exact fun i _ => (hoctet i).2.1
  simp only [parseIPv4, hsplit, show range 4 = [0, 1, 2, 3] from rfl, map_cons, map_nil, (hoctet _).1]
  refine congrArg some (BitVec.eq_of_toNat_eq ?_)
  simp only [BitVec.toNat_ofNat, toNat_octet]
  have := v.isLt
  omega

lemma dotted_injective : Function.Injective dotted := by
  intro v w h
  rw [← Option.some.injEq, ← parseIPv4_dotted, h, parseIPv4_dotted]

end IP
