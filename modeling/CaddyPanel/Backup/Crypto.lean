import Mathlib.Data.List.Nodup
import Mathlib.Data.Nat.ModEq
import CaddyPanel.Lib.Frames
import CaddyPanel.Lib.Runs

/-!
# Encrypted backup streams (`internal/backup/crypto.go`)

A backup is cut into chunks of 1 MiB, and each chunk is sealed on its own: the associated data says
which chunk it is and whether it is the last one, not which stream it is from. All streams have one
key. The cipher is taken as ideal: what it opens is what was sealed, with the same nonce and the same
associated data.
-/

namespace Backup

open List
open Utf8 (Bytes)

def streamHeaderV1 : Bytes := Utf8.encode "HPGBK1\x00\x00"
def streamHeaderV2 : Bytes := Utf8.encode "HPGBK2\x00\x00"

/-- 1 MiB -/
def chunkSize : ℕ := 2 ^ 20

def maxStreamChunkCT : ℕ := 4 * 2 ^ 20

lemma chunkSize_pos : 0 < chunkSize := by
  decide

abbrev Nonce := { b : Bytes // b.length = 12 }

def chunkAAD (index : UInt64) (final : Bool) : Bytes :=
  Frames.put 8 index.toNat ++ [if final then 1 else 0]

/-- What `gcm.Seal` makes of a nonce, a plaintext and associated data: the tag adds 16 bytes. -/
structure Aead where
  sealed : Nonce → Bytes → Bytes → Bytes
  length_sealed : ∀ nonce pt aad, (sealed nonce pt aad).length = pt.length + 16

/-- A chunk that was sealed. -/
structure Chunk where
  nonce : Nonce
  aad : Bytes
  pt : Bytes
  ct : Bytes
  deriving DecidableEq

/-- `gcm.Open` of the ideal cipher. -/
def openChunk (chunks : List Chunk) (nonce ct aad : Bytes) : Option Bytes :=
  (chunks.find? fun c => c.nonce.1 = nonce ∧ c.ct = ct ∧ c.aad = aad).map (·.pt)

/-! ### Writing -/

/-- A chunk in the stream: length, nonce, ciphertext. -/
def Chunk.frame (c : Chunk) : Bytes :=
  Frames.put 4 c.ct.length ++ c.nonce.1 ++ c.ct

/-- `streamEncryptWriter`, with the chunks it has sealed. The buffer is never full. -/
structure Writer where
  out : Bytes := []
  chunks : List Chunk := []
  buf : { b : Bytes // b.length < chunkSize } := ⟨[], chunkSize_pos⟩
  idx : UInt64 := 0
  written : Bool := false

namespace Writer

section Writing

variable (aead : Aead) (nonces : ℕ → Nonce)

/-- `flushChunk` of the given buffer; `nonces` has the answers of the random source. -/
def flushChunk (buf : Bytes) (final : Bool) (w : Writer) : Writer :=
  if buf = [] ∧ final = false then w
  else
    let nonce := nonces w.chunks.length
    let aad := chunkAAD w.idx final
    let chunk : Chunk := ⟨nonce, aad, buf, aead.sealed nonce buf aad⟩
    { w with
      out := w.out ++ chunk.frame
      chunks := w.chunks ++ [chunk]
      buf := ⟨[], chunkSize_pos⟩
      idx := w.idx + 1 }

/-- The loop of `Write`. -/
def fill (p : Bytes) (w : Writer) : Writer :=
  if _hp : p = [] then w
  else
    let room := chunkSize - w.buf.1.length
    if hfull : (w.buf.1 ++ p.take room).length < chunkSize then
      fill (p.drop room) { w with buf := ⟨w.buf.1 ++ p.take room, hfull⟩ }
    else fill (p.drop room) (flushChunk aead nonces (w.buf.1 ++ p.take room) false w)
termination_by p.length
decreasing_by
  -- the buffer has room
  all_goals
    have hpos := length_pos_iff.mpr _hp
    have hroom := w.buf.2
    rw [length_drop]
    omega

def header (w : Writer) : Writer :=
  if w.written then w else { w with out := w.out ++ streamHeaderV2, written := true }

def write (p : Bytes) (w : Writer) : Writer :=
  fill aead nonces p w.header

def close (w : Writer) : Writer :=
  flushChunk aead nonces w.buf.1 true w.header

end Writing

end Writer

/-- A backup: what is written into the stream, and the random nonces. -/
structure Stream where
  writes : List Bytes
  nonces : ℕ → Nonce

def Stream.plaintext (s : Stream) : Bytes :=
  s.writes.flatten

/-- The stream at its end. -/
def Stream.written (aead : Aead) (s : Stream) : Writer :=
  (s.writes.foldl (fun (w : Writer) p => w.write aead s.nonces p) {}).close aead s.nonces

/-- All that was sealed under the key. -/
def sealedChunks (aead : Aead) (streams : List Stream) : List Chunk :=
  streams.flatMap fun s => (s.written aead).chunks

/-! ### Reading -/

inductive DecryptError where
  | readHeader
  | badHeader
  | unexpectedEOF
  | chunkTooLong (n : ℕ)
  /-- the end without a final chunk -/
  | truncated
  | dataAfterFinal
  | decryptChunk (index : UInt64)
  /-- a chunk without a number -/
  | decrypt
  deriving DecidableEq

/-- The next chunk: its nonce, its ciphertext and what follows. -/
def readChunk (b : Bytes) : Except DecryptError (Option (Bytes × Bytes × Bytes)) :=
  if b = [] then .ok none
  else if b.length < 4 then .error .unexpectedEOF
  else
    let n := Frames.get (b.take 4)
    if maxStreamChunkCT < n then .error (.chunkTooLong n)
    else if (b.drop 4).length < 12 then .error .unexpectedEOF
    else if (b.drop 16).length < n then .error .unexpectedEOF
    else .ok (some ((b.drop 4).take 12, (b.drop 16).take n, (b.drop 16).drop n))

lemma length_of_readChunk {b nonce ct rest : Bytes}
    (h : readChunk b = .ok (some (nonce, ct, rest))) : rest.length < b.length := by
  unfold readChunk at h
  dsimp only at h
  split_ifs at h with hnil hshort
  all_goals cases h
  rw [length_drop, length_drop]
  omega

section Reading

variable (opens : Bytes → Bytes → Bytes → Option Bytes)

def streamDecryptV2 (idx : UInt64) (sawFinal : Bool) (b : Bytes) : Except DecryptError Bytes :=
  match h : readChunk b with
  | .error e => .error e
  | .ok none => if sawFinal then .ok [] else .error .truncated
  | .ok (some (nonce, ct, rest)) =>
    have := length_of_readChunk h
    if sawFinal then .error .dataAfterFinal
    else
      match opens nonce ct (chunkAAD idx true) with
      | some pt => (streamDecryptV2 (idx + 1) true rest).map (pt ++ ·)
      | none =>
        match opens nonce ct (chunkAAD idx false) with
        | some pt => (streamDecryptV2 (idx + 1) false rest).map (pt ++ ·)
        | none => .error (.decryptChunk idx)
termination_by b.length

/-- The format before chunks were numbered. -/
def streamDecryptV1 (b : Bytes) : Except DecryptError Bytes :=
  match h : readChunk b with
  | .error e => .error e
  | .ok none => .ok []
  | .ok (some (nonce, ct, rest)) =>
    have := length_of_readChunk h
    match opens nonce ct [] with
    | some pt => (streamDecryptV1 rest).map (pt ++ ·)
    | none => .error .decrypt
termination_by b.length

def streamDecrypt (b : Bytes) : Except DecryptError Bytes :=
  if b.length < streamHeaderV2.length then .error .readHeader
  else if b.take streamHeaderV2.length = streamHeaderV2 then
    streamDecryptV2 opens 0 false (b.drop streamHeaderV2.length)
  else if b.take streamHeaderV2.length = streamHeaderV1 then
    streamDecryptV1 opens (b.drop streamHeaderV2.length)
  else .error .badHeader

end Reading

/-! ### Which streams can be mixed -/

/-- Whatever the key opens is the whole text of one stream. -/
def Authentic (aead : Aead) (streams : List Stream) : Prop :=
  ∀ b out, streamHeaderV2 <+: b → streamDecrypt (openChunk (sealedChunks aead streams)) b = .ok out →
    out ∈ streams.map Stream.plaintext

/-- The beginning of one text and the end of another make one of the texts again, where both are cut
between chunks with one number. -/
def SpliceClosed (texts : List Bytes) : Prop :=
  ∀ a ∈ texts, ∀ b ∈ texts, ∀ i j, i ≡ j [MOD 2 ^ 64] →
    i * chunkSize ≤ a.length → j * chunkSize ≤ b.length →
      a.take (i * chunkSize) ++ b.drop (j * chunkSize) ∈ texts

/-! ### The chunks of a stream -/

lemma chunkAAD_inj {i j : UInt64} {f g : Bool} (h : chunkAAD i f = chunkAAD j g) : i = j ∧ f = g := by
  obtain ⟨hindex, hflag⟩ := append_inj h (by simp)
  constructor
  · have hmod := Frames.put_inj hindex
    have hsize : 256 ^ 8 = 2 ^ 64 := by norm_num
    rw [hsize, Nat.mod_eq_of_lt i.toNat_lt, Nat.mod_eq_of_lt j.toNat_lt] at hmod
    exact UInt64.toNat_inj.mp hmod
  · cases f <;> cases g <;> simp_all

lemma ofNat_eq_iff {i j : ℕ} : UInt64.ofNat i = UInt64.ofNat j ↔ i ≡ j [MOD 2 ^ 64] := by
  rw [← UInt64.toNat_inj, UInt64.toNat_ofNat']
  exact Iff.rfl

section Chunks

variable {aead : Aead} {nonces : ℕ → Nonce}

/-- The chunk with number `q` of a stream. -/
def chunkAt (aead : Aead) (nonces : ℕ → Nonce) (q : ℕ) (final : Bool) (pt : Bytes) : Chunk :=
  let aad := chunkAAD (UInt64.ofNat q) final
  ⟨nonces q, aad, pt, aead.sealed (nonces q) pt aad⟩

/-- The chunks of full blocks, numbered from `q`. -/
def chunksFrom (aead : Aead) (nonces : ℕ → Nonce) (q : ℕ) : List Bytes → List Chunk
  | [] => []
  | b :: blocks => chunkAt aead nonces q false b :: chunksFrom aead nonces (q + 1) blocks

@[simp] lemma length_chunksFrom (q : ℕ) (blocks : List Bytes) :
    (chunksFrom aead nonces q blocks).length = blocks.length := by
  induction blocks generalizing q with
  | nil => rfl
  | cons b blocks ih => simp [chunksFrom, ih]

lemma chunksFrom_append (q : ℕ) (blocks blocks' : List Bytes) :
    chunksFrom aead nonces q (blocks ++ blocks') =
      chunksFrom aead nonces q blocks ++ chunksFrom aead nonces (q + blocks.length) blocks' := by
  induction blocks generalizing q with
  | nil => rfl
  | cons b blocks ih =>
    simp only [cons_append, chunksFrom, ih, length_cons]
    rw [Nat.add_assoc, Nat.add_comm 1]

variable {blocks : List Bytes} {w : Writer}

lemma exists_of_mem_chunksFrom {q : ℕ} {c : Chunk} (h : c ∈ chunksFrom aead nonces q blocks) :
    ∃ before b after, blocks = before ++ b :: after ∧ c = chunkAt aead nonces (q + before.length) false b := by
  induction blocks generalizing q with
  | nil => cases h
  | cons b blocks ih =>
    rcases mem_cons.mp h with rfl | h
    · exact ⟨[], b, blocks, rfl, rfl⟩
    obtain ⟨before, b', after, rfl, rfl⟩ := ih h
    refine ⟨b :: before, b', after, rfl, ?_⟩
    rw [length_cons, Nat.add_assoc, Nat.add_comm 1]

/-- The state of the writer that has written the header and taken in `p`. -/
structure Filled (aead : Aead) (nonces : ℕ → Nonce) (p : Bytes) (w : Writer) (blocks : List Bytes) :
    Prop where
  full : ∀ b ∈ blocks, b.length = chunkSize
  text : p = blocks.flatten ++ w.buf.1
  chunks : w.chunks = chunksFrom aead nonces 0 blocks
  idx : w.idx = UInt64.ofNat blocks.length
  written : w.written
  out : w.out = streamHeaderV2 ++ w.chunks.flatMap Chunk.frame

lemma Filled.flushChunk {p : Bytes}
    (h : Filled aead nonces p w blocks) (buf : Bytes) (final : Bool) (hbuf : buf = [] → final) :
    let w' := w.flushChunk aead nonces buf final
    w'.chunks = w.chunks ++ [chunkAt aead nonces blocks.length final buf] ∧
      w'.idx = UInt64.ofNat (blocks.length + 1) ∧ w'.buf.1 = [] ∧ w'.written ∧
      w'.out = streamHeaderV2 ++ w'.chunks.flatMap Chunk.frame := by
  have hflush : ¬(buf = [] ∧ final = false) := by
    rintro ⟨hnil, hfinal⟩
    rw [hbuf hnil] at hfinal
    cases hfinal
  have hlength : w.chunks.length = blocks.length := by
    rw [h.chunks, length_chunksFrom]
  dsimp only [Writer.flushChunk]
  rw [if_neg hflush]
  refine ⟨?_, ?_, rfl, h.written, ?_⟩
  · rw [hlength, h.idx]
    rfl
  · rw [h.idx, UInt64.ofNat_add]
    rfl
  · rw [h.out, flatMap_append, flatMap_singleton, append_assoc]

lemma Filled.fill {p : Bytes} (h : Filled aead nonces p w blocks) (r : Bytes) :
    ∃ blocks', Filled aead nonces (p ++ r) (w.fill aead nonces r) blocks' := by
  induction hn : r.length using Nat.strong_induction_on generalizing r p w blocks with
  | _ n ih =>
    subst hn
    rw [Writer.fill]
    split_ifs with hnil
    · rw [hnil, append_nil]
      exact ⟨blocks, h⟩
    dsimp only
    have hroom := w.buf.2
    have hpos := length_pos_iff.mpr hnil
    set room := chunkSize - w.buf.1.length with hroomDef
    have hlt : (r.drop room).length < r.length := by
      rw [length_drop]
      omega
    have htext : p ++ r = p ++ r.take room ++ r.drop room := by
      rw [append_assoc, take_append_drop]
    rw [htext]
    split_ifs with hfull
    · have hF : Filled aead nonces (p ++ r.take room)
          { w with buf := ⟨w.buf.1 ++ r.take room, hfull⟩ } blocks :=
        ⟨h.full, by rw [h.text, append_assoc], h.chunks, h.idx, h.written, h.out⟩
      exact ih _ hlt hF _ rfl
    have hblock : (w.buf.1 ++ r.take room).length = chunkSize := by
      rw [length_append, length_take] at hfull ⊢
      omega
    have hne : w.buf.1 ++ r.take room = [] → false := by
      intro hnil'
      rw [hnil'] at hblock
      exact absurd hblock chunkSize_pos.ne
    obtain ⟨hchunks, hidx, hbuf, hwritten, hout⟩ := h.flushChunk _ false hne
    have hF : Filled aead nonces (p ++ r.take room)
        (w.flushChunk aead nonces (w.buf.1 ++ r.take room) false)
        (blocks ++ [w.buf.1 ++ r.take room]) := by
      refine ⟨fun b hb => ?_, ?_, ?_, ?_, hwritten, hout⟩
      · rcases mem_append.mp hb with hb | hb
        · exact h.full b hb
        · rw [mem_singleton.mp hb, hblock]
      · rw [hbuf, append_nil, flatten_append, flatten_singleton, ← append_assoc, ← h.text]
      · rw [hchunks, h.chunks, chunksFrom_append, Nat.zero_add]
        rfl
      · rw [hidx, length_append]
        rfl
    exact ih _ hlt hF _ rfl

/-- After all writes. -/
lemma Filled.writes {p : Bytes} (h : Filled aead nonces p w.header blocks) (writes : List Bytes) :
    ∃ blocks', Filled aead nonces (p ++ writes.flatten)
      (writes.foldl (fun (w : Writer) r => w.write aead nonces r) w).header blocks' := by
  induction writes generalizing p w blocks with
  | nil => exact ⟨blocks, by simpa using h⟩
  | cons r writes ih =>
    obtain ⟨blocks', h'⟩ := h.fill r
    rw [flatten_cons, ← append_assoc]
    have hnext : Filled aead nonces (p ++ r) (w.write aead nonces r).header blocks' := by
      rw [Writer.write, Writer.header, if_pos h'.written]
      exact h'
    exact ih hnext

/-- What a stream has sealed and written at its end. -/
structure Stream.Sealed (aead : Aead) (s : Stream) (blocks : List Bytes) (rest : Bytes) : Prop where
  full : ∀ b ∈ blocks, b.length = chunkSize
  short : rest.length < chunkSize
  text : s.plaintext = blocks.flatten ++ rest
  chunks : (s.written aead).chunks =
    chunksFrom aead s.nonces 0 blocks ++ [chunkAt aead s.nonces blocks.length true rest]
  out : (s.written aead).out = streamHeaderV2 ++ (s.written aead).chunks.flatMap Chunk.frame

lemma Stream.exists_sealed (aead : Aead) (s : Stream) : ∃ blocks rest, s.Sealed aead blocks rest := by
  have hstart : Filled aead s.nonces [] ({} : Writer).header [] := ⟨by simp, rfl, rfl, rfl, rfl, rfl⟩
  obtain ⟨blocks, h⟩ := hstart.writes s.writes
  set w := s.writes.foldl (fun (w : Writer) r => w.write aead s.nonces r) {} with hw
  have hclose : s.written aead = w.header.flushChunk aead s.nonces w.header.buf.1 true := by
    rw [show w.header.buf = w.buf by unfold Writer.header; split_ifs <;> rfl]
    rfl
  obtain ⟨hchunks, -, -, -, hout⟩ := h.flushChunk w.header.buf.1 true fun _ => rfl
  refine ⟨blocks, w.header.buf.1, h.full, w.header.buf.2, h.text, ?_, ?_⟩
  · rw [hclose, hchunks, h.chunks]
  · rw [hclose, hout]

end Chunks

/-! ### What is accepted is a splice -/

section Accepted

variable {aead : Aead} {streams : List Stream}

variable {nonce ct aad pt b out : Bytes} {idx : UInt64}

lemma mem_of_openChunk {chunks : List Chunk} (h : openChunk chunks nonce ct aad = some pt) :
    ∃ c ∈ chunks, c.nonce.1 = nonce ∧ c.ct = ct ∧ c.aad = aad ∧ c.pt = pt := by
  obtain ⟨c, hfind, hpt⟩ := Option.map_eq_some_iff.mp h
  have hmatch := find?_some hfind
  simp only [decide_eq_true_eq] at hmatch
  exact ⟨c, mem_of_find?_eq_some hfind, hmatch.1, hmatch.2.1, hmatch.2.2, hpt⟩

lemma exists_of_openChunk (h : openChunk (sealedChunks aead streams) nonce ct aad = some pt) :
    ∃ s ∈ streams, ∃ c ∈ (s.written aead).chunks, c.aad = aad ∧ c.pt = pt := by
  obtain ⟨c, hc, -, -, haad, hpt⟩ := mem_of_openChunk h
  obtain ⟨s, hs, hmem⟩ := mem_flatMap.mp hc
  exact ⟨s, hs, c, hmem, haad, hpt⟩

/-- A final chunk is the end of its text, and shorter than the others. -/
lemma drop_of_final {s : Stream} {c : Chunk} (hc : c ∈ (s.written aead).chunks) (haad : c.aad = chunkAAD idx true) :
    c.ct.length < chunkSize + 16 ∧ ∃ q, UInt64.ofNat q = idx ∧ q * chunkSize ≤ s.plaintext.length ∧
      s.plaintext.drop (q * chunkSize) = c.pt := by
  obtain ⟨blocks, rest, h⟩ := s.exists_sealed aead
  rw [h.chunks] at hc
  rcases mem_append.mp hc with hc | hc
  · obtain ⟨before, b, after, -, rfl⟩ := exists_of_mem_chunksFrom hc
    cases (chunkAAD_inj haad).2
  obtain rfl := mem_singleton.mp hc
  refine ⟨?_, blocks.length, (chunkAAD_inj haad).1, ?_, ?_⟩
  · rw [chunkAt, aead.length_sealed]
    exact Nat.add_lt_add_right h.short 16
  · rw [h.text, length_append, Frames.length_flatten h.full]
    exact Nat.le_add_right _ _
  · rw [h.text, Frames.drop_flatten h.full rest (le_refl _), drop_length]
    rfl

/-- Another chunk is a block of its text, with something after it. -/
lemma drop_of_not_final {s : Stream} {c : Chunk} (hc : c ∈ (s.written aead).chunks)
    (haad : c.aad = chunkAAD idx false) :
    ∃ q, UInt64.ofNat q = idx ∧ (q + 1) * chunkSize ≤ s.plaintext.length ∧
      s.plaintext.take ((q + 1) * chunkSize) = s.plaintext.take (q * chunkSize) ++ c.pt := by
  obtain ⟨blocks, rest, h⟩ := s.exists_sealed aead
  rw [h.chunks] at hc
  rcases mem_append.mp hc with hc | hc
  · obtain ⟨before, b, after, hblocks, rfl⟩ := exists_of_mem_chunksFrom hc
    rw [Nat.zero_add] at haad
    have hlt : before.length + 1 ≤ blocks.length := by
      rw [hblocks, length_append, length_cons]
      omega
    refine ⟨before.length, (chunkAAD_inj haad).1, ?_, ?_⟩
    · rw [h.text, length_append, Frames.length_flatten h.full]
      exact (Nat.mul_le_mul_right _ hlt).trans (Nat.le_add_right _ _)
    rw [h.text, Frames.take_flatten h.full rest hlt,
      Frames.take_flatten h.full rest (Nat.le_of_succ_le hlt), hblocks, take_left,
      take_append, take_of_length_le (Nat.le_succ _), Nat.add_sub_cancel_left,
      take_one, flatten_append]
    simp [chunkAt]
  · obtain rfl := mem_singleton.mp hc
    cases (chunkAAD_inj haad).2

lemma streamDecryptV2_true {opens : Bytes → Bytes → Bytes → Option Bytes}
    (h : streamDecryptV2 opens idx true b = .ok out) : out = [] := by
  rw [streamDecryptV2] at h
  split at h
  · cases h
  · cases h
    rfl
  · cases h

/-- The next chunk of an accepted stream is its last one, or the rest is accepted after it. -/
lemma streamDecryptV2_false {opens : Bytes → Bytes → Bytes → Option Bytes}
    (h : streamDecryptV2 opens idx false b = .ok out) :
    ∃ nonce ct rest, readChunk b = .ok (some (nonce, ct, rest)) ∧
      (opens nonce ct (chunkAAD idx true) = some out ∨
        ∃ pt out', opens nonce ct (chunkAAD idx false) = some pt ∧
          streamDecryptV2 opens (idx + 1) false rest = .ok out' ∧ out = pt ++ out') := by
  rw [streamDecryptV2] at h
  split at h
  · cases h
  · cases h
  rename_i nonce ct rest hread
  refine ⟨nonce, ct, rest, hread, ?_⟩
  rw [if_neg Bool.false_ne_true] at h
  split at h
  · next pt hpt =>
    obtain ⟨out', hrest, rfl⟩ := Runs.map_eq_ok.mp h
    rw [streamDecryptV2_true hrest, append_nil]
    exact .inl hpt
  · split at h
    · next pt hpt =>
      obtain ⟨out', hrest, rfl⟩ := Runs.map_eq_ok.mp h
      exact .inr ⟨pt, out', hpt, hrest, rfl⟩
    · cases h

/-- The rest of an accepted stream is the end of one of the texts, behind a chunk with the number that
the reader has come to. -/
lemma exists_suffix (hclosed : SpliceClosed (streams.map Stream.plaintext))
    (h : streamDecryptV2 (openChunk (sealedChunks aead streams)) idx false b = .ok out) :
    ∃ text ∈ streams.map Stream.plaintext, ∃ q, UInt64.ofNat q = idx ∧ q * chunkSize ≤ text.length ∧
      text.drop (q * chunkSize) = out := by
  induction hn : b.length using Nat.strong_induction_on generalizing b idx out with
  | _ n ih =>
    subst hn
    obtain ⟨nonce, ct, rest, hread, hfinal | ⟨pt, out', hpt, hrest, rfl⟩⟩ := streamDecryptV2_false h
    · obtain ⟨s, hs, c, hc, haad, rfl⟩ := exists_of_openChunk hfinal
      obtain ⟨-, q, hq, hle, hdrop⟩ := drop_of_final hc haad
      exact ⟨s.plaintext, mem_map_of_mem hs, q, hq, hle, hdrop⟩
    obtain ⟨text, htext, q', hq', hle', rfl⟩ := ih _ (length_of_readChunk hread) hrest rfl
    obtain ⟨s, hs, c, hc, haad, rfl⟩ := exists_of_openChunk hpt
    obtain ⟨q, hq, hle, htake⟩ := drop_of_not_final hc haad
    have hmod : q + 1 ≡ q' [MOD 2 ^ 64] := by
      rw [← ofNat_eq_iff, hq', ← hq, UInt64.ofNat_add]
      rfl
    have hsplice := hclosed _ (mem_map_of_mem hs) text htext (q + 1) q' hmod hle hle'
    have hlength : (s.plaintext.take (q * chunkSize)).length = q * chunkSize := by
      rw [length_take, Nat.min_eq_left]
      exact (Nat.mul_le_mul_right _ (Nat.le_succ q)).trans hle
    rw [htake, append_assoc] at hsplice
    refine ⟨_, hsplice, q, hq, ?_, ?_⟩
    · rw [length_append, hlength]
      exact Nat.le_add_right _ _
    · exact drop_left' hlength

end Accepted

/-! ### Every splice is accepted -/

section Splices

variable {aead : Aead} {streams : List Stream}

/-- No nonce was used twice. -/
def Fresh (chunks : List Chunk) : Prop :=
  (chunks.map Chunk.nonce).Nodup

variable {c : Chunk} {idx : UInt64}

/-- The cipher opens what was sealed, with the nonce and the associated data it was sealed with, and nothing else. -/
structure Ideal (chunks : List Chunk) (opens : Bytes → Bytes → Bytes → Option Bytes) : Prop where
  self : ∀ c ∈ chunks, opens c.nonce.1 c.ct c.aad = some c.pt
  only : ∀ nonce ct aad pt, opens nonce ct aad = some pt →
    ∃ c ∈ chunks, c.nonce.1 = nonce ∧ c.ct = ct ∧ c.aad = aad ∧ c.pt = pt

lemma ideal_of_fresh {chunks : List Chunk} (hfresh : Fresh chunks) : Ideal chunks (openChunk chunks) where
  self := by
    intro c hc
    have hsome : (openChunk chunks c.nonce.1 c.ct c.aad).isSome := by
      rw [openChunk, Option.isSome_map, find?_isSome]
      exact ⟨c, hc, by simp⟩
    obtain ⟨pt, hpt⟩ := Option.isSome_iff_exists.mp hsome
    obtain ⟨d, hd, hnonce, -, -, rfl⟩ := mem_of_openChunk hpt
    rw [hpt, inj_on_of_nodup_map hfresh hd hc (Subtype.ext hnonce)]
  only _ _ _ _ := mem_of_openChunk

lemma readChunk_frame (hct : c.ct.length ≤ maxStreamChunkCT) (rest : Bytes) :
    readChunk (c.frame ++ rest) = .ok (some (c.nonce.1, c.ct, rest)) := by
  have hnonce := c.nonce.2
  have hput : (Frames.put 4 c.ct.length).length = 4 := Frames.length_put _ _
  have hframe : c.frame ++ rest = Frames.put 4 c.ct.length ++ (c.nonce.1 ++ (c.ct ++ rest)) := by
    simp [Chunk.frame]
  have hdrop : (c.frame ++ rest).drop 4 = c.nonce.1 ++ (c.ct ++ rest) := by
    rw [hframe, drop_left' hput]
  have hdrop' : (c.frame ++ rest).drop 16 = c.ct ++ rest := by
    have hsum : 16 = 4 + 12 := rfl
    rw [hsum, ← drop_drop, hdrop, drop_left' hnonce]
  have hget : Frames.get ((c.frame ++ rest).take 4) = c.ct.length := by
    rw [hframe, take_left' hput, Frames.get_put, Nat.mod_eq_of_lt]
    exact lt_of_le_of_lt hct (by decide)
  have hlength : (c.frame ++ rest).length = 16 + c.ct.length + rest.length := by
    simp [Chunk.frame]
    omega
  unfold readChunk
  rw [if_neg (ne_nil_of_length_pos (by omega)), if_neg (by omega)]
  rw [hget, hdrop, hdrop', if_neg (not_lt.mpr hct), if_neg (by simp [hnonce]), if_neg (by simp),
    take_left' hnonce, take_left' rfl, drop_left' rfl]

variable {opens : Bytes → Bytes → Bytes → Option Bytes}

lemma streamDecryptV2_final (hopen : opens c.nonce.1 c.ct (chunkAAD idx true) = some c.pt)
    (hct : c.ct.length ≤ maxStreamChunkCT) : streamDecryptV2 opens idx false c.frame = .ok c.pt := by
  have hread := readChunk_frame hct []
  rw [append_nil] at hread
  have hend : streamDecryptV2 opens (idx + 1) true [] = .ok [] := by
    rw [streamDecryptV2]
    rfl
  rw [streamDecryptV2]
  split
  · next hread' => rw [hread] at hread'; cases hread'
  · next hread' => rw [hread] at hread'; cases hread'
  rename_i nonce ct rest hread'
  rw [hread] at hread'
  cases hread'
  rw [hopen]
  rw [hend]
  simp [Except.map]

lemma streamDecryptV2_not_final (hfinal : opens c.nonce.1 c.ct (chunkAAD idx true) = none)
    (hopen : opens c.nonce.1 c.ct (chunkAAD idx false) = some c.pt) (hct : c.ct.length ≤ maxStreamChunkCT)
    (rest : Bytes) : streamDecryptV2 opens idx false (c.frame ++ rest) =
      (streamDecryptV2 opens (idx + 1) false rest).map (c.pt ++ ·) := by
  have hread := readChunk_frame hct rest
  rw [streamDecryptV2]
  split
  · next hread' => rw [hread] at hread'; cases hread'
  · next hread' => rw [hread] at hread'; cases hread'
  rename_i nonce ct rest' hread'
  rw [hread] at hread'
  cases hread'
  rw [if_neg Bool.false_ne_true, hfinal]
  rw [hopen]

/-- The end comes before that of the first chunk. -/
lemma streamDecryptV2_short (hct : c.ct.length ≤ maxStreamChunkCT) {b : Bytes} (hb : b <+: c.frame)
    (hne : b ≠ c.frame) (out : Bytes) : streamDecryptV2 opens idx false b ≠ .ok out := by
  intro h
  obtain ⟨nonce, ct, rest, hread, -⟩ := streamDecryptV2_false h
  have hput : (Frames.put 4 c.ct.length).length = 4 := Frames.length_put _ _
  have hlength : c.frame.length = 16 + c.ct.length := by
    simp only [Chunk.frame, length_append, hput, c.nonce.2]
  unfold readChunk at hread
  dsimp only at hread
  split_ifs at hread with hnil hfour hmax hnonce hn
  all_goals cases hread
  have hget : Frames.get (b.take 4) = c.ct.length := by
    have htake : b.take 4 = c.frame.take 4 := by
      obtain ⟨more, hmore⟩ := hb
      rw [← hmore, take_append_of_le_length (Nat.le_of_not_lt hfour)]
    rw [htake, Chunk.frame, append_assoc, take_left' hput, Frames.get_put, Nat.mod_eq_of_lt]
    exact lt_of_le_of_lt hct (by decide)
  rw [length_drop] at hn
  rw [length_drop] at hnonce
  exact hne (hb.eq_of_length_le (by omega))

lemma length_ct_chunkAt {nonces : ℕ → Nonce} {q : ℕ} {final : Bool} {pt : Bytes} (hpt : pt.length ≤ chunkSize) :
    (chunkAt aead nonces q final pt).ct.length ≤ maxStreamChunkCT := by
  have hsize : chunkSize + 16 ≤ maxStreamChunkCT := by decide
  rw [chunkAt, aead.length_sealed]
  exact (Nat.add_le_add_right hpt 16).trans hsize

/-- No chunk of a full block opens as a final one. -/
lemma Ideal.not_final (h : Ideal (sealedChunks aead streams) opens) (hc : c.ct.length = chunkSize + 16) :
    opens c.nonce.1 c.ct (chunkAAD idx true) = none := by
  rw [Option.eq_none_iff_forall_ne_some]
  intro pt hpt
  obtain ⟨d, hd, -, hct, haad, -⟩ := h.only _ _ _ _ hpt
  obtain ⟨u, -, hd⟩ := mem_flatMap.mp hd
  have hshort := (drop_of_final hd haad).1
  rw [hct, hc] at hshort
  exact lt_irrefl _ hshort

section Blocks

variable {nonces : ℕ → Nonce} {q : ℕ} {block : Bytes} {blocks : List Bytes}

/-- A full block at the front of a stream. -/
lemma Ideal.streamDecryptV2_block (h : Ideal (sealedChunks aead streams) opens) (hfull : block.length = chunkSize)
    (hmem : chunkAt aead nonces q false block ∈ sealedChunks aead streams) (hidx : UInt64.ofNat q = idx) (rest : Bytes) :
    streamDecryptV2 opens idx false ((chunkAt aead nonces q false block).frame ++ rest) =
      (streamDecryptV2 opens (UInt64.ofNat (q + 1)) false rest).map (block ++ ·) := by
  have hnext : UInt64.ofNat (q + 1) = idx + 1 := by
    rw [← hidx, UInt64.ofNat_add]
    rfl
  have hct : (chunkAt aead nonces q false block).ct.length = chunkSize + 16 := by
    rw [chunkAt, aead.length_sealed, hfull]
  have hopen := h.self _ hmem
  rw [streamDecryptV2_not_final (h.not_final hct) (hidx ▸ hopen) (length_ct_chunkAt hfull.le), hnext]
  rfl

variable (h : Ideal (sealedChunks aead streams) opens) (hfull : ∀ b ∈ blocks, b.length = chunkSize)
  (hmem : ∀ c ∈ chunksFrom aead nonces q blocks, c ∈ sealedChunks aead streams) (hidx : UInt64.ofNat q = idx)

include h hfull hmem hidx

/-- A run of full blocks in the middle of an accepted stream. -/
lemma Ideal.streamDecryptV2_chunksFrom {rest out : Bytes}
    (hrest : streamDecryptV2 opens (UInt64.ofNat (q + blocks.length)) false rest = .ok out) :
    streamDecryptV2 opens idx false
      ((chunksFrom aead nonces q blocks).flatMap Chunk.frame ++ rest) = .ok (blocks.flatten ++ out) := by
  induction blocks generalizing q idx with
  | nil =>
    subst hidx
    exact hrest
  | cons b blocks ih =>
    have htail := ih (fun b hb => hfull b (mem_cons_of_mem _ hb)) (fun c hc => hmem c (mem_cons_of_mem _ hc)) rfl
      (by rwa [Nat.add_assoc, Nat.add_comm 1])
    rw [chunksFrom, flatMap_cons, append_assoc,
      h.streamDecryptV2_block (hfull b mem_cons_self) (hmem _ mem_cons_self) hidx, htail]
    simp [Except.map]

/-- A stream that stops before its end is not accepted. -/
lemma Ideal.streamDecryptV2_cut {last : Chunk} (hlast : last.ct.length ≤ maxStreamChunkCT) {b : Bytes}
    (hb : b <+: (chunksFrom aead nonces q blocks).flatMap Chunk.frame ++ last.frame)
    (hne : b ≠ (chunksFrom aead nonces q blocks).flatMap Chunk.frame ++ last.frame) (out : Bytes) :
    streamDecryptV2 opens idx false b ≠ .ok out := by
  induction blocks generalizing q idx b out with
  | nil => exact streamDecryptV2_short hlast hb hne out
  | cons block blocks ih =>
    have hblock := hfull block mem_cons_self
    rw [chunksFrom, flatMap_cons, append_assoc] at hb hne
    by_cases hlong : (chunkAt aead nonces q false block).frame <+: b
    · obtain ⟨b', rfl⟩ := hlong
      rw [h.streamDecryptV2_block hblock (hmem _ mem_cons_self) hidx]
      intro hdec
      obtain ⟨out', hdec, -⟩ := Runs.map_eq_ok.mp hdec
      exact ih (fun b hb => hfull b (mem_cons_of_mem _ hb)) (fun c hc => hmem c (mem_cons_of_mem _ hc)) rfl
        ((prefix_append_right_inj _).mp hb) (fun heq => hne (congrArg _ heq)) out' hdec
    · have hor : _ ∨ _ := prefix_or_prefix_of_prefix hb <| prefix_append _ _
      refine streamDecryptV2_short (length_ct_chunkAt hblock.le) (hor.resolve_right hlong) ?_ out
      rintro rfl
      exact hlong (prefix_refl _)

end Blocks

section Sealed

variable {s t : Stream} {blocks : List Bytes} {rest : Bytes} {i j : ℕ}

lemma Stream.Sealed.chunks_eq (hs : s.Sealed aead blocks rest) (hj : j ≤ blocks.length) :
    (s.written aead).chunks = chunksFrom aead s.nonces 0 (blocks.take j) ++
      (chunksFrom aead s.nonces j (blocks.drop j) ++ [chunkAt aead s.nonces blocks.length true rest]) := by
  rw [hs.chunks, ← append_assoc]
  nth_rewrite 1 [← take_append_drop j blocks]
  rw [chunksFrom_append, Nat.zero_add, length_take, Nat.min_eq_left hj]

/-- The chunks of a stream from one of them on. -/
lemma Ideal.streamDecryptV2_tail (h : Ideal (sealedChunks aead streams) opens) (hs : s ∈ streams)
    (hsealed : s.Sealed aead blocks rest) (hj : j ≤ blocks.length) (hidx : UInt64.ofNat j = idx) :
    streamDecryptV2 opens idx false ((chunksFrom aead s.nonces j (blocks.drop j)).flatMap Chunk.frame ++
      (chunkAt aead s.nonces blocks.length true rest).frame) = .ok ((blocks.drop j).flatten ++ rest) := by
  have hmem : ∀ c ∈ (s.written aead).chunks, c ∈ sealedChunks aead streams :=
    fun c hc => mem_flatMap.mpr ⟨s, hs, hc⟩
  rw [hsealed.chunks_eq hj] at hmem
  refine h.streamDecryptV2_chunksFrom (fun b hb => hsealed.full b (mem_of_mem_drop hb))
    (fun c hc => hmem c (by simp [hc])) hidx ?_
  rw [length_drop, Nat.add_sub_cancel' hj]
  exact streamDecryptV2_final (h.self _ (hmem _ (by simp))) (length_ct_chunkAt hsealed.short.le)

/-- The first chunks of one stream, and the chunks of another from one with the same number on. -/
lemma Ideal.exists_splice (h : Ideal (sealedChunks aead streams) opens) (hs : s ∈ streams) (ht : t ∈ streams)
    (hij : i ≡ j [MOD 2 ^ 64]) (hi : i * chunkSize ≤ s.plaintext.length) (hj : j * chunkSize ≤ t.plaintext.length) :
    ∃ b, streamDecryptV2 opens 0 false b =
      .ok (s.plaintext.take (i * chunkSize) ++ t.plaintext.drop (j * chunkSize)) := by
  obtain ⟨blocks, rest, hsealed⟩ := s.exists_sealed aead
  obtain ⟨blocks', rest', hsealed'⟩ := t.exists_sealed aead
  rw [hsealed.text] at hi
  rw [hsealed'.text] at hj
  have hi := Frames.le_length_of_mul_le hsealed.full hsealed.short hi
  have hj := Frames.le_length_of_mul_le hsealed'.full hsealed'.short hj
  have hmem : ∀ c ∈ chunksFrom aead s.nonces 0 (blocks.take i), c ∈ sealedChunks aead streams := by
    intro c hc
    refine mem_flatMap.mpr ⟨s, hs, ?_⟩
    rw [hsealed.chunks_eq hi]
    exact mem_append_left _ hc
  have hlength : 0 + (blocks.take i).length = i := by rw [Nat.zero_add, length_take, Nat.min_eq_left hi]
  have htail := h.streamDecryptV2_tail ht hsealed' hj (ofNat_eq_iff.mpr hij.symm)
  rw [← hlength] at htail
  refine ⟨_, (h.streamDecryptV2_chunksFrom (fun b hb => hsealed.full b (mem_of_mem_take hb)) hmem rfl htail).trans ?_⟩
  rw [hsealed.text, hsealed'.text, Frames.take_flatten hsealed.full rest hi, Frames.drop_flatten hsealed'.full rest' hj]

end Sealed

end Splices

/-! ### What an accepted stream is -/

lemma streamDecrypt_header {opens : Bytes → Bytes → Bytes → Option Bytes} (b : Bytes) :
    streamDecrypt opens (streamHeaderV2 ++ b) = streamDecryptV2 opens 0 false b := by
  unfold streamDecrypt
  rw [if_neg (by simp), take_left, if_pos rfl, drop_left]

lemma spliceClosed_of_authentic {aead : Aead} {streams : List Stream}
    (hfresh : Fresh (sealedChunks aead streams)) (hauth : Authentic aead streams) :
    SpliceClosed (streams.map Stream.plaintext) := by
  intro a ha b hb i j hij hi hj
  obtain ⟨s, hs, rfl⟩ := mem_map.mp ha
  obtain ⟨t, ht, rfl⟩ := mem_map.mp hb
  obtain ⟨mixed, hmixed⟩ := (ideal_of_fresh hfresh).exists_splice hs ht hij hi hj
  refine hauth (streamHeaderV2 ++ mixed) _ (prefix_append _ _) ?_
  rw [streamDecrypt_header]
  exact hmixed

/-- Each accepted stream is the text of one backup just when the backups under the key cannot be mixed:
the first chunks of one and the last chunks of another must make one of the texts again. Nothing in a
chunk says which backup it is from. -/
theorem authentic_iff_spliceClosed (aead : Aead) (streams : List Stream) :
    (SpliceClosed (streams.map Stream.plaintext) → Authentic aead streams) ∧
      (Fresh (sealedChunks aead streams) → Authentic aead streams → SpliceClosed (streams.map Stream.plaintext)) := by
  refine ⟨?_, spliceClosed_of_authentic⟩
  rintro hclosed _ out ⟨b, rfl⟩ h
  rw [streamDecrypt_header] at h
  obtain ⟨text, htext, q, hq, hle, rfl⟩ := exists_suffix hclosed h
  have hmod : 0 ≡ q [MOD 2 ^ 64] := ofNat_eq_iff.mp hq.symm
  have hsplice := hclosed text htext text htext 0 q hmod (by simp) hle
  rwa [Nat.zero_mul, take_zero, nil_append] at hsplice

/-- However a text is cut into writes, its stream is read back whole, and no part of it that stops before its end
is accepted. -/
theorem streamDecrypt_written {aead : Aead} {streams : List Stream} {opens : Bytes → Bytes → Bytes → Option Bytes}
    (h : Ideal (sealedChunks aead streams) opens) {s : Stream} (hs : s ∈ streams) :
    streamDecrypt opens (s.written aead).out = .ok s.plaintext ∧
      ∀ b, b <+: (s.written aead).out → b ≠ (s.written aead).out → streamHeaderV2.length ≤ b.length →
        ∀ out, streamDecrypt opens b ≠ .ok out := by
  obtain ⟨blocks, rest, hsealed⟩ := s.exists_sealed aead
  have hout : (s.written aead).out = streamHeaderV2 ++ ((chunksFrom aead s.nonces 0 blocks).flatMap Chunk.frame ++
      (chunkAt aead s.nonces blocks.length true rest).frame) := by
    rw [hsealed.out, hsealed.chunks, flatMap_append, flatMap_singleton]
  have hmem : ∀ c ∈ chunksFrom aead s.nonces 0 blocks, c ∈ sealedChunks aead streams := by
    intro c hc
    refine mem_flatMap.mpr ⟨s, hs, ?_⟩
    rw [hsealed.chunks]
    exact mem_append_left _ hc
  rw [hout]
  constructor
  · rw [streamDecrypt_header, hsealed.text]
    exact h.streamDecryptV2_tail hs hsealed (Nat.zero_le _) rfl
  intro b hb hne hlen out
  obtain ⟨b, rfl⟩ := prefix_of_prefix_length_le (prefix_append _ _) hb hlen
  rw [streamDecrypt_header]
  exact h.streamDecryptV2_cut hsealed.full hmem rfl (length_ct_chunkAt hsealed.short.le)
    ((prefix_append_right_inj _).mp hb) (fun heq => hne (congrArg _ heq)) out

/-! ### Two backups -/

lemma map_nonce_chunksFrom (aead : Aead) (nonces : ℕ → Nonce) (q : ℕ) (blocks : List Bytes) :
    (chunksFrom aead nonces q blocks).map Chunk.nonce = (List.range' q blocks.length).map nonces := by
  induction blocks generalizing q with
  | nil => rfl
  | cons b blocks ih => simp [chunksFrom, chunkAt, ih, List.range'_succ]

/-- A stream draws one nonce for each full chunk and one for the last. -/
lemma map_nonce_written (aead : Aead) (s : Stream) :
    (s.written aead).chunks.map Chunk.nonce = (List.range (s.plaintext.length / chunkSize + 1)).map s.nonces := by
  obtain ⟨blocks, rest, h⟩ := s.exists_sealed aead
  have hlength : s.plaintext.length / chunkSize = blocks.length := by
    rw [h.text, length_append, Frames.length_flatten h.full, Nat.mul_comm,
      Nat.mul_add_div chunkSize_pos, Nat.div_eq_of_lt h.short, Nat.add_zero]
  rw [hlength, h.chunks, map_append, map_nonce_chunksFrom, range_succ, map_append, range_eq_range']
  rfl

/-- A cipher that hides nothing. -/
def plainAead : Aead where
  sealed := fun _ pt _ => pt ++ List.replicate 16 0
  length_sealed := by simp

def parityNonces (parity k : ℕ) : Nonce :=
  ⟨Frames.put 12 (2 * k + parity), Frames.length_put 12 _⟩

/-- A backup of a full chunk of `body` and one byte, with even or odd nonces. -/
def twoChunks (body last : UInt8) (parity : ℕ) : Stream where
  writes := [List.replicate chunkSize body ++ [last]]
  nonces := parityNonces parity

lemma plaintext_twoChunks (body last : UInt8) (parity : ℕ) :
    (twoChunks body last parity).plaintext = List.replicate chunkSize body ++ [last] := by
  simp [Stream.plaintext, twoChunks]

lemma fresh_twoChunks (body last body' last' : UInt8) :
    Fresh (sealedChunks plainAead [twoChunks body last 0, twoChunks body' last' 1]) := by
  have hlength : ∀ body last parity, (twoChunks body last parity).plaintext.length / chunkSize = 1 := by
    intro body last parity
    rw [plaintext_twoChunks, length_append, length_replicate, length_singleton]
    decide
  unfold Fresh sealedChunks
  rw [flatMap_cons, flatMap_cons, flatMap_nil, append_nil, map_append,
    map_nonce_written, map_nonce_written, hlength, hlength]
  change ((List.range 2).map (parityNonces 0) ++ (List.range 2).map (parityNonces 1)).Nodup
  decide

theorem streamDecrypt_written_twoChunks : let written := (twoChunks 0 1 0).written plainAead
    let opens := openChunk (sealedChunks plainAead [twoChunks 0 1 0, twoChunks 2 3 1])
    streamDecrypt opens written.out = .ok (twoChunks 0 1 0).plaintext ∧
      ∀ b, b <+: written.out → b ≠ written.out → streamHeaderV2.length ≤ b.length →
        ∀ out, streamDecrypt opens b ≠ .ok out :=
  streamDecrypt_written (ideal_of_fresh (fresh_twoChunks 0 1 2 3)) mem_cons_self

/-- The last chunk of one backup behind the first chunk of another restores a text nobody backed up. -/
theorem mixed_backups_are_accepted : ¬ Authentic plainAead [twoChunks 0 1 0, twoChunks 2 3 1] := by
  intro hauth
  have hclosed := spliceClosed_of_authentic (fresh_twoChunks 0 1 2 3) hauth
  simp only [map_cons, map_nil, plaintext_twoChunks] at hclosed
  have hmixed := hclosed _ mem_cons_self _ (mem_cons_of_mem _ mem_cons_self) 1 1 rfl
    (by simp) (by simp)
  rw [Nat.one_mul, take_left' (by simp), drop_left' (by simp)] at hmixed
  have hbody : List.replicate chunkSize (0 : UInt8) ≠ List.replicate chunkSize 2 := by
    intro h
    have := (replicate_inj.mp h).2.resolve_left chunkSize_pos.ne'
    cases this
  simp [hbody] at hmixed

end Backup
