import CaddyPanel.Lib.Tail
import CaddyPanel.Lib.Traces
import CaddyPanel.Lib.Utf8

/-!
# The log forwarders of the node agent

The agent tails two logs of a node, the access log and the audit log of the firewall, and posts
their lines to the panel. Every two seconds it reads a window of the log behind its offset, posts the
whole lines in it and moves the offset when the panel has taken them. It keeps the offset in a file,
for the next start. The logs are rotated: the agent notices a new file by its being shorter than the
offset.
-/

namespace NodeAgent

open List Option
open Utf8 (Bytes byte)
open Tail (throughLast LineAt)

def newline : UInt8 := byte '\n'

/-! ### Bounds of a batch -/

/-- What a forwarder does with what it has read. -/
inductive Verdict where
  | wait
  /-- throws the whole window away -/
  | skip
  | ship (n : Nat)
  deriving DecidableEq

/-- `maxBatch` of the access log and `maxRead` of the audit log. -/
def readWindow : Nat := 8 <<< 20

def softBatch : Nat := 1 <<< 20

/-- The bounds in `forwardAccessLogs`. -/
def accessBounds (buf : Bytes) : Verdict :=
  let batch := throughLast newline buf
  if batch = [] then .wait
  else
    let soft := throughLast newline (batch.take softBatch)
    if softBatch < batch.length && soft ≠ [] then .ship soft.length else .ship batch.length

/-- The length of the whole lines, and whether the window is to be thrown away. -/
def wafBatchBounds (buf : Bytes) (atCap : Bool) : Nat × Bool :=
  let batch := throughLast newline buf
  if batch ≠ [] then (batch.length, false) else (0, atCap)

/-- The bounds in `forwardWAFEvents`. -/
def wafBounds (buf : Bytes) : Verdict :=
  let (batchLen, skip) := wafBatchBounds buf (readWindow ≤ buf.length)
  if skip then .skip else if batchLen = 0 then .wait else .ship batchLen

structure Forwarder where
  bounds : Bytes → Verdict
  /-- the requests for a batch, in order -/
  posts : Bytes → List Bytes

/-- `forwardAccessLogs`. -/
def accessForwarder : Forwarder where
  bounds := accessBounds
  posts := fun batch => [batch]

/-- `forwardWAFEvents`, with the parser of the audit log and the encoder of a request. -/
def wafForwarder {ε : Type} (parseCorazaLines : Bytes → List ε) (marshal : List ε → Bytes) :
    Forwarder where
  bounds := wafBounds
  posts := fun batch => ((parseCorazaLines batch).toChunks 500).map marshal

/-- What both bounds keep to. -/
structure Forwarder.Sound (f : Forwarder) : Prop where
  ship : ∀ buf n, f.bounds buf = .ship n → 0 < n ∧ n ≤ buf.length ∧ buf[n - 1]? = some newline
  skip : ∀ buf, f.bounds buf = .skip → newline ∉ buf ∧ readWindow ≤ buf.length
  wait : ∀ buf, f.bounds buf = .wait → newline ∉ buf

/-- A window without a newline is thrown away. -/
def Forwarder.Skips (f : Forwarder) : Prop :=
  ∀ buf, f.bounds buf = .wait → buf.length < readWindow

/-! ### The log and the offset -/

/-- `rotations` counts the files under the path so far. `offsetFile` and `savedFile` say which of
them the positions were taken in; the agent does not know. -/
structure World where
  file : Bytes
  rotations : Nat
  offset : Option Nat
  offsetFile : Nat
  /-- the position in the file of the agent -/
  saved : Option Nat
  savedFile : Nat

inductive Event where
  | append (bytes : Bytes)
  | rotate
  /-- the agent is started again -/
  | restart
  /-- a tick: `late` is appended between the `Stat` and the read, `accepts` are the answers of the
  panel, and `saves` says whether the position could be written -/
  | tick (late : Bytes) (accepts : Bytes → Bool) (saves : Bool)

def initForwardOffset (saved : Option Nat) (size : Nat) (tailOnly : Bool) : Nat :=
  match saved with
  | none => if tailOnly then size else 0
  | some p => if p ≤ size then p else 0

section Steps

variable (f : Forwarder) (tailOnly : Bool)

/-- Where a tick begins to read. -/
def World.position (w : World) : Nat :=
  let offset := w.offset.getD (initForwardOffset w.saved w.file.length tailOnly)
  if w.file.length < offset then 0 else offset

/-- What a tick reads. -/
def World.buffer (w : World) (late : Bytes) : Bytes :=
  ((w.file ++ late).drop (w.position tailOnly)).take readWindow

def World.verdict (w : World) (late : Bytes) : Verdict :=
  if w.file.length = w.position tailOnly then .wait else f.bounds (w.buffer tailOnly late)

/-- The stretch that a step posts with success. -/
def posted (w : World) : Event → Option (Nat × Nat)
  | .tick late accepts _ =>
    match w.verdict f tailOnly late with
    | .ship n =>
      if (f.posts ((w.buffer tailOnly late).take n)).all accepts then
        some (w.position tailOnly, w.position tailOnly + n)
      else none
    | _ => none
  | _ => none

def World.moveTo (w : World) (pos : Nat) : World :=
  { w with offset := some pos, offsetFile := w.rotations }

def World.save (w : World) (pos : Nat) : World :=
  { w with saved := some pos, savedFile := w.rotations }

def step (w : World) : Event → World
  | .append bytes => { w with file := w.file ++ bytes }
  | .rotate => { w with file := [], rotations := w.rotations + 1 }
  | .restart => { w with offset := none }
  | .tick late accepts saves =>
    let pos := w.position tailOnly
    let buf := w.buffer tailOnly late
    let w' := { w with file := w.file ++ late }
    match w.verdict f tailOnly late with
    | .wait => w'.moveTo pos
    -- the position of a thrown away window is not saved
    | .skip => w'.moveTo (pos + buf.length)
    | .ship n =>
      if (f.posts (buf.take n)).all accepts then
        if saves then (w'.moveTo (pos + n)).save (pos + n) else w'.moveTo (pos + n)
      else w'.moveTo pos

end Steps

/-! ### Histories -/

/-- Positions in the file under the path are within it, and a saved one is one of the offset. -/
structure World.Sane (w : World) : Prop where
  offset_file : w.offsetFile ≤ w.rotations
  saved_file : w.savedFile ≤ w.rotations
  offset_le : ∀ o, w.offset = some o → w.offsetFile = w.rotations → o ≤ w.file.length
  saved_le : ∀ p, w.saved = some p → w.savedFile = w.rotations → p ≤ w.file.length
  saved_le_offset : ∀ o p, w.offset = some o → w.saved = some p → w.savedFile = w.rotations →
    w.offsetFile = w.rotations ∧ p ≤ o

/-- The forwarder has read the whole lines of the file. -/
def World.CaughtUp (w : World) : Prop :=
  newline ∉ w.file ∨
    (∃ o, w.offset = some o ∧ w.offsetFile = w.rotations ∧ (throughLast newline w.file).length ≤ o) ∨
    (w.offset = none ∧ ∃ p, w.saved = some p ∧ w.savedFile = w.rotations ∧
      (throughLast newline w.file).length ≤ p)

/-- The position that a tick goes on from is one of this file, or the file is still shorter than it. -/
def World.Follows (tailOnly : Bool) (w : World) : Prop :=
  match w.offset, w.saved with
  | some o, _ => w.offsetFile = w.rotations ∨ w.file.length < o ∨ o = 0
  | none, some p => w.savedFile = w.rotations ∨ w.file.length < p ∨ p = 0
  | none, none => tailOnly = false

/-- A file is rotated when it was read, and the next one noticed while it is shorter. -/
def Orderly (tailOnly : Bool) (w : World) : Event → Prop
  | .rotate => w.CaughtUp
  | .tick _ _ _ => w.Follows tailOnly
  | _ => True

def Event.IsTick : Event → Prop
  | .tick _ _ _ => True
  | _ => False

/-- The panel takes what it is sent. -/
def Event.Accepted : Event → Prop
  | .tick _ accepts _ => ∀ body, accepts body
  | _ => True

def Event.Saved : Event → Prop
  | .tick _ _ saves => saves
  | _ => True

/-! ### The two bounds -/

variable {buf part bytes : Bytes}

/-- Whole lines of the window, in any shorter list that begins it. -/
lemma ship_of_isPrefix (hpart : part <+: buf) (h : throughLast newline part ≠ []) :
    0 < (throughLast newline part).length ∧ (throughLast newline part).length ≤ buf.length ∧
      buf[(throughLast newline part).length - 1]? = some newline := by
  have hpos := length_pos_iff.mpr h
  have hle := (Tail.throughLast_isPrefix newline part).length_le
  refine ⟨hpos, hle.trans hpart.length_le, ?_⟩
  rw [Tail.getElem?_of_isPrefix hpart (by omega)]
  exact Tail.getElem?_pred_throughLast h

lemma sound_accessForwarder : accessForwarder.Sound where
  ship := by
    intro buf n h
    simp only [accessForwarder, accessBounds] at h
    split_ifs at h with hnil hsoft
    · cases h
      rw [Bool.and_eq_true, decide_eq_true_eq, decide_eq_true_eq] at hsoft
      have hpart : (Tail.throughLast newline buf).take softBatch <+: Tail.throughLast newline buf := take_prefix _ _
      exact ship_of_isPrefix (hpart.trans (Tail.throughLast_isPrefix newline buf)) hsoft.2
    · cases h
      exact ship_of_isPrefix (prefix_refl buf) hnil
  skip := by
    intro buf h
    simp only [accessForwarder, accessBounds] at h
    split_ifs at h
  wait := by
    intro buf h
    simp only [accessForwarder, accessBounds] at h
    split_ifs at h with hnil
    exact Tail.throughLast_eq_nil_iff.mp hnil

lemma wafBounds_eq (buf : Bytes) : wafBounds buf =
    if throughLast newline buf = [] then if readWindow ≤ buf.length then .skip else .wait
    else .ship (throughLast newline buf).length := by
  unfold wafBounds wafBatchBounds
  by_cases hnil : throughLast newline buf = []
  · simp [hnil]
  · simp [hnil]

section Waf

variable {ε : Type} (parseCorazaLines : Bytes → List ε) (marshal : List ε → Bytes)

lemma sound_wafForwarder : (wafForwarder parseCorazaLines marshal).Sound where
  ship := by
    intro buf n h
    replace h := (wafBounds_eq buf).symm.trans h
    split_ifs at h with hnil
    cases h
    exact ship_of_isPrefix (prefix_refl buf) hnil
  skip := by
    intro buf h
    replace h := (wafBounds_eq buf).symm.trans h
    split_ifs at h with hnil hfull
    exact ⟨Tail.throughLast_eq_nil_iff.mp hnil, hfull⟩
  wait := by
    intro buf h
    replace h := (wafBounds_eq buf).symm.trans h
    split_ifs at h with hnil
    exact Tail.throughLast_eq_nil_iff.mp hnil

lemma skips_wafForwarder : (wafForwarder parseCorazaLines marshal).Skips := by
  intro buf h
  replace h := (wafBounds_eq buf).symm.trans h
  split_ifs at h with hnil hfull
  exact Nat.lt_of_not_le hfull

end Waf

/-! ### One tick -/

section Ticks

variable {f : Forwarder} {tailOnly : Bool} {w : World} {late : Bytes}

lemma position_le (tailOnly : Bool) (w : World) : w.position tailOnly ≤ w.file.length := by
  unfold World.position
  dsimp only
  split_ifs with h
  · exact Nat.zero_le _
  · exact Nat.le_of_not_lt h

lemma getElem?_buffer (tailOnly : Bool) (w : World) (late : Bytes) {i : ℕ} (h : i < (w.buffer tailOnly late).length) :
    (w.buffer tailOnly late)[i]? = (w.file ++ late)[w.position tailOnly + i]? := by
  have hi : i < readWindow := by
    have hle := length_take_le readWindow ((w.file ++ late).drop (w.position tailOnly))
    exact lt_of_lt_of_le h hle
  rw [World.buffer, getElem?_take_of_lt hi, getElem?_drop]

lemma length_buffer (tailOnly : Bool) (w : World) (late : Bytes) : (w.buffer tailOnly late).length =
    min readWindow ((w.file ++ late).length - w.position tailOnly) := by
  simp [World.buffer]

/-- A window without a newline. -/
lemma none_of_not_mem_buffer (h : newline ∉ w.buffer tailOnly late) {i : ℕ}
    (hi : w.position tailOnly ≤ i) (hi' : i < w.position tailOnly + (w.buffer tailOnly late).length) :
    (w.file ++ late)[i]? ≠ some newline := by
  intro heq
  have hget := getElem?_buffer tailOnly w late (i := i - w.position tailOnly) (by omega)
  rw [Nat.add_sub_cancel' hi, heq] at hget
  exact h (mem_of_getElem? hget)

/-- What a tick does: it moves the offset to `pos`. -/
structure Ticked (f : Forwarder) (tailOnly : Bool) (w : World) (late : Bytes) (accepts : Bytes → Bool)
    (saves : Bool) (pos : ℕ) (w' : World) : Prop where
  file : w'.file = w.file ++ late
  rotations : w'.rotations = w.rotations
  offset : w'.offset = some pos
  offsetFile : w'.offsetFile = w.rotations
  saved : (w'.saved = w.saved ∧ w'.savedFile = w.savedFile) ∨
    (w'.saved = some pos ∧ w'.savedFile = w.rotations)
  le : w.position tailOnly ≤ pos
  le_length : pos ≤ (w.file ++ late).length
  moved : pos = w.position tailOnly ∨
    (posted f tailOnly w (.tick late accepts saves) = some (w.position tailOnly, pos) ∧
      w.position tailOnly < pos ∧ (w.file ++ late)[pos - 1]? = some newline ∧
      (saves → w'.saved = some pos ∧ w'.savedFile = w.rotations)) ∨
    (pos = w.position tailOnly + readWindow ∧ f.bounds (w.buffer tailOnly late) = .skip ∧
      newline ∉ w.buffer tailOnly late ∧ (w.buffer tailOnly late).length = readWindow)
  grows : w.verdict f tailOnly late ≠ .wait → (∀ body, accepts body) → w.position tailOnly < pos

lemma bounds_of_verdict {v : Verdict} (h : w.verdict f tailOnly late = v) (hv : v ≠ .wait) :
    f.bounds (w.buffer tailOnly late) = v := by
  unfold World.verdict at h
  split_ifs at h
  · exact absurd h.symm hv
  · exact h

lemma exists_ticked (hf : f.Sound) (tailOnly : Bool) (w : World) (late : Bytes)
    (accepts : Bytes → Bool) (saves : Bool) :
    ∃ pos, Ticked f tailOnly w late accepts saves pos (step f tailOnly w (.tick late accepts saves)) := by
  have hpos := position_le tailOnly w
  have hlength : (w.file ++ late).length = w.file.length + late.length := length_append
  cases hverdict : w.verdict f tailOnly late with
  | wait =>
    refine ⟨w.position tailOnly, ?_⟩
    simp only [step, hverdict]
    exact ⟨rfl, rfl, rfl, rfl, .inl ⟨rfl, rfl⟩, le_refl _, by omega, .inl rfl,
      fun hwait => absurd hverdict hwait⟩
  | skip =>
    have hbounds := bounds_of_verdict hverdict nofun
    obtain ⟨hnone, hfull⟩ := hf.skip _ hbounds
    have hbuffer := length_buffer tailOnly w late
    have hwindow : 0 < readWindow := by decide
    refine ⟨w.position tailOnly + (w.buffer tailOnly late).length, ?_⟩
    simp only [step, hverdict]
    exact ⟨rfl, rfl, rfl, rfl, .inl ⟨rfl, rfl⟩, Nat.le_add_right _ _, by omega,
      .inr (.inr ⟨by omega, hbounds, hnone, by omega⟩), fun _ _ => by omega⟩
  | ship n =>
    have hbounds := bounds_of_verdict hverdict nofun
    obtain ⟨hn, hle, hlast⟩ := hf.ship _ n hbounds
    have hbuffer := length_buffer tailOnly w late
    rw [getElem?_buffer tailOnly w late (by omega), ← Nat.add_sub_assoc hn] at hlast
    by_cases haccepted : (f.posts ((w.buffer tailOnly late).take n)).all accepts
    · refine ⟨w.position tailOnly + n, ?_⟩
      have hposted : posted f tailOnly w (.tick late accepts saves) =
          some (w.position tailOnly, w.position tailOnly + n) := by
        simp only [posted, hverdict, haccepted, ↓reduceIte]
      simp only [step, hverdict, haccepted, ↓reduceIte]
      cases saves with
      | true =>
        exact ⟨rfl, rfl, rfl, rfl, .inr ⟨rfl, rfl⟩, Nat.le_add_right _ _, by omega,
          .inr (.inl ⟨hposted, by omega, hlast, fun _ => ⟨rfl, rfl⟩⟩), fun _ _ => by omega⟩
      | false =>
        exact ⟨rfl, rfl, rfl, rfl, .inl ⟨rfl, rfl⟩, Nat.le_add_right _ _, by omega,
          .inr (.inl ⟨hposted, by omega, hlast, nofun⟩), fun _ _ => by omega⟩
    · refine ⟨w.position tailOnly, ?_⟩
      simp only [step, hverdict, haccepted, Bool.false_eq_true, ↓reduceIte]
      exact ⟨rfl, rfl, rfl, rfl, .inl ⟨rfl, rfl⟩, le_refl _, by omega, .inl rfl,
        fun _ hall => absurd (all_eq_true.mpr fun body _ => hall body) haccepted⟩

/-- A tick in front of a newline finds something to do. -/
lemma verdict_ne_wait (hf : f.Sound) {j : ℕ} (hj : (w.file ++ late)[j]? = some newline)
    (hlt : j < w.file.length) (hpos : w.position tailOnly ≤ j)
    (hpass : f.Skips ∨ ∀ s t, LineAt newline (w.file ++ late) s t → t - s ≤ readWindow) :
    w.verdict f tailOnly late ≠ .wait := by
  unfold World.verdict
  rw [if_neg (by omega)]
  intro hwait
  have hnone := hf.wait _ hwait
  have hbuffer := length_buffer tailOnly w late
  have hlength : (w.file ++ late).length = w.file.length + late.length := length_append
  rcases hpass with hskips | hshort
  · have hpart := hskips _ hwait
    exact none_of_not_mem_buffer hnone hpos (by omega) hj
  · obtain ⟨i, hi, hi', hsep⟩ := Tail.exists_in_window hshort hj hpos
    obtain ⟨hilt, -⟩ := List.getElem?_eq_some_iff.mp hsep
    exact none_of_not_mem_buffer hnone hi (by omega) hsep

end Ticks

/-! ### Positions that are not ahead -/

section Positions

variable {f : Forwarder} {tailOnly : Bool} {w : World}

variable {o p start pos stop : ℕ}

lemma position_of_offset (hs : w.Sane) (ho : w.offset = some o)
    (hfile : w.offsetFile = w.rotations) : w.position tailOnly = o := by
  have hle := hs.offset_le o ho hfile
  simp only [World.position, ho, getD_some]
  rw [if_neg (Nat.not_lt.mpr hle)]

lemma position_of_saved (hs : w.Sane) (hnone : w.offset = none) (hp : w.saved = some p)
    (hfile : w.savedFile = w.rotations) : w.position tailOnly = p := by
  have hle := hs.saved_le p hp hfile
  simp only [World.position, hnone, hp, initForwardOffset, getD_none]
  rw [if_pos hle, if_neg (Nat.not_lt.mpr hle)]

lemma saved_le_position (hs : w.Sane) (hp : w.saved = some p)
    (hfile : w.savedFile = w.rotations) : p ≤ w.position tailOnly := by
  cases ho : w.offset with
  | none => rw [position_of_saved hs ho hp hfile]
  | some o =>
    obtain ⟨hofile, hle⟩ := hs.saved_le_offset o p ho hp hfile
    rw [position_of_offset hs ho hofile]
    exact hle

lemma World.Sane.step (hf : f.Sound) (hs : w.Sane) (e : Event) : (step f tailOnly w e).Sane := by
  cases e with
  | append bytes =>
    refine ⟨hs.offset_file, hs.saved_file, fun o ho hfile => ?_, fun p hp hfile => ?_, hs.saved_le_offset⟩
    · exact (hs.offset_le o ho hfile).trans (prefix_append _ _).length_le
    · exact (hs.saved_le p hp hfile).trans (prefix_append _ _).length_le
  | rotate =>
    -- no position is one of the new file
    have hoffset : w.offsetFile ≠ w.rotations + 1 := Nat.ne_of_lt (Nat.lt_succ_of_le hs.offset_file)
    have hsaved : w.savedFile ≠ w.rotations + 1 := Nat.ne_of_lt (Nat.lt_succ_of_le hs.saved_file)
    exact ⟨Nat.le_succ_of_le hs.offset_file, Nat.le_succ_of_le hs.saved_file,
      fun o _ hfile => absurd hfile hoffset, fun p _ hfile => absurd hfile hsaved,
      fun o p _ _ hfile => absurd hfile hsaved⟩
  | restart => exact ⟨hs.offset_file, hs.saved_file, nofun, hs.saved_le, nofun⟩
  | tick late accepts saves =>
    obtain ⟨pos, h⟩ := exists_ticked hf tailOnly w late accepts saves
    generalize NodeAgent.step f tailOnly w (.tick late accepts saves) = w' at h
    have hgrown : w.file.length ≤ w'.file.length := by
      rw [h.file]
      exact (prefix_append _ _).length_le
    have hsaved : ∀ p, w'.saved = some p → w'.savedFile = w'.rotations → p ≤ pos := by
      intro p hp hfile
      rw [h.rotations] at hfile
      rcases h.saved with ⟨hsame, hsameFile⟩ | ⟨hnew, -⟩
      · exact (saved_le_position hs (hsame ▸ hp) (hsameFile ▸ hfile)).trans h.le
      · cases hnew.symm.trans hp
        exact le_refl pos
    have hpos : pos ≤ w'.file.length := h.file ▸ h.le_length
    refine ⟨?_, ?_, fun o ho _ => ?_, fun p hp hfile => (hsaved p hp hfile).trans hpos,
      fun o p ho hp hfile => ⟨h.offsetFile.trans h.rotations.symm, ?_⟩⟩
    · rw [h.offsetFile, h.rotations]
    · rw [h.rotations]
      rcases h.saved with ⟨-, hsameFile⟩ | ⟨-, hnewFile⟩
      · rw [hsameFile]
        exact hs.saved_file
      · rw [hnewFile]
    · cases h.offset.symm.trans ho
      exact hpos
    · cases h.offset.symm.trans ho
      exact hsaved p hp hfile

/-- No position in the file `file` is behind `start`. -/
structure World.Behind (w : World) (file start : ℕ) : Prop where
  offset : ∀ o, w.offset = some o → w.offsetFile = file → o ≤ start
  saved : ∀ p, w.saved = some p → w.savedFile = file → p ≤ start

lemma position_le_of_behind (h : w.Behind w.rotations start) (hfollows : w.Follows tailOnly) :
    w.position tailOnly ≤ start := by
  unfold World.Follows at hfollows
  unfold World.position initForwardOffset
  cases ho : w.offset with
  | some o =>
    rw [ho] at hfollows
    dsimp only [getD_some] at hfollows ⊢
    rcases hfollows with hfile | hshort | rfl
    · have hle := h.offset o ho hfile
      split_ifs <;> omega
    · rw [if_pos hshort]
      exact Nat.zero_le _
    · split_ifs <;> omega
  | none =>
    cases hp : w.saved with
    | some p =>
      rw [ho, hp] at hfollows
      dsimp only [getD_none] at hfollows ⊢
      rcases hfollows with hfile | hshort | rfl
      · have hle := h.saved p hp hfile
        split_ifs <;> omega
      · rw [if_neg (Nat.not_le.mpr hshort)]
        split_ifs <;> omega
      · split_ifs <;> omega
    | none =>
      rw [ho, hp] at hfollows
      simp only [hfollows, getD_none, Bool.false_eq_true, ↓reduceIte]
      split_ifs <;> omega

/-- The stretch that a step posts has the line. -/
def Covers (f : Forwarder) (tailOnly : Bool) (w : World) (e : Event) (start stop : ℕ) : Prop :=
  ∃ a b, posted f tailOnly w e = some (a, b) ∧ a ≤ start ∧ stop ≤ b

/-- A tick goes past a line of the window's length only by posting it. -/
lemma Ticked.le_or_covers {late : Bytes} {accepts : Bytes → Bool} {saves : Bool} {w' : World}
    (h : Ticked f tailOnly w late accepts saves pos w') {log : Bytes} (hlog : w'.file <+: log)
    (hline : LineAt newline log start stop) (hwindow : stop - start ≤ readWindow)
    (hstart : w.position tailOnly ≤ start) :
    pos ≤ start ∨ Covers f tailOnly w (.tick late accepts saves) start stop := by
  have hlength := h.le_length
  rw [h.file] at hlog
  rcases h.moved with hsame | ⟨hposted, hlt, hlast, -⟩ | ⟨hpos, -, hnone, hfull⟩
  · exact .inl (hsame ▸ hstart)
  · by_cases hle : pos ≤ start
    · exact .inl hle
    rw [← Tail.getElem?_of_isPrefix hlog (by omega)] at hlast
    have hstop := hline.le_of_last hlast (by omega)
    exact .inr ⟨_, _, hposted, hstart, by omega⟩
  refine .inl ?_
  by_contra hle
  -- there is no newline in the window, so it begins with the line
  have hempty : ∀ i, w.position tailOnly ≤ i → i < pos → log[i]? ≠ some newline := by
    intro i hi hi'
    rw [Tail.getElem?_of_isPrefix hlog (by omega)]
    exact none_of_not_mem_buffer hnone hi (by omega)
  have heq := hline.eq_of_none_before hstart fun i hi hi' => hempty i hi (by omega)
  have hlt := hline.lt
  exact hempty (stop - 1) (by omega) (by omega) hline.ends

end Positions

/-! ### Progress -/

section Progress

variable {f : Forwarder} {tailOnly : Bool} {w : World}

/-- How far a position in the file `now` is; positions in older files do not count. -/
def mark (pos : Option ℕ) (taken now : ℕ) : ℕ :=
  if taken = now then (pos.map (· + 1)).getD 0 else 0

def World.offsetMark (w : World) : ℕ :=
  mark w.offset w.offsetFile w.rotations

def World.savedMark (w : World) : ℕ :=
  mark w.saved w.savedFile w.rotations

lemma mark_le {pos : Option ℕ} {taken now bound : ℕ}
    (h : ∀ o, pos = some o → taken = now → o ≤ bound) : mark pos taken now ≤ bound + 1 := by
  unfold mark
  split_ifs with hfile
  · cases pos with
    | none => exact Nat.zero_le _
    | some o => exact Nat.succ_le_succ (h o rfl hfile)
  · exact Nat.zero_le _

lemma mark_some (pos now : ℕ) : mark (some pos) now now = pos + 1 := by
  simp [mark]

/-- A tick moves the offset. -/
def Advances (f : Forwarder) (tailOnly : Bool) (w : World) (e : Event) : Prop :=
  ∀ late accepts saves, e = .tick late accepts saves →
    ∃ pos, Ticked f tailOnly w late accepts saves pos (step f tailOnly w e) ∧ w.position tailOnly < pos

lemma offsetMark_step {e : Event} (hs : w.Sane) (hrestart : e ≠ .restart) (hrotate : e ≠ .rotate)
    (hadvances : Advances f tailOnly w e) :
    w.offsetMark ≤ (step f tailOnly w e).offsetMark ∧ (e.IsTick → w.offsetMark < (step f tailOnly w e).offsetMark) := by
  cases e with
  | append bytes => exact ⟨le_refl _, nofun⟩
  | rotate => exact absurd rfl hrotate
  | restart => exact absurd rfl hrestart
  | tick late accepts saves =>
    obtain ⟨pos, ht, hlt⟩ := hadvances late accepts saves rfl
    have hnext : (step f tailOnly w (.tick late accepts saves)).offsetMark = pos + 1 := by
      rw [World.offsetMark, ht.offset, ht.offsetFile, ht.rotations, mark_some]
    have hhere : w.offsetMark ≤ w.position tailOnly + 1 :=
      mark_le fun _ ho hfile => (position_of_offset hs ho hfile).ge
    exact ⟨by omega, fun _ => by omega⟩

lemma savedMark_step {e : Event} (hs : w.Sane) (hrotate : e ≠ .rotate)
    (hskip : ∀ buf, f.bounds buf ≠ .skip) (hsaved : e.Saved) (hadvances : Advances f tailOnly w e) :
    w.savedMark ≤ (step f tailOnly w e).savedMark ∧ (e.IsTick → w.savedMark < (step f tailOnly w e).savedMark) := by
  cases e with
  | append bytes => exact ⟨le_refl _, nofun⟩
  | rotate => exact absurd rfl hrotate
  | restart => exact ⟨le_refl _, nofun⟩
  | tick late accepts saves =>
    obtain ⟨pos, ht, hlt⟩ := hadvances late accepts saves rfl
    have hnew : (step f tailOnly w (.tick late accepts saves)).saved = some pos ∧
        (step f tailOnly w (.tick late accepts saves)).savedFile = w.rotations := by
      rcases ht.moved with hsame | ⟨-, -, -, hsaves⟩ | ⟨-, hskipped, -⟩
      · omega
      · exact hsaves hsaved
      · exact absurd hskipped (hskip _)
    have hnext : (step f tailOnly w (.tick late accepts saves)).savedMark = pos + 1 := by
      rw [World.savedMark, hnew.1, hnew.2, ht.rotations, mark_some]
    have hhere : w.savedMark ≤ w.position tailOnly + 1 :=
      mark_le fun _ hp hfile => saved_le_position hs hp hfile
    exact ⟨by omega, fun _ => by omega⟩

end Progress

/-! ### Whole histories -/

section Histories

variable {f : Forwarder} {tailOnly : Bool} {w : World} {events : ℕ → Event}

/-- The state before the event `n`. -/
abbrev history (f : Forwarder) (tailOnly : Bool) (w : World) (events : ℕ → Event) : ℕ → World :=
  Traces.trace (step f tailOnly) w events

/-- Only a rotation begins another file. -/
lemma file_step (hf : f.Sound) {w : World} {e : Event} (hrotate : e ≠ .rotate) :
    (step f tailOnly w e).rotations = w.rotations ∧ w.file <+: (step f tailOnly w e).file := by
  cases e with
  | append bytes => exact ⟨rfl, prefix_append _ _⟩
  | rotate => exact absurd rfl hrotate
  | restart => exact ⟨rfl, prefix_refl _⟩
  | tick late accepts saves =>
    obtain ⟨pos, h⟩ := exists_ticked hf tailOnly w late accepts saves
    exact ⟨h.rotations, h.file ▸ prefix_append _ _⟩

lemma sane_history (hf : f.Sound) (hs : w.Sane) (n : ℕ) : (history f tailOnly w events n).Sane :=
  Traces.trace_invariant (C := fun _ _ => True) (fun _ e hs _ => hs.step hf e) hs (fun _ => trivial) n

-- the states of a history
variable {ws : ℕ → World} (hf : f.Sound) (hstep : ∀ m, ws (m + 1) = step f tailOnly (ws m) (events m))

include hf hstep

lemma rotations_le_succ (n : ℕ) : (ws n).rotations ≤ (ws (n + 1)).rotations := by
  by_cases he : events n = .rotate
  · rw [hstep, he]
    exact Nat.le_succ _
  · rw [hstep]
    exact (file_step hf he).1.ge

lemma file_isPrefix {m n : ℕ} (h : m ≤ n) (hsame : (ws n).rotations = (ws m).rotations) :
    (ws m).file <+: (ws n).file := by
  induction n, h using Nat.le_induction with
  | base => exact prefix_refl _
  | succ n hmn ih =>
    have hlow := monotone_nat_of_le_succ (rotations_le_succ hf hstep) hmn
    have hnext : (ws (n + 1)).rotations = (ws n).rotations :=
      le_antisymm (hsame ▸ hlow) (rotations_le_succ hf hstep n)
    refine (ih (hnext.symm.trans hsame)).trans ?_
    rw [hstep] at hnext ⊢
    refine (file_step hf fun he => ?_).2
    rw [he] at hnext
    exact Nat.succ_ne_self _ hnext

section Line

-- a line that is there at the moment `n`, and of which no step posts the whole
variable {n start stop : ℕ} (hsane : ∀ m, (ws m).Sane) (horderly : ∀ m, Orderly tailOnly (ws m) (events m))
  (hline : LineAt newline (ws n).file start stop) (hwindow : stop - start ≤ readWindow)
  (hlater : (ws 0).rotations < (ws n).rotations ∨ (ws 0).file.length ≤ start)
  (hnever : ∀ m, (ws m).rotations = (ws n).rotations → ¬ Covers f tailOnly (ws m) (events m) start stop)

include hline in
/-- The line in a later state of its file, and in the state that it is in at last. -/
lemma exists_log {m : ℕ} (hm : (ws m).rotations = (ws n).rotations) :
    ∃ log, (ws m).file <+: log ∧ LineAt newline log start stop := by
  rcases Nat.le_total m n with hle | hle
  · exact ⟨_, file_isPrefix hf hstep hle hm.symm, hline⟩
  · exact ⟨_, prefix_refl _, hline.mono (file_isPrefix hf hstep hle hm)⟩

include hsane horderly hline hwindow hlater hnever

/-- No position in the file of the line passes it. -/
lemma behind_history {m : ℕ} (hm : (ws m).rotations ≤ (ws n).rotations) : (ws m).Behind (ws n).rotations start := by
  induction m with
  | zero =>
    have hs := hsane 0
    have hoffset := hs.offset_file
    have hsaved := hs.saved_file
    rcases hlater with hlt | hlength
    · exact ⟨fun o _ hfile => by omega, fun p _ hfile => by omega⟩
    refine ⟨fun o ho hfile => (hs.offset_le o ho ?_).trans hlength,
      fun p hp hfile => (hs.saved_le p hp ?_).trans hlength⟩
    · omega
    · omega
  | succ m ih =>
    have hbehind := ih ((rotations_le_succ hf hstep m).trans hm)
    have hordered := horderly m
    have hnext := hstep m
    cases he : events m with
    | append bytes => exact hnext ▸ he ▸ ⟨hbehind.offset, hbehind.saved⟩
    | rotate => exact hnext ▸ he ▸ ⟨hbehind.offset, hbehind.saved⟩
    | restart => exact hnext ▸ he ▸ ⟨nofun, hbehind.saved⟩
    | tick late accepts saves =>
      obtain ⟨pos, ht⟩ := exists_ticked hf tailOnly (ws m) late accepts saves
      rw [he] at hordered hnext
      rw [← hnext] at ht
      -- the tick reads the file of the line
      have hpos : (ws m).rotations = (ws n).rotations → pos ≤ start := by
        intro hsame
        have hle := position_le_of_behind (hsame ▸ hbehind) hordered
        obtain ⟨log, hlog, hlast⟩ := exists_log hf hstep hline (ht.rotations.trans hsame)
        refine (ht.le_or_covers hlog hlast hwindow hle).resolve_right fun hcovers => ?_
        exact hnever m hsame (he ▸ hcovers)
      refine ⟨fun o ho hfile => ?_, fun p hp hfile => ?_⟩
      · cases ht.offset.symm.trans ho
        exact hpos (ht.offsetFile.symm.trans hfile)
      rcases ht.saved with ⟨hsame, hsameFile⟩ | ⟨hnew, hnewFile⟩
      · exact hbehind.saved p (hsame ▸ hp) (hsameFile ▸ hfile)
      · cases hnew.symm.trans hp
        exact hpos (hnewFile.symm.trans hfile)

/-- The file is not rotated before the line is posted. -/
lemma not_rotate {m : ℕ} (hsame : (ws m).rotations = (ws n).rotations) (hhere : LineAt newline (ws m).file start stop) :
    events m ≠ .rotate := by
  intro he
  have hbehind := behind_history hf hstep hsane horderly hline hwindow hlater hnever hsame.le
  have hstop := Tail.length_throughLast_gt hhere.ends
  have hlt := hhere.lt
  have hordered := horderly m
  rw [he] at hordered
  rcases hordered with hnone | ⟨o, ho, hfile, hread⟩ | ⟨-, p, hp, hfile, hread⟩
  · exact hnone (mem_of_getElem? hhere.ends)
  · have hle := hbehind.offset o ho (hfile.trans hsame)
    omega
  · have hle := hbehind.saved p hp (hfile.trans hsame)
    omega

lemma line_stays {m : ℕ} (hm : n ≤ m) :
    (ws m).rotations = (ws n).rotations ∧ LineAt newline (ws m).file start stop := by
  induction m, hm using Nat.le_induction with
  | base => exact ⟨rfl, hline⟩
  | succ m _ ih =>
    obtain ⟨hsame, hhere⟩ := ih
    have hrotate := not_rotate hf hstep hsane horderly hline hwindow hlater hnever hsame hhere
    obtain ⟨hkeeps, hprefix⟩ := file_step hf hrotate
    rw [hstep]
    exact ⟨hkeeps.trans hsame, hhere.mono hprefix⟩

/-- A tick that the panel accepts moves on towards the line. -/
lemma advances_history {m : ℕ} (hm : n ≤ m) (haccepted : (events m).Accepted)
    (hpass : f.Skips ∨ ∀ m s t, LineAt newline (ws m).file s t → t - s ≤ readWindow) :
    Advances f tailOnly (ws m) (events m) := by
  intro late accepts saves he
  obtain ⟨pos, ht⟩ := exists_ticked hf tailOnly (ws m) late accepts saves
  have hordered := horderly m
  rw [he] at haccepted hordered ⊢
  refine ⟨pos, ht, ht.grows ?_ haccepted⟩
  obtain ⟨hsame, hhere⟩ := line_stays hf hstep hsane horderly hline hwindow hlater hnever hm
  have hstop := hhere.stop_le
  have hlt := hhere.lt
  have hbehind := behind_history hf hstep hsane horderly hline hwindow hlater hnever hsame.le
  have hpos := position_le_of_behind (hsame ▸ hbehind) hordered
  refine verdict_ne_wait hf (j := stop - 1) ?_ (by omega) (by omega) ?_
  · rw [Tail.getElem?_of_isPrefix (prefix_append _ _) (by omega)]
    exact hhere.ends
  · refine hpass.imp_right fun hshort s t hst => hshort (m + 1) s t ?_
    rw [hstep, he, ht.file]
    exact hst

end Line

/-- From a moment on the agent is not restarted, or it throws nothing away and saves its position. -/
def Calm (f : Forwarder) (events : ℕ → Event) (since : ℕ) : Prop :=
  (∀ m, since ≤ m → events m ≠ .restart) ∨
    ((∀ buf, f.bounds buf ≠ .skip) ∧ ∀ m, since ≤ m → (events m).Saved)

/-- A line that fits in the window is posted at last. -/
lemma eventually_covers (hsane : ∀ m, (ws m).Sane) (horderly : ∀ m, Orderly tailOnly (ws m) (events m))
    (hticks : ∀ m, ∃ k, m ≤ k ∧ (events k).IsTick) {since : ℕ}
    (haccepted : ∀ m, since ≤ m → (events m).Accepted) (hcalm : Calm f events since)
    (hpass : f.Skips ∨ ∀ m s t, LineAt newline (ws m).file s t → t - s ≤ readWindow)
    {n start stop : ℕ} (hline : LineAt newline (ws n).file start stop) (hwindow : stop - start ≤ readWindow)
    (hlater : (ws 0).rotations < (ws n).rotations ∨ (ws 0).file.length ≤ start) :
    ∃ m, (ws m).rotations = (ws n).rotations ∧ Covers f tailOnly (ws m) (events m) start stop := by
  by_contra hnone
  have hnever : ∀ m, (ws m).rotations = (ws n).rotations → ¬ Covers f tailOnly (ws m) (events m) start stop :=
    fun m hm hcovers => hnone ⟨m, hm, hcovers⟩
  have hstays := fun m (hm : max n since ≤ m) =>
    line_stays hf hstep hsane horderly hline hwindow hlater hnever (le_of_max_le_left hm)
  have hbehind := fun m (hm : max n since ≤ m) =>
    behind_history hf hstep hsane horderly hline hwindow hlater hnever (hstays m hm).1.le
  have hadvances := fun m (hm : max n since ≤ m) =>
    advances_history hf hstep hsane horderly hline hwindow hlater hnever (le_of_max_le_left hm)
      (haccepted m (le_of_max_le_right hm)) hpass
  have hrotate := fun m (hm : max n since ≤ m) =>
    not_rotate hf hstep hsane horderly hline hwindow hlater hnever (hstays m hm).1 (hstays m hm).2
  rcases hcalm with hrestart | ⟨hskip, hsaves⟩
  · -- the offset grows with every tick
    obtain ⟨m, hm, hfar⟩ := Traces.exists_past_bound hticks (fun m => (ws m).offsetMark) (fun m hm => hstep m ▸
      offsetMark_step (hsane m) (hrestart m (le_of_max_le_right hm)) (hrotate m hm) (hadvances m hm)) (start + 1)
    have hle := mark_le fun o ho hfile => (hbehind m hm).offset o ho (hfile.trans (hstays m hm).1)
    exact absurd hfar (Nat.not_lt.mpr hle)
  · -- the saved position does, whatever a restart does to the offset
    obtain ⟨m, hm, hfar⟩ := Traces.exists_past_bound hticks (fun m => (ws m).savedMark) (fun m hm => hstep m ▸
      savedMark_step (hsane m) (hrotate m hm) hskip (hsaves m (le_of_max_le_right hm)) (hadvances m hm)) (start + 1)
    have hle := mark_le fun p hp hfile => (hbehind m hm).saved p hp (hfile.trans (hstays m hm).1)
    exact absurd hfar (Nat.not_lt.mpr hle)

end Histories

/-! ### Both logs -/

/-- A forwarder of the agent. -/
inductive IsForwarder : Forwarder → Prop where
  | access : IsForwarder accessForwarder
  | waf {ε : Type} (parseCorazaLines : Bytes → List ε) (marshal : List ε → Bytes) :
      IsForwarder (wafForwarder parseCorazaLines marshal)

/-- A history in which nothing keeps a line from being posted. -/
structure Undisturbed (f : Forwarder) (tailOnly : Bool) (w : World) (events : ℕ → Event) (since : ℕ) :
    Prop where
  sane : w.Sane
  orderly : ∀ m, Orderly tailOnly (history f tailOnly w events m) (events m)
  calm : Calm f events since
  /-- a record of the audit log that is too long is skipped, a line of the access log is not -/
  short : f = accessForwarder → ∀ m s t,
    LineAt newline (history f tailOnly w events m).file s t → t - s ≤ readWindow

/-- A forwarder at the start of an empty log. -/
def started : World where
  file := []
  rotations := 0
  offset := some 0
  offsetFile := 0
  saved := none
  savedFile := 0

/-- Something is appended, and nothing happens any more but ticks. -/
def appendOnce (bytes : Bytes) : ℕ → Event
  | 0 => .append bytes
  | _ + 1 => .tick [] (fun _ => true) true

lemma ticks_appendOnce (bytes : Bytes) (m : ℕ) : ∃ k, m ≤ k ∧ (appendOnce bytes k).IsTick :=
  ⟨m + 1, Nat.le_succ m, trivial⟩

lemma accepted_appendOnce (bytes : Bytes) (m : ℕ) : (appendOnce bytes m).Accepted := by
  cases m with
  | zero => trivial
  | succ m => exact fun _ => rfl

lemma sane_started : started.Sane :=
  ⟨le_refl _, le_refl _, fun _ ho _ => by cases ho; exact le_refl _, nofun, nofun⟩

/-- Between two lines the log is rotated and the agent started again. -/
def rotated : ℕ → Event
  | 0 => .append (Utf8.encode "a\n")
  | 2 => .rotate
  | 3 => .restart
  | 5 => .append (Utf8.encode "bb\n")
  | _ => .tick [] (fun _ => true) true

/-- The second line is posted, and ticks change nothing any more. -/
lemma history_rotated (m : ℕ) : history accessForwarder false started rotated (m + 7) =
    ⟨Utf8.encode "bb\n", 1, some 3, 1, some 3, 1⟩ := by
  induction m with
  | zero => rfl
  | succ m ih =>
    have hstep : history accessForwarder false started rotated (m + 8) =
        step accessForwarder false (history accessForwarder false started rotated (m + 7)) (rotated (m + 7)) := rfl
    rw [hstep, ih]
    rfl

lemma orderly_rotated : ∀ m, Orderly false (history accessForwarder false started rotated m) (rotated m)
  | 0 => trivial
  | 1 => .inl rfl
  | 2 => .inr (.inl ⟨2, rfl, rfl, by decide⟩)
  | 3 => trivial
  | 4 => .inr (.inl (by decide))
  | 5 => trivial
  | 6 => .inl rfl
  | m + 7 => by
    rw [history_rotated]
    exact .inl rfl

lemma length_rotated : ∀ m, (history accessForwarder false started rotated m).file.length ≤ 3
  | 0 => by decide
  | 1 => by decide
  | 2 => by decide
  | 3 => by decide
  | 4 => by decide
  | 5 => by decide
  | 6 => by decide
  | m + 7 => by
    rw [history_rotated]
    decide

lemma undisturbed_rotated : Undisturbed accessForwarder false started rotated 4 where
  sane := sane_started
  orderly := orderly_rotated
  calm := .inl fun m hm he => by
    obtain ⟨m, rfl⟩ := Nat.exists_eq_add_of_le' hm
    cases m with
    | zero => cases he
    | succ m => cases m <;> cases he
  short := by
    intro _ m s t hline
    have hstop := hline.stop_le.trans (length_rotated m)
    have hwindow : 3 ≤ readWindow := by decide
    omega

/-- The forwarder in front of the bytes. -/
def inFrontOf (bytes : Bytes) : World :=
  { started with file := bytes }

lemma inFrontOf_file (bytes : Bytes) : (inFrontOf bytes).file = bytes := rfl

lemma position_inFrontOf (bytes : Bytes) : (inFrontOf bytes).position false = 0 := by
  simp [World.position, inFrontOf, started]

lemma verdict_inFrontOf (h : newline ∉ bytes.take readWindow) :
    (inFrontOf bytes).verdict accessForwarder false [] = .wait := by
  have hbuffer : (inFrontOf bytes).buffer false [] = bytes.take readWindow := by
    rw [World.buffer, position_inFrontOf, inFrontOf_file, append_nil, drop_zero]
  have hnone := Tail.throughLast_eq_nil_iff.mpr h
  unfold World.verdict
  split_ifs
  · rfl
  · rw [hbuffer]
    simp [accessForwarder, accessBounds, hnone]

/-- Without a newline in the window nothing changes. -/
lemma history_inFrontOf (h : newline ∉ bytes.take readWindow) (m : ℕ) :
    history accessForwarder false started (appendOnce bytes) (m + 1) = inFrontOf bytes := by
  induction m with
  | zero => rfl
  | succ m ih =>
    rw [history] at ih
    rw [history, Traces.trace, ih, appendOnce]
    simp only [step, verdict_inFrontOf h, position_inFrontOf, append_nil]
    rfl

lemma posted_inFrontOf (h : newline ∉ bytes.take readWindow) (m : ℕ) :
    posted accessForwarder false (history accessForwarder false started (appendOnce bytes) m)
      (appendOnce bytes m) = none := by
  cases m with
  | zero => rfl
  | succ m =>
    rw [history_inFrontOf h, appendOnce]
    simp only [posted, verdict_inFrontOf h]

/-- A line that is longer than the window, and a short one behind it. -/
def longLine : Bytes :=
  List.replicate readWindow (byte 'x') ++ Utf8.encode "\na\n"

lemma take_longLine : newline ∉ longLine.take readWindow := by
  rw [longLine, take_left' (length_replicate ..)]
  intro hmem
  exact absurd (eq_of_mem_replicate hmem) (by decide)

lemma getElem?_longLine (i : ℕ) : longLine[readWindow + i]? = (Utf8.encode "\na\n")[i]? := by
  rw [longLine, getElem?_append_right (by rw [length_replicate]; omega), length_replicate,
    Nat.add_sub_cancel_left]

/-- Along appends, rotations, restarts and ticks, no position in the current file is past its end, and the stored one is
not ahead of the other. -/
theorem positions_stay_sane {ε : Type} (parseCorazaLines : Bytes → List ε) (marshal : List ε → Bytes) (tailOnly : Bool)
    (events : ℕ → Event) (n : ℕ) : (history accessForwarder tailOnly started events n).Sane ∧
      (history (wafForwarder parseCorazaLines marshal) tailOnly started events n).Sane :=
  ⟨sane_history sound_accessForwarder sane_started n, sane_history (sound_wafForwarder _ _) sane_started n⟩

end NodeAgent
