import Mathlib.Algebra.Group.Nat.Defs
import Mathlib.Data.List.Dedup
import Mathlib.Data.List.Sort
import CaddyPanel.Lib.Runs
import CaddyPanel.Lib.Utf8

/-!
# The push outbox (`internal/domain/routes/outbox.go`, `push.go`)

`node_push_pending` holds one marker per node: `seq` counts the config changes that asked for a
push, `pushed_seq` the last one known to be live. Changes commit and mark concurrently with any
number of pushes; a push holds the node's lock from before it reads `seq` until after it settles.

A database state is known by the number of changes committed before it. One build issues several
queries, each of which may see a later state, so a built config is known by the states its queries
saw.
-/

namespace Outbox

open List
open Function (update)
open Utf8 (Bytes toValid)

abbrev NodeId := Nat
abbrev PusherId := Nat
/-- The position of a change in the order of commits. -/
abbrev Change := Nat

/-- A row of `node_push_pending`; times are in milliseconds. -/
structure Marker where
  seq : Nat
  pushedSeq : Nat
  requestedAt : Nat
  attempts : Nat
  lastError : Option Bytes
  nextAttemptAt : Nat
  deriving DecidableEq, Repr

def pendingBackoffBase : Nat := 30 * 1000
def pendingBackoffCap : Nat := 15 * 60 * 1000
def maxApplyErrLen : Nat := 1000
def maxPushGenerations : Nat := 3

/-! ### The statements on one marker row -/

/-- The upsert of `markPushPending`: insert with `seq = 1`, or count one more change. -/
def mark (now due : Nat) : Option Marker → Marker
  | none => ⟨1, 0, now, 0, none, due⟩
  | some m => { m with seq := m.seq + 1, requestedAt := now, nextAttemptAt := due }

/-- `pendingSeq`: a missing row and a failed read both give 0. -/
def pendingSeq (readOk : Bool) : Option Marker → Nat
  | some m => if readOk then m.seq else 0
  | none => 0

def backoff (attempts : Nat) : Nat :=
  if attempts < 10 ∧ pendingBackoffBase * 2 ^ (attempts - 1) < pendingBackoffCap then
    pendingBackoffBase * 2 ^ (attempts - 1)
  else pendingBackoffCap

/-- `settlePending` on the node's row, where its statements succeed. -/
def settle (now seq : Nat) (pushErr : Option Bytes) (m : Marker) : Marker :=
  match pushErr with
  | none =>
    if m.pushedSeq < seq then { m with pushedSeq := seq, attempts := 0, lastError := none } else m
  | some msg =>
    if m.pushedSeq < m.seq then
      { m with
        attempts := m.attempts + 1
        lastError := some (if maxApplyErrLen < msg.length then toValid (msg.take maxApplyErrLen) else msg)
        nextAttemptAt := now + backoff (m.attempts + 1) }
    else m

@[simp] lemma settle_seq (now seq : Nat) (e : Option Bytes) (m : Marker) : (settle now seq e m).seq = m.seq := by
  cases e <;> simp only [settle] <;> split <;> rfl

lemma settle_pushedSeq (now seq : Nat) (e : Option Bytes) (m : Marker) :
    (settle now seq e m).pushedSeq = if e = none then max m.pushedSeq seq else m.pushedSeq := by
  cases e with
  | none =>
    simp only [settle]
    split <;> simp <;> omega
  | some msg =>
    simp only [settle]
    split <;> simp

/-- `markPushPending`: each named node once, in ascending order, and never node 0. -/
def markPushPending (now due : Nat) (nodeIDs : List NodeId) (markers : NodeId → Option Marker) :
    NodeId → Option Marker :=
  ((nodeIDs.insertionSort (· ≤ ·)).dedup.filter (· ≠ 0)).foldl
    (fun ms id => update ms id (some (mark now due (ms id)))) markers

/-! ### Pushes -/

/-- What one build read: for each of its queries, how many changes were committed. -/
abbrev Snapshot := List Nat

/-- Every query of the build saw the change. -/
def Snapshot.Contains (snap : Snapshot) (c : Change) : Prop :=
  ∀ v ∈ snap, c < v

/-- Where a call of `pushNodeConfig` (or `pushNodeConfigLocked`) stands. -/
inductive Phase where
  | waiting
  | locked
  | generation
  | sequenced (seq : Nat)
  | building (seq : Nat) (snap : Snapshot)
  | loading (seq : Nat) (snap : Snapshot) (live : Bool)
  | settling (seq : Nat) (err : Option Bytes)
  | settled
  deriving DecidableEq

structure Pusher where
  node : NodeId
  /-- rebuilds the generation check may still ask for -/
  left : Nat
  gen : Nat
  phase : Phase
  deriving DecidableEq

structure State where
  committed : Nat
  markers : NodeId → Option Marker
  /-- the changes whose markers a node's `seq` counts, in the order they were counted -/
  counted : NodeId → List Change
  /-- the build behind the last config the node accepted -/
  accepted : NodeId → Option Snapshot
  gen : NodeId → Nat
  lock : NodeId → Option PusherId
  pushers : PusherId → Option Pusher

def State.init : State where
  committed := 0
  markers := fun _ => none
  counted := fun _ => []
  accepted := fun _ => none
  gen := fun _ => 0
  lock := fun _ => none
  pushers := fun _ => none

/-- The moves of one push, with what the database and the node answer. -/
inductive Move where
  | acquire
  | readGen
  | readSeq (readOk : Bool)
  | query
  /-- the build ends, with an error or with a config -/
  | endBuild (err : Option Bytes)
  /-- one `/load`: `isolateWAFFailure` may send several configs of the same build -/
  | load (accepts : Bool)
  | endLoad (err : Option Bytes)
  | settle (now : Nat) (writeOk : Bool)
  | finish (ctxDone : Bool)

inductive Event where
  /-- a transaction commits a change together with its markers -/
  | commit (now due : Nat) (nodeIDs : List NodeId)
  /-- `schedulePush` marks a node for a change that has already been committed -/
  | schedule (now due : Nat) (c : Change) (node : NodeId)
  | bumpDesiredGen (node : NodeId)
  /-- a call of `pushNodeConfig` starts, or of `pushNodeConfigLocked`, which never loops -/
  | start (p : PusherId) (node : NodeId) (loops : Bool)
  | push (p : PusherId) (move : Move)
  /-- the panel process restarts -/
  | crash

/-- The nodes a call of `markPushPending` counts a change for. -/
def counts (nodeIDs : List NodeId) (n : NodeId) : Bool :=
  decide (n ≠ 0 ∧ n ∈ nodeIDs)

def State.count (s : State) (c : Change) (nodeIDs : List NodeId) : NodeId → List Change :=
  fun n => if counts nodeIDs n then s.counted n ++ [c] else s.counted n

def State.setPusher (s : State) (p : PusherId) (w : Pusher) : State :=
  { s with pushers := update s.pushers p (some w) }

/-- The call returns and its deferred unlock runs. -/
def State.release (s : State) (p : PusherId) (w : Pusher) : State :=
  { s with pushers := update s.pushers p none, lock := update s.lock w.node none }

/-- What a call of `pushNodeConfig` at `w` does on its next move. -/
def pusherStep (s : State) (p : PusherId) (w : Pusher) : Move → Option State
  | .acquire =>
    if w.phase = .waiting ∧ s.lock w.node = none then
      some { s.setPusher p { w with phase := .locked } with
        lock := update s.lock w.node (some p) }
    else none
  | .readGen =>
    if w.phase = .locked then
      some (s.setPusher p { w with gen := s.gen w.node, phase := .generation })
    else none
  | .readSeq readOk =>
    if w.phase = .generation then
      some (s.setPusher p { w with phase := .sequenced (pendingSeq readOk (s.markers w.node)) })
    else none
  | .query =>
    match w.phase with
    | .sequenced seq => some (s.setPusher p { w with phase := .building seq [s.committed] })
    | .building seq snap =>
      some (s.setPusher p { w with phase := .building seq (snap ++ [s.committed]) })
    | _ => none
  | .endBuild err =>
    match w.phase, err with
    | .building seq snap, none => some (s.setPusher p { w with phase := .loading seq snap false })
    | .building seq _, some msg => some (s.setPusher p { w with phase := .settling seq (some msg) })
    | .sequenced seq, some msg => some (s.setPusher p { w with phase := .settling seq (some msg) })
    | _, _ => none
  | .load accepts =>
    match w.phase with
    | .loading seq snap live =>
      if accepts then
        some { s.setPusher p { w with phase := .loading seq snap true } with
          accepted := update s.accepted w.node (some snap) }
      else some (s.setPusher p { w with phase := .loading seq snap live })
    | _ => none
  | .endLoad err =>
    match w.phase, err with
    | .loading seq _ true, none => some (s.setPusher p { w with phase := .settling seq none })
    | .loading seq _ _, some msg => some (s.setPusher p { w with phase := .settling seq (some msg) })
    | _, _ => none
  | .settle now writeOk =>
    match w.phase with
    | .settling seq err =>
      let markers := if writeOk then
        update s.markers w.node ((s.markers w.node).map (Outbox.settle now seq err)) else s.markers
      -- a failed push returns its error here, a successful one goes on to the generation check
      if err = none then some { s.setPusher p { w with phase := .settled } with markers := markers }
      else some { s.release p w with markers := markers }
    | _ => none
  | .finish ctxDone =>
    if w.phase = .settled then
      if s.gen w.node = w.gen ∨ ctxDone ∨ w.left ≤ 1 then some (s.release p w)
      else some (s.setPusher p { w with left := w.left - 1, phase := .locked })
    else none

def step (s : State) : Event → Option State
  | .commit now due nodeIDs =>
    some { s with
      committed := s.committed + 1
      markers := markPushPending now due nodeIDs s.markers
      counted := s.count s.committed nodeIDs }
  | .schedule now due c node =>
    if c < s.committed then
      some { s with
        markers := markPushPending now due [node] s.markers
        counted := s.count c [node] }
    else none
  | .bumpDesiredGen node => some { s with gen := update s.gen node (s.gen node + 1) }
  | .start p node loops =>
    if s.pushers p = none then
      some (s.setPusher p ⟨node, if loops then maxPushGenerations else 1, 0, .waiting⟩)
    else none
  | .crash =>
    some { s with gen := fun _ => 0, lock := fun _ => none, pushers := fun _ => none }
  | .push p move => (s.pushers p).bind fun w => pusherStep s p w move

/-! ### What marking does to each node -/

private lemma foldl_mark_apply (now due : Nat) {ids : List NodeId} (hnd : ids.Nodup)
    (ms : NodeId → Option Marker) (n : NodeId) :
    ids.foldl (fun ms id => update ms id (some (mark now due (ms id)))) ms n =
      if n ∈ ids then some (mark now due (ms n)) else ms n := by
  induction ids generalizing ms with
  | nil => simp
  | cons a ids ih =>
    obtain ⟨ha, hnd⟩ := nodup_cons.mp hnd
    rw [foldl_cons, ih hnd]
    by_cases hn : n = a
    · subst hn
      simp [ha]
    · simp [hn]

lemma markPushPending_apply (now due : Nat) (ids : List NodeId) (ms : NodeId → Option Marker) (n : NodeId) :
    markPushPending now due ids ms n = if counts ids n then some (mark now due (ms n)) else ms n := by
  have hnd : ((ids.insertionSort (· ≤ ·)).dedup.filter (· ≠ 0)).Nodup :=
    (nodup_dedup _).filter _
  rw [markPushPending, foldl_mark_apply now due hnd]
  have hmem : n ∈ (ids.insertionSort (· ≤ ·)).dedup.filter (· ≠ 0) ↔ counts ids n := by
    simp [counts, mem_insertionSort, and_comm]
  simp only [hmem]

/-! ### The invariant -/

def State.seqOf (s : State) (n : NodeId) : Nat := (s.markers n).elim 0 Marker.seq

def State.pushedOf (s : State) (n : NodeId) : Nat := (s.markers n).elim 0 Marker.pushedSeq

/-- The config behind `acc` was built from states that contain `c`. -/
def Live (acc : Option Snapshot) (c : Change) : Prop :=
  ∃ snap, acc = some snap ∧ snap ≠ [] ∧ snap.Contains c

/-- The build in hand contains what its `seq` counts and what is already settled. -/
def Covers (counted : List Change) (pushed seq : Nat) (snap : Snapshot) : Prop :=
  snap ≠ [] ∧ seq ≤ counted.length ∧ ∀ c ∈ counted.take (max seq pushed), snap.Contains c

/-- What the holder of a node's lock knows in each phase. -/
def PhaseOk (counted : List Change) (pushed : Nat) (acc : Option Snapshot) : Phase → Prop
  | .sequenced seq => seq ≤ counted.length
  | .building seq snap => Covers counted pushed seq snap
  | .loading seq snap live => Covers counted pushed seq snap ∧ (live → acc = some snap)
  | .settling seq none => seq ≤ counted.length ∧ ∀ c ∈ counted.take seq, Live acc c
  | _ => True

structure Inv (s : State) : Prop where
  counted_lt : ∀ n, ∀ c ∈ s.counted n, c < s.committed
  seq_eq : ∀ n, s.seqOf n = (s.counted n).length
  pushed_le : ∀ n, s.pushedOf n ≤ (s.counted n).length
  live : ∀ n, ∀ c ∈ (s.counted n).take (s.pushedOf n), Live (s.accepted n) c
  work : ∀ p w, s.pushers p = some w → w.phase = .waiting ∨ (s.lock w.node = some p ∧
      PhaseOk (s.counted w.node) (s.pushedOf w.node) (s.accepted w.node) w.phase)

lemma inv_init : Inv State.init where
  counted_lt := by simp [State.init]
  seq_eq := by simp [State.init, State.seqOf]
  pushed_le := by simp [State.init, State.pushedOf]
  live := by simp [State.init]
  work := by simp [State.init]

variable {pushed seq k now due : Nat} {s s' s'' : State} {p : PusherId} {w : Pusher}

/-- A step keeps the invariant and takes no marker back. -/
structure Kept (s s' : State) : Prop where
  inv : Inv s'
  seq_le : ∀ n, s.seqOf n ≤ s'.seqOf n
  pushed_le : ∀ n, s.pushedOf n ≤ s'.pushedOf n

lemma Inv.kept (hs : Inv s) : Kept s s :=
  ⟨hs, fun _ => le_rfl, fun _ => le_rfl⟩

lemma Kept.trans (h : Kept s s') (h' : Inv s' → Kept s' s'') : Kept s s'' where
  inv := (h' h.inv).inv
  seq_le n := (h.seq_le n).trans ((h' h.inv).seq_le n)
  pushed_le n := (h.pushed_le n).trans ((h' h.inv).pushed_le n)

lemma Covers.append {counted l : List Change} {snap : Snapshot}
    (h : Covers counted pushed seq snap) (hp : pushed ≤ counted.length) : Covers (counted ++ l) pushed seq snap := by
  obtain ⟨hne, hseq, hc⟩ := h
  refine ⟨hne, by simp; omega, ?_⟩
  rw [take_append_of_le_length (by omega)]
  exact hc

/-- Counting further changes disturbs no push in flight. -/
lemma PhaseOk.append {counted l : List Change} {acc : Option Snapshot} {ph : Phase}
    (h : PhaseOk counted pushed acc ph) (hp : pushed ≤ counted.length) : PhaseOk (counted ++ l) pushed acc ph := by
  match ph with
  | .sequenced seq =>
    simp only [PhaseOk, length_append] at h ⊢
    omega
  | .building seq snap => exact Covers.append h hp
  | .loading seq snap live => exact ⟨h.1.append hp, h.2⟩
  | .settling seq none =>
    obtain ⟨hseq, hc⟩ := h
    refine ⟨by simp; omega, ?_⟩
    rw [take_append_of_le_length hseq]
    exact hc
  | .settling seq (some _) | .waiting | .locked | .generation | .settled => trivial

/-! ### Each step keeps the invariant -/

/-- A committed change `c` is counted for some nodes, in its transaction or after it. -/
lemma Inv.count (hs : Inv s) {c : Change} (ids : List NodeId) (hk : s.committed ≤ k) (hc : c < k) :
    Kept s { s with committed := k, markers := markPushPending now due ids s.markers,
                    counted := s.count c ids } := by
  set s' : State := { s with committed := k, markers := markPushPending now due ids s.markers,
                             counted := s.count c ids }
  have hpushed (n : NodeId) : s'.pushedOf n = s.pushedOf n := by
    simp only [State.pushedOf, s', markPushPending_apply]
    split
    · cases s.markers n <;> rfl
    · rfl
  -- either way the old list is a front part of the new one
  have hcounted (n : NodeId) : ∃ l, s'.counted n = s.counted n ++ l := by
    simp only [s', State.count]
    split
    · exact ⟨[c], rfl⟩
    · exact ⟨[], by simp⟩
  have hseq (n : NodeId) : s'.seqOf n = (s'.counted n).length := by
    have hseq := hs.seq_eq n
    simp only [State.seqOf, s', State.count, markPushPending_apply] at hseq ⊢
    split
    · cases hm : s.markers n <;>
        simp only [hm, mark, Option.elim, length_append, length_singleton] at hseq ⊢ <;>
        omega
    · exact hseq
  refine ⟨⟨?_, hseq, ?_, ?_, ?_⟩, fun n => ?_, fun n => (hpushed n).ge⟩
  · intro n d hd
    simp only [s', State.count] at hd
    split at hd
    · rcases mem_append.mp hd with hd | hd
      · exact lt_of_lt_of_le (hs.counted_lt n d hd) hk
      · rw [mem_singleton.mp hd]
        exact hc
    · exact lt_of_lt_of_le (hs.counted_lt n d hd) hk
  · intro n
    obtain ⟨l, hl⟩ := hcounted n
    have hle := hs.pushed_le n
    rw [hpushed, hl, length_append]
    omega
  · intro n
    obtain ⟨l, hl⟩ := hcounted n
    rw [hpushed, hl, take_append_of_le_length (hs.pushed_le n)]
    exact hs.live n
  · intro p w hw
    obtain ⟨l, hl⟩ := hcounted w.node
    refine (hs.work p w hw).imp id fun ⟨hlock, hok⟩ => ⟨hlock, ?_⟩
    rw [hpushed, hl]
    exact hok.append (hs.pushed_le _)
  · obtain ⟨l, hl⟩ := hcounted n
    rw [hseq, hs.seq_eq, hl, length_append]
    exact Nat.le_add_right _ _

/-- A push that moves on its own node while nobody else holds that node's lock disturbs no other
push and no other node: only its own node and its own phase are left to check. -/
lemma Inv.of_frame (hs : Inv s) {n : NodeId} (hfree : s.lock n = none ∨ s.lock n = some p)
    (hcommitted : s'.committed = s.committed) (hcounted : s'.counted = s.counted)
    (hmarkers : ∀ m, m ≠ n → s'.markers m = s.markers m) (haccepted : ∀ m, m ≠ n → s'.accepted m = s.accepted m)
    (hlock : ∀ m, m ≠ n → s'.lock m = s.lock m) (hpushers : ∀ q, q ≠ p → s'.pushers q = s.pushers q)
    (hseq : s'.seqOf n = s.seqOf n) (hle : s.pushedOf n ≤ s'.pushedOf n)
    (hpushed : s'.pushedOf n ≤ (s.counted n).length)
    (hlive : ∀ c ∈ (s.counted n).take (s'.pushedOf n), Live (s'.accepted n) c)
    (hself : ∀ w, s'.pushers p = some w → w.node = n ∧ (w.phase = .waiting ∨ (s'.lock n = some p ∧
      PhaseOk (s.counted n) (s'.pushedOf n) (s'.accepted n) w.phase))) : Kept s s' := by
  have hsame (m : NodeId) : s'.seqOf m = s.seqOf m := by
    by_cases hm : m = n
    · rw [hm, hseq]
    · simp only [State.seqOf, hmarkers m hm]
  refine ⟨⟨?_, ?_, ?_, ?_, ?_⟩, fun m => (hsame m).ge, fun m => ?_⟩
  · rw [hcommitted, hcounted]
    exact hs.counted_lt
  · intro m
    rw [hcounted, ← hs.seq_eq m, hsame]
  · intro m
    rw [hcounted]
    by_cases hm : m = n
    · rw [hm]
      exact hpushed
    · simp only [State.pushedOf, hmarkers m hm]
      exact hs.pushed_le m
  · intro m
    rw [hcounted]
    by_cases hm : m = n
    · rw [hm]
      exact hlive
    · simp only [State.pushedOf, hmarkers m hm, haccepted m hm]
      exact hs.live m
  · intro q w hw
    rw [hcounted]
    by_cases hq : q = p
    · subst hq
      obtain ⟨hn, h⟩ := hself w hw
      rw [hn]
      exact h
    rw [hpushers q hq] at hw
    rcases hs.work q w hw with hwait | ⟨hl, hok⟩
    · exact .inl hwait
    have hm : w.node ≠ n := by
      rintro rfl
      simp [hl, hq] at hfree
    refine .inr ⟨by rw [hlock _ hm, hl], ?_⟩
    simp only [State.pushedOf, hmarkers _ hm, haccepted _ hm]
    exact hok
  · by_cases hm : m = n
    · rw [hm]
      exact hle
    · simp only [State.pushedOf, hmarkers m hm, le_refl]

lemma Inv.holds (hs : Inv s) {ph : Phase} (hw : s.pushers p = some w) (hphase : w.phase = ph) (hne : ph ≠ .waiting) :
    s.lock w.node = some p ∧ PhaseOk (s.counted w.node) (s.pushedOf w.node) (s.accepted w.node) ph :=
  hphase ▸ (hs.work p w hw).resolve_left (hphase ▸ hne)

/-- The lock holder changes its own phase and nothing else. -/
lemma Inv.setPusher (hs : Inv s) (hl : s.lock w.node = some p)
    (hok : PhaseOk (s.counted w.node) (s.pushedOf w.node) (s.accepted w.node) w.phase) : Kept s (s.setPusher p w) := by
  refine hs.of_frame (n := w.node) (p := p) (.inr hl) rfl rfl (fun _ _ => rfl) (fun _ _ => rfl) (fun _ _ => rfl)
    (fun q hq => ?_) rfl le_rfl (hs.pushed_le _) (hs.live _) ?_
  · simp [State.setPusher, hq]
  intro w' hw'
  simp only [State.setPusher, Function.update_self, Option.some.injEq] at hw'
  subst hw'
  exact ⟨rfl, .inr ⟨hl, hok⟩⟩

lemma Inv.release (hs : Inv s) (hl : s.lock w.node = some p) : Kept s (s.release p w) := by
  refine hs.of_frame (n := w.node) (p := p) (.inr hl) rfl rfl (fun _ _ => rfl) (fun _ _ => rfl) (fun m hm => ?_)
    (fun q hq => ?_) rfl le_rfl (hs.pushed_le _) (hs.live _) ?_
  · simp [State.release, hm]
  · simp [State.release, hq]
  · simp [State.release]

/-- The statement of `settlePending` on the holder's node: what it settles is live already. -/
lemma Inv.settleMarkers (hs : Inv s)
    {err : Option Bytes} (hw : s.pushers p = some w) (hphase : w.phase = .settling seq err) :
    Kept s { s with markers := update s.markers w.node ((s.markers w.node).map (settle now seq err)) } := by
  obtain ⟨hl, hok⟩ := hs.holds hw hphase nofun
  set s' : State := { s with
    markers := update s.markers w.node ((s.markers w.node).map (settle now seq err)) }
  have hseq : s'.seqOf w.node = s.seqOf w.node := by
    simp only [State.seqOf, s']
    cases s.markers w.node <;> simp
  -- the new `pushed_seq` is the old one, or the settled `seq` when the push succeeded
  have hpushed : s'.pushedOf w.node = s.pushedOf w.node ∨
      (err = none ∧ s'.pushedOf w.node = seq ∧ s.pushedOf w.node ≤ seq) := by
    simp only [State.pushedOf, s', Function.update_self]
    cases s.markers w.node with
    | none => simp
    | some m =>
      simp only [Option.map_some, Option.elim, settle_pushedSeq]
      split
      · rcases le_total m.pushedSeq seq with h | h
        · exact .inr ⟨‹_›, max_eq_right h, h⟩
        · exact .inl (max_eq_left h)
      · exact .inl rfl
  have hsettled : s.pushedOf w.node ≤ s'.pushedOf w.node ∧ s'.pushedOf w.node ≤ (s.counted w.node).length ∧
      ∀ c ∈ (s.counted w.node).take (s'.pushedOf w.node), Live (s.accepted w.node) c := by
    rcases hpushed with h | ⟨rfl, h, hle⟩
    · rw [h]
      exact ⟨le_rfl, hs.pushed_le _, hs.live _⟩
    · rw [h]
      exact ⟨hle, hok⟩
  refine hs.of_frame (n := w.node) (p := p) (.inr hl) rfl rfl (fun m hm => ?_) (fun _ _ => rfl) (fun _ _ => rfl)
    (fun _ _ => rfl) hseq hsettled.1 hsettled.2.1 hsettled.2.2 ?_
  · simp [s', hm]
  intro w' hw'
  have hww : w = w' := Option.some.inj (hw.symm.trans hw')
  subst hww
  refine ⟨rfl, .inr ⟨hl, ?_⟩⟩
  rw [hphase]
  cases err with
  | none => exact hok
  | some msg => trivial

/-- The holder's node accepts a config of the build in hand. -/
lemma Inv.accept (hs : Inv s) {snap : Snapshot} {live : Bool} (hw : s.pushers p = some w)
    (hphase : w.phase = .loading seq snap live) :
    Kept s { s with accepted := update s.accepted w.node (some snap) } := by
  obtain ⟨hl, ⟨hne, hseq, hcov⟩, -⟩ := hs.holds hw hphase nofun
  refine hs.of_frame (n := w.node) (p := p) (.inr hl) rfl rfl (fun _ _ => rfl) (fun m hm => ?_) (fun _ _ => rfl)
    (fun _ _ => rfl) rfl le_rfl (hs.pushed_le _) ?_ ?_
  · simp [hm]
  · intro c hc
    have hc' : c ∈ (s.counted w.node).take (max seq (s.pushedOf w.node)) :=
      take_subset_take_left _ (le_max_right _ _) hc
    exact ⟨snap, by simp, hne, hcov c hc'⟩
  · intro w' hw'
    have hww : w = w' := Option.some.inj (hw.symm.trans hw')
    subst hww
    refine ⟨rfl, .inr ⟨hl, ?_⟩⟩
    rw [hphase]
    exact ⟨⟨hne, hseq, hcov⟩, fun _ => by simp⟩

lemma Inv.acquire (hs : Inv s) (hfree : s.lock w.node = none) :
    Kept s { s.setPusher p { w with phase := .locked } with
      lock := update s.lock w.node (some p) } := by
  refine hs.of_frame (n := w.node) (p := p) (.inl hfree) rfl rfl (fun _ _ => rfl) (fun _ _ => rfl) (fun m hm => ?_)
    (fun q hq => ?_) rfl le_rfl (hs.pushed_le _) (hs.live _) ?_
  · simp [hm]
  · simp [State.setPusher, hq]
  intro w' hw'
  simp only [State.setPusher, Function.update_self, Option.some.injEq] at hw'
  subst hw'
  exact ⟨rfl, .inr ⟨by simp, trivial⟩⟩

/-- A query issued after `seq` was read sees every change counted so far. -/
lemma Inv.covers_query (hs : Inv s) (n : NodeId) :
    ∀ c ∈ (s.counted n).take k, c < s.committed := fun c hc =>
  hs.counted_lt n c (take_subset _ _ hc)

lemma Inv.query (hs : Inv s) (hw : s.pushers p = some w) (h : pusherStep s p w .query = some s') : Kept s s' := by
  simp only [pusherStep] at h
  split at h
  · next seq hphase =>
    obtain ⟨hl, hok⟩ := hs.holds hw hphase nofun
    cases h
    refine hs.setPusher hl ⟨by simp, hok, fun c hc v hv => ?_⟩
    rw [mem_singleton.mp hv]
    exact hs.covers_query _ c hc
  · next seq snap hphase =>
    obtain ⟨hl, hne, hseq, hcov⟩ := hs.holds hw hphase nofun
    cases h
    refine hs.setPusher hl ⟨by simp, hseq, fun c hc v hv => ?_⟩
    rcases mem_append.mp hv with hv | hv
    · exact hcov c hc v hv
    · rw [mem_singleton.mp hv]
      exact hs.covers_query _ c hc
  · cases h

lemma Inv.move (hs : Inv s) (hw : s.pushers p = some w) (mv : Move) (h : pusherStep s p w mv = some s') : Kept s s' := by
  cases mv with
  | acquire =>
    simp only [pusherStep] at h
    split_ifs at h with hc
    cases h
    exact hs.acquire hc.2
  | readGen =>
    simp only [pusherStep] at h
    split_ifs at h with hphase
    cases h
    exact hs.setPusher (hs.holds hw hphase nofun).1 trivial
  | readSeq readOk =>
    simp only [pusherStep] at h
    split_ifs at h with hphase
    cases h
    refine hs.setPusher (hs.holds hw hphase nofun).1 ?_
    -- a lost read gives 0, a good one the number of changes counted so far
    have hseq := hs.seq_eq w.node
    simp only [PhaseOk, State.seqOf] at hseq ⊢
    rw [← hseq]
    cases s.markers w.node with
    | none => simp [pendingSeq]
    | some m => cases readOk <;> simp [pendingSeq]
  | query => exact hs.query hw h
  | endBuild err =>
    simp only [pusherStep] at h
    split at h
    · next seq snap hphase =>
      obtain ⟨hl, hok⟩ := hs.holds hw hphase nofun
      cases h
      exact hs.setPusher hl ⟨hok, by simp⟩
    · next hphase =>
      cases h
      exact hs.setPusher (hs.holds hw hphase nofun).1 trivial
    · next hphase =>
      cases h
      exact hs.setPusher (hs.holds hw hphase nofun).1 trivial
    · cases h
  | load accepts =>
    simp only [pusherStep] at h
    split at h
    · next seq snap live hphase =>
      obtain ⟨hl, hok⟩ := hs.holds hw hphase nofun
      split_ifs at h with ha
      · cases h
        exact (hs.accept hw hphase).trans fun hs => hs.setPusher hl ⟨hok.1, fun _ => by simp⟩
      · cases h
        exact hs.setPusher hl hok
    · cases h
  | endLoad err =>
    simp only [pusherStep] at h
    split at h
    · next seq snap hphase =>
      obtain ⟨hl, ⟨hne, hseq, hcov⟩, hlive⟩ := hs.holds hw hphase nofun
      cases h
      refine hs.setPusher hl ⟨hseq, fun c hc => ⟨snap, hlive rfl, hne, hcov c ?_⟩⟩
      exact take_subset_take_left _ (le_max_left _ _) hc
    · next hphase =>
      cases h
      exact hs.setPusher (hs.holds hw hphase nofun).1 trivial
    · cases h
  | settle now writeOk =>
    simp only [pusherStep] at h
    split at h
    · next seq err hphase =>
      have hl := (hs.holds hw hphase nofun).1
      -- the marker statement first, then the phase: the two commute
      have hs₁ : Kept s { s with
          markers := if writeOk then update s.markers w.node
            ((s.markers w.node).map (Outbox.settle now seq err)) else s.markers } := by
        cases writeOk with
        | false => exact hs.kept
        | true => exact hs.settleMarkers hw hphase
      cases err with
      | none =>
        simp only [reduceIte, Option.some.injEq] at h
        subst h
        exact hs₁.trans fun hs => hs.setPusher (w := { w with phase := .settled }) hl trivial
      | some msg =>
        simp only [reduceCtorEq, reduceIte, Option.some.injEq] at h
        subst h
        exact hs₁.trans fun hs => hs.release hl
    · cases h
  | finish ctxDone =>
    simp only [pusherStep] at h
    split_ifs at h with hphase hdone
    all_goals cases h
    · exact hs.release (hs.holds hw hphase nofun).1
    · exact hs.setPusher (hs.holds hw hphase nofun).1 trivial

/-- A new call waits for the lock; a restart leaves no call behind. -/
lemma Inv.start (hs : Inv s) (hw : w.phase = .waiting) : Inv (s.setPusher p w) where
  counted_lt := hs.counted_lt
  seq_eq := hs.seq_eq
  pushed_le := hs.pushed_le
  live := hs.live
  work := by
    intro q v hv
    obtain ⟨-, ⟨⟩⟩ | ⟨-, hv⟩ := Runs.update_eq_some hv
    · exact .inl hw
    · exact hs.work q v hv

theorem inv_step {e : Event} (hs : Inv s) (h : step s e = some s') : Kept s s' := by
  have hsame : ∀ {t : State}, Inv t → t.markers = s.markers → Kept s t := by
    intro t ht hmarkers
    refine ⟨ht, fun n => ?_, fun n => ?_⟩
    · rw [State.seqOf, State.seqOf, hmarkers]
    · rw [State.pushedOf, State.pushedOf, hmarkers]
  cases e with
  | commit now due ids =>
    cases h
    exact hs.count ids (Nat.le_succ _) (Nat.lt_succ_self _)
  | schedule now due c node =>
    simp only [step] at h
    split_ifs at h with hc
    cases h
    exact hs.count [node] le_rfl hc
  | bumpDesiredGen node =>
    cases h
    exact hsame ⟨hs.counted_lt, hs.seq_eq, hs.pushed_le, hs.live, hs.work⟩ rfl
  | start p node loops =>
    simp only [step] at h
    split_ifs at h
    all_goals cases h
    all_goals exact hsame (hs.start rfl) rfl
  | crash =>
    cases h
    exact hsame ⟨hs.counted_lt, hs.seq_eq, hs.pushed_le, hs.live, by simp⟩ rfl
  | push p mv =>
    simp only [step, Option.bind_eq_some_iff] at h
    obtain ⟨w, hw, h⟩ := h
    exact hs.move hw mv h

/-! ### No lost update -/

/-- After every run, and along every continuation of it: `pushed_seq` stays within `seq`, neither
decreases, and where they agree the config the node last accepted was built from database states
that contain every change `seq` counts. -/
theorem settled_config_is_live {s s' : State} {es es' : List Event}
    (h : Runs.run step State.init es = some s) (h' : Runs.run step s es' = some s') (n : NodeId) :
    (∀ m, s.markers n = some m → m.seq = (s.counted n).length ∧ m.pushedSeq ≤ m.seq ∧
      (m.pushedSeq = m.seq → ∀ c ∈ s.counted n, Live (s.accepted n) c)) ∧
    s.seqOf n ≤ s'.seqOf n ∧ s.pushedOf n ≤ s'.pushedOf n := by
  have hrun : ∀ {t t' es}, Inv t → Runs.run step t es = some t' → Kept t t' := fun {t t' es} ht hrun =>
    Runs.run_invariant (I := Kept t) (fun _ _ _ hk hstep => hk.trans fun hs => inv_step hs hstep) ht.kept hrun
  have hinv : Inv s := (hrun inv_init h).inv
  have hkept := hrun hinv h'
  refine ⟨fun m hm => ?_, hkept.seq_le n, hkept.pushed_le n⟩
  have hseq := hinv.seq_eq n
  have hpushed := hinv.pushed_le n
  have hlive := hinv.live n
  simp only [State.seqOf, State.pushedOf, hm, Option.elim] at hseq hpushed hlive
  refine ⟨hseq, by omega, fun heq c hc => hlive c ?_⟩
  rw [heq, hseq, take_length]
  exact hc

/-- A change is committed, pushed and settled; a second one is then counted. -/
theorem settled_config_is_live_run : ∃ s s', Runs.run step State.init
      [.commit 0 45000 [7, 7], .start 0 7 true, .push 0 .acquire, .push 0 .readGen,
       .push 0 (.readSeq true), .push 0 .query, .push 0 .query, .push 0 (.endBuild none),
       .push 0 (.load true), .push 0 (.endLoad none), .push 0 (.settle 100 true)] = some s ∧
    Runs.run step s [.commit 200 45200 [7]] = some s' ∧
    s.markers 7 = some ⟨1, 1, 0, 0, none, 45000⟩ ∧ Live (s.accepted 7) 0 ∧ s.seqOf 7 ≤ s'.seqOf 7 := by
  obtain ⟨s, hs, hm, hc⟩ : ∃ s, Runs.run step State.init
      [.commit 0 45000 [7, 7], .start 0 7 true, .push 0 .acquire, .push 0 .readGen,
       .push 0 (.readSeq true), .push 0 .query, .push 0 .query, .push 0 (.endBuild none),
       .push 0 (.load true), .push 0 (.endLoad none), .push 0 (.settle 100 true)] = some s ∧
      s.markers 7 = some ⟨1, 1, 0, 0, none, 45000⟩ ∧ s.counted 7 = [0] := ⟨_, rfl, rfl, rfl⟩
  have hs' : Runs.run step s [.commit 200 45200 [7]] = some _ := rfl
  obtain ⟨hmarker, hseq, -⟩ := settled_config_is_live hs hs' 7
  exact ⟨s, _, hs, hs', hm, (hmarker _ hm).2.2 rfl 0 (by simp [hc]), hseq⟩

end Outbox
