import CaddyPanel.Lib.Traces
import Mathlib.Data.List.Basic

/-!
# The fence between session generations

Each replica of the panel announces the generation of its sessions by a key in Redis that expires
(`internal/auth/generation.go`), and an older replica yields to a newer one for good. A heartbeat is two steps, the
announcement and the refresh of the fence; a readiness report is one. Replicas are numbered as they start. Times are in
nanoseconds.
-/

namespace Fleet

open List Traces

def fleetHeartbeatTTL : ℕ := 20 * 10 ^ 9
def fleetPublishGrace : ℕ := 16 * 10 ^ 9

/-- A process with its `fleetBeacon`, and its key in Redis, which may outlive it. -/
structure Replica where
  gen : ℕ
  localReady : Bool
  running : Bool := true
  fenced : Bool := false
  /-- `everOK`, and then `lastOK` -/
  published : Option (Option ℕ) := none
  /-- when the key expires -/
  key : Option ℕ := none

structure State where
  now : ℕ
  replicas : List Replica

/-- What Redis answers to a write; one that fails may have been carried out. -/
inductive Reply where
  | ok
  | failed (applied : Bool)
  deriving DecidableEq

inductive Event where
  | start (gen : ℕ) (localReady : Bool)
  | setReady (i : ℕ) (localReady : Bool)
  | beat (i : ℕ) (reply : Reply)
  | scan (i : ℕ) (answered : Bool)
  | report (i : ℕ) (answered : Bool)
  | stop (i : ℕ) (reply : Reply)
  | crash (i : ℕ)
  | wait (time : ℕ)

namespace Replica

def live (r : Replica) (now : ℕ) : Bool :=
  r.key.any (now < ·)

def fresh (r : Replica) (now : ℕ) : Bool :=
  r.published.join.any (now ≤ · + fleetPublishGrace)

def trip (r : Replica) : Replica :=
  { r with fenced := true }

end Replica

/-- Whether the own key is there, and the highest generation. No two processes have the same key. -/
def scanFleet (s : State) (r : Replica) : Bool × ℕ :=
  (r.live s.now, ((s.replicas.filter (·.live s.now)).map Replica.gen).foldl max r.gen)

def publishFleetBeat (now : ℕ) (reply : Reply) (r : Replica) : Replica :=
  match reply with
  | .ok => { r with published := some (some now), key := some (now + fleetHeartbeatTTL) }
  | .failed true => { r with key := some (now + fleetHeartbeatTTL) }
  | .failed false => r

def withdrawFleetBeat (reply : Reply) (r : Replica) : Replica :=
  match r.published with
  | none => r
  | some _ => { r with published := some none, key := if reply = .failed false then r.key else none }

/-- The first half of `refreshFleetBeat`. -/
def refreshFleetBeat (now : ℕ) (reply : Reply) (r : Replica) : Replica :=
  if r.localReady then publishFleetBeat now reply r else withdrawFleetBeat reply r

def refreshFleetFence (s : State) (answered : Bool) (r : Replica) : Replica :=
  if answered && r.gen < (scanFleet s r).2 then r.trip else r

/-- What `FleetGenerationReady` asks for before it compares the generations. -/
def visible (s : State) (r : Replica) : Bool :=
  !r.fenced && r.fresh s.now && (scanFleet s r).1

/-- `FleetGenerationReady`, as far as it sets the fence. -/
def reported (s : State) (answered : Bool) (r : Replica) : Replica :=
  if visible s r then refreshFleetFence s answered r else r

/-- `FleetGenerationReady` gives no error, where Redis answers. -/
def fleetGenerationReady (s : State) (r : Replica) : Bool :=
  r.running && visible s r && (scanFleet s r).2 ≤ r.gen

def ready (s : State) (i : ℕ) : Bool :=
  s.replicas[i]?.any (fleetGenerationReady s)

def Event.target : Event → Option ℕ
  | .setReady i _ | .beat i _ | .scan i _ | .report i _ | .stop i _ | .crash i => some i
  | .start .. | .wait _ => none

def Replica.react (s : State) (r : Replica) : Event → Replica
  | .setReady _ localReady => { r with localReady := localReady }
  | .beat _ reply => refreshFleetBeat s.now reply r
  | .scan _ answered => refreshFleetFence s answered r
  | .report _ answered => reported s answered r
  | .stop _ reply => { withdrawFleetBeat reply r with running := false }
  | .crash _ => { r with running := false }
  | .start .. | .wait _ => r

/-- Each process takes its own steps, as long as it runs. -/
def Replica.handle (s : State) (e : Event) (i : ℕ) (r : Replica) : Replica :=
  if e.target = some i && r.running then r.react s e else r

def step (s : State) (e : Event) : State where
  now := match e with
    | .wait time => s.now + time
    | _ => s.now
  replicas := s.replicas.mapIdx (Replica.handle s e) ++ match e with
    | .start gen localReady => [{ gen, localReady }]
    | _ => []

def run (events : List Event) : State :=
  events.foldl step ⟨0, []⟩

variable {s : State} {e : Event} {i n : ℕ} {r r' q : Replica}

/-! ### One step -/

lemma now_le_step (s : State) (e : Event) : s.now ≤ (step s e).now := by
  cases e with
  | wait time => exact Nat.le_add_right _ _
  | _ => exact Nat.le_refl _

lemma getElem?_step (h : s.replicas[i]? = some r) (e : Event) : (step s e).replicas[i]? = some (r.handle s e i) := by
  have hi : i < (s.replicas.mapIdx (Replica.handle s e)).length := by
    rw [List.length_mapIdx]
    exact (List.getElem?_eq_some_iff.mp h).1
  refine (List.getElem?_append_left hi).trans ?_
  rw [getElem?_mapIdx, h, Option.map_some]

/-- A process stays at its generation and behind its fence. -/
lemma handle_keeps (s : State) (e : Event) (i : ℕ) (r : Replica) :
    (r.handle s e i).gen = r.gen ∧ (r.fenced → (r.handle s e i).fenced) := by
  unfold Replica.handle
  split
  · cases e <;> simp only [Replica.react, refreshFleetBeat, publishFleetBeat, withdrawFleetBeat, reported,
      refreshFleetFence, Replica.trip] <;> (repeat' split) <;> simp
  · simp

/-- A scan tells whether a newer generation is announced. -/
lemma lt_newest_iff : r.gen < (scanFleet s r).2 ↔ ∃ q ∈ s.replicas, q.live s.now ∧ r.gen < q.gen := by
  have hfold : ∀ (l : List ℕ) (n : ℕ), r.gen < l.foldl max n ↔ r.gen < n ∨ ∃ m ∈ l, r.gen < m := by
    intro l
    induction l with
    | nil => simp
    | cons m l ih =>
      intro n
      rw [foldl_cons, ih]
      simp [or_assoc]
  simp [scanFleet, hfold, and_assoc]

/-! ### The fence is kept -/

/-- The key outlives the grace: what was announced is still there as long as the replica relies on it. -/
def Replica.Kept (now : ℕ) (r : Replica) : Prop :=
  ∀ t, r.published = some (some t) → t ≤ now ∧ ∃ expiry, r.key = some expiry ∧ t + fleetHeartbeatTTL ≤ expiry

lemma kept_publishFleetBeat {now : ℕ} (h : r.Kept now) (reply : Reply) : (publishFleetBeat now reply r).Kept now := by
  intro t ht
  cases reply with
  | ok =>
    cases ht
    exact ⟨Nat.le_refl _, _, rfl, Nat.le_refl _⟩
  | failed applied =>
    cases applied with
    | true => exact ⟨(h t ht).1, _, rfl, Nat.add_le_add_right (h t ht).1 _⟩
    | false => exact h t ht

lemma kept_withdrawFleetBeat {now : ℕ} (h : r.Kept now) (reply : Reply) : (withdrawFleetBeat reply r).Kept now := by
  unfold withdrawFleetBeat
  split
  · exact h
  · intro t ht
    cases ht

lemma kept_refreshFleetFence {now : ℕ} (h : r.Kept now) (answered : Bool) : (refreshFleetFence s answered r).Kept now := by
  unfold refreshFleetFence
  split <;> exact h

lemma kept_handle (h : r.Kept s.now) : (r.handle s e i).Kept s.now := by
  unfold Replica.handle
  split
  · cases e with
    | beat _ reply =>
      simp only [Replica.react, refreshFleetBeat]
      split
      · exact kept_publishFleetBeat h reply
      · exact kept_withdrawFleetBeat h reply
    | scan _ answered => exact kept_refreshFleetFence h answered
    | report _ answered =>
      simp only [Replica.react, reported]
      split
      · exact kept_refreshFleetFence h answered
      · exact h
    | stop _ reply => exact kept_withdrawFleetBeat h reply
    | _ => exact h
  · exact h

lemma kept_step (h : ∀ r ∈ s.replicas, r.Kept s.now) (e : Event) : ∀ r ∈ (step s e).replicas, r.Kept (step s e).now := by
  intro r' hr' t ht
  obtain hr' | hr' := mem_append.mp hr'
  · obtain ⟨i, hi, rfl⟩ := mem_mapIdx.mp hr'
    obtain ⟨hle, hkey⟩ := kept_handle (h _ (getElem_mem hi)) t ht
    exact ⟨hle.trans (now_le_step s e), hkey⟩
  · cases e with
    | start gen localReady =>
      obtain rfl := mem_singleton.mp hr'
      cases ht
    | _ => cases hr'

lemma kept_run (events : List Event) : ∀ r ∈ (run events).replicas, r.Kept (run events).now :=
  List.foldlRecOn (motive := fun s => ∀ r ∈ s.replicas, r.Kept s.now) events step (fun _ hr => absurd hr not_mem_nil)
    fun _ hs e _ => kept_step hs e

lemma live_of_fresh {now : ℕ} (h : r.Kept now) (hfresh : r.fresh now) : r.live now := by
  obtain ⟨t, ht, hle⟩ := (Option.any_eq_true _ _).mp hfresh
  obtain ⟨-, expiry, hkey, hlater⟩ := h t (Option.join_eq_some_iff.mp ht)
  have hgrace : fleetPublishGrace < fleetHeartbeatTTL := by decide
  have hle : now ≤ t + fleetPublishGrace := of_decide_eq_true hle
  rw [Replica.live, hkey, Option.any_some, decide_eq_true_eq]
  omega

/-- The replica scans the fleet, in a heartbeat or for a report, and is told of a newer generation. -/
def Sees (s : State) (e : Event) (i : ℕ) : Prop :=
  ∃ r, s.replicas[i]? = some r ∧ r.running ∧ r.gen < (scanFleet s r).2 ∧
    (e = .scan i true ∨ e = .report i true ∧ r.fenced = false ∧ r.fresh s.now)

def Fenced (s : State) (i : ℕ) : Prop :=
  ∃ r, s.replicas[i]? = some r ∧ r.fenced

lemma fenced_of_sees (hs : ∀ r ∈ s.replicas, r.Kept s.now) (h : Sees s e i) : Fenced (step s e) i := by
  obtain ⟨r, hr, hrunning, hnewer, he⟩ := h
  refine ⟨_, getElem?_step hr e, ?_⟩
  obtain rfl | ⟨rfl, hfenced, hfresh⟩ := he
  · simp [Replica.handle, Event.target, Replica.react, refreshFleetFence, Replica.trip, hrunning, hnewer]
  -- a report looks for its own key first
  have hself : (scanFleet s r).1 := live_of_fresh (hs r (mem_of_getElem? hr)) hfresh
  simp [Replica.handle, Event.target, Replica.react, reported, visible, refreshFleetFence, Replica.trip, hrunning,
    hnewer, hfenced, hfresh, hself]

lemma Fenced.step (h : Fenced s i) (e : Event) : Fenced (step s e) i := by
  obtain ⟨r, hr, hfenced⟩ := h
  exact ⟨_, getElem?_step hr e, (handle_keeps s e i r).2 hfenced⟩

lemma Fenced.foldl (h : Fenced s i) (events : List Event) : Fenced (events.foldl Fleet.step s) i :=
  List.foldlRecOn (motive := (Fenced · i)) events Fleet.step h fun _ hs e _ => hs.step e

lemma Fenced.not_ready (h : Fenced s i) : ready s i = false := by
  obtain ⟨r, hr, hfenced⟩ := h
  simp [ready, hr, fleetGenerationReady, visible, hfenced]

/-! ### A fleet that no longer changes -/

/-- What still happens then: Redis answers, and no process starts, stops or changes its readiness. -/
def Quiet : Event → Prop
  | .beat _ reply => reply = .ok
  | .scan _ answered | .report _ answered => answered
  | .wait _ => True
  | .start .. | .setReady .. | .stop .. | .crash _ => False

lemma handle_of_quiet (h : Quiet e) (s : State) (i : ℕ) (r : Replica) :
    r.handle s e i = r ∨ r.handle s e i = r.trip ∨
      (e = .beat i .ok ∧ r.running ∧ r.handle s e i = refreshFleetBeat s.now .ok r) := by
  have hfence : ∀ answered, refreshFleetFence s answered r = r ∨ refreshFleetFence s answered r = r.trip := by
    intro answered
    unfold refreshFleetFence
    split <;> simp
  unfold Replica.handle
  split
  · next hown =>
    obtain ⟨htarget, hrunning⟩ := Bool.and_eq_true_iff.mp hown
    have htarget := of_decide_eq_true htarget
    cases e with
    | beat _ reply =>
      cases htarget
      cases h
      exact .inr (.inr ⟨rfl, hrunning, rfl⟩)
    | scan _ answered => exact (hfence answered).imp_right .inl
    | report _ answered =>
      simp only [Replica.react, reported]
      split
      · exact (hfence answered).imp_right .inl
      · exact .inl rfl
    | wait _ => exact .inl rfl
    | _ => cases h
  · exact .inl rfl

lemma replicas_of_quiet (h : Quiet e) : (step s e).replicas = s.replicas.mapIdx (Replica.handle s e) := by
  cases e with
  | start gen localReady => cases h
  | _ => exact append_nil _

/-- The states of one replica along the run that starts at `s`. -/
def course (s : State) (labels : ℕ → Event) (i : ℕ) (r : Replica) : ℕ → Replica
  | 0 => r
  | n + 1 => (course s labels i r n).handle (trace step s labels n) (labels n) i

variable {labels : ℕ → Event} {j m : ℕ}

lemma now_mono (h : m ≤ n) : (trace step s labels m).now ≤ (trace step s labels n).now := by
  induction n, h using Nat.le_induction with
  | base => exact Nat.le_refl _
  | succ n _ ih => exact ih.trans (now_le_step _ _)

section Course

variable (hq : ∀ n, Quiet (labels n))

include hq

lemma getElem?_trace (n i : ℕ) :
    (trace step s labels n).replicas[i]? = (s.replicas[i]?).map fun r => course s labels i r n := by
  induction n with
  | zero => exact Option.map_id'.symm
  | succ n ih =>
    rw [trace, replicas_of_quiet (hq n), getElem?_mapIdx, ih, Option.map_map]
    rfl

lemma course_keeps (i : ℕ) (r : Replica) (n : ℕ) : (course s labels i r n).gen = r.gen ∧
    (course s labels i r n).running = r.running ∧ (course s labels i r n).localReady = r.localReady := by
  induction n with
  | zero => exact ⟨rfl, rfl, rfl⟩
  | succ n ih =>
    rw [← ih.1, ← ih.2.1, ← ih.2.2, course]
    obtain heq | heq | ⟨-, -, heq⟩ := handle_of_quiet (hq n) (trace step s labels n) i (course s labels i r n)
    · rw [heq]
      exact ⟨rfl, rfl, rfl⟩
    · rw [heq]
      exact ⟨rfl, rfl, rfl⟩
    · simp only [heq, refreshFleetBeat, withdrawFleetBeat]
      repeat' split
      all_goals exact ⟨rfl, rfl, rfl⟩

/-- A replica announces itself in its heartbeats only. -/
lemma announced_course {k : ℕ} (hk : k ≤ n) (hlast : ∀ j, k ≤ j → j < n → labels j ≠ .beat i .ok) :
    (course s labels i r n).published = (course s labels i r k).published ∧
      (course s labels i r n).key = (course s labels i r k).key := by
  induction n, hk using Nat.le_induction with
  | base => exact ⟨rfl, rfl⟩
  | succ n hk ih =>
    obtain ⟨hpublished, hkey⟩ := ih fun j hj hlt => hlast j hj (Nat.lt_succ_of_lt hlt)
    rw [← hpublished, ← hkey, course]
    obtain heq | heq | ⟨he, -, -⟩ := handle_of_quiet (hq n) (trace step s labels n) i (course s labels i r n)
    · rw [heq]
      exact ⟨rfl, rfl⟩
    · rw [heq]
      exact ⟨rfl, rfl⟩
    · exact absurd he (hlast n hk n.lt_succ_self)

/-- The key of a replica that is stopped or not ready is as old as the run. -/
lemma key_of_unready (hoff : (r.running && r.localReady) = false) {expiry : ℕ} (hm : m ≤ n)
    (h : (course s labels i r n).key = some expiry) : (course s labels i r m).key = some expiry := by
  induction n, hm using Nat.le_induction with
  | base => exact h
  | succ n hm ih =>
    apply ih
    rw [course] at h
    obtain heq | heq | ⟨-, hrunning, heq⟩ := handle_of_quiet (hq n) (trace step s labels n) i (course s labels i r n)
    · rwa [heq] at h
    · rwa [heq] at h
    obtain ⟨-, hsame, hready⟩ := course_keeps (s := s) hq i r n
    rw [← hsame, hrunning, Bool.true_and, ← hready] at hoff
    simp only [heq, refreshFleetBeat, hoff, Bool.false_eq_true, if_false, withdrawFleetBeat] at h
    split at h
    · exact h
    · simp at h

end Course

/-- From `s` on, nothing else happens than `Quiet` says. The heartbeats go on, the next one within the grace of the last
(`fleetHeartbeatEvery` is 8 s, and `localReady` gives up after 3 s), and a fenced replica drains and stops. -/
structure Settled (s : State) (labels : ℕ → Event) : Prop where
  quiet : ∀ n, Quiet (labels n)
  drained : ∀ n i r, (trace step s labels n).replicas[i]? = some r → r.running → r.fenced →
    ∃ m, n ≤ m ∧ ((∃ reply, labels m = .stop i reply) ∨ labels m = .crash i)
  scans : ∀ i r, s.replicas[i]? = some r → r.running → ∀ n, ∃ m, n ≤ m ∧ labels m = .scan i true
  punctual : ∀ i r, s.replicas[i]? = some r → r.running → ∀ k n, k < n → labels k = .beat i .ok →
    (∀ j, k < j → j < n → labels j ≠ .beat i .ok) →
    (trace step s labels n).now ≤ (trace step s labels k).now + fleetPublishGrace

/-- Every running replica has gone through a heartbeat. -/
def Round (s : State) (labels : ℕ → Event) (n : ℕ) : Prop :=
  ∀ i r, s.replicas[i]? = some r → r.running →
    (∃ k, k < n ∧ labels k = .beat i .ok) ∧ ∃ k, k < n ∧ labels k = .scan i true

namespace Settled

section

variable (h : Settled s labels) (hr : s.replicas[i]? = some r) (hrunning : r.running)

include h hr hrunning

lemma not_fenced (n : ℕ) : (course s labels i r n).fenced = false := by
  by_contra hfenced
  have hat : (trace step s labels n).replicas[i]? = some (course s labels i r n) := by
    rw [getElem?_trace h.quiet, hr, Option.map_some]
  obtain ⟨m, -, hend⟩ := h.drained n i _ hat ((course_keeps h.quiet i r n).2.1.trans hrunning)
    (Bool.eq_true_of_not_eq_false hfenced)
  have hquiet := h.quiet m
  obtain ⟨reply, hend⟩ | hend := hend
  all_goals
    rw [hend] at hquiet
    cases hquiet

/-- A running replica would be fenced by any newer generation that it finds announced. -/
lemma gen_le_of_scan (hscan : labels n = .scan i true) (hq : s.replicas[j]? = some q)
    (hlive : (course s labels j q n).live (trace step s labels n).now) : q.gen ≤ r.gen := by
  by_contra hnewer
  obtain ⟨hgen, hsame, -⟩ := course_keeps (s := s) h.quiet i r n
  have hlt : (course s labels i r n).gen < (scanFleet (trace step s labels n) (course s labels i r n)).2 := by
    refine lt_newest_iff.mpr ⟨course s labels j q n, mem_of_getElem? (i := j) ?_, hlive, ?_⟩
    · rw [getElem?_trace h.quiet, hq, Option.map_some]
    · rw [hgen, (course_keeps h.quiet j q n).1]
      exact not_le.mp hnewer
  have hfenced := h.not_fenced hr hrunning (n + 1)
  simp [course, Replica.handle, Replica.react, Event.target, refreshFleetFence, Replica.trip, hscan, hlt, hsame,
    hrunning] at hfenced

/-- What the last heartbeat has left. -/
lemma announced (hround : Round s labels n) :
    ∃ k, (trace step s labels n).now ≤ (trace step s labels k).now + fleetPublishGrace ∧
      (r.localReady → (course s labels i r n).published = some (some (trace step s labels k).now) ∧
        (course s labels i r n).key = some ((trace step s labels k).now + fleetHeartbeatTTL)) ∧
      (r.localReady = false → (course s labels i r n).published.join = none) := by
  obtain ⟨k, hlt, hbeat, hlast⟩ := exists_last (hround i r hr hrunning).1
  obtain ⟨hpublished, hkey⟩ := announced_course (s := s) (r := r) h.quiet (Nat.succ_le_of_lt hlt) fun j hj => hlast j hj
  obtain ⟨-, hsame, hready⟩ := course_keeps (s := s) h.quiet i r k
  have hnext : course s labels i r (k + 1) = refreshFleetBeat (trace step s labels k).now .ok (course s labels i r k) := by
    simp [course, Replica.handle, Replica.react, Event.target, hbeat, hsame, hrunning]
  rw [hpublished, hkey, hnext, refreshFleetBeat, hready]
  refine ⟨k, h.punctual i r hr hrunning k n hlt hbeat hlast, fun hready => ?_, fun hready => ?_⟩
  · rw [if_pos hready]
    exact ⟨rfl, rfl⟩
  rw [if_neg (by simp [hready]), withdrawFleetBeat]
  split
  · next hnever => rw [hnever, Option.join_none]
  · rfl

lemma live_of_ready (hround : Round s labels n) (hready : r.localReady) :
    (course s labels i r n).live (trace step s labels n).now := by
  obtain ⟨k, hle, hset, -⟩ := h.announced hr hrunning hround
  have hgrace : fleetPublishGrace < fleetHeartbeatTTL := by decide
  rw [Replica.live, (hset hready).2, Option.any_some, decide_eq_true_eq]
  omega

/-- After the round no newer generation is announced to a running replica. -/
lemma gen_le_of_live (hround : Round s labels n) (hq : s.replicas[j]? = some q)
    (hlive : (course s labels j q n).live (trace step s labels n).now) : q.gen ≤ r.gen := by
  cases hon : q.running && q.localReady with
  | true =>
    -- `q` goes on announcing itself, so the next scan finds it
    obtain ⟨hqrunning, hqready⟩ := Bool.and_eq_true_iff.mp hon
    obtain ⟨m, hm, hscan⟩ := h.scans i r hr hrunning n
    have hround' : Round s labels m := fun j p hp hprunning =>
      ⟨(hround j p hp hprunning).1.imp fun _ hk => ⟨hk.1.trans_le hm, hk.2⟩,
        (hround j p hp hprunning).2.imp fun _ hk => ⟨hk.1.trans_le hm, hk.2⟩⟩
    exact h.gen_le_of_scan hr hrunning hscan hq (h.live_of_ready hq hqrunning hround' hqready)
  | false =>
    -- the key was there before the round, so its scan has found it
    obtain ⟨-, m, hm, hscan⟩ := hround i r hr hrunning
    obtain ⟨expiry, hkey, hlt⟩ := (Option.any_eq_true _ _).mp hlive
    refine h.gen_le_of_scan hr hrunning hscan hq ?_
    rw [Replica.live, key_of_unready h.quiet hon hm.le hkey, Option.any_some, decide_eq_true_eq]
    exact (now_mono hm.le).trans_lt (of_decide_eq_true hlt)

end

lemma fleetGenerationReady_iff (h : Settled s labels) (hround : Round s labels n) (hr : s.replicas[i]? = some r) :
    fleetGenerationReady (trace step s labels n) (course s labels i r n) ↔ r.running ∧ r.localReady := by
  obtain ⟨hgen, hsame, -⟩ := course_keeps (s := s) h.quiet i r n
  cases hrunning : r.running with
  | false => simp [fleetGenerationReady, hsame, hrunning]
  | true =>
    obtain ⟨k, hle, hset, hunset⟩ := h.announced hr hrunning hround
    cases hready : r.localReady with
    | false => simp [fleetGenerationReady, visible, Replica.fresh, hunset hready]
    | true =>
      have hself : (scanFleet (trace step s labels n) (course s labels i r n)).1 :=
        h.live_of_ready hr hrunning hround hready
      have hnewest : (scanFleet (trace step s labels n) (course s labels i r n)).2 ≤ (course s labels i r n).gen := by
        by_contra hnewer
        obtain ⟨q', hq', hlive, hlt⟩ := lt_newest_iff.mp (not_le.mp hnewer)
        obtain ⟨j, hj⟩ := mem_iff_getElem?.mp hq'
        rw [getElem?_trace h.quiet, Option.map_eq_some_iff] at hj
        obtain ⟨q, hq, rfl⟩ := hj
        rw [hgen, (course_keeps h.quiet j q n).1] at hlt
        exact absurd (h.gen_le_of_live hr hrunning hround hq hlive) (not_le.mpr hlt)
      simp [fleetGenerationReady, visible, Replica.fresh, h.not_fenced hr hrunning n, (hset hready).1, hle, hself, hnewest,
        hsame, hrunning]

end Settled

/-- A replica that has seen a newer generation never reports ready again. Once the fleet no longer changes, after a round of
heartbeats exactly the running replicas that are locally ready report ready, and they are of one generation. -/
theorem fence_converges (events : List Event) :
    (∀ before e after i, events = before ++ e :: after → Sees (run before) e i → ready (run events) i = false) ∧
    ∀ labels, Settled (run events) labels → ∀ n, Round (run events) labels n →
      (∀ i, ready (trace step (run events) labels n) i ↔
        ∃ r, (trace step (run events) labels n).replicas[i]? = some r ∧ r.running ∧ r.localReady) ∧
      ∀ r ∈ (trace step (run events) labels n).replicas, ∀ q ∈ (trace step (run events) labels n).replicas,
        r.running → r.localReady → q.running → q.localReady → r.gen = q.gen := by
  refine ⟨?_, fun labels h n hround => ?_⟩
  · rintro before e after i rfl hsees
    rw [run, foldl_append]
    exact ((fenced_of_sees (kept_run before) hsees).foldl after).not_ready
  have hkeeps := fun i r => course_keeps (s := run events) h.quiet i r n
  constructor
  · intro i
    rw [ready, getElem?_trace h.quiet]
    cases hr : (run events).replicas[i]? with
    | none => simp
    | some r =>
      rw [Option.map_some, Option.any_some, h.fleetGenerationReady_iff hround hr]
      simp [hkeeps]
  have hle : ∀ i j (r q : Replica), (run events).replicas[i]? = some r → (run events).replicas[j]? = some q →
      r.running → q.running → q.localReady → q.gen ≤ r.gen :=
    fun i j r q hr hq hrunning hqrunning hqready =>
      h.gen_le_of_live hr hrunning hround hq (h.live_of_ready hq hqrunning hround hqready)
  intro r' hr' q' hq' hr₁ hr₂ hq₁ hq₂
  obtain ⟨i, hi⟩ := mem_iff_getElem?.mp hr'
  obtain ⟨j, hj⟩ := mem_iff_getElem?.mp hq'
  rw [getElem?_trace h.quiet, Option.map_eq_some_iff] at hi hj
  obtain ⟨r, hr, rfl⟩ := hi
  obtain ⟨q, hq, rfl⟩ := hj
  rw [(hkeeps _ _).2.1] at hr₁ hq₁
  rw [(hkeeps _ _).2.2] at hr₂ hq₂
  rw [(hkeeps _ _).1, (hkeeps _ _).1]
  exact Nat.le_antisymm (hle j i q r hq hr hq₁ hr₁ hr₂) (hle i j r q hr hq hr₁ hq₁ hq₂)

/-- A replica of generation 2 takes over from one of generation 1, -/
def upgrade : List Event :=
  [.start 1 true, .start 2 true, .beat 0 .ok, .beat 1 .ok, .scan 0 true, .stop 0 .ok]

/-- and goes on alone. -/
def heartbeats (n : ℕ) : Event :=
  if n % 2 = 0 then .beat 1 .ok else .scan 1 true

lemma trace_heartbeats (n : ℕ) : trace step (run upgrade) heartbeats n = run upgrade := by
  induction n with
  | zero => rfl
  | succ n ih =>
    rw [trace, ih, heartbeats]
    split <;> rfl

lemma eq_one_of_running (h : (run upgrade).replicas[i]? = some r) (hrunning : r.running) :
    i = 1 ∧ r.fenced = false := by
  match i, h with
  | 0, h =>
    cases h
    cases hrunning
  | 1, h =>
    cases h
    exact ⟨rfl, rfl⟩

lemma settled_heartbeats : Settled (run upgrade) heartbeats := by
  refine ⟨fun n => ?_, fun n i r hr hrunning hfenced => ?_, fun i r hr hrunning n => ?_, fun i r _ _ k n _ _ _ => ?_⟩
  · unfold heartbeats
    split <;> rfl
  · rw [trace_heartbeats] at hr
    rw [(eq_one_of_running hr hrunning).2] at hfenced
    cases hfenced
  · obtain ⟨rfl, -⟩ := eq_one_of_running hr hrunning
    exact ⟨2 * n + 1, by omega, if_neg (by omega)⟩
  · rw [trace_heartbeats, trace_heartbeats]
    exact Nat.le_add_right _ _

theorem fence_converges_upgrade : ready (run upgrade) 0 = false ∧ ready (trace step (run upgrade) heartbeats 2) 1 := by
  have hround : Round (run upgrade) heartbeats 2 := by
    intro i r hr hrunning
    obtain ⟨rfl, -⟩ := eq_one_of_running hr hrunning
    exact ⟨⟨0, by decide, rfl⟩, 1, by decide, rfl⟩
  constructor
  · refine (fence_converges upgrade).1 (upgrade.take 4) (.scan 0 true) [.stop 0 .ok] 0 rfl ?_
    exact ⟨_, rfl, rfl, by decide, .inl rfl⟩
  · refine (((fence_converges upgrade).2 heartbeats settled_heartbeats 2 hround).1 1).mpr ?_
    exact ⟨_, rfl, rfl, rfl⟩

end Fleet
