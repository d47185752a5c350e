import CaddyPanel.Lib.Traces
import Mathlib.Data.List.Nodup
import Mathlib.Data.List.Perm.Subperm

/-!
# Passes over the head of a waiting list

Tasks wait in the order of their keys, and a pass tries the first `limit` of them one by one. A task
that could not be served stays in the list, so that enough of those in front of a task keep it from
ever being tried. `eventually_served_iff` says that nothing else does. `Backlog.exists_tried` is the
same for tasks that fail in groups, and `Sweep.exists_taken` says that a cursor leaves nobody out.
-/

namespace Batches

open List

variable {σ τ : Type*} {limit : Nat} {key : τ → Nat} {waiting : σ → List τ} {stuck : σ → τ → Bool}

/-- What trying one task may do. A task is stuck where a try does not serve it. -/
structure Try (key : τ → Nat) (waiting : σ → List τ) (stuck : σ → τ → Bool) (t : τ) (s s' : σ) :
    Prop where
  shrinks : ∀ u ∈ waiting s', u ∈ waiting s
  others : ∀ u ∈ waiting s, key u ≠ key t → u ∈ waiting s' ∧ (stuck s u → stuck s' u)
  serves : stuck s t = false → t ∉ waiting s'
  stays : stuck s t → t ∈ waiting s' ∧ stuck s' t

/-- What one pass may do. -/
structure Pass (limit : Nat) (waiting : σ → List τ) (stuck : σ → τ → Bool) (s s' : σ) : Prop where
  shrinks : ∀ t ∈ waiting s', t ∈ waiting s
  skips : ∀ t ∈ waiting s, t ∉ (waiting s).take limit → t ∈ waiting s'
  tries : ∀ t ∈ (waiting s).take limit, t ∈ waiting s' → stuck s' t
  stays : ∀ t ∈ waiting s, stuck s t → t ∈ waiting s' ∧ stuck s' t

/-- The tasks in front of `r`. -/
def ahead (key : τ → Nat) (waiting : σ → List τ) (r : τ) (s : σ) : List τ :=
  (waiting s).filter (key · < key r)

/-- How many tasks in front of `r` are stuck. -/
def stuckAhead (key : τ → Nat) (waiting : σ → List τ) (stuck : σ → τ → Bool) (r : τ) (s : σ) : Nat :=
  (ahead key waiting r s).countP (stuck s)

variable {r t : τ} {s s' : σ}

lemma mem_ahead : t ∈ ahead key waiting r s ↔ t ∈ waiting s ∧ key t < key r := by
  simp [ahead]

lemma length_lt_of_subset {l l' : List τ} (hl : l.Nodup) (hsub : l ⊆ l') (ht : t ∈ l') (hout : t ∉ l) :
    l.length < l'.length :=
  ((nodup_cons.mpr ⟨hout, hl⟩).subperm (cons_subset.mpr ⟨ht, hsub⟩)).length_le

/-- What is not among the first has all of them in front of it. -/
lemma take_of_not_mem {R : τ → τ → Prop} {l : List τ} (hl : l.Pairwise R) (hr : r ∈ l) (hout : r ∉ l.take limit) :
    (l.take limit).length = limit ∧ ∀ t ∈ l.take limit, R t r := by
  have hsplit := take_append_drop limit l
  have hdrop : r ∈ l.drop limit := by
    rw [← hsplit] at hr
    exact (mem_append.mp hr).resolve_left hout
  constructor
  · have hpos := length_pos_of_mem hdrop
    rw [length_drop] at hpos
    rw [length_take]
    omega
  · intro t ht
    rw [← hsplit] at hl
    exact (pairwise_append.mp hl).2.2 t ht r hdrop

/-! ### A pass from its tries -/

section

variable {attempt : σ → τ → σ} (htry : ∀ s, ∀ t ∈ waiting s, Try key waiting stuck t s (attempt s t))

include htry

lemma waiting_attempt {ts : List τ} (ht : t ∈ waiting s) (hts : ∀ v ∈ ts, v ∈ waiting s) (hkey : key t ∉ ts.map key) :
    ∀ v ∈ ts, v ∈ waiting (attempt s t) := fun v hv =>
  ((htry s t ht).others v (hts v hv) fun heq => hkey (heq ▸ mem_map_of_mem hv)).1

lemma foldl_shrinks {ts : List τ} {s : σ} (hts : ∀ t ∈ ts, t ∈ waiting s)
    (hkeys : (ts.map key).Nodup) : ∀ u ∈ waiting (ts.foldl attempt s), u ∈ waiting s := by
  induction ts generalizing s with
  | nil => exact fun u hu => hu
  | cons t ts ih =>
    obtain ⟨ht, hts⟩ := forall_mem_cons.mp hts
    rw [map_cons, nodup_cons] at hkeys
    intro u hu
    exact (htry s t ht).shrinks u (ih (waiting_attempt htry ht hts hkeys.1) hkeys.2 u hu)

/-- A task that is not tried stays as it is, and so does one that is stuck. -/
lemma foldl_stays {ts : List τ} {s : σ} (hts : ∀ t ∈ ts, t ∈ waiting s) (hkeys : (ts.map key).Nodup)
    (hinj : ∀ t ∈ ts, ∀ u ∈ waiting s, key t = key u → t = u) {u : τ} (hu : u ∈ waiting s) :
    (u ∉ ts → u ∈ waiting (ts.foldl attempt s)) ∧
      (stuck s u → u ∈ waiting (ts.foldl attempt s) ∧ stuck (ts.foldl attempt s) u) := by
  induction ts generalizing s with
  | nil => exact ⟨fun _ => hu, fun h => ⟨hu, h⟩⟩
  | cons t ts ih =>
    obtain ⟨ht, hts⟩ := forall_mem_cons.mp hts
    obtain ⟨htinj, hinj⟩ := forall_mem_cons.mp hinj
    rw [map_cons, nodup_cons] at hkeys
    have hstep := htry s t ht
    have hts' := waiting_attempt htry ht hts hkeys.1
    have hnext := fun hu' => ih hts' hkeys.2
      (fun v hv w hw heq => hinj v hv w (hstep.shrinks w hw) heq) (s := attempt s t) hu'
    by_cases hkey : key u = key t
    · obtain rfl := htinj u hu hkey.symm
      refine ⟨fun h => absurd mem_cons_self h, fun h => ?_⟩
      obtain ⟨hwaits, hstuck⟩ := hstep.stays h
      exact (hnext hwaits).2 hstuck
    · obtain ⟨hwaits, hstuck⟩ := hstep.others u hu hkey
      exact ⟨fun h => (hnext hwaits).1 fun hmem => h (mem_cons_of_mem t hmem),
        fun h => (hnext hwaits).2 (hstuck h)⟩

lemma foldl_tries {ts : List τ} {s : σ} (hts : ∀ t ∈ ts, t ∈ waiting s) (hkeys : (ts.map key).Nodup)
    (hinj : ∀ t ∈ ts, ∀ u ∈ waiting s, key t = key u → t = u) :
    ∀ u ∈ ts, u ∈ waiting (ts.foldl attempt s) → stuck (ts.foldl attempt s) u := by
  induction ts generalizing s with
  | nil => exact fun u hu => absurd hu not_mem_nil
  | cons t ts ih =>
    obtain ⟨ht, hts⟩ := forall_mem_cons.mp hts
    obtain ⟨-, hinj⟩ := forall_mem_cons.mp hinj
    rw [map_cons, nodup_cons] at hkeys
    have hstep := htry s t ht
    have hts' := waiting_attempt htry ht hts hkeys.1
    have hinj' : ∀ v ∈ ts, ∀ w ∈ waiting (attempt s t), key v = key w → v = w :=
      fun v hv w hw heq => hinj v hv w (hstep.shrinks w hw) heq
    intro u hu hwaits
    rcases mem_cons.mp hu with rfl | hu
    · cases hstuck : stuck s u with
      | false => exact absurd (foldl_shrinks htry hts' hkeys.2 u hwaits) (hstep.serves hstuck)
      | true =>
        obtain ⟨hwaits', hstuck'⟩ := hstep.stays hstuck
        exact ((foldl_stays htry hts' hkeys.2 hinj' hwaits').2 hstuck').2
    · exact ih hts' hkeys.2 hinj' u hu hwaits

end

variable (hsorted : ∀ s, (waiting s).Pairwise (key · < key ·))

include hsorted

lemma nodup_keys (s : σ) : ((waiting s).map key).Nodup :=
  pairwise_map.mpr ((hsorted s).imp Nat.ne_of_lt)

lemma nodup_ahead (r : τ) (s : σ) : (ahead key waiting r s).Nodup :=
  ((nodup_keys hsorted s).of_map key).filter _

/-- Trying the first tasks one by one is a pass. -/
theorem pass_of_tries {attempt : σ → τ → σ}
    (htry : ∀ s, ∀ t ∈ waiting s, Try key waiting stuck t s (attempt s t)) (s : σ) :
    Pass limit waiting stuck s (((waiting s).take limit).foldl attempt s) := by
  have hts : ∀ t ∈ (waiting s).take limit, t ∈ waiting s := fun t ht => mem_of_mem_take ht
  have hkeys : (((waiting s).take limit).map key).Nodup :=
    (nodup_keys hsorted s).sublist ((take_sublist _ _).map key)
  have hinj : ∀ t ∈ (waiting s).take limit, ∀ u ∈ waiting s, key t = key u → t = u :=
    fun t ht u hu heq => inj_on_of_nodup_map (nodup_keys hsorted s) (hts t ht) hu heq
  exact {
    shrinks := foldl_shrinks htry hts hkeys
    skips := fun t ht => (foldl_stays htry hts hkeys hinj ht).1
    tries := foldl_tries htry hts hkeys hinj
    stays := fun t ht => (foldl_stays htry hts hkeys hinj ht).2 }

/-! ### Passes without end -/

/-- Where a batch of stuck tasks is in front of `r`, the task is not in the batch. -/
lemma not_mem_batch (h : limit ≤ stuckAhead key waiting stuck r s) : r ∉ (waiting s).take limit := by
  intro hr
  -- all tasks in front of `r` are in the batch as well, and `r` is one more
  have hahead : ∀ t ∈ ahead key waiting r s, t ∈ (waiting s).take limit := by
    intro t ht
    obtain ⟨hmem, hlt⟩ := mem_ahead.mp ht
    by_contra hout
    exact absurd ((take_of_not_mem (hsorted s) hmem hout).2 r hr) (Nat.lt_asymm hlt)
  have hlength := length_lt_of_subset (nodup_ahead hsorted r s) hahead hr fun hmem =>
    Nat.lt_irrefl _ (mem_ahead.mp hmem).2
  have hcount := countP_le_length (p := stuck s) (l := ahead key waiting r s)
  have htake := length_take_le limit (waiting s)
  unfold stuckAhead at h
  omega

lemma stuckAhead_mono (h : Pass limit waiting stuck s s') :
    stuckAhead key waiting stuck r s ≤ stuckAhead key waiting stuck r s' := by
  unfold stuckAhead
  rw [countP_eq_length_filter, countP_eq_length_filter]
  refine (List.Nodup.subperm ((nodup_ahead hsorted r s).filter _) ?_).length_le
  intro t ht
  obtain ⟨hmem, hstuck⟩ := mem_filter.mp ht
  obtain ⟨hwaits, hlt⟩ := mem_ahead.mp hmem
  obtain ⟨hwaits', hstuck'⟩ := h.stays t hwaits hstuck
  exact mem_filter.mpr ⟨mem_ahead.mpr ⟨hwaits', hlt⟩, hstuck'⟩

/-- A pass that does not reach `r` serves a task in front of it, or finds a whole batch stuck. -/
lemma ahead_decreases (h : Pass limit waiting stuck s s') (hr : r ∈ waiting s)
    (hout : r ∉ (waiting s).take limit) (hstuck : stuckAhead key waiting stuck r s' < limit) :
    (ahead key waiting r s').length < (ahead key waiting r s).length := by
  obtain ⟨hlength, hbatch⟩ := take_of_not_mem (hsorted s) hr hout
  have hserved : ∃ t ∈ (waiting s).take limit, t ∉ waiting s' := by
    by_contra hall
    push Not at hall
    have hle : ((waiting s).take limit).length ≤ stuckAhead key waiting stuck r s' := by
      unfold stuckAhead
      rw [countP_eq_length_filter]
      have hnodup : ((waiting s).take limit).Nodup :=
        ((nodup_keys hsorted s).of_map key).sublist (take_sublist _ _)
      refine (hnodup.subperm fun t ht => ?_).length_le
      exact mem_filter.mpr ⟨mem_ahead.mpr ⟨hall t ht, hbatch t ht⟩, h.tries t ht (hall t ht)⟩
    omega
  obtain ⟨t, ht, hgone⟩ := hserved
  refine length_lt_of_subset (nodup_ahead hsorted r s') (fun u hu => ?_)
    (mem_ahead.mpr ⟨mem_of_mem_take ht, hbatch t ht⟩) fun h' => hgone (mem_ahead.mp h').1
  obtain ⟨hwaits, hlt⟩ := mem_ahead.mp hu
  exact mem_ahead.mpr ⟨h.shrinks u hwaits, hlt⟩

/-- A task that a try would serve is served after finitely many passes exactly where no pass finds
`limit` stuck tasks in front of it. -/
theorem eventually_served_iff {run : Nat → σ} (hpass : ∀ k, Pass limit waiting stuck (run k) (run (k + 1)))
    (hfree : ∀ k, r ∈ waiting (run k) → stuck (run k) r = false) :
    (∃ k, r ∉ waiting (run k)) ↔ ∀ k, r ∈ waiting (run k) → stuckAhead key waiting stuck r (run k) < limit := by
  constructor
  · rintro ⟨k₀, hserved⟩ k hr
    by_contra hmany
    rw [Nat.not_lt] at hmany
    -- from `k` on `r` is never in a batch, and before it was waiting too
    have hafter : ∀ m, r ∈ waiting (run (k + m)) ∧
        limit ≤ stuckAhead key waiting stuck r (run (k + m)) := by
      intro m
      induction m with
      | zero => exact ⟨hr, hmany⟩
      | succ m ih =>
        have hstep := hpass (k + m)
        exact ⟨hstep.skips r ih.1 (not_mem_batch hsorted ih.2),
          Nat.le_trans ih.2 (stuckAhead_mono hsorted hstep)⟩
    have hbefore : ∀ m j, j + m = k → r ∈ waiting (run j) := by
      intro m
      induction m with
      | zero =>
        rintro j rfl
        exact hr
      | succ m ih =>
        intro j hj
        exact (hpass j).shrinks r (ih (j + 1) (by omega))
    rcases Nat.le_total k k₀ with hle | hle
    · obtain ⟨m, rfl⟩ := Nat.exists_eq_add_of_le hle
      exact hserved (hafter m).1
    · obtain ⟨m, hm⟩ := Nat.exists_eq_add_of_le hle
      exact hserved (hbefore m k₀ hm.symm)
  · intro hfew
    by_contra hnever
    push Not at hnever
    -- every pass leaves fewer tasks in front of `r`
    obtain ⟨k, hfalse⟩ := Traces.exists_of_decreasing (P := fun _ => False)
        (fun k => (ahead key waiting r (run k)).length) fun k _ => by
      refine ahead_decreases hsorted (hpass k) (hnever k) (fun hin => ?_)
        (hfew (k + 1) (hnever (k + 1)))
      have hstuck := (hpass k).tries r hin (hnever (k + 1))
      rw [hfree (k + 1) (hnever (k + 1))] at hstuck
      cases hstuck
    exact hfalse

omit hsorted

/-! ### Groups of tasks -/

/-- The list of tasks before each pass, ordered by groups. A pass takes the first `limit` tasks; those of a group that
is not stuck are gone after it. -/
structure Backlog (limit : Nat) (group : τ → Nat) (stuck : Nat → Bool) (list : Nat → List τ) : Prop where
  nodup : ∀ n, (list n).Nodup
  sorted : ∀ n, (list n).Pairwise (group · ≤ group ·)
  shrinks : ∀ n, list (n + 1) ⊆ list n
  serves : ∀ n, ∀ t ∈ (list n).take limit, stuck (group t) = false → t ∉ list (n + 1)

/-- How many tasks of stuck groups come before the group of `r`. -/
def stuckBefore (group : τ → Nat) (stuck : Nat → Bool) (r : τ) (l : List τ) : Nat :=
  (l.filter fun t => stuck (group t) && group t < group r).length

section Backlog

variable {group : τ → Nat} {stuck : Nat → Bool} {list : Nat → List τ} {r : τ}

lemma Backlog.subset_start (h : Backlog limit group stuck list) (n : Nat) : list n ⊆ list 0 := by
  induction n with
  | zero => exact List.Subset.refl _
  | succ n ih => exact List.Subset.trans (h.shrinks n) ih

/-- A task of a group that works is tried at last, unless it is gone before, where fewer than a batch of stuck tasks
come before its group. -/
theorem Backlog.exists_tried (h : Backlog limit group stuck list) (hfree : stuck (group r) = false)
    (hfew : stuckBefore group stuck r (list 0) < limit) : ∃ n, r ∈ (list n).take limit ∨ r ∉ list n := by
  refine Traces.exists_of_decreasing
    (fun n => ((list n).filter fun t => !stuck (group t) && group t ≤ group r).length) fun n hn => ?_
  push Not at hn
  obtain ⟨hout, hr⟩ := hn
  obtain ⟨hlength, hfirst⟩ := take_of_not_mem (h.sorted n) hr hout
  -- the stuck tasks are too few to fill the batch
  obtain ⟨t, ht, hworks⟩ : ∃ t ∈ (list n).take limit, stuck (group t) = false := by
    by_contra hall
    push Not at hall
    have hle : ((list n).take limit).length ≤ stuckBefore group stuck r (list 0) := by
      refine (((h.nodup n).sublist (take_sublist _ _)).subperm fun t ht => ?_).length_le
      have hstuck : stuck (group t) := by simpa using hall t ht
      refine mem_filter.mpr ⟨h.subset_start n (mem_of_mem_take ht), ?_⟩
      have hne : group t ≠ group r := by
        intro heq
        rw [heq, hfree] at hstuck
        cases hstuck
      simp [hstuck, Nat.lt_of_le_of_ne (hfirst t ht) hne]
    omega
  refine length_lt_of_subset ((h.nodup (n + 1)).filter _) (filter_subset _ (h.shrinks n))
    (mem_filter.mpr ⟨mem_of_mem_take ht, ?_⟩) fun hmem => ?_
  · simp [hworks, hfirst t ht]
  · exact h.serves n t ht hworks (mem_filter.mp hmem).1

/-- Where a batch of stuck tasks comes before the group of `r`, the task is not in the batch. -/
lemma not_mem_take {l : List τ} (hnodup : l.Nodup) (hsorted : l.Pairwise (group · ≤ group ·))
    (hmany : limit ≤ stuckBefore group stuck r l) : r ∉ l.take limit := by
  intro hr
  have hlength := length_lt_of_subset (hnodup.filter fun t => stuck (group t) && group t < group r) (fun t ht => ?_) hr
    (by simp)
  · have htake := length_take_le limit l
    unfold stuckBefore at hmany
    omega
  · obtain ⟨hmem, hlt⟩ := mem_filter.mp ht
    by_contra hout
    have hle := (take_of_not_mem hsorted hmem hout).2 r hr
    simp only [Bool.and_eq_true, decide_eq_true_eq] at hlt
    omega

end Backlog

/-! ### A cursor -/

/-- The key of the last task, or the old cursor. -/
def lastKey (key : τ → Nat) (cursor : Nat) (ts : List τ) : Nat :=
  ts.foldl (fun _ t => key t) cursor

lemma lastKey_mem {ts : List τ} (cursor : Nat) (h : ts ≠ []) : ∃ t ∈ ts, lastKey key cursor ts = key t := by
  obtain ⟨ts, t, rfl⟩ := eq_nil_or_concat ts |>.resolve_left h
  exact ⟨t, by simp, by simp [lastKey]⟩

/-- Each pass takes the first tasks behind the cursor, which then stands on the last of them. It goes back to zero where
the pass was not full. -/
structure Sweep (limit : Nat) (key : τ → Nat) (tasks : List τ) (behind : Nat → List τ) (cursor : Nat → Nat) : Prop where
  sorted : ∀ c, (behind c).Pairwise (key · < key ·)
  mem_behind : ∀ c t, t ∈ behind c ↔ t ∈ tasks ∧ c < key t
  next : ∀ n, cursor (n + 1) = if ((behind (cursor n)).take limit).length < limit then 0
    else lastKey key (cursor n) ((behind (cursor n)).take limit)

namespace Sweep

variable {tasks : List τ} {behind : Nat → List τ} {cursor : Nat → Nat} {r : τ}

/-- A task that the cursor has passed is no longer behind it. -/
lemma length_filter_lt (h : Sweep limit key tasks behind cursor) {c c' : Nat} {t : τ} (p : τ → Bool)
    (ht : t ∈ behind c) (hp : p t) (hpassed : key t ≤ c') (hle : c ≤ c') :
    ((behind c').filter p).length < ((behind c).filter p).length := by
  refine length_lt_of_subset (((nodup_keys h.sorted c').of_map key).filter _) (fun u hu => ?_)
    (mem_filter.mpr ⟨ht, hp⟩) fun hmem => ?_
  · obtain ⟨hu, hpu⟩ := mem_filter.mp hu
    obtain ⟨hmem, hlt⟩ := (h.mem_behind c' u).mp hu
    exact mem_filter.mpr ⟨(h.mem_behind c u).mpr ⟨hmem, by omega⟩, hpu⟩
  · have hlt := ((h.mem_behind c' t).mp (mem_filter.mp hmem).1).2
    omega

lemma length_filter_le (h : Sweep limit key tasks behind cursor) (c : Nat) (p : τ → Bool) :
    ((behind c).filter p).length ≤ tasks.length := by
  refine ((((nodup_keys h.sorted c).of_map key).filter p).subperm fun t ht => ?_).length_le
  exact ((h.mem_behind c t).mp (mem_filter.mp ht).1).1

/-- A full pass moves the cursor to a task that it took. -/
lemma next_of_full (h : Sweep limit key tasks behind cursor) (hlimit : 0 < limit) {n : Nat}
    (hfull : ((behind (cursor n)).take limit).length = limit) :
    ∃ t ∈ (behind (cursor n)).take limit, cursor (n + 1) = key t := by
  have hne : (behind (cursor n)).take limit ≠ [] := ne_nil_of_length_pos (by omega)
  rw [h.next n, if_neg (by omega)]
  exact lastKey_mem _ hne

/-- How far the cursor is from `r`: the tasks in between, or those up to the end and another round. -/
def distance (key : τ → Nat) (tasks : List τ) (behind : Nat → List τ) (r : τ) (c : Nat) : Nat :=
  if c < key r then ((behind c).filter (key · ≤ key r)).length
  else ((behind c).filter fun _ => true).length + tasks.length + 1

/-- Every task gets its turn. -/
theorem exists_taken (h : Sweep limit key tasks behind cursor) (hlimit : 0 < limit) (hr : r ∈ tasks)
    (hpos : 0 < key r) : ∃ n, r ∈ (behind (cursor n)).take limit := by
  refine Traces.exists_of_decreasing (fun n => distance key tasks behind r (cursor n)) fun n hout => ?_
  by_cases hbefore : cursor n < key r
  · -- the pass is full of tasks before `r`
    obtain ⟨hlength, hfirst⟩ := take_of_not_mem (h.sorted _) ((h.mem_behind _ r).mpr ⟨hr, hbefore⟩) hout
    obtain ⟨t, ht, hnext⟩ := h.next_of_full hlimit hlength
    have hmem := mem_of_mem_take ht
    have hlt := ((h.mem_behind _ t).mp hmem).2
    have htr := hfirst t ht
    rw [hnext]
    simp only [distance, if_pos hbefore, if_pos htr]
    exact h.length_filter_lt _ hmem (decide_eq_true htr.le) le_rfl hlt.le
  by_cases hfull : ((behind (cursor n)).take limit).length < limit
  · have hnext : cursor (n + 1) = 0 := by rw [h.next n, if_pos hfull]
    rw [hnext]
    simp only [distance, if_neg hbefore, if_pos hpos]
    have hle := h.length_filter_le 0 (key · ≤ key r)
    omega
  have hlength : ((behind (cursor n)).take limit).length = limit :=
    Nat.le_antisymm (length_take_le _ _) (Nat.le_of_not_lt hfull)
  obtain ⟨t, ht, hnext⟩ := h.next_of_full hlimit hlength
  have hmem := mem_of_mem_take ht
  have hlt := ((h.mem_behind _ t).mp hmem).2
  rw [hnext]
  simp only [distance, if_neg hbefore, if_neg (by omega : ¬ key t < key r)]
  have hless := h.length_filter_lt (fun _ => true) hmem rfl (le_refl (key t)) hlt.le
  omega

end Sweep

end Batches
