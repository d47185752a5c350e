import Mathlib.Data.List.Induction

/-!
# A counter with an expiry

A counter that has expired is gone. An increment creates a missing counter without an expiry, so that the expiry takes
a call of its own, and each call can fail before or after it took effect. A lock that holds while the counter is at
its limit then ends, unless the counter is for ever.
-/

namespace Expiring

open List

structure Counter where
  value : Nat
  /-- `none` is for ever -/
  expiry : Option Nat
  deriving DecidableEq

/-- What a call came to: a `lost` one took effect, but its caller got an error. -/
inductive Reply where
  | ok
  | lost
  | failed
  deriving DecidableEq

/-- The calls that are made for one counter. -/
inductive Op where
  /-- an increment, and the call for the expiry where the counter is new -/
  | bump (incr expire : Reply)
  | del (reply : Reply)
  | wait (time : Nat)

structure Cell where
  now : Nat
  counter : Option Counter

/-- What is left of a counter. -/
def live (now : Nat) (c : Option Counter) : Option Counter :=
  c.filter fun x => x.expiry.all fun t => now < t

def incr (now : Nat) (c : Option Counter) : Counter :=
  match live now c with
  | some x => { x with value := x.value + 1 }
  | none => ⟨1, none⟩

def bump (now window : Nat) (incrReply expireReply : Reply) (c : Option Counter) : Option Counter :=
  match incrReply with
  | .failed => c
  | .lost => some (incr now c)
  | .ok =>
    let x := incr now c
    if x.value = 1 ∧ expireReply ≠ .failed then some { x with expiry := some (now + window) } else some x

def del (reply : Reply) (c : Option Counter) : Option Counter :=
  if reply = .failed then c else none

def apply (window : Nat) (cell : Cell) : Op → Cell
  | .bump r r' => { cell with counter := bump cell.now window r r' cell.counter }
  | .del r => { cell with counter := del r cell.counter }
  | .wait time => { cell with now := cell.now + time }

def run (window : Nat) (cell : Cell) (ops : List Op) : Cell :=
  ops.foldl (apply window) cell

/-- What a reader of the counter gets, with nothing for zero. -/
def value (now : Nat) (c : Option Counter) : Nat :=
  (live now c).elim 0 Counter.value

/-- The expiry is set where there is a counter. -/
def expire (now window : Nat) (c : Option Counter) : Option Counter :=
  (live now c).map fun x => { x with expiry := some (now + window) }

def locked (now limit : Nat) (c : Option Counter) : Bool :=
  (live now c).any fun x => limit ≤ x.value

def Op.counts : Op → Bool
  | .bump r _ => r ≠ .failed
  | _ => false

def Op.clears : Op → Bool
  | .del r => r ≠ .failed
  | _ => false

/-- The call creates a counter and leaves it without an expiry. -/
def Op.dangles (cell : Cell) : Op → Bool
  | .bump r r' => (live cell.now cell.counter).isNone && (r = .lost || r = .ok && r' = .failed)
  | _ => false

variable {now window limit n : Nat} {c : Option Counter} {cell : Cell}

@[simp] lemma live_none : live now none = none := rfl

@[simp] lemma live_forever : live now (some ⟨n, none⟩) = some ⟨n, none⟩ := rfl

lemma live_eq_some {x : Counter} : live now c = some x ↔ c = some x ∧ ∀ t ∈ x.expiry, now < t := by
  simp [live, Option.all_eq_true]

lemma value_none : value now none = 0 := rfl

lemma value_incr : value now (some (incr now c)) = value now c + 1 := by
  have hlive : live now (some (incr now c)) = some (incr now c) := by
    refine live_eq_some.mpr ⟨rfl, ?_⟩
    rw [incr]
    cases hlive : live now c with
    | none => simp
    | some x => exact (live_eq_some.mp hlive).2
  rw [value, hlive, value, incr]
  cases live now c <;> rfl

lemma value_expire (h : 0 < window) : value now (expire now window c) = value now c := by
  rw [value, value, expire]
  cases live now c with
  | none => rfl
  | some x => simp [live, Option.filter, h]

lemma locked_eq (h : 0 < limit) : locked now limit c = decide (limit ≤ value now c) := by
  rw [locked, value]
  cases live now c with
  | none => simp [Nat.ne_of_gt h]
  | some x => rfl

/-- Time leaves a counter as it is until it is gone. -/
lemma live_later (time : Nat) : live (now + time) c = none ∨ live (now + time) c = live now c := by
  cases h : live (now + time) c with
  | none => exact .inl rfl
  | some x =>
    obtain ⟨hc, hlt⟩ := live_eq_some.mp h
    refine .inr (live_eq_some.mpr ⟨hc, fun t ht => ?_⟩).symm
    exact Nat.lt_of_le_of_lt (Nat.le_add_right now time) (hlt t ht)

/-! ### What the calls make of a counter -/

/-- A counter begins at one and expires within its window. -/
structure Kept (window : Nat) (cell : Cell) : Prop where
  pos : ∀ x ∈ cell.counter, 0 < x.value
  bound : ∀ x ∈ cell.counter, ∀ t ∈ x.expiry, t ≤ cell.now + window

lemma kept_new (window now : Nat) : Kept window ⟨now, none⟩ :=
  ⟨nofun, nofun⟩

lemma Kept.incr (h : Kept window cell) : Kept window { cell with counter := some (incr cell.now cell.counter) } := by
  rw [Expiring.incr]
  cases hlive : live cell.now cell.counter with
  | none => exact ⟨by simp, by simp⟩
  | some x =>
    obtain ⟨hx, -⟩ := live_eq_some.mp hlive
    exact ⟨by simp, by simpa using h.bound x hx⟩

lemma Kept.bump (h : Kept window cell) (r r' : Reply) :
    Kept window { cell with counter := bump cell.now window r r' cell.counter } := by
  cases r with
  | failed => exact h
  | lost => exact h.incr
  | ok =>
    simp only [Expiring.bump]
    split
    · exact ⟨by simpa using h.incr.pos, by simp⟩
    · exact h.incr

lemma Kept.apply (h : Kept window cell) (op : Op) : Kept window (apply window cell op) := by
  cases op with
  | bump r r' => exact h.bump r r'
  | del r =>
    simp only [Expiring.apply, del]
    split
    · exact h
    · exact kept_new window cell.now
  | wait time => exact ⟨h.pos, fun x hx t ht => Nat.le_trans (h.bound x hx t ht) (by simp [Expiring.apply])⟩

lemma Kept.run (h : Kept window cell) (ops : List Op) : Kept window (run window cell ops) := by
  refine List.foldlRecOn ops _ h fun cell h op _ => h.apply op

/-- A lock ends with its window where its counter has an expiry. -/
lemma locks_end_iff (h : Kept window cell) :
    (∀ t, cell.now + window ≤ t → locked t limit cell.counter = false) ↔
      ∀ n, cell.counter = some ⟨n, none⟩ → n < limit := by
  constructor
  · intro hend n hn
    have := hend _ (Nat.le_refl _)
    simpa [locked, hn] using this
  intro hlt t ht
  match hc : cell.counter with
  | none => rfl
  | some ⟨n, none⟩ => simpa [locked] using hlt n hc
  | some ⟨n, some e⟩ =>
    have he : e ≤ cell.now + window := h.bound _ hc e rfl
    simp [locked, live, Nat.not_lt.mpr (Nat.le_trans he ht)]

/-! ### Counters that are for ever -/

lemma incr_forever_iff : incr now c = ⟨n, none⟩ ↔ live now c = none ∧ n = 1 ∨ ∃ m, c = some ⟨m, none⟩ ∧ n = m + 1 := by
  rw [incr]
  cases hlive : live now c with
  | none =>
    have hnot : ∀ m, c ≠ some ⟨m, none⟩ := by
      rintro m rfl
      cases hlive
    simp [hnot, eq_comm]
  | some x =>
    obtain ⟨rfl, -⟩ := live_eq_some.mp hlive
    obtain ⟨m, e⟩ := x
    simp [and_comm, eq_comm]

lemma bump_forever_iff (h : Kept window cell) (r r' : Reply) :
    bump cell.now window r r' cell.counter = some ⟨n, none⟩ ↔ (Op.bump r r').dangles cell ∧ n = 1 ∨
        ∃ m, cell.counter = some ⟨m, none⟩ ∧ n = m + (Op.bump r r').counts.toNat := by
  cases r with
  | failed => simp [bump, Op.dangles, Op.counts]
  | lost => simp [bump, Op.dangles, Op.counts, incr_forever_iff]
  | ok =>
    simp only [bump]
    split
    · next hnew =>
      obtain ⟨hone, hr'⟩ := hnew
      -- a counter that was there before is above one now
      have hnot : ∀ m, cell.counter ≠ some ⟨m, none⟩ := by
        intro m hm
        have hpos : 0 < m := h.pos _ hm
        have hone : m + 1 = 1 := by simpa [incr, hm] using hone
        omega
      simp [Op.dangles, hr', hnot]
    · next hold =>
      rw [Option.some.injEq, incr_forever_iff]
      by_cases hr' : r' = .failed
      · simp [Op.dangles, Op.counts, hr']
      · have hlive : live cell.now cell.counter ≠ none := fun hlive => hold ⟨by simp [incr, hlive], hr'⟩
        simp [Op.dangles, Op.counts, hlive]

/-- A call that leaves the counter for ever has just created it so, or has found it so. -/
lemma apply_forever_iff (h : Kept window cell) (op : Op) :
    (apply window cell op).counter = some ⟨n, none⟩ ↔
      op.dangles cell ∧ n = 1 ∨ op.clears = false ∧ ∃ m, cell.counter = some ⟨m, none⟩ ∧ n = m + op.counts.toNat := by
  cases op with
  | bump r r' => simpa [apply, Op.clears] using bump_forever_iff h r r'
  | del r => by_cases hr : r = .failed <;> simp [apply, del, Op.clears, Op.counts, Op.dangles]
  | wait time => simp [apply, Op.clears, Op.counts, Op.dangles]

/-- A call left the counter without an expiry, and it has reached the limit since without being cleared. -/
def Endless (window limit : Nat) (ops : List Op) : Prop :=
  ∃ before op after, ops = before ++ op :: after ∧ op.dangles (run window ⟨0, none⟩ before) ∧
    (∀ o ∈ after, o.clears = false) ∧ limit ≤ 1 + after.countP Op.counts

/-- The counter is for ever where a call created it so and no later call cleared it; it counts the calls since. -/
theorem run_forever_iff (ops : List Op) : (run window ⟨0, none⟩ ops).counter = some ⟨n, none⟩ ↔
      ∃ before op after, ops = before ++ op :: after ∧ op.dangles (run window ⟨0, none⟩ before) ∧
        (∀ o ∈ after, o.clears = false) ∧ n = 1 + after.countP Op.counts := by
  have hkept : ∀ ops, Kept window (run window ⟨0, none⟩ ops) := (kept_new window 0).run
  -- the induction is from the end, as the counter is read after the last call
  induction ops using List.reverseRecOn generalizing n with
  | nil => simp [run]
  | append_singleton ops last ih =>
    rw [run, foldl_append, foldl_cons, foldl_nil, ← run, apply_forever_iff (hkept ops)]
    constructor
    · rintro (⟨hdangles, rfl⟩ | ⟨hclears, m, hm, rfl⟩)
      · exact ⟨ops, last, [], rfl, hdangles, by simp, by simp⟩
      obtain ⟨before, op, after, rfl, hdangles, hafter, rfl⟩ := ih.mp hm
      refine ⟨before, op, after ++ [last], by simp, hdangles, ?_, ?_⟩
      · simpa [or_imp, forall_and] using ⟨hafter, hclears⟩
      · cases hcounts : last.counts <;> simp [hcounts, Nat.add_assoc]
    rintro ⟨before, op, after, hops, hdangles, hafter, rfl⟩
    cases after using List.reverseRecOn with
    | nil =>
      obtain ⟨rfl, hlast⟩ := append_inj' hops rfl
      cases hlast
      exact .inl ⟨hdangles, by simp⟩
    | append_singleton after o =>
      rw [← cons_append, ← append_assoc] at hops
      obtain ⟨rfl, hlast⟩ := append_inj' hops rfl
      cases hlast
      refine .inr ⟨hafter last (by simp), 1 + after.countP Op.counts, ?_, ?_⟩
      · exact ih.mpr ⟨before, op, after, rfl, hdangles, fun o ho => hafter o (by simp [ho]), rfl⟩
      · cases hcounts : last.counts <;> simp [hcounts, Nat.add_assoc]

/-- All locks of a counter end with its window, unless one of its calls has left it for ever. -/
theorem locks_end_iff_not_endless (ops : List Op) :
    (∀ t, (run window ⟨0, none⟩ ops).now + window ≤ t →
        locked t limit (run window ⟨0, none⟩ ops).counter = false) ↔ ¬ Endless window limit ops := by
  rw [locks_end_iff ((kept_new window 0).run ops)]
  simp only [run_forever_iff]
  constructor
  · rintro h ⟨before, op, after, hops, hdangles, hafter, hlimit⟩
    exact Nat.not_lt.mpr hlimit (h _ ⟨before, op, after, hops, hdangles, hafter, rfl⟩)
  · rintro h _ ⟨before, op, after, hops, hdangles, hafter, rfl⟩
    exact Nat.lt_of_not_le fun hlimit => h ⟨before, op, after, hops, hdangles, hafter, hlimit⟩

end Expiring
