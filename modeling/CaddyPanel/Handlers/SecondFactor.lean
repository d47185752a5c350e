import CaddyPanel.Handlers.Lockout
import CaddyPanel.Lib.Runs

/-!
# Second factors submitted at the same time

The submissions of one user through all forms: `TOTPVerify`, `SMSOTPVerify`, `EmailOTPVerify` and `Portal2FASubmit`
each read the lock, compare the code and then raise the counter or delete it. Every call is a step of its own, and
Redis answers every one.
-/

namespace SecondFactor

open List Option Runs
open Expiring (Counter live incr expire)
open Lockout (loginFailWindow twoFAFailLimit)

/-- Where a submission is. -/
inductive Phase where
  /-- it has found no lock -/
  | admitted
  /-- its code was wrong and is not counted yet -/
  | wrong
  | right
  /-- it has created the counter -/
  | created
  | finished
  deriving DecidableEq

structure State where
  now : Nat
  counter : Option Counter
  submissions : List Phase
  /-- the wrong codes that were compared since the counter was last reset -/
  compared : Nat

inductive Action where
  | submit
  | compare (i : Nat) (right : Bool)
  /-- the submission ends before it compares a code -/
  | abandon (i : Nat)
  | record (i : Nat)
  | expire (i : Nat)
  | clear (i : Nat)
  | wait (time : Nat)

def twoFALocked (s : State) : Bool :=
  Expiring.locked s.now twoFAFailLimit s.counter

/-- One submission goes from one phase to another. -/
def State.move (s : State) (i : Nat) (p q : Phase) : Option State :=
  if s.submissions[i]? = some p then some { s with submissions := s.submissions.set i q } else none

def step (s : State) : Action → Option State
  | .submit =>
    some { s with submissions := s.submissions ++ [if twoFALocked s then .finished else .admitted] }
  | .compare i true => s.move i .admitted .right
  | .compare i false => (s.move i .admitted .wrong).map fun s => { s with compared := s.compared + 1 }
  | .abandon i => s.move i .admitted .finished
  | .record i =>
    let x := incr s.now s.counter
    (s.move i .wrong (if x.value = 1 then .created else .finished)).map fun s => { s with counter := some x }
  | .expire i =>
    let c := expire s.now loginFailWindow s.counter
    (s.move i .created .finished).map fun s => { s with counter := c }
  | .clear i => (s.move i .right .finished).map fun s => { s with counter := none, compared := 0 }
  | .wait time =>
    -- the window ends where the counter is gone afterwards
    let ends := (live s.now s.counter).isSome && (live (s.now + time) s.counter).isNone
    some { s with now := s.now + time, compared := if ends then 0 else s.compared }

def start : State := ⟨0, none, [], 0⟩

variable {s s' : State} {a : Action} {i : Nat} {p q : Phase}

/-! ### The numbers that the calls change -/

structure Tally where
  admitted : Nat
  wrong : Nat
  value : Nat
  compared : Nat

def State.tally (s : State) : Tally :=
  ⟨s.submissions.count .admitted, s.submissions.count .wrong, Expiring.value s.now s.counter, s.compared⟩

/-- What an action does to the numbers. -/
def Change (t : Tally) (a : Action) (t' : Tally) : Prop :=
  match a with
  | .submit => t' = if t.value < twoFAFailLimit then { t with admitted := t.admitted + 1 } else t
  | .compare _ true => 0 < t.admitted ∧ t' = { t with admitted := t.admitted - 1 }
  | .compare _ false => 0 < t.admitted ∧
    t' = { t with admitted := t.admitted - 1, wrong := t.wrong + 1, compared := t.compared + 1 }
  | .abandon _ => 0 < t.admitted ∧ t' = { t with admitted := t.admitted - 1 }
  | .record _ => 0 < t.wrong ∧ t' = { t with wrong := t.wrong - 1, value := t.value + 1 }
  | .expire _ => t' = t
  | .clear _ => t' = { t with value := 0, compared := 0 }
  | .wait _ => t' = t ∨ t' = { t with value := 0, compared := 0 }

lemma twoFALocked_eq_true : twoFALocked s ↔ twoFAFailLimit ≤ s.tally.value := by
  rw [twoFALocked, Expiring.locked_eq (by decide), decide_eq_true_eq, State.tally]

lemma move_eq_some : s.move i p q = some s' ↔
    ∃ hi : i < s.submissions.length, s.submissions[i] = p ∧ s' = { s with submissions := s.submissions.set i q } := by
  simp only [State.move]
  split <;> grind

/-- The numbers after a move. -/
lemma tally_move (h : s.move i p q = some s') :
    0 < s.submissions.count p ∧ s'.now = s.now ∧ s'.counter = s.counter ∧ s'.compared = s.compared ∧
      s'.submissions.count .admitted =
        s.submissions.count .admitted - (if p = .admitted then 1 else 0) + (if q = .admitted then 1 else 0) ∧
      s'.submissions.count .wrong =
        s.submissions.count .wrong - (if p = .wrong then 1 else 0) + (if q = .wrong then 1 else 0) := by
  obtain ⟨hi, rfl, rfl⟩ := move_eq_some.mp h
  refine ⟨count_pos_iff.mpr (getElem_mem hi), rfl, rfl, rfl, ?_, ?_⟩ <;>
    simp [count_set hi]

theorem step_change (h : step s a = some s') : Change s.tally a s'.tally := by
  cases a with
  | submit =>
    cases h
    by_cases hlocked : twoFALocked s
    · have hle := twoFALocked_eq_true.mp hlocked
      simp only [Change, if_neg (Nat.not_lt.mpr hle)]
      simp [State.tally, hlocked]
    · have hlt := Nat.lt_of_not_le fun hle => hlocked (twoFALocked_eq_true.mpr hle)
      simp only [Change, if_pos hlt]
      simp [State.tally, hlocked]
  | compare i right =>
    cases right with
    | true =>
      obtain ⟨hpos, hnow, hcounter, hcompared, hadmitted, hwrong⟩ := tally_move h
      exact ⟨hpos, by simp [State.tally, *]⟩
    | false =>
      obtain ⟨t, ht, rfl⟩ := map_eq_some_iff.mp h
      obtain ⟨hpos, hnow, hcounter, hcompared, hadmitted, hwrong⟩ := tally_move ht
      exact ⟨hpos, by simp [State.tally, *]⟩
  | abandon i =>
    obtain ⟨hpos, hnow, hcounter, hcompared, hadmitted, hwrong⟩ := tally_move h
    exact ⟨hpos, by simp [State.tally, *]⟩
  | record i =>
    obtain ⟨t, ht, rfl⟩ := map_eq_some_iff.mp h
    obtain ⟨hpos, hnow, hcounter, hcompared, hadmitted, hwrong⟩ := tally_move ht
    have hcounted : ∀ n, (if n = 1 then Phase.created else .finished) ≠ .admitted ∧
        (if n = 1 then Phase.created else .finished) ≠ .wrong := fun n => by split <;> simp
    obtain ⟨hne, hne'⟩ := hcounted (incr s.now s.counter).value
    exact ⟨hpos, by simp [State.tally, Expiring.value_incr, *]⟩
  | expire i =>
    obtain ⟨t, ht, rfl⟩ := map_eq_some_iff.mp h
    obtain ⟨hpos, hnow, hcounter, hcompared, hadmitted, hwrong⟩ := tally_move ht
    have hvalue : Expiring.value s.now (expire s.now loginFailWindow s.counter) = Expiring.value s.now s.counter :=
      Expiring.value_expire (by decide)
    simp [Change, State.tally, *]
  | clear i =>
    obtain ⟨t, ht, rfl⟩ := map_eq_some_iff.mp h
    obtain ⟨hpos, hnow, hcounter, hcompared, hadmitted, hwrong⟩ := tally_move ht
    simp [Change, State.tally, Expiring.value_none, *]
  | wait time =>
    cases h
    simp only [Change, State.tally, Expiring.value]
    have hlater : live (s.now + time) s.counter = none ∨ live (s.now + time) s.counter = live s.now s.counter :=
      Expiring.live_later time
    rcases hlater with hlive | hlive
    · cases hnow : live s.now s.counter <;> simp [hlive]
    · rw [hlive]
      cases live s.now s.counter <;> simp

/-! ### What the submissions may come to -/

/-- However the submissions in flight go on, the limit is kept. -/
def Ready (s : State) : Prop :=
  s.tally.compared + s.tally.admitted ≤ twoFAFailLimit

/-- The lock admits a submission only while the wrong codes since the last reset and the submissions that were
admitted and have not compared their code yet are fewer than the limit. -/
def Admits (s : State) (a : Action) : Prop :=
  match a with
  | .submit => twoFALocked s = false → s.compared + s.submissions.count .admitted < twoFAFailLimit
  | _ => True

lemma ready_step (hs : Ready s) (ha : Admits s a) (h : step s a = some s') : Ready s' := by
  have hchange := step_change h
  rw [Ready] at hs ⊢
  cases a with
  | submit =>
    rw [show s'.tally = _ from hchange]
    split
    · next hlt =>
      exact ha (Bool.eq_false_iff.mpr fun hlocked => Nat.not_le.mpr hlt (twoFALocked_eq_true.mp hlocked))
    · exact hs
  | compare i right =>
    cases right <;> obtain ⟨hpos, hnext⟩ := hchange <;> simp only [hnext] <;> omega
  | abandon i =>
    obtain ⟨hpos, hnext⟩ := hchange
    simp only [hnext]
    omega
  | record i => simpa only [hchange.2] using hs
  | expire i => rwa [show s'.tally = s.tally from hchange]
  | clear i =>
    rw [show s'.tally = _ from hchange]
    simp only
    omega
  | wait time =>
    rcases hchange with hnext | hnext <;> simp only [hnext] <;> omega

/-- All submissions that were admitted can compare a wrong code before anything else happens. -/
lemma exists_comparisons (s : State) : ∃ more s', (∀ a ∈ more, a ≠ Action.submit) ∧
    Runs.run step s more = some s' ∧ s'.compared = s.compared + s.submissions.count .admitted := by
  induction hn : s.submissions.count .admitted generalizing s with
  | zero => exact ⟨[], s, by simp, rfl, rfl⟩
  | succ n ih =>
    have hmem : Phase.admitted ∈ s.submissions := count_pos_iff.mp (hn ▸ Nat.succ_pos n)
    obtain ⟨i, hi, hadmitted⟩ := getElem_of_mem hmem
    have hmove : s.move i .admitted .wrong = some _ := move_eq_some.mpr ⟨hi, hadmitted, rfl⟩
    obtain ⟨t, ht⟩ : ∃ t, step s (.compare i false) = some t := ⟨_, by rw [step, hmove, map_some]⟩
    obtain ⟨-, htally⟩ := step_change ht
    simp only [State.tally, Tally.mk.injEq] at htally
    obtain ⟨more, s', hmore, hrun, hcompared⟩ := ih t (by omega)
    refine ⟨.compare i false :: more, s', by simpa using hmore, ?_, by omega⟩
    exact run_cons_eq_some.mpr ⟨t, ht, hrun⟩

/-- However the submissions of a schedule go on, no more wrong codes than the limit are compared between two resets. -/
def Bounded (s : State) (as : List Action) : Prop :=
  ∀ before more s', before <+: as → (∀ a ∈ more, a ≠ .submit) →
    Runs.run step s (before ++ more) = some s' → s'.compared ≤ twoFAFailLimit

lemma bounded_of_admits {as : List Action} (hs : Ready s) (h : Runs.Meets step Admits s as) : Bounded s as := by
  rintro before more s' ⟨after, rfl⟩ hmore hrun
  rw [run_append] at hrun
  obtain ⟨t, ht, hrun⟩ := bind_eq_some_iff.mp hrun
  have hready : Ready t := run_invariant_of_meets (fun _ _ _ => ready_step) hs h.of_append ht
  have hready' : Ready s' := by
    refine run_invariant_of_meets (C := fun _ a => a ≠ .submit) (fun s a s' hs ha => ready_step hs ?_) hready
      ?_ hrun
    · cases a with
      | submit => exact absurd rfl ha
      | _ => trivial
    · exact meets_of_forall_mem hmore
  exact Nat.le_trans (Nat.le_add_right _ _) hready'

lemma admits_of_bounded {as : List Action} (h : Bounded s as) : Runs.Meets step Admits s as := by
  induction as generalizing s with
  | nil => trivial
  | cons a as ih =>
    constructor
    · cases a with
      | submit =>
        intro hlocked
        have ht : step s .submit = some { s with submissions := s.submissions ++ [.admitted] } := by
          simp [step, hlocked]
        obtain ⟨more, s', hmore, hrun, hcompared⟩ :=
          exists_comparisons { s with submissions := s.submissions ++ [.admitted] }
        have hle := h [.submit] more s' (by simp) hmore (run_cons_eq_some.mpr ⟨_, ht, hrun⟩)
        simp only [count_append, count_singleton_self] at hcompared
        omega
      | _ => trivial
    · cases ht : step s a with
      | none => trivial
      | some t =>
        refine ih fun before more s' hbefore hmore hrun => h (a :: before) more s' ?_ hmore ?_
        · exact cons_prefix_cons.mpr ⟨rfl, hbefore⟩
        · exact run_cons_eq_some.mpr ⟨t, ht, hrun⟩

/-- The limit is kept where every submission that finds no lock finds room for its code and for those in flight. -/
theorem bounded_iff_admits (as : List Action) : Bounded start as ↔ Runs.Meets step Admits start as :=
  ⟨admits_of_bounded, bounded_of_admits (Nat.zero_le _)⟩

/-- Eleven submissions read the lock before the first one is counted. -/
def burst : List Action :=
  List.replicate 11 .submit ++ (List.range 11).map (.compare · false)

/-- One wrong code more than the limit is compared, and the counter has never been reset. -/
theorem burst_over_limit :
    (Runs.run step start burst).map (fun s => (s.compared, s.counter)) = some (11, none) ∧ twoFAFailLimit = 10 := by
  decide +kernel

end SecondFactor
