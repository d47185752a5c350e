import Mathlib.Algebra.Order.Group.Nat
import CaddyPanel.Lib.Runs

/-!
# Webhook deliveries (`internal/webhook/webhook.go`)

One row of `webhook_deliveries` and any number of dispatchers, which read it among the due rows, claim
it, call its endpoint and write the outcome. Each statement is a step, and each can fail. A claim is a
lease: a dispatcher that does not come back in time has lost the row.
-/

namespace Webhook

open Function (update)

inductive Status where
  | pending | success | failed
  deriving DecidableEq

structure Delivery where
  status : Status
  attempts : ℕ
  nextRetryAt : Option ℕ

/-- How an attempt ends: the query of the endpoint fails, or finds none that is enabled, or the call has an outcome. -/
inductive Verdict where
  | unread | missing | failed | delivered
  deriving DecidableEq

/-- A dispatcher in `attempt`, with the `attempts` that `Dispatch` has read. -/
structure Attempt where
  attempts : ℕ
  leaseEnd : ℕ
  verdict : Option Verdict

structure State where
  now : ℕ
  row : Delivery
  /-- whether the endpoint exists and is enabled -/
  enabled : Bool
  jobs : ℕ → Option ℕ
  attempt : ℕ → Option Attempt
  /-- history -/
  verdicts : List Verdict

def claimLease : ℕ := 120

def maxAttempts : ℕ := 4

def State.due (s : State) : Bool :=
  s.row.status = .pending && s.row.nextRetryAt.all (· ≤ s.now)

/-- The seconds until the next attempt. -/
def backoff (attempts : ℕ) : ℕ :=
  max 60 (2 ^ (attempts - 1) * 300)

/-- What `attempt` writes, with `markFail` for a call that failed. -/
def Delivery.mark (r : Delivery) (now attempts : ℕ) : Verdict → Delivery
  -- an error of the query is not told apart from a row that is missing
  | .unread | .missing => { r with status := .failed }
  | .delivered => { r with status := .success, attempts := r.attempts + 1 }
  | .failed =>
    if maxAttempts ≤ attempts + 1 then { r with status := .failed, attempts := attempts + 1 }
    else ⟨.pending, attempts + 1, some (now + backoff (attempts + 1))⟩

/-- `delivered` is `none` where the query of the endpoint fails. -/
def State.verdict (s : State) (delivered : Option Bool) : Verdict :=
  match delivered with
  | none => .unread
  | some delivered => if !s.enabled then .missing else if delivered then .delivered else .failed

inductive Action where
  | wait (time : ℕ)
  | configure (enabled : Bool)
  | list (d : ℕ)
  /-- `reported`: whether the answer to the UPDATE arrives -/
  | claim (d : ℕ) (applied reported : Bool)
  | attempt (d : ℕ) (delivered : Option Bool)
  | mark (d : ℕ) (applied : Bool)
  | stop (d : ℕ)

def State.set (s : State) (d : ℕ) (a : Option Attempt) : State :=
  { s with attempt := update s.attempt d a, jobs := update s.jobs d none }

def step (s : State) : Action → Option State
  | .wait time => some { s with now := s.now + time }
  | .configure enabled => some { s with enabled }
  | .list d => if s.due then some { s with jobs := update s.jobs d (some s.row.attempts) } else none
  | .claim d applied reported =>
    match s.attempt d, s.jobs d with
    | none, some attempts =>
      if applied && s.due then
        some ({ s with row.nextRetryAt := some (s.now + claimLease) }.set d
          (if reported then some ⟨attempts, s.now + claimLease, none⟩ else none))
      else some (s.set d none)
    | _, _ => none
  | .attempt d delivered =>
    match s.attempt d with
    | some ⟨attempts, leaseEnd, none⟩ =>
      some ({ s with verdicts := s.verdict delivered :: s.verdicts }.set d
        (some ⟨attempts, leaseEnd, some (s.verdict delivered)⟩))
    | _ => none
  | .mark d applied =>
    match s.attempt d with
    | some ⟨attempts, _, some v⟩ =>
      some ({ s with row := if applied then s.row.mark s.now attempts v else s.row }.set d none)
    | _ => none
  | .stop d => some (s.set d none)

/-- `Emit` has inserted the row. -/
def emitted (now : ℕ) (enabled : Bool) : State :=
  ⟨now, ⟨.pending, 0, some now⟩, enabled, fun _ => none, fun _ => none, []⟩

/-- A dispatcher holds the row from its claim until its lease ends or it has written the outcome. -/
def State.Holds (s : State) (d : ℕ) : Prop :=
  ∃ a, s.attempt d = some a ∧ s.now < a.leaseEnd

/-! ### What a step keeps -/

variable {s s' : State} {d : ℕ}

/-- Nobody can claim the row before the time. -/
def State.Closed (s : State) (time : ℕ) : Prop :=
  s.row.status = .pending → ∃ t, s.row.nextRetryAt = some t ∧ time ≤ t

def Attempt.Sound (s : State) (a : Attempt) : Prop :=
  a.leaseEnd ≤ s.now + claimLease ∧ (s.now < a.leaseEnd → s.Closed a.leaseEnd) ∧
    a.attempts + (if a.verdict = some .failed then 1 else 0) ≤ s.verdicts.count .failed ∧
    ∀ v, a.verdict = some v → v ∈ s.verdicts

/-- A cause for giving up the delivery, or the one that the code takes for it. -/
def State.Cause (s : State) : Prop :=
  .missing ∈ s.verdicts ∨ .unread ∈ s.verdicts ∨ maxAttempts ≤ s.verdicts.count .failed

structure Inv (s : State) : Prop where
  pending : s.row.status = .pending → s.row.attempts ≤ s.verdicts.count .failed
  failed : s.row.status = .failed → s.Cause
  jobs : ∀ d n, s.jobs d = some n → n ≤ s.verdicts.count .failed
  attempt : ∀ d a, s.attempt d = some a → a.Sound s
  unique : ∀ d d', s.Holds d → s.Holds d' → d = d'

lemma Inv.set {x : Option Attempt} (hs : Inv s)
    (hx : ∀ a, x = some a → a.Sound s ∧ ∀ d' ≠ d, s.Holds d' → ¬s.now < a.leaseEnd) : Inv (s.set d x) where
  pending := hs.pending
  failed := hs.failed
  jobs d' n hn := hs.jobs d' n ((Runs.update_eq_some hn).resolve_left nofun).2
  attempt d' a ha := by
    obtain ⟨rfl, rfl⟩ | ⟨-, ha⟩ := Runs.update_eq_some ha
    · exact (hx a rfl).1
    · exact hs.attempt d' a ha
  unique := by
    rintro d₁ d₂ ⟨a₁, h₁, hlt₁⟩ ⟨a₂, h₂, hlt₂⟩
    obtain ⟨rfl, hx₁⟩ | ⟨hne₁, h₁⟩ := Runs.update_eq_some h₁ <;>
      obtain ⟨heq, hx₂⟩ | ⟨hne₂, h₂⟩ := Runs.update_eq_some h₂
    · exact heq.symm
    · exact absurd hlt₁ ((hx a₁ hx₁).2 d₂ hne₂ ⟨a₂, h₂, hlt₂⟩)
    · exact absurd hlt₂ ((hx a₂ hx₂).2 d₁ (heq ▸ hne₁) ⟨a₁, h₁, hlt₁⟩)
    · exact hs.unique d₁ d₂ ⟨a₁, h₁, hlt₁⟩ ⟨a₂, h₂, hlt₂⟩

/-- Another row, with the claims of the attempts still standing. -/
lemma Inv.setRow {row : Delivery} (hs : Inv s)
    (hpending : row.status = .pending → row.attempts ≤ s.verdicts.count .failed ∧
      ∃ t, row.nextRetryAt = some t ∧ s.now + claimLease ≤ t)
    (hfailed : row.status = .failed → s.Cause) : Inv { s with row } where
  pending h := (hpending h).1
  failed := hfailed
  jobs := hs.jobs
  attempt d a ha := by
    obtain ⟨hend, -, hrest⟩ := hs.attempt d a ha
    exact ⟨hend, fun _ h => (hpending h).2.imp fun t ht => ⟨ht.1, hend.trans ht.2⟩, hrest⟩
  unique := hs.unique

lemma Inv.mark (hs : Inv s) {attempts leaseEnd : ℕ} {v : Verdict}
    (ha : s.attempt d = some ⟨attempts, leaseEnd, some v⟩) :
    Inv { s with row := s.row.mark s.now attempts v } := by
  obtain ⟨-, -, htried, hmem⟩ := hs.attempt d _ ha
  cases v with
  | unread => exact hs.setRow nofun fun _ => .inr (.inl (hmem _ rfl))
  | missing => exact hs.setRow nofun fun _ => .inl (hmem _ rfl)
  | delivered => exact hs.setRow nofun nofun
  | failed =>
    simp only [Delivery.mark]
    split
    · next hmax => exact hs.setRow nofun fun _ => .inr (.inr (hmax.trans htried))
    refine hs.setRow (fun _ => ⟨htried, _, rfl, Nat.add_le_add_left ?_ _⟩) nofun
    have hpos : 1 ≤ 2 ^ (attempts + 1 - 1) := Nat.one_le_two_pow
    unfold claimLease backoff
    omega

lemma Inv.record (hs : Inv s) (v : Verdict) : Inv { s with verdicts := v :: s.verdicts } := by
  have hcount : s.verdicts.count .failed ≤ (v :: s.verdicts).count .failed := List.count_le_count_cons
  refine ⟨fun h => (hs.pending h).trans hcount, fun h => ?_, fun d n hn => (hs.jobs d n hn).trans hcount, fun d a ha => ?_,
    hs.unique⟩
  · exact (hs.failed h).imp (.tail v) (.imp (.tail v) hcount.trans')
  · obtain ⟨hend, hclosed, htried, hmem⟩ := hs.attempt d a ha
    exact ⟨hend, hclosed, htried.trans hcount, fun w hw => .tail v (hmem w hw)⟩

lemma Inv.step {act : Action} (hs : Inv s) (h : step s act = some s') : Inv s' := by
  cases act with
  | wait time =>
    cases h
    have hheld d : State.Holds { s with now := s.now + time } d → s.Holds d := fun ⟨a, ha, hlt⟩ =>
      ⟨a, ha, (Nat.le_add_right _ _).trans_lt hlt⟩
    refine ⟨hs.pending, hs.failed, hs.jobs, fun d a ha => ?_, fun d d' h h' => hs.unique d d' (hheld d h) (hheld d' h')⟩
    obtain ⟨hend, hclosed, hrest⟩ := hs.attempt d a ha
    exact ⟨hend.trans (by dsimp only; omega), fun hlt => hclosed (by dsimp only at hlt; omega), hrest⟩
  | configure enabled =>
    cases h
    exact ⟨hs.pending, hs.failed, hs.jobs, hs.attempt, hs.unique⟩
  | list d =>
    simp only [Webhook.step] at h
    split at h
    · next hdue =>
      cases h
      refine ⟨hs.pending, hs.failed, fun d' n hn => ?_, hs.attempt, hs.unique⟩
      obtain ⟨-, hn⟩ | ⟨-, hn⟩ := Runs.update_eq_some hn
      · cases hn
        exact hs.pending (of_decide_eq_true (Bool.and_eq_true_iff.mp hdue).1)
      · exact hs.jobs d' n hn
    · cases h
  | claim d applied reported =>
    simp only [Webhook.step] at h
    split at h
    · next attempts hidle hjob =>
      split at h
      · next hclaim =>
        cases h
        simp only [State.due, Bool.and_eq_true, decide_eq_true_eq] at hclaim
        have hrow : Inv { s with row.nextRetryAt := some (s.now + claimLease) } :=
          hs.setRow (fun hp => ⟨hs.pending hp, _, rfl, le_rfl⟩) hs.failed
        refine hrow.set fun a ha => ?_
        split_ifs at ha
        cases ha
        refine ⟨⟨le_rfl, fun _ _ => ⟨_, rfl, le_rfl⟩, hs.jobs d _ hjob, nofun⟩, fun d' _ ⟨a, ha, hlt⟩ => ?_⟩
        -- a holder has closed the row, which is due
        obtain ⟨t, ht, hle⟩ := (hs.attempt d' a ha).2.1 hlt hclaim.2.1
        have hpast := hclaim.2.2
        simp only [ht, Option.all_some, decide_eq_true_eq] at hpast
        dsimp only at hlt
        omega
      · cases h
        exact hs.set nofun
    · cases h
  | attempt d delivered =>
    simp only [Webhook.step] at h
    split at h
    · next attempts leaseEnd ha =>
      cases h
      obtain ⟨hend, hclosed, htried, -⟩ := hs.attempt d _ ha
      refine (hs.record _).set fun a hx => ?_
      cases hx
      refine ⟨⟨hend, hclosed, ?_, fun v hv => Option.some.inj hv ▸ .head _⟩, fun d' hne h hlt => ?_⟩
      · rw [List.count_cons]
        simpa using htried
      · exact hne (hs.unique d' d h ⟨_, ha, hlt⟩)
    · cases h
  | mark d applied =>
    simp only [Webhook.step] at h
    split at h
    · next attempts leaseEnd v ha =>
      cases h
      cases applied with
      | true => exact (hs.mark ha).set nofun
      | false => exact hs.set nofun
    · cases h
  | stop d =>
    cases h
    exact hs.set nofun

/-- What a dispatcher has found out when it gives the delivery up. -/
def State.GivesUp (s : State) (d : ℕ) : Prop :=
  ∃ attempts leaseEnd v, s.attempt d = some ⟨attempts, leaseEnd, some v⟩ ∧
    (v = .missing ∨ v = .unread ∨ v = .failed ∧ maxAttempts ≤ attempts + 1 ∧ attempts + 1 ≤ s.verdicts.count .failed)

/-- Only the write of an outcome gives a delivery up. -/
lemma givesUp_of_failed {act : Action} (hs : Inv s) (h : step s act = some s') (hfailed : s'.row.status = .failed)
    (hbefore : s.row.status ≠ .failed) : ∃ d, act = .mark d true ∧ s.GivesUp d := by
  cases act with
  | wait | configure | stop =>
    cases h
    exact absurd hfailed hbefore
  | list | claim | attempt =>
    simp only [Webhook.step] at h
    split at h
    all_goals
      try split at h
    all_goals
      cases h <;> exact absurd hfailed hbefore
  | mark d applied =>
    simp only [Webhook.step] at h
    split at h
    · next attempts leaseEnd v ha =>
      cases h
      cases applied with
      | false => exact absurd hfailed hbefore
      | true =>
        have htried := (hs.attempt d _ ha).2.2.1
        refine ⟨d, rfl, attempts, leaseEnd, v, ha, ?_⟩
        cases v with
        | missing => exact .inl rfl
        | unread => exact .inr (.inl rfl)
        | delivered => cases hfailed
        | failed =>
          simp only [State.set, Delivery.mark, ↓reduceIte] at hfailed
          split at hfailed
          · next hmax => exact .inr (.inr ⟨rfl, hmax, htried⟩)
          · cases hfailed
    · cases h

/-- In every run at most one dispatcher holds the row; it is failed by one that found no endpoint, could not read it, or
has failed for the last time; and if all could read it, an endpoint was missing or enough attempts failed. -/
theorem one_holder_and_failed_for_cause (now : ℕ) (enabled : Bool) (as : List Action)
    (h : Runs.run step (emitted now enabled) as = some s) : (∀ d d', s.Holds d → s.Holds d' → d = d') ∧
      (∀ act s', step s act = some s' → s'.row.status = .failed → s.row.status ≠ .failed →
        ∃ d, act = .mark d true ∧ s.GivesUp d) ∧
      (.unread ∉ s.verdicts → s.row.status = .failed →
        .missing ∈ s.verdicts ∨ maxAttempts ≤ s.verdicts.count .failed) := by
  have hstart : Inv (emitted now enabled) := by constructor <;> simp [emitted, State.Holds]
  have hs : Inv s := Runs.run_invariant (fun _ _ _ hs hstep => hs.step hstep) hstart h
  refine ⟨hs.unique, fun act s' hstep hfailed hbefore => givesUp_of_failed hs hstep hfailed hbefore,
    fun hread hfailed => ?_⟩
  obtain hmissing | hunread | hmany := hs.failed hfailed
  · exact .inl hmissing
  · exact absurd hunread hread
  · exact .inr hmany

theorem one_holder_and_failed_for_cause_disabled : ∃ as s s', Runs.run step (emitted 0 false) as = some s ∧
    step s (.mark 0 true) = some s' ∧ s'.row.status = .failed ∧ s.GivesUp 0 ∧
      (.missing ∈ s'.verdicts ∨ maxAttempts ≤ s'.verdicts.count .failed) := by
  let as : List Action := [.list 0, .list 1, .claim 0 true true, .claim 1 true true, .attempt 0 (some true)]
  have hrun : Runs.run step (emitted 0 false) as = some _ := rfl
  have hrun' : Runs.run step (emitted 0 false) (as ++ [.mark 0 true]) = some _ := rfl
  obtain ⟨d, hd, hgives⟩ := (one_holder_and_failed_for_cause 0 false as hrun).2.1 (.mark 0 true) _ rfl rfl (by decide)
  cases hd
  exact ⟨as, _, _, hrun, rfl, rfl, hgives, (one_holder_and_failed_for_cause 0 false _ hrun').2.2 (by decide) rfl⟩

/-- One query that fails ends a delivery for good, though its endpoint is there and nothing was sent. -/
theorem unread_endpoint_fails_delivery : (Runs.run step (emitted 0 true)
    [.list 0, .claim 0 true true, .attempt 0 none, .mark 0 true]).map (fun s => (s.row.status, s.verdicts)) =
      some (.failed, [.unread]) := rfl

end Webhook
