import Mathlib.Algebra.Order.Group.Nat
import CaddyPanel.Lib.Text
import CaddyPanel.Lib.Runs

/-!
# Authenticator codes (`internal/auth/totp.go`)

The panel and the portal check a code alike: `MatchTOTP` finds the step of 30 seconds that the code is of, and
`markTOTPConsumed` sets a key for the user and the step in Redis, which lasts for 90 seconds. A login reads the clock
for the first and reaches Redis with the second some time later. Times are in milliseconds.
-/

namespace Totp

open Text (Str trimSpace byteLength)
open Function (update)

/-- `MatchTOTP`; `valid` is the check of the library, of a code for a secret at a step. -/
def matchTOTP (valid : Str → Str → ℤ → Bool) (secret code : Str) (now : ℕ) : Option ℤ :=
  let code := trimSpace code
  if byteLength code < 6 then none
  else
    let cur : ℤ := (now / 1000 / 30 : ℕ)
    [cur, cur - 1, cur + 1].find? fun c => valid code secret c

/-- A user, and a step that a code of the user is of. -/
abbrev Key := ℕ × ℤ

structure State where
  now : ℕ
  /-- when the keys expire that are set -/
  used : Key → Option ℕ
  /-- logins behind `MatchTOTP` -/
  calls : ℕ → Option Key
  /-- history -/
  accepted : List Key

inductive Action where
  | wait (time : ℕ)
  | check (call userID : ℕ) (secret code : Str)
  | mark (call : ℕ)
  /-- the client is gone -/
  | stop (call : ℕ)

def consumedTTL : ℕ := 90 * 1000

def step (valid : Str → Str → ℤ → Bool) (s : State) : Action → Option State
  | .wait time => some { s with now := s.now + time }
  | .check call userID secret code =>
    some { s with calls := update s.calls call ((matchTOTP valid secret code s.now).map (userID, ·)) }
  | .mark call =>
    (s.calls call).map fun key =>
      -- `SETNX`
      if (s.used key).any (s.now < ·) then { s with calls := update s.calls call none }
      else
        { s with
          used := update s.used key (some (s.now + consumedTTL))
          calls := update s.calls call none
          accepted := key :: s.accepted }
  | .stop call => some { s with calls := update s.calls call none }

def start (now : ℕ) : State where
  now := now
  used := fun _ => none
  calls := fun _ => none
  accepted := []

/-- When the code of a step begins and ends to be taken. -/
def opens (c : ℤ) : ℤ := (c - 1) * 30000

def closes (c : ℤ) : ℤ := (c + 2) * 30000

/-- A login that has found a step reaches Redis before the code of the step ends. -/
def InTime (s : State) : Action → Prop
  | .mark call => ∀ key ∈ s.calls call, (s.now : ℤ) < closes key.2
  | _ => True

variable {valid : Str → Str → ℤ → Bool} {s s' : State}

lemma of_matchTOTP {secret code : Str} {now : ℕ} {c : ℤ} (h : matchTOTP valid secret code now = some c) :
    opens c ≤ now := by
  unfold matchTOTP at h
  dsimp only at h
  split_ifs at h
  have hmem := List.mem_of_find?_eq_some h
  simp only [List.mem_cons, List.not_mem_nil, or_false] at hmem
  unfold opens
  omega

structure Inv (s : State) : Prop where
  calls : ∀ call key, s.calls call = some key → opens key.2 ≤ s.now
  used : ∀ key ∈ s.accepted, ∃ e, s.used key = some e ∧ closes key.2 ≤ e
  once : s.accepted.Nodup

lemma Inv.setCall (hs : Inv s) (call : ℕ) {key : Option Key} (hkey : ∀ k ∈ key, opens k.2 ≤ s.now) :
    Inv { s with calls := update s.calls call key } where
  calls := fun call' k hk => by
    obtain ⟨-, hk⟩ | ⟨-, hk⟩ := Runs.update_eq_some hk
    · exact hkey k hk
    · exact hs.calls call' k hk
  used := hs.used
  once := hs.once

/-- A step whose code is still taken is not accepted again: its key outlasts the code. -/
lemma Inv.mark (hs : Inv s) {key : Key} (hopen : opens key.2 ≤ s.now) (hclose : (s.now : ℤ) < closes key.2)
    (hfree : (s.used key).any (s.now < ·) = false) :
    Inv { s with used := update s.used key (some (s.now + consumedTTL)), accepted := key :: s.accepted } where
  calls := hs.calls
  used := by
    intro k hk
    by_cases hkey : k = key
    · subst hkey
      refine ⟨_, Function.update_self .., ?_⟩
      have httl : consumedTTL = 90000 := rfl
      unfold opens at hopen
      unfold closes
      omega
    · obtain ⟨e, he, hle⟩ := hs.used k (List.mem_of_ne_of_mem hkey hk)
      exact ⟨e, (Function.update_of_ne hkey _ _).trans he, hle⟩
  once := by
    refine List.nodup_cons.mpr ⟨fun hmem => ?_, hs.once⟩
    obtain ⟨e, he, hle⟩ := hs.used key hmem
    simp only [he, Option.any_some, decide_eq_false_iff_not] at hfree
    omega

lemma Inv.step {a : Action} (hs : Inv s) (htime : InTime s a) (h : step valid s a = some s') : Inv s' := by
  cases a with
  | wait time =>
    cases h
    refine ⟨fun call key hk => (hs.calls call key hk).trans ?_, hs.used, hs.once⟩
    exact_mod_cast Nat.le_add_right _ _
  | check call userID secret code =>
    cases h
    refine hs.setCall call fun k hk => ?_
    obtain ⟨c, hc, rfl⟩ := Option.map_eq_some_iff.mp hk
    exact of_matchTOTP hc
  | mark call =>
    obtain ⟨key, hkey, rfl⟩ := Option.map_eq_some_iff.mp h
    split
    · exact hs.setCall call nofun
    · next hfree =>
      exact (hs.mark (hs.calls call key hkey) (htime key hkey) (Bool.not_eq_true _ ▸ hfree)).setCall call nofun
  | stop call =>
    cases h
    exact hs.setCall call nofun

/-- In every run in which the logins reach Redis in time, each step of a user is accepted at most once. -/
theorem accepted_once (valid : Str → Str → ℤ → Bool) (now : ℕ) (as : List Action) {s : State}
    (htime : Runs.Meets (step valid) InTime (start now) as) (h : Runs.run (step valid) (start now) as = some s) :
    s.accepted.Nodup := by
  have hstart : Inv (start now) := by constructor <;> simp [start]
  exact (Runs.run_invariant_of_meets (fun _ _ _ hs htime hstep => hs.step htime hstep) hstart htime h).once

instance (s : State) (a : Action) : Decidable (InTime s a) := by
  unfold InTime
  split <;> infer_instance

/-- The code of the step from 0:30 to 1:00. -/
def sampleValid (code _ : Str) (c : ℤ) : Bool :=
  code = "123456" && c = 1

theorem accepted_once_again : ∃ s, Runs.run (step sampleValid) (start 0)
    [.check 0 7 [] "123456", .check 1 7 [] "123456", .mark 1, .wait 80000, .mark 0] = some s ∧ s.accepted.Nodup := by
  have hrun : Runs.run (step sampleValid) (start 0)
    [.check 0 7 [] "123456", .check 1 7 [] "123456", .mark 1, .wait 80000, .mark 0] = some _ := rfl
  exact ⟨_, hrun, accepted_once sampleValid 0 _ (by decide +kernel) hrun⟩

/-- A code is used as soon as it is taken, and once more in its last millisecond by a login that takes one more to reach
Redis. -/
theorem step_accepted_twice : (Runs.run (step sampleValid) (start 0) [.check 0 7 [] "123456", .mark 0, .wait 89999,
    .check 1 7 [] "123456", .wait 1, .mark 1]).map State.accepted = some [(7, 1), (7, 1)] := by
  decide +kernel

end Totp
