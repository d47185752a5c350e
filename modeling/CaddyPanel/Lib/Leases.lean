import Mathlib.Data.Set.Insert
import CaddyPanel.Lib.Runs
import Mathlib.Data.List.Nodup

/-!
# One-time keys that are taken before they are spent

Holders `ι` take keys `κ`, and a taken key is marked used. A holder then spends its key, gives it back or goes
away without doing either. The mark alone decides who can take the key, so `Sound` says what the mark has to
agree with: who holds the key, and whether it is spent.
-/

structure Leases (ι κ : Type*) where
  used : Set κ
  holds : ι → Option κ
  spent : List κ

namespace Leases

open Runs

variable {ι κ : Type*} [DecidableEq ι]

inductive Step : Leases ι κ → Leases ι κ → Prop
  | stay (l : Leases ι κ) : Step l l
  | take (l : Leases ι κ) (i : ι) (k : κ) (hk : k ∉ l.used) :
    Step l { l with used := insert k l.used, holds := Function.update l.holds i (some k) }
  | giveBack (l : Leases ι κ) (i : ι) (k : κ) (hi : l.holds i = some k) :
    Step l { l with used := l.used \ {k}, holds := Function.update l.holds i none }
  | abandon (l : Leases ι κ) (i : ι) (k : κ) (hi : l.holds i = some k) :
    Step l { l with holds := Function.update l.holds i none }
  | spend (l : Leases ι κ) (i : ι) (k : κ) (hi : l.holds i = some k) :
    Step l { l with holds := Function.update l.holds i none, spent := k :: l.spent }

structure Sound (l : Leases ι κ) : Prop where
  used_of_holds : ∀ i k, l.holds i = some k → k ∈ l.used
  holder_unique : ∀ i j k, l.holds i = some k → l.holds j = some k → i = j
  used_of_spent : ∀ k ∈ l.spent, k ∈ l.used
  not_held_of_spent : ∀ k ∈ l.spent, ∀ i, l.holds i ≠ some k
  spent_once : l.spent.Nodup

omit [DecidableEq ι] in
lemma sound_of_idle {l : Leases ι κ} (hholds : ∀ i, l.holds i = none) (hspent : l.spent = []) : Sound l where
  used_of_holds i k h := by simp [hholds] at h
  holder_unique i j k h := by simp [hholds] at h
  used_of_spent k h := by simp [hspent] at h
  not_held_of_spent k h := by simp [hspent] at h
  spent_once := hspent ▸ List.nodup_nil

section

variable {l l' : Leases ι κ} {i : ι} {k : κ} (hs : Sound l)

include hs

lemma Sound.drop (i : ι) : Sound { l with holds := Function.update l.holds i none } := by
  have hold : ∀ {j k}, Function.update l.holds i none j = some k → l.holds j = some k := fun h =>
    ((update_eq_some h).resolve_left nofun).2
  exact ⟨fun j k h => hs.used_of_holds j k (hold h), fun j j' k h h' => hs.holder_unique j j' k (hold h) (hold h'),
    hs.used_of_spent, fun k hmem j h => hs.not_held_of_spent k hmem j (hold h), hs.spent_once⟩

/-- Nobody else holds the key of a holder that is gone. -/
lemma Sound.free (hi : l.holds i = some k) (j : ι) : Function.update l.holds i none j ≠ some k := by
  intro h
  obtain ⟨hne, hj⟩ := (update_eq_some h).resolve_left nofun
  exact hne (hs.holder_unique j i k hj hi)

/-- No step breaks the agreement, so a key is spent at most once in every run. -/
theorem Sound.step (h : Step l l') : Sound l' := by
  cases h with
  | stay => exact hs
  | take i k hk =>
    -- a key that is not marked is neither held nor spent
    have hfree : ∀ j, l.holds j ≠ some k := fun j hj => hk (hs.used_of_holds j k hj)
    refine ⟨fun j k' hj => ?_, fun j j' k' hj hj' => ?_, fun k' hmem => .inr (hs.used_of_spent k' hmem),
      fun k' hmem j hj => ?_, hs.spent_once⟩
    · obtain ⟨-, ⟨⟩⟩ | ⟨-, hj⟩ := update_eq_some hj
      · exact Set.mem_insert _ _
      · exact .inr (hs.used_of_holds j k' hj)
    · obtain ⟨hji, ⟨⟩⟩ | ⟨-, hj⟩ := update_eq_some hj <;> obtain ⟨hji', hk'⟩ | ⟨-, hj'⟩ := update_eq_some hj'
      · exact hji.trans hji'.symm
      · exact absurd hj' (hfree j')
      · exact absurd (hk' ▸ hj) (hfree j)
      · exact hs.holder_unique j j' k' hj hj'
    · obtain ⟨-, ⟨⟩⟩ | ⟨-, hj⟩ := update_eq_some hj
      · exact hk (hs.used_of_spent k hmem)
      · exact hs.not_held_of_spent k' hmem j hj
  | giveBack i k hi =>
    have hdrop := hs.drop i
    refine { hdrop with
      used_of_holds := fun j k' hj => ⟨hdrop.used_of_holds j k' hj, ?_⟩
      used_of_spent := fun k' hmem => ⟨hs.used_of_spent k' hmem, ?_⟩ }
    · rintro rfl
      exact hs.free hi j hj
    · rintro rfl
      exact hs.not_held_of_spent k' hmem i hi
  | abandon i k hi => exact hs.drop i
  | spend i k hi =>
    exact { hs.drop i with
      used_of_spent := List.forall_mem_cons.mpr ⟨hs.used_of_holds i k hi, hs.used_of_spent⟩
      not_held_of_spent := List.forall_mem_cons.mpr ⟨hs.free hi, (hs.drop i).not_held_of_spent⟩
      spent_once := List.nodup_cons.mpr ⟨fun hmem => hs.not_held_of_spent k hmem i hi, hs.spent_once⟩ }

end

end Leases
