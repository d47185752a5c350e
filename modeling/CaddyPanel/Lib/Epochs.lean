import Mathlib.Data.List.Basic

/-!
# Stamps that an epoch makes invalid

Each key has an epoch and, while it may be used, claims. A stamp is a copy of the claims with the epoch at
which they were read; it is accepted as long as the epoch is still the same. So a stamp that is accepted
agrees with its key as long as every change of claims that somebody may hold a stamp of raises the epoch.
-/

namespace Epochs

variable {κ γ : Type*}

structure Stamp (κ γ : Type*) where
  key : κ
  claims : γ
  epoch : ℕ

/-- What is stored for the keys: `some (none, e)` is a key that nothing may be stamped for. -/
abbrev View (κ γ : Type*) := κ → Option (Option γ × ℕ)

def Accepted (v : View κ γ) (st : Stamp κ γ) : Prop :=
  ∃ c, v st.key = some (c, st.epoch)

/-- The stamp is what would be stamped now. -/
def Agrees (v : View κ γ) (st : Stamp κ γ) : Prop :=
  v st.key = some (some st.claims, st.epoch)

/-- The stamp agrees with its key, or its epoch is past. -/
def Sound (v : View κ γ) (st : Stamp κ γ) : Prop :=
  ∀ c e, v st.key = some (c, e) → st.epoch < e ∨ st.epoch = e ∧ c = some st.claims

variable {st : Stamp κ γ} {v v' : View κ γ}

lemma Sound.agrees (h : Sound v st) (hacc : Accepted v st) : Agrees v st := by
  obtain ⟨c, hc⟩ := hacc
  obtain hlt | ⟨-, rfl⟩ := h c st.epoch hc
  · exact absurd hlt (Nat.lt_irrefl _)
  · exact hc

lemma Agrees.sound (h : Agrees v st) : Sound v st := by
  intro c e hc
  rw [h, Option.some.injEq, Prod.mk.injEq] at hc
  exact .inr ⟨hc.2, hc.1.symm⟩

/-- What a write may do to a key: nothing new for a key without claims, and a new epoch with new claims. -/
inductive Advance : Option (Option γ × ℕ) → Option (Option γ × ℕ) → Prop
  | gone (x : Option (Option γ × ℕ)) : Advance x none
  | same (x : Option (Option γ × ℕ)) : Advance x x
  | bumped (c c' : Option γ) {e e' : ℕ} (h : e < e') : Advance (some (c, e)) (some (c', e'))
  | reopened (c' : Option γ) (e : ℕ) : Advance (some (none, e)) (some (c', e))

lemma Advance.epoch_le {c c' : Option γ} {e e' : ℕ} (h : Advance (some (c, e)) (some (c', e'))) : e ≤ e' := by
  cases h with
  | same => exact Nat.le_refl _
  | bumped _ _ hlt => exact Nat.le_of_lt hlt
  | reopened => exact Nat.le_refl _

lemma Sound.advance (h : Sound v st) (hadv : Advance (v st.key) (v' st.key)) : Sound v' st := by
  intro c' e' hc'
  rw [hc'] at hadv
  generalize hx : v st.key = x at hadv
  cases hadv with
  | same => exact h c' e' hx
  | bumped c c' hlt =>
    obtain hpast | ⟨heq, -⟩ := h c _ hx
    · exact .inl (Nat.lt_trans hpast hlt)
    · exact .inl (heq ▸ hlt)
  | reopened =>
    obtain hpast | ⟨-, hclaims⟩ := h none _ hx
    · exact .inl hpast
    · cases hclaims

/-- Claims that change without a new epoch do no harm to a stamp whose epoch is past. -/
lemma Sound.of_same_epoch (h : Sound v st) (hacc : ¬ Accepted v st)
    {c c' : Option γ} {e : ℕ} (hv : v st.key = some (c, e)) (hv' : v' st.key = some (c', e)) : Sound v' st := by
  intro c'' e'' hc''
  rw [hv', Option.some.injEq] at hc''
  obtain ⟨-, rfl⟩ := hc''
  obtain hpast | ⟨heq, -⟩ := h c e hv
  · exact .inl hpast
  · exact absurd ⟨c, heq ▸ hv⟩ hacc

end Epochs
