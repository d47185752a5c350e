import Mathlib.Data.List.Forall2

/-!
# Re-encrypting cells from one key to another

A cell is read under a key and written under a key. A cell that holds nothing for the key is skipped, and a cell
that must be readable is refused. `rekeyAll` writes every cell that opens under the first key again under the
second one, or fails. What it has written no longer opens under the first key, so that doing it twice does no
harm: it fails, or changes nothing.
-/

namespace Rekey

open List

inductive Reading (π : Type*) where
  | skip
  | opened (p : π)
  | refused

variable {β κ ν π : Type*}

def Reading.isRefused : Reading π → Bool
  | .refused => true
  | _ => false

lemma Reading.isRefused_eq_false {r : Reading π} : r.isRefused = false ↔ r ≠ .refused := by
  cases r <;> simp [Reading.isRefused]

structure Codec (β κ ν π : Type*) where
  read : κ → β → Reading π
  write : κ → ν → π → β → β
  read_write : ∀ k₀ p₀ b, read k₀ b = .opened p₀ → ∀ k n p, read k (write k n p b) = .opened p
  read_write_ne : ∀ k k' n p p' b, k' ≠ k → read k' (write k n p b) ≠ .opened p'
  read_of_skip : ∀ k k' b, read k b = .skip → read k' b ≠ .refused

namespace Codec

variable (C : Codec β κ ν π)

def rekey (k k' : κ) (n : ν) (b : β) : Option β :=
  match C.read k b with
  | .skip => some b
  | .opened p => some (C.write k' n p b)
  | .refused => none

def rekeyAll (k k' : κ) : (ℕ → ν) → List β → Option (List β)
  | _, [] => some []
  | ns, b :: bs =>
    match C.rekey k k' (ns 0) b, rekeyAll k k' (fun i => ns (i + 1)) bs with
    | some b', some bs' => some (b' :: bs')
    | _, _ => none

/-- No cell is refused under the key. -/
def Opens (k : κ) (bs : List β) : Prop :=
  ∀ b ∈ bs, C.read k b ≠ .refused

instance (k : κ) (bs : List β) : Decidable (C.Opens k bs) :=
  decidable_of_iff (∀ b ∈ bs, (C.read k b).isRefused = false)
    (forall₂_congr fun _ _ => Reading.isRefused_eq_false)

/-- What the cell becomes, up to the nonce. -/
def Rekeyed (k k' : κ) (b b' : β) : Prop :=
  match C.read k b with
  | .opened p => ∃ n, b' = C.write k' n p b
  | _ => b' = b

/-- The second cell says under the second key what the first says under the first, or is the first one. -/
structure Carried (k k' : κ) (b b' : β) : Prop where
  opened : ∀ p, C.read k b = .opened p → C.read k' b' = .opened p
  other : (∀ p, C.read k b ≠ .opened p) → b' = b

variable {C} {k k' : κ} {b b' : β} {bs bs' : List β}

lemma rekeyed_of_rekey {n : ν} (h : C.rekey k k' n b = some b') : C.Rekeyed k k' b b' := by
  unfold rekey at h
  unfold Rekeyed
  split at h
  · next hread =>
    rw [hread]
    exact (Option.some.inj h).symm
  · next p hread =>
    rw [hread]
    exact ⟨n, (Option.some.inj h).symm⟩
  · cases h

lemma rekeyAll_cons {ns : ℕ → ν} (h : C.rekeyAll k k' ns (b :: bs) = some bs') :
    ∃ b₁ bs₁, C.rekey k k' (ns 0) b = some b₁ ∧ C.rekeyAll k k' (fun i => ns (i + 1)) bs = some bs₁ ∧
      bs' = b₁ :: bs₁ := by
  simp only [rekeyAll] at h
  split at h
  · next b₁ bs₁ hb hbs => exact ⟨b₁, bs₁, hb, hbs, (Option.some.inj h).symm⟩
  · cases h

theorem rekeyed_of_rekeyAll {ns : ℕ → ν} (h : C.rekeyAll k k' ns bs = some bs') :
    List.Forall₂ (C.Rekeyed k k') bs bs' := by
  induction bs generalizing ns bs' with
  | nil =>
    cases h
    exact .nil
  | cons b bs ih =>
    obtain ⟨b₁, bs₁, hb, hbs, rfl⟩ := rekeyAll_cons h
    exact .cons (rekeyed_of_rekey hb) (ih hbs)

theorem exists_rekeyAll (h : C.Opens k bs) (k' : κ) (ns : ℕ → ν) : ∃ bs', C.rekeyAll k k' ns bs = some bs' := by
  induction bs generalizing ns with
  | nil => exact ⟨[], rfl⟩
  | cons b bs ih =>
    obtain ⟨bs₁, hbs⟩ := ih (fun b hb => h b (mem_cons_of_mem _ hb)) fun i => ns (i + 1)
    have hb := h b mem_cons_self
    cases hread : C.read k b with
    | skip => exact ⟨b :: bs₁, by simp [rekeyAll, rekey, hread, hbs]⟩
    | opened p => exact ⟨C.write k' (ns 0) p b :: bs₁, by simp [rekeyAll, rekey, hread, hbs]⟩
    | refused => exact absurd hread hb

lemma Rekeyed.carried (h : C.Rekeyed k k' b b') : C.Carried k k' b b' := by
  unfold Rekeyed at h
  split at h
  · next p hread =>
    obtain ⟨n, rfl⟩ := h
    refine ⟨fun p' hread' => ?_, fun hne => absurd hread (hne p)⟩
    rw [hread] at hread'
    rw [C.read_write k p b hread, hread']
  · next hne => exact ⟨fun p hread => absurd hread (hne p), fun _ => h⟩

/-- A cell that was rekeyed does not open under the first key. -/
lemma Rekeyed.read_ne_opened (hk : k ≠ k') (h : C.Rekeyed k k' b b') (p : π) : C.read k b' ≠ .opened p := by
  unfold Rekeyed at h
  split at h
  · obtain ⟨n, rfl⟩ := h
    exact C.read_write_ne k' k n _ p b hk
  · next hread =>
    rw [h]
    exact hread p

/-- A cell that was rekeyed is not refused under the second key. -/
lemma Rekeyed.read_ne_refused (hread : C.read k b ≠ .refused) (h : C.Rekeyed k k' b b') : C.read k' b' ≠ .refused := by
  unfold Rekeyed at h
  split at h
  · next p hopened =>
    obtain ⟨n, rfl⟩ := h
    rw [C.read_write k p b hopened]
    nofun
  · next hne =>
    cases hb : C.read k b with
    | skip => exact h ▸ C.read_of_skip k k' b hb
    | opened p => exact absurd hb (hne p)
    | refused => exact absurd hb hread

theorem opens_of_rekeyed (hopens : C.Opens k bs) (h : List.Forall₂ (C.Rekeyed k k') bs bs') : C.Opens k' bs' := by
  intro b' hb'
  obtain ⟨i, hi, rfl⟩ := mem_iff_getElem.mp hb'
  obtain ⟨hlength, hget⟩ := forall₂_iff_get.mp h
  have hi' : i < bs.length := hlength ▸ hi
  exact (hget i hi' hi).read_ne_refused (hopens _ (getElem_mem hi'))

/-- Rekeying what was rekeyed changes nothing, if it does not fail. -/
theorem rekeyAll_of_rekeyed {ns : ℕ → ν} {bs'' : List β} (hk : k ≠ k')
    (h : List.Forall₂ (C.Rekeyed k k') bs bs') (h' : C.rekeyAll k k' ns bs' = some bs'') : bs'' = bs' := by
  induction h generalizing ns bs'' with
  | nil =>
    cases h'
    rfl
  | @cons b b' bs bs' hb _ ih =>
    obtain ⟨b₁, bs₁, hb₁, hbs₁, rfl⟩ := rekeyAll_cons h'
    have hsame : b₁ = b' := by
      unfold rekey at hb₁
      split at hb₁
      · exact (Option.some.inj hb₁).symm
      · next p hread => exact absurd hread (hb.read_ne_opened hk p)
      · cases hb₁
    rw [hsame, ih hbs₁]

/-- Where nothing that is written is ever skipped, rekeyed cells that still open under the first key are the
cells themselves. -/
theorem eq_of_opens (hk : k ≠ k') (hstrict : ∀ k' n p b, C.read k b = .opened p → C.read k (C.write k' n p b) ≠ .skip)
    (h : List.Forall₂ (C.Rekeyed k k') bs bs') (hopens : C.Opens k bs') : bs' = bs := by
  induction h with
  | nil => rfl
  | @cons b b' bs bs' hb _ ih =>
    have hbs := ih fun b hb => hopens b (mem_cons_of_mem _ hb)
    have hb' : b' = b := by
      unfold Rekeyed at hb
      split at hb
      · next p hread =>
        obtain ⟨n, rfl⟩ := hb
        cases hread' : C.read k (C.write k' n p b) with
        | skip => exact absurd hread' (hstrict k' n p b hread)
        | opened p' => exact absurd hread' (C.read_write_ne k' k n p p' b hk)
        | refused => exact absurd hread' (hopens _ mem_cons_self)
      · exact hb
    rw [hb', hbs]

end Codec

end Rekey
