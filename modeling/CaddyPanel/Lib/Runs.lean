import Mathlib.Data.List.Induction

/-!
# Runs of a labelled transition function

A system is a function `step : σ → α → Option σ`: the label `α` carries every choice that is made
outside the system (which actor moves, what the environment answers), and `none` means that the
label is not enabled. Every property of every interleaving is a property of `run`.
-/

namespace Runs

open List

/-- What an actor has once the entry of one actor is set. -/
lemma update_eq_some {ι κ : Type*} [DecidableEq ι] {f : ι → Option κ} {i j : ι} {v : Option κ} {k : κ}
    (h : Function.update f i v j = some k) : j = i ∧ v = some k ∨ j ≠ i ∧ f j = some k := by
  by_cases hij : j = i
  · subst hij
    rw [Function.update_self] at h
    exact .inl ⟨rfl, h⟩
  · rw [Function.update_of_ne hij] at h
    exact .inr ⟨hij, h⟩

variable {σ α : Type*} {step : σ → α → Option σ}

/-- The state after a sequence of labels, `none` when one of them is not enabled. -/
def run (step : σ → α → Option σ) : σ → List α → Option σ
  | s, [] => some s
  | s, a :: as =>
    match step s a with
    | some s' => run step s' as
    | none => none

/-- Every step taken from `s` along `as` meets `C` in the state before it. -/
def Meets (step : σ → α → Option σ) (C : σ → α → Prop) : σ → List α → Prop
  | _, [] => True
  | s, a :: as => C s a ∧
    match step s a with
    | some s' => Meets step C s' as
    | none => True

instance Meets.decidable (C : σ → α → Prop) [∀ s a, Decidable (C s a)] :
    ∀ (s : σ) (as : List α), Decidable (Meets step C s as)
  | _, [] => .isTrue trivial
  | s, a :: as =>
    match h : step s a with
    | some s' =>
      have := Meets.decidable C s' as
      decidable_of_iff (C s a ∧ Meets step C s' as) (by simp [Meets, h])
    | none => decidable_of_iff (C s a) (by simp [Meets, h])

@[simp] lemma run_nil (s : σ) : run step s [] = some s := rfl

@[simp] lemma meets_nil (C : σ → α → Prop) (s : σ) : Meets step C s [] := trivial

variable {C D : σ → α → Prop} {I P : σ → Prop} {s s' : σ} {a : α} {as bs : List α}

lemma run_cons_eq_some {s'' : σ} :
    run step s (a :: as) = some s'' ↔ ∃ s', step s a = some s' ∧ run step s' as = some s'' := by
  simp only [run]
  cases step s a <;> simp

lemma meets_cons : Meets step C s (a :: as) ↔ C s a ∧ ∀ s', step s a = some s' → Meets step C s' as := by
  simp only [Meets]
  cases step s a <;> simp

lemma meets_of_forall_mem {C : α → Prop} (h : ∀ a ∈ as, C a) : Meets step (fun _ a => C a) s as := by
  induction as generalizing s with
  | nil => trivial
  | cons a as ih => exact meets_cons.mpr ⟨h a mem_cons_self, fun s' _ => ih fun b hb => h b (mem_cons_of_mem a hb)⟩

lemma Meets.and (h : Meets step C s as) (h' : Meets step D s as) : Meets step (fun s a => C s a ∧ D s a) s as := by
  induction as generalizing s with
  | nil => trivial
  | cons a as ih =>
    obtain ⟨hC, hrest⟩ := meets_cons.mp h
    obtain ⟨hD, hrest'⟩ := meets_cons.mp h'
    exact meets_cons.mpr ⟨⟨hC, hD⟩, fun s' hs' => ih (hrest s' hs') (hrest' s' hs')⟩

/-- What every step that meets `C` preserves holds after every run that meets `C`. -/
theorem run_invariant_of_meets (hstep : ∀ s a s', I s → C s a → step s a = some s' → I s')
    (hs : I s) (hC : Meets step C s as) (h : run step s as = some s') : I s' := by
  induction as generalizing s with
  | nil =>
    simp only [run_nil, Option.some.injEq] at h
    exact h ▸ hs
  | cons a as ih =>
    obtain ⟨s₁, h₁, h₂⟩ := run_cons_eq_some.mp h
    obtain ⟨hCa, hCas⟩ := meets_cons.mp hC
    exact ih (hstep s a s₁ hs hCa h₁) (hCas s₁ h₁) h₂

/-- What every step preserves holds after every run. -/
theorem run_invariant (hstep : ∀ s a s', I s → step s a = some s' → I s')
    (hs : I s) (h : run step s as = some s') : I s' :=
  run_invariant_of_meets (fun s a s' hs _ => hstep s a s' hs) hs (meets_of_forall_mem fun _ _ => trivial) h

/-- Two conditions that agree wherever `I` holds are met by the same runs, if `I` is kept where they are met. -/
theorem meets_iff_of_invariant
    (hstep : ∀ s a s', I s → D s a → step s a = some s' → I s') (hCD : ∀ s a, I s → (C s a ↔ D s a))
    (hs : I s) (as : List α) : Meets step C s as ↔ Meets step D s as := by
  induction as generalizing s with
  | nil => exact Iff.rfl
  | cons a as ih =>
    rw [meets_cons, meets_cons, hCD s a hs]
    exact and_congr_right fun hD => forall₂_congr fun s' h => ih (hstep s a s' hs hD h)

lemma meets_congr (h : ∀ s a, C s a ↔ D s a) (s : σ) (as : List α) : Meets step C s as ↔ Meets step D s as :=
  meets_iff_of_invariant (I := fun _ => True) (fun _ _ _ _ _ _ => trivial) (fun s a _ => h s a) trivial as

/-- A condition that follows from another one wherever `I` holds is met by every run that meets the other. -/
theorem Meets.imp_of_invariant (hstep : ∀ s a s', I s → step s a = some s' → I s') (hCD : ∀ s a, I s → C s a → D s a)
    (hs : I s) (h : Meets step C s as) : Meets step D s as := by
  induction as generalizing s with
  | nil => trivial
  | cons a as ih =>
    obtain ⟨hC, hrest⟩ := meets_cons.mp h
    exact meets_cons.mpr ⟨hCD s a hs hC, fun s' hs' => ih (hstep s a s' hs hs') (hrest s' hs')⟩

/-- A condition that an invariant gives is met by every run. -/
theorem meets_of_invariant (hstep : ∀ s a s', I s → step s a = some s' → I s')
    (hC : ∀ s a, I s → C s a) (hs : I s) (as : List α) : Meets step C s as :=
  Meets.imp_of_invariant hstep (fun s a hI _ => hC s a hI) hs (meets_of_forall_mem (C := fun _ => True) fun _ _ => trivial)

/-- A condition that only a lasting fault can break is met by every run that ends without the fault. -/
theorem meets_of_not_fault {B : σ → Prop} (hkeep : ∀ s a s', B s → step s a = some s' → B s')
    (hbreak : ∀ s a s', ¬ C s a → step s a = some s' → B s')
    (h : run step s as = some s') (hend : ¬ B s') : Meets step C s as := by
  induction as generalizing s with
  | nil => trivial
  | cons a as ih =>
    obtain ⟨s₁, h₁, h₂⟩ := run_cons_eq_some.mp h
    refine ⟨by_contra fun hC => hend ?_, ?_⟩
    · exact run_invariant hkeep (hbreak s a s₁ hC h₁) h₂
    · rw [h₁]
      exact ih h₂

/-- Some step of the run meets `P` in the state before it. -/
def Occurs (step : σ → α → Option σ) (P : σ → α → Prop) (s : σ) (as : List α) : Prop :=
  ∃ as₁ a as₂ s₁, as = as₁ ++ a :: as₂ ∧ run step s as₁ = some s₁ ∧ P s₁ a

lemma meets_of_not_occurs {P : σ → α → Prop} (h : ¬Occurs step P s as) : Meets step (fun s a => ¬P s a) s as := by
  induction as generalizing s with
  | nil => trivial
  | cons a as ih =>
    refine meets_cons.mpr ⟨fun hP => h ⟨[], a, as, s, rfl, rfl, hP⟩, fun s' hs => ih ?_⟩
    rintro ⟨as₁, b, as₂, s₁, rfl, hrun, hP⟩
    exact h ⟨a :: as₁, b, as₂, s₁, rfl, run_cons_eq_some.mpr ⟨s', hs, hrun⟩, hP⟩

lemma meets_append : Meets step C s (as ++ bs) ↔
    Meets step C s as ∧ ∀ s', run step s as = some s' → Meets step C s' bs := by
  induction as generalizing s with
  | nil => simp
  | cons a as ih =>
    simp only [cons_append, meets_cons, run_cons_eq_some, ih]
    constructor
    · exact fun ⟨hC, h⟩ => ⟨⟨hC, fun s' hs' => (h s' hs').1⟩, fun t ⟨s', hs', hrun⟩ => (h s' hs').2 t hrun⟩
    · exact fun ⟨⟨hC, h⟩, hrest⟩ => ⟨hC, fun s' hs' => ⟨h s' hs', fun t hrun => hrest t ⟨s', hs', hrun⟩⟩⟩

lemma Meets.of_append (h : Meets step C s (as ++ bs)) : Meets step C s as :=
  (meets_append.mp h).1

/-- What a run meets, its end does. -/
lemma Meets.of_run (h : Meets step C s (as ++ bs)) (hrun : run step s as = some s') : Meets step C s' bs :=
  (meets_append.mp h).2 s' hrun

lemma forall_meets {ι : Sort*} {C : ι → σ → α → Prop} :
    (∀ i, Meets step (C i) s as) ↔ Meets step (fun s a => ∀ i, C i s a) s as := by
  induction as generalizing s with
  | nil => simp
  | cons a as ih =>
    simp only [meets_cons, forall_and, ← ih]
    exact and_congr_right fun _ => ⟨fun h s' hs' i => h i s' hs', fun h i s' hs' => h s' hs' i⟩

/-- Once `P` holds, it holds to the end of the run. -/
def Stable (step : σ → α → Option σ) (P : σ → Prop) (s : σ) (as : List α) : Prop :=
  ∀ as₁ as₂ as₃ s₁ s₂, as = as₁ ++ (as₂ ++ as₃) → run step s as₁ = some s₁ →
    run step s₁ as₂ = some s₂ → P s₁ → P s₂

/-- What holds for good is what no single step ends. -/
theorem stable_iff_meets : Stable step P s as ↔ Meets step (fun s a => ∀ s', step s a = some s' → P s → P s') s as := by
  constructor
  · intro h
    induction as generalizing s with
    | nil => trivial
    | cons a as ih =>
      refine meets_cons.mpr ⟨fun s' hs' => h [] [a] as s s' rfl rfl (run_cons_eq_some.mpr ⟨s', hs', rfl⟩),
        fun s' hs' => ih fun as₁ as₂ as₃ s₁ s₂ has h₁ h₂ => ?_⟩
      exact h (a :: as₁) as₂ as₃ s₁ s₂ (by rw [has, cons_append]) (run_cons_eq_some.mpr ⟨s', hs', h₁⟩) h₂
  · intro h as₁ as₂ as₃ s₁ s₂ has h₁ h₂ hP
    subst has
    exact run_invariant_of_meets (fun s a s' hs hC hstep => hC s' hstep hs) hP (h.of_run h₁).of_append h₂

lemma run_append (s : σ) (as bs : List α) : run step s (as ++ bs) = (run step s as).bind fun s' => run step s' bs := by
  induction as generalizing s with
  | nil => rfl
  | cons a as ih =>
    simp only [cons_append, run]
    cases step s a with
    | none => rfl
    | some s' => exact ih s'

lemma Meets.append (h : Meets step C s as)
    (hrun : run step s as = some s') (hbs : Meets step C s' bs) : Meets step C s (as ++ bs) :=
  meets_append.mpr ⟨h, fun _ ht => Option.some.inj (hrun.symm.trans ht) ▸ hbs⟩

/-- A step of the run at which `P` begins to hold, to hold from then on up to its end. -/
structure Rise (step : σ → α → Option σ) (P : σ → Prop) (s : σ) (as : List α) (s' : σ) where
  before : List α
  label : α
  after : List α
  start : σ
  next : σ
  split : as = before ++ label :: after
  reached : run step s before = some start
  taken : step start label = some next
  absent : ¬ P start
  begun : P next
  held : Meets step (fun s _ => P s) next after
  ended : run step next after = some s'

/-- What holds at the end of a run and did not at its start began to hold at one of its steps. -/
theorem exists_rise (hs : ¬ P s) (h : run step s as = some s') (hP : P s') : Nonempty (Rise step P s as s') := by
  -- the induction is from the end of the run, since the last rise is wanted
  induction as using List.reverseRecOn generalizing s' with
  | nil =>
    cases h
    exact absurd hP hs
  | append_singleton as a ih =>
    rw [run_append] at h
    obtain ⟨s₁, h₁, h⟩ := Option.bind_eq_some_iff.mp h
    obtain ⟨s₂, h₂, h⟩ := run_cons_eq_some.mp h
    cases h
    by_cases hP₁ : P s₁
    · obtain ⟨⟨before, label, after, start, next, rfl, reached, taken, absent, begun, held, ended⟩⟩ := ih h₁ hP₁
      refine ⟨⟨before, label, after ++ [a], start, next, by simp, reached, taken, absent, begun, ?_, ?_⟩⟩
      · exact held.append ended ⟨hP₁, by rw [h₂]; trivial⟩
      · rw [run_append, ended]
        exact run_cons_eq_some.mpr ⟨s', h₂, rfl⟩
    · exact ⟨⟨as, a, [], s₁, s', rfl, h₁, h₂, hP₁, hP, trivial, rfl⟩⟩

/-- A sequence of two computations ends well where both do. -/
lemma bind_eq_ok {ε α β : Type} {x : Except ε α} {f : α → Except ε β} {b : β} :
    x >>= f = .ok b ↔ ∃ a, x = .ok a ∧ f a = .ok b := by
  cases x with
  | error e =>
    refine ⟨fun h => ?_, fun ⟨a, ha, _⟩ => ?_⟩
    · cases h
    · cases ha
  | ok a =>
    refine ⟨fun h => ⟨a, rfl, h⟩, fun ⟨a', ha, h⟩ => ?_⟩
    cases ha
    exact h

lemma map_eq_ok {ε α β : Type} {x : Except ε α} {f : α → β} {b : β} : x.map f = .ok b ↔ ∃ a, x = .ok a ∧ f a = b := by
  cases x <;> simp [Except.map]

@[simp] lemma ok_bind {ε α β : Type} (a : α) (f : α → Except ε β) : (Except.ok a >>= f) = f a := rfl

/-- A loop that stops at the first error has none where it ends well. -/
lemma forM_eq_ok {ε α : Type} {f : α → Except ε PUnit} {l : List α} (h : l.forM f = .ok ()) :
    ∀ a ∈ l, f a = .ok () := by
  induction l with
  | nil => exact fun a ha => nomatch ha
  | cons b l ih =>
    obtain ⟨_, hb, h⟩ := bind_eq_ok.mp h
    intro a ha
    rcases mem_cons.mp ha with rfl | ha
    · exact hb
    · exact ih h a ha

/-- Each result of a fallible map is that of one of the elements. -/
lemma exists_of_mapM {ε α β : Type} {f : α → Except ε β} {l : List α} {out : List β} (h : l.mapM f = .ok out) :
    ∀ b ∈ out, ∃ a ∈ l, f a = .ok b := by
  induction l generalizing out with
  | nil =>
    cases h
    exact nofun
  | cons a l ih =>
    rw [mapM_cons] at h
    obtain ⟨b, hb, h⟩ := bind_eq_ok.mp h
    obtain ⟨out, hout, h⟩ := bind_eq_ok.mp h
    cases h
    intro b' hb'
    rcases mem_cons.mp hb' with rfl | hb'
    · exact ⟨a, mem_cons_self, hb⟩
    · obtain ⟨a', ha', hok⟩ := ih hout b' hb'
      exact ⟨a', mem_cons_of_mem _ ha', hok⟩

/-- What every turn of a fallible loop preserves holds where it ends well. -/
lemma foldlM_invariant {ε α β : Type} {I : β → Prop} {f : β → α → Except ε β}
    (hstep : ∀ b a b', I b → f b a = .ok b' → I b') {l : List α} {b b' : β} (hb : I b)
    (h : l.foldlM f b = .ok b') : I b' := by
  induction l generalizing b with
  | nil =>
    cases h
    exact hb
  | cons a l ih =>
    obtain ⟨b₁, h₁, h⟩ := bind_eq_ok.mp h
    exact ih (hstep b a b₁ hb h₁) h

/-- What no turn of a loop that can stop early changes is the same where it ends. -/
lemma foldlM_keeps {α β γ : Type*} {f : β → α → Option β} {g : β → γ}
    (hstep : ∀ b a b', f b a = some b' → g b' = g b) {l : List α} {b b' : β}
    (h : l.foldlM f b = some b') : g b' = g b := by
  induction l generalizing b with
  | nil =>
    cases h
    rfl
  | cons a l ih =>
    obtain ⟨b₁, h₁, h⟩ := Option.bind_eq_some_iff.mp h
    exact (ih h).trans (hstep b a b₁ h₁)

/-- A loop over all elements stops where one of them does. -/
lemma mapM_eq_none_iff {α β : Type} {f : α → Option β} {l : List α} : l.mapM f = none ↔ ∃ a ∈ l, f a = none := by
  induction l with
  | nil => simp
  | cons a l ih =>
    simp only [mapM_cons, mem_cons, exists_eq_or_imp, ← ih]
    cases f a with
    | none => simp
    | some b => cases l.mapM f <;> simp

/-- What a loop over all elements has made of them. -/
lemma filterMap_eq_of_mapM {α β : Type} {f : α → Option β} {l : List α} {out : List β}
    (h : l.mapM f = some out) : l.filterMap f = out := by
  induction l generalizing out with
  | nil =>
    cases h
    rfl
  | cons a l ih =>
    rw [mapM_cons] at h
    obtain ⟨b, hb, h⟩ := Option.bind_eq_some_iff.mp h
    obtain ⟨rest, hrest, h⟩ := Option.bind_eq_some_iff.mp h
    cases h
    rw [filterMap_cons_some hb, ih hrest]

/-- An invariant of a loop that speaks about what is left to do. -/
lemma foldl_invariant {α β : Type*} {I : List α → β → Prop} {f : β → α → β}
    (hstep : ∀ a rest b, I (a :: rest) b → I rest (f b a)) {l : List α} {b : β} (h : I l b) : I [] (l.foldl f b) := by
  induction l generalizing b with
  | nil => exact h
  | cons a l ih => exact ih (hstep a l b h)

/-- What no turn of a loop changes is the same where it ends. -/
lemma foldl_keeps {α β γ : Type*} {f : β → α → β} {g : β → γ} (hstep : ∀ b a, g (f b a) = g b)
    (l : List α) (b : β) : g (l.foldl f b) = g b := by
  induction l generalizing b with
  | nil => rfl
  | cons a l ih => exact (ih (f b a)).trans (hstep b a)

/-- What the turn of one element brings about, and no turn ends, holds where the loop ends. -/
lemma foldl_of_mem {α β : Type*} {P : β → Prop} {f : β → α → β} {a : α} {l : List α} (ha : a ∈ l)
    (hbegin : ∀ b, P (f b a)) (hkeep : ∀ b, P b → ∀ a ∈ l, P (f b a)) (b : β) : P (l.foldl f b) := by
  obtain ⟨l₁, l₂, rfl⟩ := append_of_mem ha
  rw [foldl_append]
  exact List.foldlRecOn l₂ f (hbegin _) fun b hb a ha => hkeep b hb a (by simp [ha])

/-- What a loop that adds to a list has added, one of its turns has added. -/
lemma mem_foldl {α β : Type*} {P : β → α → Prop} {f : List α → β → List α}
    (hf : ∀ l b x, x ∈ f l b → x ∈ l ∨ P b x) {bs : List β} {l : List α} {x : α}
    (hx : x ∈ bs.foldl f l) : x ∈ l ∨ ∃ b ∈ bs, P b x := by
  induction bs generalizing l with
  | nil => exact .inl hx
  | cons b bs ih =>
    rcases ih hx with hx | ⟨b', hb', hP⟩
    · rcases hf l b x hx with hx | hP
      · exact .inl hx
      · exact .inr ⟨b, mem_cons_self, hP⟩
    · exact .inr ⟨b', mem_cons_of_mem b hb', hP⟩

end Runs
