import CaddyPanel.Lib.Text

/-!
# Caddy's replacer

The keys the replacer looks up in a string. A key runs from an unescaped opening brace to the first
unescaped closing brace after it, inner opening braces included; a brace is escaped by a backslash
right before it. Behind an unknown key the scan goes on just after its opening brace, behind a known
one after its closing brace. Which keys are known is up to the node.
-/

namespace Replacer

open List Text

/-- The text up to the first unescaped closing brace; `esc` says that a backslash stands before. -/
def keyFrom (esc : Bool) : Str → Option Str
  | [] => none
  | c :: s => if c = '}' ∧ esc = false then some [] else (keyFrom (c = '\\') s).map (c :: ·)

/-- The keys looked up from here on; `skip` characters belong to a key that was expanded. -/
def lookupsFrom (known : Str → Bool) (esc : Bool) (skip : Nat) : Str → List Str
  | [] => []
  | c :: s =>
    match skip with
    | n + 1 => lookupsFrom known (c = '\\') n s
    | 0 =>
      if c = '{' ∧ esc = false then
        match keyFrom false s with
        | none => lookupsFrom known false 0 s
        | some k => k :: lookupsFrom known false (if known k then k.length + 1 else 0) s
      else lookupsFrom known (c = '\\') 0 s

def lookups (known : Str → Bool) (s : Str) : List Str :=
  lookupsFrom known false 0 s

/-- `P` holds of the text after each unescaped opening brace. -/
def EachOpen (P : Str → Prop) (esc : Bool) : Str → Prop
  | [] => True
  | c :: s => (c = '{' ∧ esc = false → P s) ∧ EachOpen P (c = '\\') s

instance EachOpen.decidable (P : Str → Prop) [DecidablePred P] :
    ∀ (esc : Bool) (s : Str), Decidable (EachOpen P esc s)
  | _, [] => .isTrue trivial
  | esc, c :: s =>
    have := EachOpen.decidable P (c = '\\') s
    inferInstanceAs (Decidable ((c = '{' ∧ esc = false → P s) ∧ _))

variable {P Q : Str → Prop} {s p : Str} {esc : Bool}

lemma EachOpen.imp (h : ∀ s, P s → Q s) (hs : EachOpen P esc s) : EachOpen Q esc s := by
  induction s generalizing esc with
  | nil => trivial
  | cons c s ih => exact ⟨fun hc => h s (hs.1 hc), ih hs.2⟩

/-! ### The keys of a string, whatever the node knows -/

private lemma forall_mem_lookupsFrom (known : Str → Bool) {skip : Nat}
    (h : EachOpen (fun t => ∀ k, keyFrom false t = some k → P k) esc s) : ∀ k ∈ lookupsFrom known esc skip s, P k := by
  induction s generalizing esc skip with
  | nil => simp [lookupsFrom]
  | cons c s ih =>
    cases skip with
    | succ n => exact ih h.2
    | zero =>
      simp only [lookupsFrom]
      split_ifs with hc
      · have hc' : decide (c = '\\') = false := by simp [hc.1]
        have hrest := h.2
        rw [hc'] at hrest
        split
        · exact ih hrest
        rename_i k hk
        rw [forall_mem_cons]
        exact ⟨h.1 hc k hk, ih hrest⟩
      · exact ih h.2

private lemma eachOpen_of_lookupsFrom (h : ∀ k ∈ lookupsFrom (fun _ => false) esc 0 s, P k) :
    EachOpen (fun t => ∀ k, keyFrom false t = some k → P k) esc s := by
  induction s generalizing esc with
  | nil => trivial
  | cons c s ih =>
    simp only [lookupsFrom] at h
    by_cases hc : c = '{' ∧ esc = false
    · have hc' : decide (c = '\\') = false := by simp [hc.1]
      rw [EachOpen, hc']
      rw [if_pos hc] at h
      cases hk : keyFrom false s with
      | none =>
        rw [hk] at h
        exact ⟨by simp, ih h⟩
      | some k =>
        simp only [hk, Bool.false_eq_true, if_false, forall_mem_cons] at h
        refine ⟨fun _ k' hk' => ?_, ih h.2⟩
        rw [← Option.some.inj hk']
        exact h.1
    · rw [if_neg hc] at h
      exact ⟨fun h' => absurd h' hc, ih h⟩

/-- Every key a node may look up satisfies `P` exactly when the key behind each unescaped opening
brace does: a node that knows no key looks up all of them. -/
theorem forall_lookups_iff :
    (∀ known, ∀ k ∈ lookups known s, P k) ↔ EachOpen (fun t => ∀ k, keyFrom false t = some k → P k) false s := by
  constructor
  · intro h
    exact eachOpen_of_lookupsFrom (h fun _ => false)
  · intro h known
    exact forall_mem_lookupsFrom known h

/-- A key starts with a text without braces and backslashes when the string after the opening brace
does. -/
lemma isPrefix_key_iff (hp : ∀ c ∈ p, c ≠ '}') {esc : Bool} {s k : Str}
    (h : keyFrom esc s = some k) : p <+: k ↔ p <+: s := by
  induction p generalizing esc s k with
  | nil => simp
  | cons a p ih =>
    obtain ⟨ha, hp⟩ := forall_mem_cons.mp hp
    match s with
    | [] => simp [keyFrom] at h
    | c :: s =>
      simp only [keyFrom] at h
      split_ifs at h with hc
      · cases h
        simp [hc.1, ha]
      · obtain ⟨k', hk', rfl⟩ := Option.map_eq_some_iff.mp h
        simp only [cons_prefix_cons, ih hp hk']

end Replacer
