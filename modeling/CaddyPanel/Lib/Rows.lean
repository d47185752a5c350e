import Mathlib.Data.List.Nodup

/-!
# Tables with a primary key

The rows of a table with a key that is different for each of them. `update p f` is
`UPDATE … SET f WHERE p` for an `f` that keeps the key, `delete p` is `DELETE … WHERE p`, and `insert r`
fails where the key is taken. Each of them is described by what `lookup` finds afterwards. `insertNext` gives the
row a new number for its key.
-/

structure Rows {α κ : Type*} (key : α → κ) where
  rows : List α
  nodup : (rows.map key).Nodup

namespace Rows

open List

variable {α κ : Type*} [DecidableEq κ] {key : α → κ}

instance : Membership α (Rows key) where
  mem t r := r ∈ t.rows

instance [DecidableEq α] (r : α) (t : Rows key) : Decidable (r ∈ t) :=
  inferInstanceAs (Decidable (r ∈ t.rows))

def lookup (t : Rows key) (k : κ) : Option α :=
  t.rows.find? fun r => key r = k

variable {t t' : Rows key} {r r' : α} {k : κ} {p q : α → Bool}

lemma lookup_eq_some : t.lookup k = some r ↔ r ∈ t ∧ key r = k := by
  constructor
  · intro h
    exact ⟨mem_of_find?_eq_some h, by simpa using find?_some h⟩
  rintro ⟨hr, rfl⟩
  cases h : t.lookup (key r) with
  | none =>
    have hnone := find?_eq_none.mp h r hr
    simp at hnone
  | some r' =>
    have hkey : key r' = key r := by simpa using find?_some h
    rw [inj_on_of_nodup_map t.nodup (mem_of_find?_eq_some h) hr hkey]

lemma lookup_key (hr : r ∈ t) : t.lookup (key r) = some r :=
  lookup_eq_some.mpr ⟨hr, rfl⟩

lemma lookup_eq_none : t.lookup k = none ↔ ∀ r ∈ t, key r ≠ k := by
  unfold lookup
  rw [find?_eq_none]
  simp only [decide_eq_true_eq]
  exact Iff.rfl

/-! ### Update -/

def update (t : Rows key) (p : α → Bool) (f : α → α) (hf : ∀ r, key (f r) = key r := by intro; rfl) :
    Rows key where
  rows := t.rows.map fun r => if p r then f r else r
  nodup := by
    have hkeys : (t.rows.map fun r => if p r then f r else r).map key = t.rows.map key := by
      rw [map_map]
      refine map_congr_left fun r _ => ?_
      simp only [Function.comp_apply]
      split
      · exact hf r
      · rfl
    rw [hkeys]
    exact t.nodup

omit [DecidableEq κ] in
lemma mem_update {f : α → α} {hf : ∀ r, key (f r) = key r} :
    r ∈ t.update p f hf ↔ ∃ r₀ ∈ t, (if p r₀ then f r₀ else r₀) = r :=
  mem_map

lemma lookup_update {f : α → α} {hf : ∀ r, key (f r) = key r} :
    (t.update p f hf).lookup k = (t.lookup k).map fun r => if p r then f r else r := by
  have hkey : ∀ r, key (if p r then f r else r) = key r := by
    intro r
    split
    · exact hf r
    · rfl
  cases h : t.lookup k with
  | none =>
    rw [lookup_eq_none] at h
    rw [Option.map_none, lookup_eq_none]
    intro r hr
    obtain ⟨r₀, hr₀, rfl⟩ := mem_update.mp hr
    rw [hkey]
    exact h r₀ hr₀
  | some r =>
    obtain ⟨hr, rfl⟩ := lookup_eq_some.mp h
    exact lookup_eq_some.mpr ⟨mem_update.mpr ⟨r, hr, rfl⟩, hkey r⟩

/-! ### Delete -/

def delete (t : Rows key) (p : α → Bool) : Rows key where
  rows := t.rows.filter fun r => !p r
  nodup := t.nodup.sublist (filter_sublist.map key)

omit [DecidableEq κ] in
lemma mem_delete : r ∈ t.delete p ↔ r ∈ t ∧ p r = false := by
  have h : r ∈ t.delete p ↔ r ∈ t.rows.filter fun r => !p r := Iff.rfl
  rw [h, mem_filter, Bool.not_eq_true']
  exact Iff.rfl

lemma lookup_delete : (t.delete p).lookup k = (t.lookup k).filter fun r => !p r := by
  cases h : t.lookup k with
  | none =>
    rw [lookup_eq_none] at h
    rw [Option.filter_none, lookup_eq_none]
    exact fun r hr => h r (mem_delete.mp hr).1
  | some r =>
    obtain ⟨hr, rfl⟩ := lookup_eq_some.mp h
    cases hp : p r with
    | false =>
      rw [Option.filter_some_pos (by simp [hp])]
      exact lookup_key (mem_delete.mpr ⟨hr, hp⟩)
    | true =>
      rw [Option.filter_some_neg (by simp [hp]), lookup_eq_none]
      intro r' hr' hkey
      obtain ⟨hmem, hp'⟩ := mem_delete.mp hr'
      have heq : r' = r := Option.some.inj ((lookup_eq_some.mpr ⟨hmem, hkey⟩).symm.trans h)
      rw [heq, hp] at hp'
      cases hp'

/-- How many rows with `q` there are, before a deletion that takes one key away. -/
lemma countP_delete (hp : ∀ r, p r → key r = k) (t : Rows key) : t.rows.countP q ≤ (t.delete p).rows.countP q + 1 := by
  have hone : t.rows.countP p ≤ 1 := by
    calc t.rows.countP p
        ≤ t.rows.countP (fun r => key r == k) := countP_mono_left fun r _ hr => by simp [hp r hr]
      _ = (t.rows.map key).count k := by rw [List.count, countP_map]; rfl
      _ ≤ 1 := nodup_iff_count_le_one.mp t.nodup k
  have hsplit : t.rows.countP q = (t.rows.filter p).countP q + (t.delete p).rows.countP q :=
    countP_eq_countP_filter_add t.rows q p
  have hle : (t.rows.filter p).countP q ≤ t.rows.countP p := by
    rw [countP_eq_length_filter (p := p)]
    exact countP_le_length
  omega

omit [DecidableEq κ] in
lemma countP_delete_lt (hr : r ∈ t) (hp : p r) (hq : q r) : (t.delete p).rows.countP q < t.rows.countP q := by
  have hsplit : t.rows.countP q = (t.rows.filter p).countP q + (t.delete p).rows.countP q :=
    countP_eq_countP_filter_add t.rows q p
  have hpos : 0 < (t.rows.filter p).countP q :=
    countP_pos_iff.mpr ⟨r, mem_filter.mpr ⟨hr, hp⟩, hq⟩
  omega

/-! ### Insert -/

def insert (t : Rows key) (r : α) : Option (Rows key) :=
  if h : key r ∈ t.rows.map key then none
  else some
    { rows := t.rows ++ [r]
      nodup := by
        rw [map_append, nodup_append]
        exact ⟨t.nodup, nodup_singleton _, fun a ha b hb hab => h (by simp_all)⟩ }

lemma rows_insert (h : t.insert r = some t') : t'.rows = t.rows ++ [r] ∧ t.lookup (key r) = none := by
  unfold insert at h
  split at h
  · cases h
  rename_i hnew
  cases h
  refine ⟨rfl, lookup_eq_none.mpr fun r' hr' hkey => hnew ?_⟩
  exact hkey ▸ mem_map_of_mem hr'

lemma mem_insert (h : t.insert r = some t') : r' ∈ t' ↔ r' ∈ t ∨ r' = r := by
  unfold insert at h
  split at h
  · cases h
  cases h
  have h : r' ∈ t.rows ++ [r] ↔ r' ∈ t.rows ∨ r' = r := by simp
  exact h

lemma exists_insert (h : t.lookup (key r) = none) : ∃ t', t.insert r = some t' := by
  unfold insert
  split
  · next hmem =>
    obtain ⟨r', hr', hkey⟩ := mem_map.mp hmem
    exact absurd hkey (lookup_eq_none.mp h r' hr')
  · exact ⟨_, rfl⟩

lemma lookup_insert (h : t.insert r = some t') (k : κ) : t'.lookup k = if k = key r then some r else t.lookup k := by
  split
  · next hk => exact lookup_eq_some.mpr ⟨(mem_insert h).mpr (.inr rfl), hk.symm⟩
  rename_i hk
  cases hold : t.lookup k with
  | none =>
    refine lookup_eq_none.mpr fun r' hr' => ?_
    obtain hr' | rfl := (mem_insert h).mp hr'
    · exact lookup_eq_none.mp hold r' hr'
    · exact fun hkey => hk hkey.symm
  | some r' =>
    obtain ⟨hr', hkey⟩ := lookup_eq_some.mp hold
    exact lookup_eq_some.mpr ⟨(mem_insert h).mpr (.inl hr'), hkey⟩

/-! ### Numbered rows -/

section Numbered

variable {β : Type*} {number : β → ℕ}

/-- A number that no row has. -/
def next (t : Rows number) : ℕ :=
  (t.rows.map number).foldr max 0 + 1

lemma le_foldr_max {l : List ℕ} {n : ℕ} (h : n ∈ l) : n ≤ l.foldr max 0 := by
  induction l with
  | nil => cases h
  | cons m l ih =>
    obtain rfl | h := mem_cons.mp h
    · exact Nat.le_max_left _ _
    · exact Nat.le_trans (ih h) (Nat.le_max_right _ _)

lemma lt_next {t : Rows number} {r : β} (hr : r ∈ t) : number r < t.next :=
  Nat.lt_succ_of_le (le_foldr_max (mem_map_of_mem hr))

def insertNext (t : Rows number) (f : ℕ → β) (hf : ∀ n, number (f n) = n := by intro; rfl) : Rows number where
  rows := t.rows ++ [f t.next]
  nodup := by
    rw [map_append, nodup_append]
    refine ⟨t.nodup, nodup_singleton _, fun a ha b hb hab => ?_⟩
    obtain ⟨r, hr, rfl⟩ := mem_map.mp ha
    have hb : b = t.next := by simpa [hf] using hb
    exact absurd (hab.trans hb) (Nat.ne_of_lt (lt_next hr))

lemma mem_insertNext {t : Rows number} {f : ℕ → β} {hf : ∀ n, number (f n) = n} {r : β} :
    r ∈ t.insertNext f hf ↔ r ∈ t ∨ r = f t.next := by
  have h : r ∈ t.insertNext f hf ↔ r ∈ t.rows ++ [f t.next] := Iff.rfl
  rw [h, mem_append, mem_singleton]
  exact Iff.rfl

lemma lookup_next (t : Rows number) (f : ℕ → β) (hf : ∀ n, number (f n) = n) :
    (t.insertNext f hf).lookup t.next = some (f t.next) :=
  lookup_eq_some.mpr ⟨mem_insertNext.mpr (.inr rfl), hf _⟩

end Numbered

end Rows
