import Mathlib.Data.List.GetD
import Mathlib.Data.List.Sort

/-!
# Sorting inside groups

Elements are joined into groups by a union-find, and a list is sorted group by group: each group is
sorted among the places its own elements have, so that groups do not move each other. Seen through a
predicate that only elements of one group satisfy, the result is the plainly sorted list
(`filter_sortGroups`).
-/

namespace Groups

open List

/-! ### Joining -/

/-- What `find` answers once the root of `b` hangs below the root of `a`. -/
def join (find : Nat → Nat) (a b : Nat) : Nat → Nat :=
  fun i => if find i = find b then find a else find i

def joinAll (find : Nat → Nat) (pairs : List (Nat × Nat)) : Nat → Nat :=
  pairs.foldl (fun find p => join find p.1 p.2) find

lemma join_joins (find : Nat → Nat) (a b : Nat) : join find a b a = join find a b b := by
  unfold join
  rw [if_pos rfl, ite_self]

variable {find : Nat → Nat} {i j a b : Nat} {pairs : List (Nat × Nat)}

lemma joinAll_congr (h : find i = find j) (pairs : List (Nat × Nat)) : joinAll find pairs i = joinAll find pairs j := by
  induction pairs generalizing find with
  | nil => exact h
  | cons p pairs ih => exact ih (by simp only [join, h])

/-- Joined elements stay joined. -/
lemma joinAll_of_mem (h : (a, b) ∈ pairs) : joinAll find pairs a = joinAll find pairs b := by
  induction pairs generalizing find with
  | nil => cases h
  | cons p pairs ih =>
    rcases mem_cons.mp h with rfl | h
    · exact joinAll_congr (join_joins find a b) pairs
    · exact ih h

/-- Only a chain of pairs joins two elements. -/
lemma joinAll_sound {R : Nat → Nat → Prop} (hpairs : ∀ p ∈ pairs, R p.1 p.2)
    (hfind : ∀ i j, find i = find j → Relation.EqvGen R i j)
    (h : joinAll find pairs i = joinAll find pairs j) : Relation.EqvGen R i j := by
  induction pairs generalizing find with
  | nil => exact hfind i j h
  | cons p pairs ih =>
    refine ih (fun q hq => hpairs q (mem_cons_of_mem p hq)) ?_ h
    have hp : Relation.EqvGen R p.1 p.2 := .rel _ _ (hpairs p mem_cons_self)
    intro k l (hkl : join find p.1 p.2 k = join find p.1 p.2 l)
    unfold join at hkl
    split_ifs at hkl with hk hl hl
    · exact hfind k l (hk.trans hl.symm)
    · exact .trans _ _ _ (hfind k p.2 hk) (.trans _ _ _ (.symm _ _ hp) (hfind p.1 l hkl))
    · exact .trans _ _ _ (hfind k p.1 hkl) (.trans _ _ _ hp (hfind p.2 l hl.symm))
    · exact hfind k l hkl

lemma joinAll_complete {R : Nat → Nat → Prop} (hpairs : ∀ a b, R a b → joinAll find pairs a = joinAll find pairs b)
    (h : Relation.EqvGen R i j) : joinAll find pairs i = joinAll find pairs j := by
  induction h with
  | rel a b hab => exact hpairs a b hab
  | refl a => rfl
  | symm a b _ ih => exact ih.symm
  | trans a b c _ _ ihab ihbc => exact ihab.trans ihbc

/-! ### Stable sorting and filters -/

section

variable {α : Type*} (le : α → α → Prop) [DecidableRel le]

variable {p : α → Bool} {l : List α}

lemma filter_orderedInsert_of_neg {a : α} (ha : p a = false) (l : List α) :
    (l.orderedInsert le a).filter p = l.filter p := by
  induction l with
  | nil => simp [ha]
  | cons b l ih =>
    rw [orderedInsert_cons]
    split
    · simp [ha]
    · rw [filter_cons, filter_cons, ih]

lemma filter_orderedInsert_of_pos [IsTrans α le] {a : α} (ha : p a) (hl : l.Pairwise le) :
    (l.orderedInsert le a).filter p = (l.filter p).orderedInsert le a := by
  induction l with
  | nil => simp [ha]
  | cons b l ih =>
    obtain ⟨hb, hl⟩ := pairwise_cons.mp hl
    rw [orderedInsert_cons]
    by_cases hab : le a b
    · -- whatever the filter leaves of the rest is not smaller either
      have hall : ∀ c ∈ (b :: l).filter p, le a c := by
        intro c hc
        rcases mem_cons.mp (mem_filter.mp hc).1 with rfl | hc
        · exact hab
        · exact trans_of le hab (hb c hc)
      rw [if_pos hab, filter_cons_of_pos ha]
      cases hrest : (b :: l).filter p with
      | nil => rfl
      | cons c rest =>
        rw [hrest] at hall
        exact (orderedInsert_cons_of_le le rest (hall c mem_cons_self)).symm
    · rw [if_neg hab]
      by_cases hpb : p b
      · rw [filter_cons_of_pos hpb, filter_cons_of_pos hpb, ih hl, orderedInsert_of_not_le le _ hab]
      · rw [filter_cons_of_neg hpb, filter_cons_of_neg hpb, ih hl]

/-- A stable sort does not see what a filter drops. -/
lemma filter_insertionSort [Std.Total le] [IsTrans α le] (p : α → Bool) (l : List α) :
    (l.insertionSort le).filter p = (l.filter p).insertionSort le := by
  induction l with
  | nil => rfl
  | cons a l ih =>
    rw [insertionSort_cons]
    by_cases ha : p a
    · rw [filter_orderedInsert_of_pos le ha (pairwise_insertionSort le l), ih,
        filter_cons_of_pos ha, insertionSort_cons]
    · rw [filter_orderedInsert_of_neg le (Bool.not_eq_true _ ▸ ha), ih, filter_cons_of_neg ha]

/-- Neither comes before the other. -/
def tied (a b : α) : Bool :=
  decide (le a b) && decide (le b a)

lemma tied_iff {a b : α} : tied le a b ↔ le a b ∧ le b a := by
  unfold tied
  rw [Bool.and_eq_true, decide_eq_true_eq, decide_eq_true_eq]

lemma tied_of_tied [IsTrans α le] {x a b : α} (ha : tied le x a) (hb : tied le x b) : tied le a b := by
  rw [tied_iff] at ha hb ⊢
  exact ⟨trans_of le ha.2 hb.1, trans_of le hb.2 ha.1⟩

/-- A sorted list is known by its ties. -/
lemma eq_of_filter_tied [Std.Total le] {l' : List α} (hl : l.Pairwise le) (hl' : l'.Pairwise le)
    (h : ∀ x, l.filter (tied le x) = l'.filter (tied le x)) : l = l' := by
  have hself : ∀ a : α, tied le a a := fun a => (tied_iff le).mpr ⟨refl_of le a, refl_of le a⟩
  induction l generalizing l' with
  | nil =>
    refine (eq_nil_iff_forall_not_mem.mpr fun a ha => ?_).symm
    have hmem : a ∈ l'.filter (tied le a) := mem_filter.mpr ⟨ha, hself a⟩
    rw [← h a] at hmem
    cases hmem
  | cons a l ih =>
    have ha : a ∈ l' := (mem_filter.mp (h a ▸ mem_filter.mpr ⟨mem_cons_self, hself a⟩)).1
    cases l' with
    | nil => cases ha
    | cons b l' =>
      have hb : b ∈ a :: l := (mem_filter.mp ((h b).symm ▸ mem_filter.mpr ⟨mem_cons_self, hself b⟩)).1
      have htied : tied le a b := by
        rw [tied_iff]
        constructor
        · rcases mem_cons.mp hb with rfl | hb
          · exact refl_of le b
          · exact (pairwise_cons.mp hl).1 b hb
        · rcases mem_cons.mp ha with rfl | ha
          · exact refl_of le a
          · exact (pairwise_cons.mp hl').1 a ha
      have hheads := h a
      rw [filter_cons_of_pos (hself a), filter_cons_of_pos htied] at hheads
      obtain rfl := (List.cons.injEq .. ▸ hheads).1
      congr 1
      refine ih (pairwise_cons.mp hl).2 (pairwise_cons.mp hl').2 fun x => ?_
      have hx := h x
      rw [filter_cons, filter_cons] at hx
      split_ifs at hx
      · exact (List.cons.inj hx).2
      · exact hx

/-- Two lists whose ties stand in the same order are sorted to one list. -/
lemma insertionSort_eq_of_tied [Std.Total le] [IsTrans α le] {l' : List α}
    (h : ∀ x, l.filter (tied le x) = l'.filter (tied le x)) : l.insertionSort le = l'.insertionSort le := by
  refine eq_of_filter_tied le (pairwise_insertionSort le l) (pairwise_insertionSort le l') fun x => ?_
  rw [filter_insertionSort, filter_insertionSort, h]

/-- Nothing in front of `a` is as small, and nothing behind it is smaller. -/
def IsFirst (l : List α) (a : α) : Prop :=
  ∃ before after, l = before ++ a :: after ∧ (∀ b ∈ before, ¬ le b a) ∧ ∀ c ∈ after, le a c

omit [DecidableRel le] in
lemma isFirst_cons {x a : α} : IsFirst le (x :: l) a ↔ (a = x ∧ ∀ c ∈ l, le x c) ∨ (¬ le x a ∧ IsFirst le l a) := by
  constructor
  · rintro ⟨before, after, heq, hbefore, hafter⟩
    cases before with
    | nil =>
      cases heq
      exact .inl ⟨rfl, hafter⟩
    | cons b before =>
      cases heq
      obtain ⟨hx, hbefore⟩ := forall_mem_cons.mp hbefore
      exact .inr ⟨hx, before, after, rfl, hbefore, hafter⟩
  · rintro (⟨rfl, hle⟩ | ⟨hx, before, after, rfl, hbefore, hafter⟩)
    · exact ⟨[], l, rfl, forall_mem_nil _, hle⟩
    · exact ⟨x :: before, after, rfl, forall_mem_cons.mpr ⟨hx, hbefore⟩, hafter⟩

omit [DecidableRel le] in
lemma IsFirst.mem {a : α} (h : IsFirst le l a) : a ∈ l := by
  obtain ⟨before, after, rfl, -, -⟩ := h
  exact mem_append_right before mem_cons_self

omit [DecidableRel le] in
lemma IsFirst.le_of_mem [Std.Total le] {a : α} (h : IsFirst le l a) : ∀ c ∈ l, le a c := by
  obtain ⟨before, after, rfl, hbefore, hafter⟩ := h
  intro c hc
  rcases mem_append.mp hc with hc | hc
  · exact (total_of le a c).resolve_right (hbefore c hc)
  rcases mem_cons.mp hc with rfl | hc
  · exact refl_of le c
  · exact hafter c hc

omit [DecidableRel le] in
lemma isFirst_of_lt [Std.Total le] {a : α} (ha : a ∈ l) (h : ∀ c ∈ l, c ≠ a → ¬ le c a) : IsFirst le l a := by
  obtain ⟨before, after, rfl, hbefore⟩ := eq_append_cons_of_mem ha
  refine ⟨before, after, rfl, fun b hb => ?_, fun c hc => ?_⟩
  · exact h b (mem_append_left _ hb) fun heq => hbefore (heq ▸ hb)
  · by_cases hca : c = a
    · exact hca ▸ refl_of le c
    · exact (total_of le a c).resolve_right (h c (mem_append_right _ (mem_cons_of_mem _ hc)) hca)

/-- The head of the sorted list. -/
lemma head?_insertionSort [Std.Total le] [IsTrans α le] {a : α} :
    (l.insertionSort le).head? = some a ↔ IsFirst le l a := by
  induction l generalizing a with
  | nil => simp [IsFirst]
  | cons x l ih =>
    rw [insertionSort_cons, isFirst_cons, ← ih]
    cases hsort : l.insertionSort le with
    | nil =>
      obtain rfl : l = [] := eq_nil_of_length_eq_zero (by
        rw [← length_insertionSort le l, hsort, length_nil])
      simp [eq_comm]
    | cons y ys =>
      have hpairs := hsort ▸ pairwise_insertionSort le l
      have hmem : ∀ c, c ∈ y :: ys ↔ c ∈ l := fun c => hsort ▸ mem_insertionSort le
      have hmin : ∀ c ∈ l, le y c := by
        intro c hc
        rcases mem_cons.mp ((hmem c).mpr hc) with rfl | hc
        · exact refl_of le c
        · exact (pairwise_cons.mp hpairs).1 c hc
      rw [orderedInsert_cons]
      by_cases hxy : le x y
      · have hall : ∀ c ∈ l, le x c := fun c hc => trans_of le hxy (hmin c hc)
        grind
      · grind

/-- The first element of the sorted list with a property. -/
lemma find?_insertionSort [Std.Total le] [IsTrans α le] {a : α} :
    (l.insertionSort le).find? p = some a ↔ IsFirst le (l.filter p) a := by
  rw [← head?_filter, filter_insertionSort, head?_insertionSort]

end

/-! ### Sorting -/

section

variable (find : Nat → Nat) (le : Nat → Nat → Prop) [DecidableRel le] (n : Nat)

/-- The places of one group. -/
def slots (root : Nat) : List Nat :=
  (List.range n).filter fun i => find i = root

/-- What is put at place `i`: the members of its group are written back into the group's places in
their sorted order. -/
def placed (i : Nat) : Nat :=
  ((slots find n (find i)).insertionSort le).getD ((slots find n (find i)).idxOf i) i

def order : List Nat :=
  (List.range n).map (placed find le n)

variable {i j root k : Nat}

lemma mem_slots : i ∈ slots find n root ↔ i < n ∧ find i = root := by
  simp [slots]

lemma nodup_slots (root : Nat) : (slots find n root).Nodup :=
  nodup_range.filter _

lemma map_placed_slots (root : Nat) :
    (slots find n root).map (placed find le n) = (slots find n root).insertionSort le := by
  apply ext_getElem
  · rw [length_map, length_insertionSort]
  intro k hk hk'
  rw [length_map] at hk
  have hroot := ((mem_slots find n).mp (getElem_mem hk)).2
  rw [getElem_map, placed, hroot, (nodup_slots find n root).idxOf_getElem k hk,
    getD_eq_getElem _ _ hk']

lemma placed_mem_slots (hi : i < n) : placed find le n i ∈ slots find n (find i) := by
  have hmem := mem_map_of_mem (f := placed find le n) ((mem_slots find n).mpr ⟨hi, rfl⟩)
  rw [map_placed_slots] at hmem
  exact (mem_insertionSort le).mp hmem

lemma filter_order_root (root : Nat) :
    (order find le n).filter (fun i => find i = root) = (slots find n root).insertionSort le := by
  rw [← map_placed_slots, order, filter_map]
  congr 1
  apply filter_congr
  intro i hi
  have hplaced := (mem_slots find n).mp (placed_mem_slots find le n (mem_range.mp hi))
  simp only [Function.comp_apply, hplaced.2]

lemma lt_of_mem_order (h : i ∈ order find le n) : i < n := by
  obtain ⟨j, hj, rfl⟩ := mem_map.mp h
  exact ((mem_slots find n).mp (placed_mem_slots find le n (mem_range.mp hj))).1

lemma mem_order (h : i < n) : i ∈ order find le n := by
  have hmem : i ∈ (slots find n (find i)).insertionSort le :=
    (mem_insertionSort le).mpr ((mem_slots find n).mpr ⟨h, rfl⟩)
  rw [← filter_order_root] at hmem
  exact (mem_filter.mp hmem).1

/-- Every place is filled once. -/
lemma order_perm : (order find le n).Perm (List.range n) := by
  have hsub : List.range n ⊆ order find le n := fun i hi =>
    mem_order find le n (mem_range.mp hi)
  refine ((subperm_of_subset nodup_range hsub).perm_of_length_le ?_).symm
  rw [order, length_map]

/-- Seen through a predicate on one group, the order is the sorted one. -/
lemma filter_order [Std.Total le] [IsTrans Nat le] {m : Nat → Bool} (hm : ∀ i < n, m i → find i = root) :
    (order find le n).filter m = ((List.range n).filter m).insertionSort le := by
  have hsub : ∀ l : List Nat, (∀ i ∈ l, i < n) →
      l.filter m = (l.filter fun i => find i = root).filter m := by
    intro l hl
    rw [filter_filter]
    apply filter_congr
    intro i hi
    cases hmi : m i with
    | false => rfl
    | true => simp [hm i (hl i hi) hmi]
  rw [hsub _ fun i hi => lt_of_mem_order find le n hi, filter_order_root, filter_insertionSort,
    hsub (List.range n) fun i hi => mem_range.mp hi]
  rfl

/-- `i` comes before `j` in a stable sort. -/
def Before (i j : Nat) : Prop :=
  if i < j then le i j else ¬ le j i

lemma filter_range_pair (hij : i < j) (hj : j < n) : (List.range n).filter (fun k => k = i || k = j) = [i, j] := by
  have hsorted : ((List.range n).filter fun k => k = i || k = j).Pairwise (· < ·) :=
    pairwise_lt_range.filter _
  have hpair : [i, j].Pairwise (· < ·) := by simp [hij]
  refine List.Perm.eq_of_pairwise (fun a b _ _ hab hba => absurd hab (Nat.lt_asymm hba)) hsorted hpair ?_
  refine (perm_ext_iff_of_nodup (nodup_range.filter _) (hpair.imp Nat.ne_of_lt)).mpr fun k => ?_
  simp only [mem_filter, mem_range, Bool.or_eq_true, decide_eq_true_eq, mem_cons, not_mem_nil,
    or_false]
  constructor
  · exact And.right
  rintro (rfl | rfl)
  · exact ⟨hij.trans hj, .inl rfl⟩
  · exact ⟨hj, .inr rfl⟩

lemma pair_sublist_filter {l : List Nat} : [i, j].Sublist l ↔ [i, j].Sublist (l.filter fun k => k = i || k = j) := by
  constructor
  · intro h
    have hfilter := h.filter fun k => decide (k = i) || decide (k = j)
    rwa [filter_eq_self.mpr (by simp)] at hfilter
  · exact fun h => h.trans filter_sublist

/-- Of two elements of a group, which one comes first. -/
lemma pair_sublist_order [Std.Total le] [IsTrans Nat le] (hi : i < n) (hj : j < n) (hne : i ≠ j)
    (hsame : find i = find j) : [i, j].Sublist (order find le n) ↔ Before le i j := by
  have hroot : ∀ k < n, (decide (k = i) || decide (k = j)) → find k = find j := by
    intro k _ hk
    simp only [Bool.or_eq_true, decide_eq_true_eq] at hk
    obtain rfl | rfl := hk
    · exact hsame
    · rfl
  have hnot : ¬ [i, j].Sublist [j, i] := by
    intro hsub
    exact hne (List.cons.inj (hsub.eq_of_length rfl)).1
  rw [pair_sublist_filter, filter_order find le n hroot, Before]
  obtain hlt | hgt := Nat.lt_or_gt_of_ne hne
  · rw [filter_range_pair n hlt hj, if_pos hlt]
    by_cases hle : le i j
    · simp [hle]
    · simp [hle, hnot]
  have hswap : ((List.range n).filter fun k => k = i || k = j) = [j, i] := by
    rw [← filter_range_pair n hgt hi]
    exact filter_congr fun k _ => Bool.or_comm ..
  rw [hswap, if_neg (Nat.lt_asymm hgt)]
  by_cases hle : le j i
  · simp [hle, hnot]
  · simp [hle]

omit [DecidableRel le] in
lemma isFirst_iff {l : List Nat} (hl : l.Pairwise (· < ·)) :
    IsFirst le l k ↔ k ∈ l ∧ ∀ j ∈ l, j ≠ k → Before le k j := by
  induction l with
  | nil => simp [IsFirst]
  | cons x l ih =>
    obtain ⟨hx, hl⟩ := pairwise_cons.mp hl
    rw [isFirst_cons, ih hl]
    unfold Before
    grind

/-- The first element with a property that only members of one group have. -/
lemma find?_order [Std.Total le] [IsTrans Nat le] {m : Nat → Bool}
    (hm : ∀ i < n, m i → find i = root) : (order find le n).find? m = some k ↔
      k < n ∧ m k ∧ ∀ j < n, m j → j ≠ k → Before le k j := by
  rw [← head?_filter, filter_order find le n hm, head?_insertionSort,
    isFirst_iff le (pairwise_lt_range.filter _)]
  simp [and_assoc]

/-- An order that is there already is kept. -/
lemma order_eq_range (h : ∀ i j, i < j → j < n → find i = find j → le i j) : order find le n = List.range n := by
  conv_rhs => rw [← map_id (List.range n)]
  refine map_congr_left fun i hi => ?_
  have hsorted : (slots find n (find i)).Pairwise le := by
    refine (pairwise_lt_range.filter _).imp_of_mem fun {a b} ha hb hab => ?_
    obtain ⟨-, ha⟩ := (mem_slots find n).mp ha
    obtain ⟨hb, hb'⟩ := (mem_slots find n).mp hb
    exact h a b hab hb (ha.trans hb'.symm)
  have hmem : i ∈ slots find n (find i) := (mem_slots find n).mpr ⟨mem_range.mp hi, rfl⟩
  rw [placed, hsorted.insertionSort_eq, getD_eq_getElem _ _ (idxOf_lt_length_of_mem hmem)]
  exact getElem_idxOf _

/-- The members of a group are sorted at its places. -/
lemma le_placed [Std.Total le] [IsTrans Nat le] (hij : i < j) (hj : j < n) (hsame : find i = find j) :
    le (placed find le n i) (placed find le n j) := by
  have hpairs := pairwise_insertionSort le (slots find n (find j))
  rw [← map_placed_slots, pairwise_map] at hpairs
  have hpair : [i, j].Sublist (slots find n (find j)) := by
    rw [← filter_range_pair n hij hj]
    refine monotone_filter_right _ fun k hk => ?_
    simp only [Bool.or_eq_true, decide_eq_true_eq] at hk
    obtain rfl | rfl := hk
    · exact decide_eq_true hsame
    · exact decide_eq_true rfl
  have hboth : [i, j].Pairwise fun a b => le (placed find le n a) (placed find le n b) := hpairs.sublist hpair
  exact (pairwise_cons.mp hboth).1 j mem_cons_self

end

section

variable {α : Type*} [Inhabited α] (find : Nat → Nat) (le : α → α → Prop) [DecidableRel le]

/-- The list in the order of its groups. -/
def sortGroups (l : List α) : List α :=
  (order find (fun i j => le (l.getD i default) (l.getD j default)) l.length).map
    fun i => l.getD i default

lemma map_getD_range (l : List α) : (List.range l.length).map (fun i => l.getD i default) = l := by
  apply ext_getElem
  · simp
  · intro k hk hk'
    simp [hk']

lemma sortGroups_perm (l : List α) : (sortGroups find le l).Perm l := by
  have hperm := (order_perm find (fun i j => le (l.getD i default) (l.getD j default)) l.length).map
    fun i => l.getD i default
  rwa [map_getD_range] at hperm

lemma mem_sortGroups {l : List α} {a : α} : a ∈ sortGroups find le l ↔ a ∈ l :=
  (sortGroups_perm find le l).mem_iff

/-- Seen through a predicate that only elements of one group satisfy, the list is sorted. -/
theorem filter_sortGroups [Std.Total le] [IsTrans α le] {l : List α} {m : α → Bool}
    (hm : ∀ i < l.length, ∀ j < l.length, m (l.getD i default) →
      m (l.getD j default) → find i = find j) : (sortGroups find le l).filter m = (l.filter m).insertionSort le := by
  by_cases hex : ∃ i < l.length, m (l.getD i default)
  · obtain ⟨i₀, hi₀, hm₀⟩ := hex
    have horder := filter_order find (fun i j => le (l.getD i default) (l.getD j default)) l.length
      (m := fun i => m (l.getD i default)) (fun i hi hmi => hm i hi i₀ hi₀ hmi hm₀)
    rw [sortGroups, filter_map]
    have hcomp : (m ∘ fun i => l.getD i default) = fun i => m (l.getD i default) := rfl
    rw [hcomp, horder, map_insertionSort _ le _ _ fun _ _ _ _ => Iff.rfl]
    conv_rhs => rw [← map_getD_range l, filter_map]
    rw [hcomp]
  · -- nothing is seen of either list
    have hnone : ∀ a ∈ l, ¬ m a := by
      intro a ha hma
      obtain ⟨i, hi, rfl⟩ := mem_iff_getElem.mp ha
      exact hex ⟨i, hi, by rwa [getD_eq_getElem _ _ hi]⟩
    rw [filter_eq_nil_iff.mpr hnone, insertionSort_nil, filter_eq_nil_iff]
    exact fun a ha => hnone a ((mem_sortGroups find le).mp ha)

end

end Groups
