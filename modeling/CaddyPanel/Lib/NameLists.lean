import CaddyPanel.Lib.Text

/-!
# Lists of names that are stored as text

A list is written with commas between the names. It is read with a set of separators of which the
comma is one, each name in lower case and without space around it. What was read is read again from
what is written.
-/

namespace NameLists

open List Text

/-- The names in a text. -/
def names (separates : Char → Bool) (raw : Str) : List Str :=
  ((raw.splitOnP separates).map fun p => toLower (trimSpace p)).filter (· ≠ [])

def join (names : List Str) : Str :=
  [','].intercalate names

/-- A name as a list has it. -/
structure IsName (separates : Char → Bool) (d : Str) : Prop where
  ne_nil : d ≠ []
  chars : ∀ c ∈ d, separates c = false
  trimmed : trimSpace d = d
  lower : toLower d = d

/-- A text that was written from a list. -/
def Joined (separates : Char → Bool) (s : Str) : Prop :=
  ∃ list, (∀ d ∈ list, IsName separates d) ∧ s = join list

variable {separates : Char → Bool}

lemma isName_of_mem_names (hlower : ∀ c, separates c.toLower = separates c) {raw d : Str}
    (h : d ∈ names separates raw) : IsName separates d := by
  obtain ⟨h, hne⟩ := mem_filter.mp h
  obtain ⟨p, hp, rfl⟩ := mem_map.mp h
  refine ⟨by simpa using hne, fun c hc => ?_, ?_, toLower_toLower _⟩
  · obtain ⟨c', hc', rfl⟩ := mem_map.mp hc
    rw [hlower]
    exact eq_false_of_mem_splitOnP p hp c' (mem_of_mem_trimSpace hc')
  · rw [trimSpace_toLower, trimSpace_trimSpace]

/-- A list is read as it was written. -/
lemma names_join (hcomma : separates ',' = true) {list : List Str}
    (h : ∀ d ∈ list, IsName separates d) : names separates (join list) = list := by
  rcases eq_or_ne list [] with rfl | hne
  · simp [names, join, trimSpace, toLower]
  unfold names join
  rw [splitOnP_intercalate hcomma hne fun d hd => (h d hd).chars]
  have hmap : list.map (fun p => toLower (trimSpace p)) = list := by
    conv_rhs => rw [← map_id list]
    refine map_congr_left fun d hd => ?_
    rw [(h d hd).trimmed, (h d hd).lower, id]
  rw [hmap]
  exact filter_eq_self.mpr fun d hd => decide_eq_true (h d hd).ne_nil

lemma join_eq_nil {list : List Str} (h : ∀ d ∈ list, IsName separates d) : join list = [] ↔ list = [] := by
  refine ⟨fun hjoin => ?_, fun hnil => by simp [hnil, join]⟩
  cases list with
  | nil => rfl
  | cons d list =>
    obtain ⟨c, hc⟩ := exists_mem_of_ne_nil d (h d mem_cons_self).ne_nil
    have hmem : c ∈ join (d :: list) := mem_intercalate mem_cons_self hc
    rw [hjoin] at hmem
    cases hmem

/-- A character of a written list is a comma or stands in a name. -/
lemma mem_join {list : List Str} {c : Char} (h : c ∈ join list) : c = ',' ∨ ∃ d ∈ list, c ∈ d := by
  induction list with
  | nil => cases h
  | cons d list ih =>
    cases list with
    | nil => exact .inr ⟨d, mem_cons_self, by simpa [join] using h⟩
    | cons e list =>
      have hsplit : join (d :: e :: list) = d ++ ',' :: join (e :: list) := by
        simp [join]
      rw [hsplit, mem_append, mem_cons] at h
      rcases h with h | h | h
      · exact .inr ⟨d, mem_cons_self, h⟩
      · exact .inl h
      rcases ih h with hc | ⟨x, hx, hc⟩
      · exact .inl hc
      · exact .inr ⟨x, mem_cons_of_mem d hx, hc⟩

/-- `FIND_IN_SET` over a list that was written: the spaces that are taken out first are not there. -/
lemma any_splitOn_join (hcomma : separates ',' = true) (hspace : separates ' ' = true)
    {list : List Str} (h : ∀ d ∈ list, IsName separates d) (needle : Str) :
    ((join list ≠ []) ∧ (((join list).filter (· ≠ ' ')).splitOn ',').any
      (fun part => trimSpace part = trimSpace needle)) ↔ trimSpace needle ∈ list := by
  have hnospace : (join list).filter (· ≠ ' ') = join list := by
    refine filter_eq_self.mpr fun c hc => ?_
    rw [decide_eq_true_eq]
    rintro rfl
    rcases mem_join hc with hc | ⟨d, hd, hc⟩
    · cases hc
    · rw [(h d hd).chars _ hc] at hspace
      cases hspace
  rcases eq_or_ne list [] with rfl | hne
  · simp [join]
  have hsplit : (join list).splitOn ',' = list := by
    refine splitOn_intercalate ',' (fun d hd hc => ?_) hne
    rw [(h d hd).chars _ hc] at hcomma
    cases hcomma
  rw [hnospace, hsplit, ne_eq, join_eq_nil h, any_eq_true]
  constructor
  · rintro ⟨-, d, hd, heq⟩
    rw [decide_eq_true_eq, (h d hd).trimmed] at heq
    rwa [← heq]
  · intro hmem
    exact ⟨hne, _, hmem, by simp [trimSpace_trimSpace]⟩

end NameLists
