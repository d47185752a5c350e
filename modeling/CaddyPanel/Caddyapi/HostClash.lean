import CaddyPanel.Caddyapi.RouteOrder

/-!
# The host clash probe and the emission order

Before a route is appended to a node's list, `routePresenceAndHostClash` asks `HostSetsOverlap`
whether another route could take its requests, and `EmissionOrder` sorts the routes that could. The
probe compares the matchers as they are stored. The order leaves blank ones out and normalises the
rest once more. The server converts what is stored without either.
-/

namespace Caddyapi

open List
open Text (Str)

variable {idna : Idna} {hp : Helpers} {routes : List Route}

/-! ### What joins two routes -/

/-- One of the two takes every host, or two of their matchers overlap. -/
def Joined (idna : Idna) (routes : List Route) (i j : Nat) : Prop :=
  ∃ (hi : i < routes.length) (hj : j < routes.length),
    hostSetIsCatchAll idna routes[i].hosts ∨ hostSetIsCatchAll idna routes[j].hosts ∨
      ∃ x ∈ matcherHosts idna routes[i], ∃ y ∈ matcherHosts idna routes[j], hostsOverlap idna x y

/-- A chain of routes leads from the one to the other. -/
def Linked (idna : Idna) (routes : List Route) : Nat → Nat → Prop :=
  Relation.EqvGen (Joined idna routes)

lemma mem_matcherHosts {r : Route} {h : Str} :
    h ∈ matcherHosts idna r ↔ h ≠ [] ∧ ∃ x ∈ r.hosts, normalizeHost idna x = h := by
  unfold matcherHosts
  rw [mem_filter, mem_map, decide_eq_true_eq]
  exact and_comm

lemma mem_byHost_headD {h : Str} (hmem : h ∈ (hostEntries idna routes).map Prod.fst) :
    (byHost idna routes h).headD 0 ∈ byHost idna routes h := by
  obtain ⟨⟨h', i⟩, he, rfl⟩ := mem_map.mp hmem
  have hi := mem_byHost.mpr he
  cases hb : byHost idna routes h' with
  | nil =>
    rw [hb] at hi
    cases hi
  | cons k js => exact mem_cons_self

lemma joined_of_byHost {i j : Nat} {h h' : Str} (hi : i ∈ byHost idna routes h)
    (hj : j ∈ byHost idna routes h') (hover : hostsOverlap idna h h' = true) : Joined idna routes i j := by
  obtain ⟨hi, hh⟩ := mem_hostEntries.mp (mem_byHost.mp hi)
  obtain ⟨hj, hh'⟩ := mem_hostEntries.mp (mem_byHost.mp hj)
  exact ⟨hi, hj, .inr (.inr ⟨h, hh, h', hh', hover⟩)⟩

lemma joined_of_mem_catchAllPairs {p : Nat × Nat} (hp : p ∈ catchAllPairs idna routes) :
    Joined idna routes p.1 p.2 := by
  obtain ⟨⟨r, i⟩, hr, hp⟩ := mem_flatMap.mp hp
  have hget : routes[i]? = some r := List.mem_zipIdx_iff_getElem?.mp hr
  obtain ⟨hi, rfl⟩ := List.getElem?_eq_some_iff.mp hget
  split at hp
  · rename_i hnil
    obtain ⟨j, hj, rfl⟩ := mem_map.mp hp
    refine ⟨hi, mem_range.mp hj, .inl ?_⟩
    simpa [matcherHosts, hostSetIsCatchAll] using hnil
  · cases hp

lemma joined_of_mem_sameHostPairs {hosts : List Str} {p : Nat × Nat}
    (hp : p ∈ sameHostPairs idna routes hosts) : Joined idna routes p.1 p.2 := by
  obtain ⟨h, -, hp⟩ := mem_flatMap.mp hp
  cases hb : byHost idna routes h with
  | nil =>
    rw [hb] at hp
    cases hp
  | cons i js =>
    rw [hb] at hp
    obtain ⟨j, hj, rfl⟩ := mem_map.mp hp
    refine joined_of_byHost ?_ ?_ (show hostsOverlap idna h h by
      simp [hostsOverlap, hostPatternsIntersect, labelsIntersect_self])
    · rw [hb]
      exact mem_cons_self
    · rw [hb]
      exact mem_cons_of_mem i hj

lemma joined_of_mem_overlapPairs {hosts : List Str}
    (hhosts : ∀ h ∈ hosts, h ∈ (hostEntries idna routes).map Prod.fst) {p : Nat × Nat}
    (hp : p ∈ overlapPairs idna routes hosts) : Joined idna routes p.1 p.2 := by
  induction hosts with
  | nil => cases hp
  | cons h hosts ih =>
    obtain ⟨hh, hhosts⟩ := forall_mem_cons.mp hhosts
    rcases mem_append.mp hp with hp | hp
    · obtain ⟨h', hmem, rfl⟩ := mem_map.mp hp
      obtain ⟨hh', hover⟩ := mem_filter.mp hmem
      exact joined_of_byHost (mem_byHost_headD hh) (mem_byHost_headD (hhosts h' hh')) hover
    · exact ih hhosts hp

lemma groupOf_of_joined {i j : Nat} (h : Joined idna routes i j) : groupOf idna routes i = groupOf idna routes j := by
  obtain ⟨hi, hj, hall | hall | ⟨x, hx, y, hy, hover⟩⟩ := h
  · exact groupOf_of_catchAll hi hj hall
  · exact (groupOf_of_catchAll hj hi hall).symm
  obtain ⟨hxne, x', hx', rfl⟩ := mem_matcherHosts.mp hx
  obtain ⟨hyne, y', hy', rfl⟩ := mem_matcherHosts.mp hy
  exact groupOf_of_hostsOverlap hi hj hx' hy' hxne hyne hover

/-- The groups are the routes that a chain of overlaps links. -/
theorem groupOf_eq_iff_linked {i j : Nat} : groupOf idna routes i = groupOf idna routes j ↔ Linked idna routes i j := by
  constructor
  · intro h
    refine Groups.joinAll_sound ?_ (fun k l hkl => ?_) h
    · intro p hp
      rcases mem_append.mp hp with hp | hp
      · rcases mem_append.mp hp with hp | hp
        · exact joined_of_mem_catchAllPairs hp
        · exact joined_of_mem_sameHostPairs hp
      · exact joined_of_mem_overlapPairs (fun h hh => mem_eraseDups.mp hh) hp
    · cases hkl
      exact .refl k
  · exact Groups.joinAll_complete fun a b hab => groupOf_of_joined hab

/-! ### What the probe sees -/

/-- Two matchers overlap as they are stored, but one of them is blank or they no longer overlap once
they are normalised. -/
def Stray (idna : Idna) (a b : List Str) : Prop :=
  ∃ x ∈ a, ∃ y ∈ b, hostsOverlap idna x y ∧ (normalizeHost idna x = [] ∨ normalizeHost idna y = [] ∨
      hostsOverlap idna (normalizeHost idna x) (normalizeHost idna y) = false)

lemma Stray.hostSetsOverlap {a b : List Str} (h : Stray idna a b) : hostSetsOverlap idna a b := by
  obtain ⟨x, hx, y, hy, hover, -⟩ := h
  refine Bool.or_eq_true_iff.mpr (.inr (any_eq_true.mpr ⟨x, hx, ?_⟩))
  exact any_eq_true.mpr ⟨y, hy, hover⟩

lemma joined_or_stray {i j : Nat} (hi : i < routes.length) (hj : j < routes.length)
    (h : hostSetsOverlap idna routes[i].hosts routes[j].hosts) :
    Joined idna routes i j ∨ Stray idna routes[i].hosts routes[j].hosts := by
  unfold hostSetsOverlap at h
  rw [Bool.or_eq_true, Bool.or_eq_true] at h
  rcases h with (hall | hall) | h
  · exact .inl ⟨hi, hj, .inl hall⟩
  · exact .inl ⟨hi, hj, .inr (.inl hall)⟩
  obtain ⟨x, hx, h⟩ := any_eq_true.mp h
  obtain ⟨y, hy, hover⟩ := any_eq_true.mp h
  by_cases hstray : normalizeHost idna x = [] ∨ normalizeHost idna y = [] ∨
      hostsOverlap idna (normalizeHost idna x) (normalizeHost idna y) = false
  · exact .inr ⟨x, hx, y, hy, hover, hstray⟩
  rw [not_or, not_or, Bool.not_eq_false] at hstray
  obtain ⟨hxne, hyne, hover'⟩ := hstray
  exact .inl ⟨hi, hj, .inr (.inr ⟨_, mem_matcherHosts.mpr ⟨hxne, x, hx, rfl⟩, _,
    mem_matcherHosts.mpr ⟨hyne, y, hy, rfl⟩, hover'⟩)⟩

/-- No host is taken by both. -/
def Apart (idna : Idna) (r o : Route) : Prop :=
  ∀ host, hostMatches idna r.hosts host → hostMatches idna o.hosts host = false

/-- A route that shares no host with the others may stand anywhere: each host is taken by the same routes in the same
order. -/
lemma filter_hostMatches_of_apart {r : Route} {a b a' b' : List Route} (hsplit : a ++ b = a' ++ b')
    (hapart : ∀ o ∈ a ++ b, Apart idna r o) (host : Str) :
    (a ++ r :: b).filter (hostMatches idna ·.hosts host) = (a' ++ r :: b').filter (hostMatches idna ·.hosts host) := by
  by_cases hr : hostMatches idna r.hosts host
  · -- the route is the only one that takes the host
    have hab : (a ++ b).filter (hostMatches idna ·.hosts host) = [] :=
      filter_eq_nil_iff.mpr fun o ho => Bool.eq_false_iff.mp (hapart o ho host hr)
    have hab' := hab
    rw [hsplit] at hab'
    rw [List.filter_append, append_eq_nil_iff] at hab hab'
    simp only [List.filter_append, filter_cons, hr, hab.1, hab.2, hab'.1, hab'.2]
  · simp only [List.filter_append, filter_cons, hr, Bool.false_eq_true, if_false]
    rw [← List.filter_append, ← List.filter_append, hsplit]

/-- Only such a route may. -/
lemma apart_of_filter_hostMatches {r : Route} {a b : List Route} (hr : r ∉ a ++ b)
    (hsame : ∀ a' b', a ++ b = a' ++ b' → ∀ host,
      (a ++ r :: b).filter (hostMatches idna ·.hosts host) = (a' ++ r :: b').filter (hostMatches idna ·.hosts host)) :
    ∀ o ∈ a ++ b, Apart idna r o := by
  intro o ho host htakes
  have hnot : ∀ l : List Route, l ⊆ a ++ b → r ∉ l.filter (hostMatches idna ·.hosts host) :=
    fun l hl hmem => hr (hl (mem_filter.mp hmem).1)
  have hfront := hsame [] (a ++ b) rfl host
  have hback := hsame (a ++ b) [] (append_nil _).symm host
  simp only [List.filter_append, filter_cons, htakes, if_true, filter_nil, nil_append] at hfront hback
  -- what stands before the route, and what stands behind it
  have ha : a.filter (hostMatches idna ·.hosts host) = [] := by
    cases hfa : a.filter (hostMatches idna ·.hosts host) with
    | nil => rfl
    | cons x xs =>
      rw [hfa, cons_append, List.cons.injEq] at hfront
      have hx : x ∈ a.filter (hostMatches idna ·.hosts host) := hfa ▸ mem_cons_self
      exact absurd (hfront.1 ▸ hx) (hnot a (subset_append_left a b))
  have hb : b.filter (hostMatches idna ·.hosts host) = [] := by
    cases hfb : b.filter (hostMatches idna ·.hosts host) with
    | nil => rfl
    | cons x xs =>
      rw [ha, hfb, nil_append, nil_append, cons_append, List.cons.injEq] at hback
      have hx : x ∈ b.filter (hostMatches idna ·.hosts host) := hfb ▸ mem_cons_self
      exact absurd (hback.1.symm ▸ hx) (hnot b (subset_append_right a b))
  have hnone : (a ++ b).filter (hostMatches idna ·.hosts host) = [] := by rw [List.filter_append, ha, hb, nil_append]
  exact Bool.eq_false_iff.mpr (filter_eq_nil_iff.mp hnone o ho)

/-- A route with a blank entry beside its name, and one of another name. -/
def blankEntryRoutes : List Route :=
  [{ id := "1", hosts := ["", "a.example"] }, { id := "2", hosts := ["b.example"] }]

end Caddyapi
