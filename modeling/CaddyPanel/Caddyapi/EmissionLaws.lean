import CaddyPanel.Caddyapi.Gates
import CaddyPanel.Caddyapi.HostClash
import CaddyPanel.Caddyapi.NodeConfig

/-!
# The laws of the emission order

The panel compares host entries in a form of its own, lowered before the conversion to ASCII, trimmed and without the
root dot; the server converts what is stored. Where the two forms agree, two valid matchers overlap where some host is
taken by both, and the routes that take a request are emitted by the length of their prefix, then by their ranks and by
the place they had. A list that was ordered is left as it is. The rank of a wildcard belongs to a route and not to one
of its matchers, so that a route which names a host may come after one that takes it by a star.
-/

namespace Caddyapi

open List
open Text (Str trimSpace toLower)

variable {idna : Idna} {hp : Helpers} {routes : List Route}

/-! ### Common hosts -/

/-- What both labels take. -/
def commonLabel (a b : Str) : Str :=
  if a = "*" then (if b = "*" then "x" else b) else a

lemma labelsMatch_zipWith {as bs : List Str} (h : labelsIntersect as bs) :
    labelsMatch as (as.zipWith commonLabel bs) ∧ labelsMatch bs (as.zipWith commonLabel bs) := by
  induction as generalizing bs with
  | nil =>
    cases bs with
    | nil => exact ⟨rfl, rfl⟩
    | cons b bs => cases h
  | cons a as ih =>
    cases bs with
    | nil => cases h
    | cons b bs =>
      simp only [labelsIntersect, Bool.and_eq_true, Bool.or_eq_true, decide_eq_true_eq] at h
      obtain ⟨hlabel, hrest⟩ := h
      obtain ⟨ha, hb⟩ := ih hrest
      simp only [zipWith_cons_cons, labelsMatch, ha, hb, Bool.and_true, Bool.or_eq_true, decide_eq_true_eq,
        commonLabel]
      by_cases hstar : a = "*"
      · by_cases hstar' : b = "*"
        · exact ⟨.inl hstar, .inl hstar'⟩
        · exact ⟨.inl hstar, .inr (by rw [if_pos hstar, if_neg hstar'])⟩
      · rw [if_neg hstar]
        obtain (hstar' | hstar') | heq := hlabel
        · exact absurd hstar' hstar
        · exact ⟨.inr rfl, .inl hstar'⟩
        · exact ⟨.inr rfl, .inr heq.symm⟩

variable {a b n host : Str} {req : Caddy.Request} {env : Caddy.Env} {r : Route} {k j i : Nat}

lemma dot_not_mem_commonLabel (ha : '.' ∉ a) (hb : '.' ∉ b) : '.' ∉ commonLabel a b := by
  unfold commonLabel
  split_ifs
  · decide
  · exact hb
  · exact ha

/-- Two patterns that intersect take one host. -/
lemma exists_common_host (h : hostPatternsIntersect a b) :
    ∃ host, labelsMatch (labels a) (labels host) ∧ labelsMatch (labels b) (labels host) := by
  have hnil : (labels a).zipWith commonLabel (labels b) ≠ [] := by
    intro hnil
    obtain hnil | hnil := zipWith_eq_nil_iff.mp hnil
    · exact splitOn_ne_nil _ _ hnil
    · exact splitOn_ne_nil _ _ hnil
  have hdots : ∀ l ∈ (labels a).zipWith commonLabel (labels b), '.' ∉ l := by
    intro l hl
    obtain ⟨x, hx, y, hy, rfl⟩ : ∃ x ∈ labels a, ∃ y ∈ labels b, commonLabel x y = l := by
      obtain ⟨i, hi, rfl⟩ := mem_iff_getElem.mp hl
      rw [length_zipWith] at hi
      exact ⟨_, getElem_mem (by omega), _, getElem_mem (by omega), (getElem_zipWith ..).symm⟩
    exact dot_not_mem_commonLabel (Text.not_mem_of_mem_splitOn x hx) (Text.not_mem_of_mem_splitOn y hy)
  refine ⟨['.'].intercalate ((labels a).zipWith commonLabel (labels b)), ?_⟩
  have hlabels : labels (['.'].intercalate ((labels a).zipWith commonLabel (labels b))) =
      (labels a).zipWith commonLabel (labels b) := splitOn_intercalate '.' hdots hnil
  rw [hlabels]
  exact labelsMatch_zipWith h

lemma getLast_of_valid (h : (labels n).all validLabel) (hne : n ≠ []) : n.getLast hne ≠ '.' := by
  intro hlast
  have hn : n = n.dropLast ++ ['.'] := by
    conv_lhs => rw [← dropLast_append_getLast hne, hlast]
  have hempty : ([] : Str) ∈ labels n := by
    rw [hn, labels]
    have hsplit := splitOn_append_cons_self (a := '.') n.dropLast []
    rw [hsplit]
    exact mem_append_right _ mem_cons_self
  exact absurd (all_eq_true.mp h [] hempty) (by decide)

lemma head_of_valid (h : (labels n).all validLabel) : n.head? ≠ some '.' := by
  intro hhead
  obtain ⟨rest, rfl⟩ : ∃ rest, n = '.' :: rest := by
    cases n with
    | nil => cases hhead
    | cons c rest => exact ⟨rest, by rw [Option.some.inj hhead]⟩
  have hempty : ([] : Str) ∈ labels ('.' :: rest) := by
    have hsplit := splitOn_append_cons_self (a := '.') [] rest
    rw [labels, ← nil_append ('.' :: rest), hsplit]
    exact mem_append_left _ (by simp)
  exact absurd (all_eq_true.mp h [] hempty) (by decide)

lemma validHostMatcher_normalizeHost (h : validHostMatcher idna a) (hf : Faithful idna a) :
    validHostMatcher idna (normalizeHost idna a) := by
  obtain ⟨-, hne, hidem⟩ := hf
  simp only [validHostMatcher, Bool.and_eq_true, decide_eq_true_eq] at h
  obtain ⟨⟨⟨⟨-, hlength⟩, hchars⟩, hascii⟩, hlabels⟩ := h
  have htrim : trimSpace (normalizeHost idna a) = normalizeHost idna a :=
    Text.trimSpace_eq_self fun c hc => (hostChar_facts (hostChar_of_valid hlabels c hc)).1
  have hlast : (normalizeHost idna a).getLast? ≠ some '.' := by
    rw [getLast?_eq_some_getLast hne]
    simpa using getLast_of_valid hlabels hne
  simp only [validHostMatcher, htrim, hidem, Bool.and_eq_true, decide_eq_true_eq]
  exact ⟨⟨⟨⟨⟨⟨⟨hne, head_of_valid hlabels⟩, hlast⟩, hne⟩, hlength⟩, hchars⟩, hascii⟩, hlabels⟩

lemma hostMatches_singleton : hostMatches idna [a] host = entryMatches idna host a := by
  simp [hostMatches]

/-- The emitted route takes the request, for any path matcher of the web server. -/
def takes (idna : Idna) (hp : Helpers) (env : Caddy.Env) (req : Caddy.Request) (r : Route) : Bool :=
  (buildRoute hp r).matches { env with hostMatches := hostMatches idna } req

/-- A longer prefix wins, then the smaller rank of wildcards, then the smaller rank of denials, then the earlier
place. -/
def Wins (hp : Helpers) (routes : List Route) (k j : Nat) : Prop :=
  let a := routes.getD k default
  let b := routes.getD j default
  pathSpecificity b < pathSpecificity a ∨ pathSpecificity a = pathSpecificity b ∧
    (wildcardRank a < wildcardRank b ∨ wildcardRank a = wildcardRank b ∧
      (denyRank hp a < denyRank hp b ∨ denyRank hp a = denyRank hp b ∧ k ≤ j))

/-- The order of the indices that `EmissionOrder` sorts by. -/
def emitLeAt (hp : Helpers) (routes : List Route) (i j : Nat) : Prop :=
  EmitLe hp (routes.getD i default) (routes.getD j default)

instance : DecidableRel (emitLeAt hp routes) :=
  fun i j => inferInstanceAs (Decidable (EmitLe hp (routes.getD i default) (routes.getD j default)))

instance : Std.Total (emitLeAt hp routes) :=
  ⟨fun _ _ => total_of (EmitLe hp) _ _⟩

instance : IsTrans Nat (emitLeAt hp routes) :=
  ⟨fun _ _ _ => trans_of (EmitLe hp)⟩

lemma emissionOrder_eq :
    emissionOrder idna hp routes = Groups.order (groupOf idna routes) (emitLeAt hp routes) routes.length := rfl

lemma wins_iff_before : Wins hp routes k j ↔ (j ≠ k → Groups.Before (emitLeAt hp routes) k j) := by
  by_cases heq : j = k
  · subst heq
    simp [Wins]
  unfold Wins Groups.Before emitLeAt
  simp only [emitLe_iff]
  split_ifs with hlt
  · omega
  · omega

lemma find?_emissionOrder (hfaithful : FaithfulHosts idna routes) :
    (emissionOrder idna hp routes).find? (fun i => takes idna hp env req (routes.getD i default)) = some k ↔
      k < routes.length ∧ takes idna hp env req (routes.getD k default) ∧
        ∀ j < routes.length, takes idna hp env req (routes.getD j default) → Wins hp routes k j := by
  simp only [wins_iff_before]
  by_cases hex : ∃ i < routes.length, takes idna hp env req (routes.getD i default)
  · obtain ⟨i₀, hi₀, ht₀⟩ := hex
    have hroot : ∀ i < routes.length, takes idna hp env req (routes.getD i default) →
        groupOf idna routes i = groupOf idna routes i₀ := by
      intro i hi hti
      rw [getD_eq_getElem _ _ hi] at hti
      rw [getD_eq_getElem _ _ hi₀] at ht₀
      exact groupOf_of_hostMatches hi hi₀ (hfaithful _ (getElem_mem hi)) (hfaithful _ (getElem_mem hi₀))
        (hostMatches_of_matches hti) (hostMatches_of_matches ht₀)
    exact Groups.find?_order _ _ _ hroot
  · constructor
    · intro hfind
      have hmem := mem_of_find?_eq_some hfind
      have htk : takes idna hp env req (routes.getD k default) := by simpa using find?_some hfind
      exact absurd ⟨k, Groups.lt_of_mem_order _ _ _ hmem, htk⟩ hex
    · rintro ⟨hk, htk, -⟩
      exact absurd ⟨k, hk, htk⟩ hex

/-! ### Routes of their own -/

lemma eq_of_linked_of_alone (halone : ∀ j, j ≠ i → ¬ Joined idna routes i j)
    (h : Linked idna routes j k) : j = i ↔ k = i := by
  have hsymm : ∀ {a b : Nat}, Joined idna routes a b → Joined idna routes b a := by
    rintro a b ⟨ha, hb, hall | hall | ⟨x, hx, y, hy, hover⟩⟩
    · exact ⟨hb, ha, .inr (.inl hall)⟩
    · exact ⟨hb, ha, .inl hall⟩
    · exact ⟨hb, ha, .inr (.inr ⟨y, hy, x, hx, hostsOverlap_comm x y ▸ hover⟩)⟩
  induction h with
  | rel a b hab =>
    constructor
    · rintro rfl
      by_contra hne
      exact halone b hne hab
    · rintro rfl
      by_contra hne
      exact halone a hne (hsymm hab)
  | refl a => exact Iff.rfl
  | symm a b _ ih => exact ih.symm
  | trans a b c _ _ ihab ihbc => exact ihab.trans ihbc

/-- A route that overlaps no other keeps its place. -/
lemma emissionOrder_of_alone (hi : i < routes.length) (halone : ∀ j, j ≠ i → ¬ Joined idna routes i j) :
    (emissionOrder idna hp routes)[i]? = some i := by
  have hplaced : Groups.placed (groupOf idna routes) (emitLeAt hp routes) routes.length i = i := by
    obtain ⟨-, hj⟩ := (Groups.mem_slots _ _).mp (Groups.placed_mem_slots _ (emitLeAt hp routes) _ hi)
    exact (eq_of_linked_of_alone halone (groupOf_eq_iff_linked.mp hj)).mpr rfl
  rw [emissionOrder_eq, Groups.order, getElem?_map, getElem?_range hi, Option.map_some, hplaced]

/-! ### Ordering twice -/

lemma length_sortRoutesForEmission : (sortRoutesForEmission idna hp routes).length = routes.length :=
  sortRoutesForEmission_perm.length_eq

/-- Which route is emitted at a place. -/
lemma getD_sortRoutesForEmission (hi : i < routes.length) :
    (sortRoutesForEmission idna hp routes).getD i default =
      routes.getD (Groups.placed (groupOf idna routes) (emitLeAt hp routes) routes.length i) default := by
  rw [sortRoutesForEmission, emissionOrder_eq, Groups.order]
  simp [hi]

lemma linked_placed (h : Linked idna (sortRoutesForEmission idna hp routes) i j) :
    Linked idna routes (Groups.placed (groupOf idna routes) (emitLeAt hp routes) routes.length i)
      (Groups.placed (groupOf idna routes) (emitLeAt hp routes) routes.length j) := by
  have hroute : ∀ {k : Nat} (hk : k < (sortRoutesForEmission idna hp routes).length),
      ∃ hk' : Groups.placed (groupOf idna routes) (emitLeAt hp routes) routes.length k < routes.length,
        (sortRoutesForEmission idna hp routes)[k] =
          routes[Groups.placed (groupOf idna routes) (emitLeAt hp routes) routes.length k] := by
    intro k hk
    have hlength : (sortRoutesForEmission idna hp routes).length = routes.length := length_sortRoutesForEmission
    have hlt : k < routes.length := hlength ▸ hk
    have hk' := ((Groups.mem_slots _ _).mp (Groups.placed_mem_slots (groupOf idna routes) (emitLeAt hp routes)
      routes.length hlt)).1
    have heq : (sortRoutesForEmission idna hp routes).getD k default = _ := getD_sortRoutesForEmission hlt
    rw [getD_eq_getElem _ _ hk, getD_eq_getElem _ _ hk'] at heq
    exact ⟨hk', heq⟩
  induction h with
  | rel a b hab =>
    obtain ⟨ha, hb, hcases⟩ := hab
    obtain ⟨ha', hra⟩ := hroute ha
    obtain ⟨hb', hrb⟩ := hroute hb
    rw [hra, hrb] at hcases
    exact .rel _ _ ⟨ha', hb', hcases⟩
  | refl a => exact .refl _
  | symm a b _ ih => exact .symm _ _ ih
  | trans a b c _ _ ihab ihbc => exact .trans _ _ _ ihab ihbc

lemma emissionOrder_sortRoutesForEmission :
    emissionOrder idna hp (sortRoutesForEmission idna hp routes) = List.range routes.length := by
  rw [emissionOrder_eq, length_sortRoutesForEmission]
  refine Groups.order_eq_range _ _ _ fun i j hij hj hsame => ?_
  have hi : i < routes.length := hij.trans hj
  have hgroup := groupOf_eq_iff_linked.mpr (linked_placed (groupOf_eq_iff_linked.mp hsame))
  have hroot : ∀ {k : Nat}, k < routes.length → groupOf idna routes
      (Groups.placed (groupOf idna routes) (emitLeAt hp routes) routes.length k) = groupOf idna routes k :=
    fun hk => ((Groups.mem_slots _ _).mp (Groups.placed_mem_slots _ _ _ hk)).2
  rw [hroot hi, hroot hj] at hgroup
  have hle : emitLeAt hp routes _ _ := Groups.le_placed (groupOf idna routes) (emitLeAt hp routes) routes.length hij hj
    hgroup
  unfold emitLeAt at hle ⊢
  rwa [getD_sortRoutesForEmission hi, getD_sortRoutesForEmission hj]

/-- A site, its API and the zone above it. -/
def siteAndApi : List Route :=
  [{ id := "1", hosts := ["app.example.com"] }, { id := "2", hosts := ["*.example.com"], pathPrefix := "/api" },
    { id := "3", hosts := ["APP.example.com"], pathPrefix := "/api/v2" }]

instance : Decidable (FaithfulHosts idna routes) :=
  inferInstanceAs (Decidable (∀ r ∈ routes, ∀ h ∈ r.hosts, Faithful idna h))

/-- A conversion that knows two names beside the ASCII ones. -/
def umlautIdna : Idna where
  lower := fun c => if c = 'Ü' then 'ü' else c.toLower
  toASCII := fun s =>
    if s.all (·.toNat < 128) then some s
    else if s = "Ü.example" then some "xn--wca.example"
    else if s = "ü.example" then some "xn--tda.example"
    else none
  lower_ascii := by
    intro c hc
    rw [if_neg]
    rintro rfl
    revert hc
    decide
  lower_lower := by
    intro c
    by_cases hc : c = 'Ü'
    · rw [if_pos hc]
      rfl
    · have hsame := Text.of_toLower_ascii (f := (decide <| · = 'Ü')) (by decide) c
      rw [if_neg hc, if_neg (mt (decide_eq_decide.mp hsame).mp hc)]
      exact Text.of_toLower_ascii (by decide) c
  toASCII_ascii := fun _ hascii _ => if_pos (all_eq_true.mpr fun c hc => decide_eq_true (hascii c hc))

/-- A site, and the API of the host that its name stands for on the server. -/
def umlautRoutes : List Route :=
  [{ id := "1", hosts := ["Ü.example"] }, { id := "2", hosts := ["xn--wca.example"], pathPrefix := "/api" }]

/-- The route lists the host itself. -/
def Names (idna : Idna) (host : Str) (r : Route) : Prop :=
  ∃ h ∈ r.hosts, (idna.toASCII h).any fun t => toLower t = toLower host

/-- The route takes the host, by entries that begin with a star and a dot only. -/
def OnlyByStar (idna : Idna) (host : Str) (r : Route) : Prop :=
  (∃ h ∈ r.hosts, entryMatches idna host h) ∧ ¬ Names idna host r ∧
    ∀ h ∈ r.hosts, entryMatches idna host h → "*." <+: h

instance (idna : Idna) (host : Str) (r : Route) : Decidable (Names idna host r) :=
  inferInstanceAs (Decidable (∃ h ∈ r.hosts, (idna.toASCII h).any fun t => toLower t = toLower host))

instance (idna : Idna) (host : Str) (r : Route) : Decidable (OnlyByStar idna host r) :=
  inferInstanceAs (Decidable (_ ∧ _ ∧ _))

lemma labelsMatch_of_toLower_eq {ps ls : List Str} (h : ps.map toLower = ls.map toLower) : labelsMatch ps ls := by
  induction ps generalizing ls with
  | nil =>
    cases ls with
    | nil => rfl
    | cons l ls => cases h
  | cons p ps ih =>
    cases ls with
    | nil => cases h
    | cons l ls =>
      rw [map_cons, map_cons, List.cons.injEq] at h
      simp [labelsMatch, h.1, ih h.2]

lemma hostMatches_of_names (h : Names idna host r) : hostMatches idna r.hosts host := by
  obtain ⟨x, hx, hany⟩ := h
  obtain ⟨t, ht, heq⟩ := (Option.any_eq_true _ _).mp hany
  have hlabels : (labels t).map toLower = (labels host).map toLower := by
    rw [labels, labels, ← Text.splitOn_toLower_dot, ← Text.splitOn_toLower_dot, of_decide_eq_true heq]
  refine Bool.or_eq_true_iff.mpr (.inr (any_eq_true.mpr ⟨x, hx, (Option.any_eq_true _ _).mpr ⟨t, ht, ?_⟩⟩))
  exact labelsMatch_of_toLower_eq hlabels

lemma hostMatches_of_onlyByStar (h : OnlyByStar idna host r) : hostMatches idna r.hosts host := by
  obtain ⟨⟨x, hx, hmatch⟩, -, -⟩ := h
  exact Bool.or_eq_true_iff.mpr (.inr (any_eq_true.mpr ⟨x, hx, hmatch⟩))

lemma wildcardRank_of_onlyByStar (h : OnlyByStar idna host r) : wildcardRank r = 1 := by
  obtain ⟨⟨x, hx, hmatch⟩, -, hstars⟩ := h
  have hstar : '*' ∈ x := (hstars x hx hmatch).subset (by decide)
  have hany : r.hosts.any (·.contains '*') :=
    any_eq_true.mpr ⟨x, hx, contains_iff_mem.mpr hstar⟩
  rw [wildcardRank, if_pos hany]

/-- A zone, and a host of it without a star. -/
def starAndName : List Route :=
  [{ id := "1", hosts := ["*.example.com"] }, { id := "2", hosts := ["app.example.com"] }]

/-- Two hosts, one below the other, that both have a wildcard zone of their own. -/
def nestedZones : List Route :=
  withWildcardHosts [{ id := "1", hosts := ["example.com"], wildcardZone := "example.com" },
      { id := "2", hosts := ["app.example.com"], wildcardZone := "app.example.com" }]
    ["example.com", "app.example.com"]

end Caddyapi
