import CaddyPanel.Handlers.Portal

/-!
# The route that a node takes

A node tries the panel's own routes and then those of the table in the emission order, by the converted host and the
cleaned path. The panel looks requests up in other ways, over the rows. Here the two are compared for rows whose names
are written as the server compares them: what the row takes, and which of two rows comes first on the node.
-/

namespace Portal

open List
open Text (Str trimSpace toLower byteLength)
open Caddyapi (Route Helpers Idna NodeSettings EmitLe Faithful labels labelsMatch labelsIntersect normalizeHost
  validHostMatcher hostsOverlap hostMatches entryMatches pathMatch pathSpecificity wildcardRank)

/-! ### Requests to a node -/

/-- The name that the host matcher compares. -/
def matchedHost (host : Str) : Str :=
  match Caddyapi.splitHostPort host with
  | some (name, _) => name
  | none =>
    let name := if host.head? = some '[' then host.tail else host
    Caddyapi.trimSuffix "]" name

/-- A star at the end takes every continuation; case does not matter. -/
def pathMatches (idna : Idna) (patterns : List Str) (path : Str) : Bool :=
  patterns.any fun p =>
    if p.getLast? = some '*' then (p.dropLast.map idna.lower).isPrefixOf (path.map idna.lower)
    else p.map idna.lower = path.map idna.lower

/-- The node compares the decoded and cleaned path. -/
def nodePath (authorityOk : Str → Bool) (uri : Str) : Option Str :=
  (Url.parseRequestURI authorityOk uri).map Paths.cleanDir

def takes (idna : Idna) (host path : Str) (r : Route) : Bool :=
  hostMatches idna r.hosts host && (pathMatch r = [] || pathMatches idna (pathMatch r) path)

/-- The web server with these matchers. -/
def nodeMatchers (idna : Idna) (env : Caddy.Env) : Caddy.Env :=
  { env with hostMatches := hostMatches idna, pathMatches := pathMatches idna }

/-- The routes of the panel itself and of the tunnel, which stand before those of the table, leave the request. -/
def PastPrelude (idna : Idna) (hp : Helpers) (s : NodeSettings) (host path : Str) : Prop :=
  ∀ e ∈ Caddyapi.preludeRoutes hp s, ∀ (env : Caddy.Env) (req : Caddy.Request), req.host = host → req.path = path →
    e.matches (nodeMatchers idna env) req = false

/-- Of the routes of the node that take the request the first one is that of `R`. -/
structure FirstOnNode (idna : Idna) (hp : Helpers) (portalDial : Str) (s : NodeSettings) (db : Db) (node : Nat)
    (host path : Str) (R : Row) : Prop where
  mem : R ∈ db.rows
  placed : onNode node R
  past : PastPrelude idna hp s host path
  first : (nodeRoutes idna hp portalDial s.zones db node).find? (takes idna host path) =
    some (served portalDial s.zones db R)

/-! ### Names -/

/-- A name that the panel and the server compare as it is written. -/
structure PlainName (idna : Idna) (h : Str) : Prop where
  settled : normalizeHost idna h = h
  converted : idna.toASCII h = some h
  valid : validHostMatcher idna h

/-- The domain of the row and its proven aliases. -/
def Row.names (q : Row) : List Str :=
  q.domain :: (splitHosts q.aliases).filter fun a => (splitHosts q.aliasesVerified).contains a

/-- The row is stored as the node serves it: plain names, each of them a matcher, and a prefix matched as such. -/
structure PlainRow (idna : Idna) (portalDial : Str) (zones : List Str) (db : Db) (q : Row) : Prop where
  names : ∀ h ∈ q.names, PlainName idna h
  emitted : ∀ h ∈ q.names, h ∈ (served portalDial zones db q).hosts
  trimmed : trimSpace q.pathPrefix = q.pathPrefix
  unstripped : (q.route.external && q.route.stripPathPrefix) = false

section

variable {idna : Idna} {hp : Helpers} {portalDial : Str} {zones : List Str} {db : Db} {node : Nat} {q R : Row}
  {a h host name path raw : Str} {ps ls : List Str}

lemma PlainName.ne_nil (hh : PlainName idna h) : h ≠ [] := by
  have hvalid := hh.valid
  simp only [validHostMatcher, Bool.and_eq_true, decide_eq_true_eq] at hvalid
  exact hh.settled ▸ hvalid.1.1.1.1.2

lemma PlainName.toLower (hh : PlainName idna h) : toLower h = h :=
  Text.toLower_eq_self fun _ hc => Caddyapi.lower_of_mem_normalizeHost (hh.settled.symm ▸ hc)

lemma PlainName.trimSpace (hh : PlainName idna h) : trimSpace h = h := by
  have hvalid := hh.valid
  simp only [validHostMatcher, hh.settled, Bool.and_eq_true] at hvalid
  exact Text.trimSpace_eq_self fun c hc => (Caddyapi.hostChar_facts (Caddyapi.hostChar_of_valid hvalid.2 c hc)).1

lemma PlainName.faithful (hh : PlainName idna h) : Faithful idna h := by
  refine ⟨?_, ?_, ?_⟩
  · rw [hh.converted, hh.settled, Option.map_some, hh.toLower]
  · exact hh.settled.symm ▸ hh.ne_nil
  · rw [hh.settled, hh.settled]

lemma labelsMatch_toLower_right (ps ls : List Str) : labelsMatch ps (ls.map toLower) = labelsMatch ps ls := by
  induction ps generalizing ls with
  | nil => cases ls <;> rfl
  | cons p ps ih =>
    cases ls with
    | nil => rfl
    | cons l ls => simp only [map_cons, labelsMatch, Text.toLower_toLower, ih]

/-- Against a name without a star the overlap test is the match. -/
lemma labelsIntersect_eq (hstar : "*".toList ∉ ls) : labelsIntersect ps ls = labelsMatch ps ls := by
  induction ps generalizing ls with
  | nil => cases ls <;> rfl
  | cons p ps ih =>
    cases ls with
    | nil => rfl
    | cons l ls =>
      rw [mem_cons, not_or] at hstar
      have hl : (decide (l = "*".toList)) = false := decide_eq_false (Ne.symm hstar.1)
      rw [labelsIntersect, labelsMatch, ih hstar.2, hl, Bool.or_false]

lemma star_notMem_labels (h : '*' ∉ host) : "*".toList ∉ labels host := fun hmem =>
  h (Text.mem_of_mem_of_mem_splitOn hmem mem_cons_self)

lemma PlainName.overlaps (hh : PlainName idna h) (hhost : PlainName idna host) (hstar : '*' ∉ host) :
    hostsOverlap idna h host = labelsMatch (labels h) (labels host) := by
  unfold hostsOverlap Caddyapi.hostPatternsIntersect
  simp only [hh.settled, hhost.settled, hh.ne_nil, hhost.ne_nil, hh.valid, hhost.valid, decide_false, Bool.not_true,
    Bool.false_or]
  exact labelsIntersect_eq (star_notMem_labels hstar)

lemma PlainName.entryMatches (hh : PlainName idna h) (hname : Text.toLower name = host) :
    entryMatches idna name h = labelsMatch (labels h) (labels host) := by
  rw [Caddyapi.entryMatches, hh.converted, Option.any_some, ← hname, labels, labels, labels, Text.splitOn_toLower_dot,
    labelsMatch_toLower_right]

/-- A name without a star takes itself only. -/
lemma PlainName.eq_of_match (hh : PlainName idna h) (hhost : PlainName idna host) (hstar : '*' ∉ h)
    (hmatch : labelsMatch (labels h) (labels host)) : h = host := by
  have hlabels := (Caddyapi.labelsMatch_iff (star_notMem_labels hstar)).mp hmatch
  rw [labels, labels, ← Text.splitOn_toLower_dot, ← Text.splitOn_toLower_dot, hh.toLower, hhost.toLower] at hlabels
  rw [← @intercalate_splitOn _ h _ _ '.', hlabels, intercalate_splitOn]

/-! ### Rows -/

lemma isInfix_of_mem_splitHosts (h : a ∈ splitHosts raw) : a <:+: toLower raw := by
  obtain ⟨hmem, -⟩ := mem_filter.mp h
  obtain ⟨p, hp, rfl⟩ := mem_map.mp hmem
  have hinfix : trimSpace p <:+: raw :=
    ((Text.trimSpace_isPrefix p).isInfix.trans (dropWhile_suffix _).isInfix).trans (Text.isInfix_of_mem_splitOnP hp)
  exact hinfix.map Char.toLower

lemma star_of_mem_splitHosts (h : a ∈ splitHosts raw) (hstar : '*' ∈ a) : '*' ∈ raw := by
  obtain ⟨c, hc, hlower⟩ := mem_map.mp ((isInfix_of_mem_splitHosts h).subset hstar)
  have hsame := Text.of_toLower_ascii (f := (decide <| · = '*')) (by decide) c
  exact (decide_eq_decide.mp hsame).mp hlower ▸ hc

lemma routeHosts_names (q : Row) : (∀ h ∈ (routeHosts q).1, h ∈ q.names) ∧
    ((routeHosts q).2 ≠ [] → Caddyapi.wildcardHost (routeHosts q).2 ∈ q.names) := by
  unfold routeHosts
  refine List.foldlRecOn _ _ (motive := fun out : List Str × Str => (∀ h ∈ out.1, h ∈ q.names) ∧
    (out.2 ≠ [] → Caddyapi.wildcardHost out.2 ∈ q.names)) ?_ fun out hout a ha => ?_
  · exact ⟨fun h hh => mem_singleton.mp hh ▸ mem_cons_self, fun hne => absurd rfl hne⟩
  have hname : (splitHosts q.aliasesVerified).contains a → a ∈ q.names := fun hproven =>
    mem_cons_of_mem _ (mem_filter.mpr ⟨ha, hproven⟩)
  dsimp only
  split_ifs with hzone hplain
  · simp only [Bool.and_eq_true, decide_eq_true_eq] at hzone
    exact ⟨hout.1, fun _ => hzone.1.1.2 ▸ hname hzone.1.2⟩
  · refine ⟨fun h hh => ?_, hout.2⟩
    rcases mem_append.mp hh with hh | hh
    · exact hout.1 h hh
    · exact mem_singleton.mp hh ▸ hname (Bool.and_eq_true_iff.mp hplain).2
  · exact hout

lemma mem_names_of_mem_hosts (hh : h ∈ (served portalDial zones db q).hosts) : h ∈ q.names := by
  rcases Caddyapi.mem_withWildcardHost hh with hh | ⟨rfl, hne, -⟩
  · exact (routeHosts_names q).1 h hh
  · exact (routeHosts_names q).2 hne

lemma pathSpecificity_served : pathSpecificity (served portalDial zones db q) = byteLength q.prefixOf := by
  unfold pathSpecificity Row.prefixOf
  rw [(served_fields q).2.1]
  dsimp only
  split_ifs <;> rfl

lemma hostServedBy_iff : hostServedBy idna host q ↔ ∃ h ∈ q.names, hostsOverlap idna h host := by
  unfold hostServedBy Row.names
  rw [exists_mem_cons_iff, Bool.or_eq_true, any_eq_true]
  refine or_congr_right (exists_congr fun a => ?_)
  rw [mem_filter, Bool.and_eq_true, and_assoc]

/-- A row without a star has none on the node. -/
lemma wildcardRank_of_noStar (h : '*' ∉ q.domain ++ q.aliasesVerified) :
    wildcardRank (served portalDial zones db q) = 0 := by
  refine if_neg fun hany => ?_
  obtain ⟨x, hx, hstar⟩ := any_eq_true.mp hany
  rw [mem_append, not_or] at h
  rcases mem_cons.mp (mem_names_of_mem_hosts hx) with rfl | halias
  · exact h.1 (contains_iff_mem.mp hstar)
  · exact h.2 (star_of_mem_splitHosts (contains_iff_mem.mp (mem_filter.mp halias).2) (contains_iff_mem.mp hstar))

namespace PlainRow

variable (hq : PlainRow idna portalDial zones db q)

include hq

lemma faithful : ∀ h ∈ (served portalDial zones db q).hosts, Faithful idna h := fun h hh =>
  (hq.names h (mem_names_of_mem_hosts hh)).faithful

/-- The names of the row that take the host. -/
lemma hostMatches_iff (hname : toLower name = host) : hostMatches idna (served portalDial zones db q).hosts name ↔
    ∃ h ∈ q.names, labelsMatch (labels h) (labels host) := by
  have hne : (served portalDial zones db q).hosts ≠ [] := ne_nil_of_mem (hq.emitted q.domain mem_cons_self)
  unfold hostMatches
  rw [Bool.or_eq_true, List.isEmpty_iff, or_iff_right hne, any_eq_true]
  constructor
  · rintro ⟨h, hh, hmatch⟩
    have hmem := mem_names_of_mem_hosts hh
    exact ⟨h, hmem, (hq.names h hmem).entryMatches hname ▸ hmatch⟩
  · rintro ⟨h, hh, hmatch⟩
    exact ⟨h, hq.emitted h hh, (hq.names h hh).entryMatches hname ▸ hmatch⟩

lemma hostServedBy_iff_match (hhost : PlainName idna host) (hstar : '*' ∉ host) :
    hostServedBy idna host q ↔ ∃ h ∈ q.names, labelsMatch (labels h) (labels host) := by
  rw [hostServedBy_iff]
  refine exists_congr fun h => and_congr_right fun hh => ?_
  rw [(hq.names h hh).overlaps hhost hstar]

lemma prefixOf_eq : q.prefixOf = if q.pathPrefix = "/" then [] else q.pathPrefix := by
  unfold Row.prefixOf
  rw [hq.trimmed]

/-- What the path matcher of the row takes. -/
lemma pathTaken_iff (hrooted : "/".toList.isPrefixOf path) :
    (pathMatch (served portalDial zones db q) = [] ||
        pathMatches idna (pathMatch (served portalDial zones db q)) path) ↔
      (q.prefixOf = [] ∨ (q.prefixOf.map idna.lower).isPrefixOf (path.map idna.lower)) := by
  obtain ⟨-, hpath, hexternal, hstrip⟩ := @served_fields portalDial zones db q
  have hslash : idna.lower '/' = '/' := idna.lower_ascii '/' (by decide)
  have hpattern : pathMatch (served portalDial zones db q) =
      if q.pathPrefix = [] then [] else [q.pathPrefix ++ "*"] := by
    unfold pathMatch
    rw [hpath, hexternal, hstrip, hq.unstripped]
    rfl
  rw [hpattern, hq.prefixOf_eq]
  by_cases hempty : q.pathPrefix = []
  · simp [hempty]
  rw [if_neg hempty]
  have hmatch : pathMatches idna [q.pathPrefix ++ "*"] path =
      (q.pathPrefix.map idna.lower).isPrefixOf (path.map idna.lower) := by
    simp [pathMatches]
  rw [hmatch]
  by_cases hroot : q.pathPrefix = "/"
  · have hstart : "/".toList <+: path := List.isPrefixOf_iff_prefix.mp hrooted
    have hlower : ("/".toList.map idna.lower).isPrefixOf (path.map idna.lower) :=
      List.isPrefixOf_iff_prefix.mpr (hstart.map idna.lower)
    simp only [hroot, hlower, if_true, true_or, Bool.or_true]
  · rw [if_neg hroot, or_iff_right hempty]
    simp

/-- What the row takes on the node. -/
lemma takes_iff (hrooted : "/".toList.isPrefixOf path) (hname : toLower name = host) :
    takes idna name path (served portalDial zones db q) ↔
      (∃ h ∈ q.names, labelsMatch (labels h) (labels host)) ∧
        (q.prefixOf = [] ∨ (q.prefixOf.map idna.lower).isPrefixOf (path.map idna.lower)) := by
  unfold takes
  rw [Bool.and_eq_true, hq.hostMatches_iff hname, hq.pathTaken_iff hrooted]

/-- A name that takes the host is the host, or has a star. -/
lemma star_or_exact (hhost : PlainName idna host) (hh : h ∈ q.names)
    (hmatch : labelsMatch (labels h) (labels host)) : '*' ∈ h ∨ h = host :=
  or_iff_not_imp_left.mpr fun hstar => (hq.names h hh).eq_of_match hhost hstar hmatch

/-- A row that takes the host and does not name it has a star on the node. -/
lemma wildcardRank_eq_one (hhost : PlainName idna host)
    (htakes : ∃ h ∈ q.names, labelsMatch (labels h) (labels host)) (hexact : host ∉ q.names) :
    wildcardRank (served portalDial zones db q) = 1 := by
  obtain ⟨h, hh, hmatch⟩ := htakes
  have hstar : '*' ∈ h := (hq.star_or_exact hhost hh hmatch).resolve_right fun heq => hexact (heq ▸ hh)
  have hany : (served portalDial zones db q).hosts.any (·.contains '*') :=
    any_eq_true.mpr ⟨h, hq.emitted h hh, contains_iff_mem.mpr hstar⟩
  exact if_pos hany

end PlainRow

/-! ### The order on the node -/

lemma eq_of_served_id (hq : q ∈ db.rows) (hR : R ∈ db.rows)
    (h : (served portalDial zones db q).id = (served portalDial zones db R).id) : q = R := by
  rw [(served_fields q).1, (served_fields R).1] at h
  exact db.eq_of_id_eq hq hR (Caddyapi.itoa_natCast_injective h)

/-- The rows of the node in the order in which they are given to the builder. -/
lemma mem_built {r : Route} : r ∈ Caddyapi.withWildcardHosts (buildRoutesForNode idna hp portalDial db node) zones ↔
    ∃ row ∈ db.rows, onNode node row ∧ served portalDial zones db row = r :=
  Caddyapi.mem_sortRoutesForEmission.symm.trans (@mem_nodeRoutes idna hp portalDial zones db node r)

/-- Seen through a predicate whose routes take one host by faithful entries, the routes are ordered by their keys. -/
lemma filter_nodeRoutes (host : Str) {m : Route → Bool}
    (hm : ∀ q ∈ db.rows, onNode node q → m (served portalDial zones db q) →
      (∀ h ∈ (served portalDial zones db q).hosts, Faithful idna h) ∧
        hostMatches idna (served portalDial zones db q).hosts host) :
    (nodeRoutes idna hp portalDial zones db node).filter m =
      ((Caddyapi.withWildcardHosts (buildRoutesForNode idna hp portalDial db node) zones).filter m).insertionSort
        (EmitLe hp) := by
  refine Caddyapi.filter_sortRoutesForEmission_of_groupOf fun i hi j hj hmi hmj => ?_
  obtain ⟨a, ha, hona, hra⟩ := mem_built.mp (getElem_mem hi)
  obtain ⟨b, hb, honb, hrb⟩ := mem_built.mp (getElem_mem hj)
  obtain ⟨hfa, hta⟩ := hm a ha hona (hra ▸ hmi)
  obtain ⟨hfb, htb⟩ := hm b hb honb (hrb ▸ hmj)
  exact Caddyapi.groupOf_of_hostMatches hi hj (hra ▸ hfa) (hrb ▸ hfb) (hra ▸ hta) (hrb ▸ htb)

/-- The first route that takes the request does not come behind another one that takes it. -/
lemma emitLe_of_first (hR : R ∈ db.rows) (honR : onNode node R) (hq : q ∈ db.rows) (honq : onNode node q)
    (hfR : ∀ h ∈ (served portalDial zones db R).hosts, Faithful idna h)
    (hfq : ∀ h ∈ (served portalDial zones db q).hosts, Faithful idna h)
    (hfirst : (nodeRoutes idna hp portalDial zones db node).find? (takes idna host path) =
      some (served portalDial zones db R)) (htakes : takes idna host path (served portalDial zones db q)) :
    EmitLe hp (served portalDial zones db R) (served portalDial zones db q) := by
  -- the list with nothing but the two
  let m : Route → Bool := fun r => decide (r.id = (served portalDial zones db R).id) ||
    decide (r.id = (served portalDial zones db q).id)
  have htakesR : takes idna host path (served portalDial zones db R) := find?_some hfirst
  have hm : ∀ a ∈ db.rows, m (served portalDial zones db a) → a = R ∨ a = q := by
    intro a ha hma
    rcases Bool.or_eq_true_iff.mp hma with hid | hid
    · exact .inl (eq_of_served_id ha hR (of_decide_eq_true hid))
    · exact .inr (eq_of_served_id ha hq (of_decide_eq_true hid))
  have hhost : ∀ a ∈ db.rows, onNode node a → m (served portalDial zones db a) →
      (∀ h ∈ (served portalDial zones db a).hosts, Faithful idna h) ∧
        hostMatches idna (served portalDial zones db a).hosts host := by
    intro a ha _ hma
    rcases hm a ha hma with rfl | rfl
    · exact ⟨hfR, (Bool.and_eq_true_iff.mp htakesR).1⟩
    · exact ⟨hfq, (Bool.and_eq_true_iff.mp htakes).1⟩
  obtain ⟨-, front, back, hlist, hfront⟩ := find?_eq_some_iff_append.mp hfirst
  have hnone : front.filter m = [] := by
    rw [filter_eq_nil_iff]
    intro r hr hmr
    have hmem : r ∈ nodeRoutes idna hp portalDial zones db node := hlist ▸ mem_append_left _ hr
    obtain ⟨a, ha, -, rfl⟩ := mem_nodeRoutes.mp hmem
    have hnot := hfront _ hr
    rcases hm a ha hmr with rfl | rfl
    · simp [htakesR] at hnot
    · simp [htakes] at hnot
  have hmR : m (served portalDial zones db R) := by simp [m]
  have hhead : ((nodeRoutes idna hp portalDial zones db node).filter m).head? =
      some (served portalDial zones db R) := by
    rw [hlist, List.filter_append, hnone, nil_append, filter_cons_of_pos hmR]
    rfl
  rw [filter_nodeRoutes host hhost, Groups.head?_insertionSort] at hhead
  exact hhead.le_of_mem _ _ (mem_filter.mpr ⟨mem_built.mpr ⟨q, hq, honq, rfl⟩, by simp [m]⟩)

/-- A row that comes before every other one that takes the request is the first. -/
lemma first_of_precedes (hR : R ∈ db.rows) (honR : onNode node R)
    (htakes : takes idna host path (served portalDial zones db R))
    (hfaithful : ∀ q ∈ db.rows, onNode node q → takes idna host path (served portalDial zones db q) →
      ∀ h ∈ (served portalDial zones db q).hosts, Faithful idna h)
    (hprecedes : ∀ q ∈ db.rows, onNode node q → takes idna host path (served portalDial zones db q) → q ≠ R →
      ¬ EmitLe hp (served portalDial zones db q) (served portalDial zones db R)) :
    (nodeRoutes idna hp portalDial zones db node).find? (takes idna host path) =
      some (served portalDial zones db R) := by
  rw [← head?_filter, filter_nodeRoutes host fun q hq hon hmq =>
    ⟨hfaithful q hq hon hmq, (Bool.and_eq_true_iff.mp hmq).1⟩, Groups.head?_insertionSort]
  refine Groups.isFirst_of_lt _ (mem_filter.mpr ⟨mem_built.mpr ⟨R, hR, honR, rfl⟩, htakes⟩) fun r hr hne => ?_
  obtain ⟨hr, hmr⟩ := mem_filter.mp hr
  obtain ⟨q, hq, hon, rfl⟩ := mem_built.mp hr
  exact hprecedes q hq hon hmr fun heq => hne (heq ▸ rfl)

end

end Portal
