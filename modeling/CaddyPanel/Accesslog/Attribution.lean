import CaddyPanel.Handlers.NodeLookup

/-!
# Attribution of log lines

A node reports access-log lines and WAF events by host and URI. The panel finds the route of a report in an index of its
own: by name, then by the longest prefix of the path. The index has every row that is placed on the node and not
disabled, while the node has only the rows that are served, in an order that does not put names before wildcards.
-/

namespace Attribution

open List
open Text (Str trimSpace toLower before behind byteLength)
open Caddyapi (Helpers Idna NodeSettings labels labelsMatch wildcardRank asciiIdna plainHelpers)
open Portal (Row Db PlainName PlainRow PastPrelude FirstOnNode matchedHost served takes nodePath onNode)

/-! ### The index -/

/-- The two kinds of reports; each has a resolver of its own. -/
inductive Source where
  | access
  | waf
  deriving DecidableEq

/-- A row of the query, without an order. -/
def indexed (node : Nat) (row : Row) : Bool :=
  row.status ≠ .disabled && row.nodes.contains node

structure RouteEntry where
  id : Nat
  pathPrefix : Str
  /-- a stripped prefix of an external route ends on a segment boundary -/
  boundary : Bool
  deriving DecidableEq

/-- The host as the index has it. -/
def hostKey (host : Str) : Str :=
  toLower (trimSpace host)

/-- `splitVerifiedAliases`. -/
def splitVerifiedAliases (s : Str) : List Str :=
  (s.splitOnP fun c => [',', ' ', '\t', '\n', '\r', ';'].contains c).filter (· ≠ [])

/-- `splitHostList` is the same splitting as that of the portal. -/
def Source.aliasList : Source → Str → List Str
  | .access => Portal.splitHosts
  | .waf => splitVerifiedAliases

/-- The names that a row is indexed under. -/
def Source.keys (src : Source) (row : Row) : List Str :=
  (hostKey (toLower row.domain) :: (src.aliasList row.aliasesVerified).map hostKey).filter (· ≠ [])

def Source.entry (src : Source) (row : Row) : RouteEntry where
  id := row.id
  pathPrefix := row.pathPrefix
  -- the index for log lines has no such column
  boundary := src = .waf && row.route.external && row.route.stripPathPrefix

def Source.entries (src : Source) (rows : List Row) (key : Str) : List RouteEntry :=
  rows.flatMap fun row => ((src.keys row).filter (· = key)).map fun _ => src.entry row

/-- The comparison of the stable sort. -/
def LongerFirst (a b : RouteEntry) : Prop :=
  byteLength b.pathPrefix ≤ byteLength a.pathPrefix

instance : DecidableRel LongerFirst := fun _ _ => inferInstanceAs (Decidable (_ ≤ _))

instance : Std.Total LongerFirst where
  total a b := Nat.le_total (byteLength b.pathPrefix) (byteLength a.pathPrefix)

instance : IsTrans RouteEntry LongerFirst where
  trans _ _ _ hab hbc := Nat.le_trans hbc hab

abbrev RouteIndex := Str → List RouteEntry

/-- `LoadNodeRouteIndex` and `loadRouteIndex`. -/
def Source.load (src : Source) (rows : List Row) : RouteIndex :=
  fun key => (src.entries rows key).insertionSort LongerFirst

/-! ### Resolving a report -/

/-- The whole host. -/
def RouteEntry.bare (e : RouteEntry) : Bool :=
  e.pathPrefix = [] || e.pathPrefix = "/"

def RouteEntry.matches (e : RouteEntry) (path : Str) : Bool :=
  let p := Caddyapi.trimSuffix "/" e.pathPrefix
  if e.boundary && p ≠ [] then path = p || (p ++ "/").isPrefixOf path
  else e.pathPrefix.isPrefixOf path

/-- The loop of `match`. -/
def matchFrom (path : Str) (fallback : Option Nat) : List RouteEntry → Option Nat
  | [] => fallback
  | e :: es =>
    if e.bare then matchFrom path (fallback.or (some e.id)) es
    else if e.matches path then some e.id
    else matchFrom path fallback es

def RouteIndex.match (idx : RouteIndex) (key path : Str) : Option Nat :=
  matchFrom path none (idx key)

def wildcardKey (host : Str) : Str :=
  "*." ++ behind '.' host

/-- An exact name, then the wildcard of its parent. -/
def RouteIndex.resolve (idx : RouteIndex) (host uri : Str) : Option Nat :=
  if host = [] then none
  else
    (idx.match host (before '?' uri)).or
      (if host.contains '.' then idx.match (wildcardKey host) (before '?' uri) else none)

/-- `stripPort`; a bracket and a colon alone are a slice out of range. -/
def stripPort (addr : Str) : Option Str :=
  match Caddyapi.splitLast ':' addr with
  | none => some addr
  | some (host, _) =>
    if host ≠ [] && addr.head? = some '[' then
      if host.length < 2 then none else some host.tail.dropLast
    else if host.any fun c => c = '.' || c = ']' then some host
    else
      match Caddyapi.atoi host with
      | some n => if -(2 ^ 63) ≤ n && n < 2 ^ 63 then some addr else some host
      | none => some host

/-- The name that a report is looked up by. Log lines lose the port in `toEntry` and again in
`Resolve`. -/
def Source.lookupName : Source → Str → Option Str
  | .access, host => ((stripPort host).bind stripPort).map hostKey
  | .waf, host => some (before ':' (hostKey host))

/-- The route that a report is counted for. -/
def attributed (src : Source) (rows : List Row) (host uri : Str) : Option Nat :=
  (src.lookupName host).bind fun name => (src.load rows).resolve name uri

/-! ### The row that is picked -/

/-- The longest prefix that fits, and otherwise an entry for the whole host; the first of equals. -/
def Chosen (es : List RouteEntry) (path : Str) (e : RouteEntry) : Prop :=
  Groups.IsFirst LongerFirst (es.filter fun e => !e.bare && e.matches path) e ∨
    ((∀ e' ∈ es, e'.bare = false → e'.matches path = false) ∧
      Groups.IsFirst LongerFirst (es.filter RouteEntry.bare) e)

/-- The request is one of the entry. -/
def RouteEntry.fits (e : RouteEntry) (path : Str) : Bool :=
  e.bare || e.matches path

/-- The best entry of the name, and where none of the name fits, the best one of the wildcard of its parent. -/
structure Picked (src : Source) (rows : List Row) (name path key : Str) (R : Row) : Prop where
  mem : R ∈ rows
  keyed : key ∈ src.keys R
  chosen : Chosen (src.entries rows key) path (src.entry R)
  stage : key = name ∨
    (key = wildcardKey name ∧ '.' ∈ name ∧ ∀ e ∈ src.entries rows name, e.fits path = false)

section Index

variable {src : Source} {rows : List Row} {key path host uri : Str} {id : Nat}

lemma matchFrom_eq (path : Str) (fallback : Option Nat) (es : List RouteEntry) :
    matchFrom path fallback es =
      ((es.find? fun e => !e.bare && e.matches path).map RouteEntry.id).or
        (fallback.or ((es.find? RouteEntry.bare).map RouteEntry.id)) := by
  induction es generalizing fallback with
  | nil => simp [matchFrom]
  | cons e es ih =>
    rw [matchFrom, ih, ih]
    by_cases hbare : e.bare
    · simp [hbare]
    by_cases hmatch : e.matches path
    · simp [hbare, hmatch]
    · simp [hbare, hmatch]

lemma match_eq_some : (src.load rows).match key path = some id ↔
    ∃ e, Chosen (src.entries rows key) path e ∧ e.id = id := by
  have hnone : ((src.load rows key).find? fun e => !e.bare && e.matches path) = none ↔
      ∀ e ∈ src.entries rows key, e.bare = false → e.matches path = false := by
    rw [find?_eq_none]
    simp only [Source.load, mem_insertionSort, Bool.and_eq_true, Bool.not_eq_true', not_and,
      Bool.not_eq_true]
  rw [RouteIndex.match, matchFrom_eq, Option.none_or, Option.or_eq_some_iff, Option.map_eq_none_iff,
    hnone, Option.map_eq_some_iff, Option.map_eq_some_iff]
  unfold Source.load Chosen
  simp only [Groups.find?_insertionSort]
  constructor
  · rintro (⟨e, he, hid⟩ | ⟨hno, e, he, hid⟩)
    · exact ⟨e, .inl he, hid⟩
    · exact ⟨e, .inr ⟨hno, he⟩, hid⟩
  · rintro ⟨e, he | ⟨hno, he⟩, hid⟩
    · exact .inl ⟨e, he, hid⟩
    · exact .inr ⟨hno, e, he, hid⟩

lemma match_eq_none : (src.load rows).match key path = none ↔
    ∀ e ∈ src.entries rows key, e.bare = false ∧ e.matches path = false := by
  rw [RouteIndex.match, matchFrom_eq, Option.none_or, Option.or_eq_none_iff, Option.map_eq_none_iff,
    Option.map_eq_none_iff, find?_eq_none, find?_eq_none]
  unfold Source.load
  simp only [mem_insertionSort, Bool.and_eq_true, Bool.not_eq_true', not_and, Bool.not_eq_true]
  constructor
  · rintro ⟨hmatch, hbare⟩ e he
    exact ⟨hbare e he, hmatch e he (hbare e he)⟩
  · intro h
    exact ⟨fun e he _ => (h e he).2, fun e he => (h e he).1⟩

lemma mem_entries {e : RouteEntry} :
    e ∈ src.entries rows key ↔ ∃ R ∈ rows, key ∈ src.keys R ∧ src.entry R = e := by
  unfold Source.entries
  simp only [mem_flatMap, mem_map, mem_filter, decide_eq_true_eq]
  refine exists_congr fun R => and_congr_right fun _ => ⟨?_, ?_⟩
  · rintro ⟨k, ⟨hk, rfl⟩, he⟩
    exact ⟨hk, he⟩
  · rintro ⟨hk, he⟩
    exact ⟨key, ⟨hk, rfl⟩, he⟩

/-- Entries for the whole host come last. -/
def RouteEntry.rank (e : RouteEntry) : Nat :=
  if e.bare then 0 else byteLength e.pathPrefix

variable {es : List RouteEntry} {e e' : RouteEntry}

lemma Chosen.mem (h : Chosen es path e) : e ∈ es := by
  rcases h with h | ⟨-, h⟩
  · exact (mem_filter.mp h.mem).1
  · exact (mem_filter.mp h.mem).1

lemma Chosen.fits (h : Chosen es path e) : e.fits path := by
  unfold RouteEntry.fits
  rcases h with h | ⟨-, h⟩
  · have hfit := (mem_filter.mp h.mem).2
    rw [(Bool.and_eq_true_iff.mp hfit).2, Bool.or_true]
  · rw [(mem_filter.mp h.mem).2, Bool.true_or]

/-- No entry that fits has a longer prefix. -/
lemma Chosen.rank_le (h : Chosen es path e) (he' : e' ∈ es) (hfits : e'.fits path) : e'.rank ≤ e.rank := by
  unfold RouteEntry.rank
  by_cases hbare' : e'.bare
  · simp [hbare']
  have hmatch : e'.matches path := by simpa [RouteEntry.fits, hbare'] using hfits
  rcases h with h | ⟨hnone, -⟩
  · have hbare : e.bare = false := by simpa using (Bool.and_eq_true_iff.mp (mem_filter.mp h.mem).2).1
    rw [if_neg hbare', if_neg (by simp [hbare])]
    exact h.le_of_mem _ _ (mem_filter.mpr ⟨he', by simp [hbare', hmatch]⟩)
  · rw [hnone e' he' (Bool.eq_false_iff.mpr hbare')] at hmatch
    cases hmatch

/-- A report is counted for the row that is picked. -/
lemma picked_of_attributed {name : Str} (hname : src.lookupName host = some name)
    (h : attributed src rows host uri = some id) :
    ∃ key R, Picked src rows name (before '?' uri) key R ∧ R.id = id := by
  unfold attributed RouteIndex.resolve at h
  rw [hname, Option.bind_some] at h
  by_cases hempty : name = []
  · rw [if_pos hempty] at h
    cases h
  rw [if_neg hempty] at h
  rcases Option.or_eq_some_iff.mp h with h | ⟨hnone, h⟩
  · obtain ⟨e, he, rfl⟩ := match_eq_some.mp h
    obtain ⟨R, hR, hkey, rfl⟩ := mem_entries.mp he.mem
    exact ⟨name, R, ⟨hR, hkey, he, .inl rfl⟩, rfl⟩
  · split_ifs at h with hdot
    obtain ⟨e, he, rfl⟩ := match_eq_some.mp h
    obtain ⟨R, hR, hkey, rfl⟩ := mem_entries.mp he.mem
    refine ⟨wildcardKey name, R, ⟨hR, hkey, he, .inr ⟨rfl, contains_iff_mem.mp hdot, fun e' he' => ?_⟩⟩, rfl⟩
    obtain ⟨hbare, hmatch⟩ := match_eq_none.mp hnone e' he'
    simp [RouteEntry.fits, hbare, hmatch]

end Index

/-! ### The route of a request on the node -/

/-- The panel reads the host and the path of the report as the node does. -/
structure PlainReport (idna : Idna) (authorityOk : Str → Bool) (src : Source) (host uri name path : Str) : Prop where
  looked : src.lookupName host = some name
  matched : toLower (matchedHost host) = name
  plain : PlainName idna name
  asked : before '?' uri = path
  served : nodePath authorityOk uri = some path
  rooted : "/".toList.isPrefixOf path

/-- A row of the node that takes the request. -/
structure Taker (idna : Idna) (portalDial : Str) (zones : List Str) (db : Db) (node : Nat) (host path : Str)
    (q : Row) : Prop where
  mem : q ∈ db.rows
  placed : onNode node q
  takes : takes idna host path (served portalDial zones db q)

/-- The rows that the index has for the name are served as they are indexed, those that take the request are indexed as
they are served, and the order of both is settled by the prefixes and the names. -/
structure PlainTable (idna : Idna) (portalDial : Str) (zones : List Str) (db : Db) (node : Nat) (src : Source)
    (host name path : Str) : Prop where
  keyed : ∀ q ∈ db.rows, indexed node q → ∀ key ∈ [name, wildcardKey name], key ∈ src.keys q →
    onNode node q ∧ PlainRow idna portalDial zones db q ∧ key ∈ q.names
  plain : ∀ q, Taker idna portalDial zones db node host path q → PlainRow idna portalDial zones db q
  cased : ∀ q, Taker idna portalDial zones db node host path q → q.prefixOf <+: path
  /-- a star is only the first label -/
  starred : ∀ q, Taker idna portalDial zones db node host path q → ∀ h ∈ q.names, '*' ∈ h →
    labelsMatch (labels h) (labels name) → h = wildcardKey name
  distinct : ∀ a b, Taker idna portalDial zones db node host path a → Taker idna portalDial zones db node host path b →
    a ≠ b → (name ∈ a.names ↔ name ∈ b.names) → byteLength a.prefixOf ≠ byteLength b.prefixOf
  named : ∀ a b, Taker idna portalDial zones db node host path a → Taker idna portalDial zones db node host path b →
    name ∈ a.names → name ∉ b.names → byteLength b.prefixOf < byteLength a.prefixOf ∨
      (byteLength b.prefixOf = byteLength a.prefixOf ∧ '*' ∉ a.domain ++ a.aliasesVerified)

section

variable {idna : Idna} {hp : Helpers} {authorityOk : Str → Bool} {portalDial : Str} {s : NodeSettings}
  {zones : List Str} {db : Db} {node : Nat} {src : Source} {rows : List Row} {host uri name path key : Str} {q R : Row}

lemma labelsMatch_self (ls : List Str) : labelsMatch ls ls := by
  induction ls with
  | nil => rfl
  | cons l ls ih => simp [labelsMatch, ih]

/-- The wildcard of the parent takes the name. -/
lemma labelsMatch_wildcardKey (hdot : '.' ∈ name) : labelsMatch (labels (wildcardKey name)) (labels name) := by
  have hlabels : labels (wildcardKey name) = "*".toList :: labels (behind '.' name) :=
    Text.splitOn_of_mem (by simp [wildcardKey])
  rw [hlabels, labels, labels, Text.splitOn_of_mem hdot]
  simp [labelsMatch, labelsMatch_self]

/-- A row is indexed under its names. -/
lemma mem_keys (hq : PlainRow idna portalDial zones db q) (hkey : key ∈ q.names) : key ∈ src.keys q := by
  have hplain := hq.names key hkey
  have hhostKey : hostKey key = key := by rw [hostKey, hplain.trimSpace, hplain.toLower]
  refine mem_filter.mpr ⟨?_, decide_eq_true hplain.ne_nil⟩
  rcases mem_cons.mp hkey with rfl | halias
  · rw [hplain.toLower, hhostKey]
    exact mem_cons_self
  refine mem_cons_of_mem _ ?_
  have hproven : key ∈ Portal.splitHosts q.aliasesVerified := contains_iff_mem.mp (mem_filter.mp halias).2
  cases src with
  | access => exact mem_map.mpr ⟨key, hproven, hhostKey⟩
  | waf =>
    obtain ⟨p, hp, rfl⟩ := mem_map.mp (mem_filter.mp hproven).1
    refine mem_map.mpr ⟨p, mem_filter.mpr ⟨hp, decide_eq_true ?_⟩, rfl⟩
    rintro rfl
    exact hplain.ne_nil rfl

lemma bare_entry (hq : PlainRow idna portalDial zones db q) : (src.entry q).bare ↔ q.prefixOf = [] := by
  rw [hq.prefixOf_eq]
  unfold RouteEntry.bare Source.entry
  rw [Bool.or_eq_true, decide_eq_true_eq, decide_eq_true_eq]
  split_ifs with hroot
  · simp [hroot]
  · exact or_iff_left hroot

lemma rank_entry (hq : PlainRow idna portalDial zones db q) : (src.entry q).rank = byteLength q.prefixOf := by
  unfold RouteEntry.rank
  split_ifs with hbare
  · rw [(bare_entry hq).mp hbare]
    rfl
  · rw [bare_entry hq, hq.prefixOf_eq] at hbare
    rw [hq.prefixOf_eq, if_neg fun hroot => hbare (if_pos hroot)]
    rfl

lemma fits_entry (hq : PlainRow idna portalDial zones db q) : (src.entry q).fits path ↔ q.prefixOf <+: path := by
  have hboundary : (src.entry q).boundary = false := by
    rw [Source.entry, Bool.and_assoc, hq.unstripped, Bool.and_false]
  unfold RouteEntry.fits RouteEntry.matches
  rw [hboundary, Bool.or_eq_true, bare_entry hq]
  simp only [Bool.false_and, Bool.false_eq_true, if_false, isPrefixOf_iff_prefix]
  rw [hq.prefixOf_eq]
  split_ifs with hroot
  · simp
  · refine ⟨?_, .inr⟩
    rintro (hempty | hprefix)
    · exact ⟨path, by rw [hempty]; rfl⟩
    · exact hprefix

lemma indexed_of_onNode (h : onNode node q) : indexed node q := by
  simp only [onNode, Bool.and_eq_true] at h
  obtain ⟨⟨⟨hnode, hserving⟩, -⟩, -⟩ := h
  refine Bool.and_eq_true_iff.mpr ⟨decide_eq_true fun hdisabled => ?_, hnode⟩
  rw [hdisabled] at hserving
  cases hserving

/-- Another row that takes the request ranks behind the picked one on the node. -/
lemma Picked.precedes (hpicked : Picked src rows name path key R) (hrows : rows.Perm (db.rows.filter (indexed node)))
    (hreport : PlainReport idna authorityOk src host uri name path)
    (htable : PlainTable idna portalDial zones db node src (matchedHost host) name path) (hkey : key ∈ R.names)
    (hR : Taker idna portalDial zones db node (matchedHost host) path R)
    (hq : Taker idna portalDial zones db node (matchedHost host) path q) (hne : q ≠ R) :
    byteLength q.prefixOf < byteLength R.prefixOf ∨ (byteLength q.prefixOf = byteLength R.prefixOf ∧
      wildcardRank (served portalDial zones db R) < wildcardRank (served portalDial zones db q)) := by
  have hplain := htable.plain q hq
  have hmem : q ∈ rows := hrows.mem_iff.mpr (mem_filter.mpr ⟨hq.mem, indexed_of_onNode hq.placed⟩)
  have hfits : (src.entry q).fits path := (fits_entry hplain).mpr (htable.cased q hq)
  have hentry : ∀ k ∈ q.names, src.entry q ∈ src.entries rows k := fun k hk =>
    mem_entries.mpr ⟨q, hmem, mem_keys hplain hk, rfl⟩
  -- under one key the index compares the two
  have hshared : key ∈ q.names → byteLength q.prefixOf ≤ byteLength R.prefixOf := by
    intro hshares
    have hrank := hpicked.chosen.rank_le (hentry key hshares) hfits
    rwa [rank_entry hplain, rank_entry (htable.plain R hR)] at hrank
  by_cases hname : name ∈ q.names
  · have hexact : key = name := by
      rcases hpicked.stage with heq | ⟨-, -, hnone⟩
      · exact heq
      · rw [hnone _ (hentry name hname)] at hfits
        cases hfits
    subst hexact
    exact .inl (lt_of_le_of_ne (hshared hname) (htable.distinct q R hq hR hne (iff_of_true hname hkey)))
  obtain ⟨⟨h, hh, hmatch⟩, -⟩ := (hplain.takes_iff hreport.rooted hreport.matched).mp hq.takes
  by_cases hnameR : name ∈ R.names
  · rcases htable.named R q hR hq hnameR hname with hlt | ⟨heq, hnone⟩
    · exact .inl hlt
    · refine .inr ⟨heq, ?_⟩
      rw [Portal.wildcardRank_of_noStar hnone, hplain.wildcardRank_eq_one hreport.plain ⟨h, hh, hmatch⟩ hname]
      exact Nat.zero_lt_one
  · have hstar : '*' ∈ h :=
      (hplain.star_or_exact hreport.plain hh hmatch).resolve_right fun heq => hname (heq ▸ hh)
    have hwild : key = wildcardKey name := by
      rcases hpicked.stage with heq | ⟨heq, -⟩
      · exact absurd (heq ▸ hkey) hnameR
      · exact heq
    have hshares : key ∈ q.names := hwild ▸ htable.starred q hq h hh hstar hmatch ▸ hh
    exact .inl (lt_of_le_of_ne (hshared hshares) (htable.distinct q R hq hR hne (iff_of_false hname hnameR)))

end

/-! ### A folder on a served host -/

/-- The cart of the shop, under a prefix that may not be verified yet. -/
def cartRow (verified : Bool) : Row :=
  { id := 2, domain := "shop.example", pathPrefix := "/cart", nodes := [1],
    domainVerified := verified, status := if verified then .active else .pendingDns }

/-- The shop and a row for the rest of its zone. -/
def shopDb (verified : Bool) : Db where
  rows := [{ id := 1, domain := "shop.example", nodes := [1] }, cartRow verified,
    { id := 3, domain := "www.example", aliases := "*.example", aliasesVerified := "*.example", nodes := [1],
      wildcardEnabled := true, wildcardZone := "example" }]
  grants := []
  members := []
  sorted := by cases verified <;> decide
  positive := by cases verified <;> decide

/-- The panel is served in the same zone. -/
def shopSettings : NodeSettings where
  panel := ⟨"panel.example", "10.0.0.1", 8080⟩
  zones := ["example"]

/-- The rows that both indexes of the node have. -/
def shopRows (verified : Bool) : List Row :=
  (shopDb verified).rows.filter (indexed 1)

lemma plainRow_shop : ∀ q ∈ (shopDb true).rows, PlainRow asciiIdna [] shopSettings.zones (shopDb true) q := by
  have hall : ∀ q ∈ (shopDb true).rows, (∀ h ∈ q.names, Caddyapi.normalizeHost asciiIdna h = h ∧
      asciiIdna.toASCII h = some h ∧ Caddyapi.validHostMatcher asciiIdna h ∧
      h ∈ (served [] shopSettings.zones (shopDb true) q).hosts) ∧ trimSpace q.pathPrefix = q.pathPrefix ∧
      (q.route.external && q.route.stripPathPrefix) = false := by decide +kernel
  intro q hq
  obtain ⟨hnames, htrim, hstrip⟩ := hall q hq
  exact ⟨fun h hh => ⟨(hnames h hh).1, (hnames h hh).2.1, (hnames h hh).2.2.1⟩, fun h hh => (hnames h hh).2.2.2,
    htrim, hstrip⟩

lemma plainTable_shop : PlainTable asciiIdna [] shopSettings.zones (shopDb true) 1 .access "shop.example"
    "shop.example" "/cart/7" where
  keyed := by
    have hall : ∀ q ∈ (shopDb true).rows, ∀ key ∈ ["shop.example".toList, wildcardKey "shop.example"],
        key ∈ Source.keys .access q → onNode 1 q ∧ key ∈ q.names := by decide +kernel
    exact fun q hq _ key hkey hkeys => ⟨(hall q hq key hkey hkeys).1, plainRow_shop q hq, (hall q hq key hkey hkeys).2⟩
  plain := fun q hq => plainRow_shop q hq.mem
  cased := by
    have hall : ∀ q ∈ (shopDb true).rows, q.prefixOf <+: "/cart/7".toList := by decide +kernel
    exact fun q hq => hall q hq.mem
  starred := by
    have hall : ∀ q ∈ (shopDb true).rows, ∀ h ∈ q.names, '*' ∈ h → h = wildcardKey "shop.example" := by decide +kernel
    exact fun q hq h hh hstar _ => hall q hq.mem h hh hstar
  distinct := by
    have hall : ∀ a ∈ (shopDb true).rows, ∀ b ∈ (shopDb true).rows, a.id ≠ b.id →
        ("shop.example".toList ∈ a.names ↔ "shop.example".toList ∈ b.names) →
        byteLength a.prefixOf ≠ byteLength b.prefixOf := by decide +kernel
    exact fun a b ha hb hne => hall a ha.mem b hb.mem fun hid => hne ((shopDb true).eq_of_id_eq ha.mem hb.mem hid)
  named := by
    have hall : ∀ a ∈ (shopDb true).rows, ∀ b ∈ (shopDb true).rows, "shop.example".toList ∈ a.names →
        "shop.example".toList ∉ b.names → byteLength b.prefixOf < byteLength a.prefixOf ∨
          (byteLength b.prefixOf = byteLength a.prefixOf ∧ '*' ∉ a.domain ++ a.aliasesVerified) := by decide +kernel
    exact fun a b ha hb => hall a ha.mem b hb.mem

lemma pastPrelude_shop : PastPrelude asciiIdna plainHelpers shopSettings "shop.example" "/cart/7" := by
  intro e he env req hhost _
  obtain rfl := mem_singleton.mp he
  refine Bool.eq_false_iff.mpr fun h => ?_
  have hmatch : Caddyapi.hostMatches asciiIdna ["panel.example"] req.host :=
    Caddyapi.hostMatches_of_matches h
  rw [hhost] at hmatch
  revert hmatch
  decide

end Attribution
