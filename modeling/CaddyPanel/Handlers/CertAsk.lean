import CaddyPanel.Handlers.WildcardHosts
import CaddyPanel.Lib.NameLists

/-!
# Certificates on demand (`domainAllowed`)

A node asks the panel before it requests a certificate for a name it has not seen. The panel looks in
the domains of the routes and in the column of their proven aliases. What a node serves is built from
the aliases that are both listed and proven. Three flows write the proven ones: the editor, together
with the list, and the TXT check and the approval of old claims, each from a list that it read before.
-/

namespace CertAsk

open List Runs
open Function (update)
open Text (Str trimSpace toLower)
open Caddyapi (Idna)
open HostEdit (HostRow HostForm EditEnv hostsUpdate)
open NameLists (join names IsName Joined)
open Portal (splitHosts routeHosts)

abbrev RouteId := Nat
abbrev CallId := Nat

/-! ### The check -/

structure TunnelNode where
  transport : Str
  wstunnelPort : Option Nat
  endpoint : Str

/-- The node tunnels over a WebSocket, under a name of its own. -/
def TunnelNode.offers (domain : Str) (n : TunnelNode) : Bool :=
  n.transport ≠ "udp" && n.wstunnelPort.isSome && toLower (Text.before ':' n.endpoint) = domain

/-- `FIND_IN_SET`, in the panel's own version for SQLite. -/
def findInSet (needle csv : Str) : Bool :=
  (csv.splitOn ',').any fun part => trimSpace part = trimSpace needle

/-- A verified route with TLS in a serving status. -/
def eligible (h : HostRow) : Bool :=
  h.base.status.serving && h.columns.ssl && h.base.domainVerified

def domainAllowed (rows : List HostRow) (nodes : List TunnelNode) (domain : Str) : Bool :=
  rows.any (fun h => h.base.domain = domain && eligible h) ||
    nodes.any (TunnelNode.offers domain) ||
    rows.any fun h => h.base.aliasesVerified ≠ [] &&
      findInSet domain (h.base.aliasesVerified.filter (· ≠ ' ')) && eligible h

/-! ### The writers of the proven aliases -/

def isWildcardHost (a : Str) : Bool :=
  "*.".toList.isPrefixOf a

/-- The column that `verifyAliases` writes from the list and the column it read; `none` when it
leaves it alone. `txt` has the answers of the name servers. -/
def verifyAliases (txt : Str → Bool) (aliases prev : Str) : Option Str :=
  let list := splitHosts aliases
  let proven := splitHosts prev
  -- a wildcard has no TXT record: it stays if a platform admin approved it
  let out := list.filter fun a => proven.contains a || (!isWildcardHost a && txt a)
  let changed := list.any fun a => !isWildcardHost a && !proven.contains a && txt a
  if list = [] || (!changed && join out = join proven) then none else some (join out)

/-- The column that `approveLegacyAliases` writes: what was proven, and what the route lists of the
claim. -/
def mergeClaim (claimed current verified : Str) : Str :=
  join ((splitHosts current).foldl (fun keep a =>
    if (splitHosts claimed).contains a && !keep.contains a then keep ++ [a] else keep)
    (splitHosts verified))

/-- The update of `HostsUpdate`, with the names computed from the row `old` that it read first. -/
def commitEdit (platformAdmin : Bool) (old new row : HostRow) : HostRow :=
  let reset := !platformAdmin && Ownership.matcherChangedForUpdate (toLower old.base.domain)
    old.columns.pathPrefix old.base.aliases new.base.domain new.columns.pathPrefix new.base.aliases
  { new with
    base := { new.base with
      id := row.base.id
      portalProtect := row.base.portalProtect
      nodes := row.base.nodes
      withheld := row.base.withheld
      domainVerified := row.base.domainVerified && !reset
      status := if reset then .pendingDns else row.base.status } }

/-! ### The table over time -/

/-- What a call has read. -/
inductive Job where
  /-- `VerifyDomainToken` or `RecheckPendingAliases` with the list of a route -/
  | listed (id : RouteId) (aliases : Str)
  /-- `verifyAliases` with the proven ones too, asking for TXT records -/
  | probing (id : RouteId) (aliases prev : Str)
  | approving (id : RouteId) (claimed aliases verified : Str)
  | editing (id : RouteId) (old : HostRow)

structure World where
  table : WildcardHosts.State
  /-- the pending rows of `route_alias_legacy_claims` -/
  claims : RouteId → Option Str
  jobs : CallId → Option Job

inductive Event where
  | create (n : WildcardHosts.NewRoute)
  | delete (id : RouteId)
  | apiUpdate (id : RouteId) (call : Routes.RouteUpdate.Call)
  | clientEdit (id : RouteId) (form : WildcardHosts.ClientForm)
  /-- the checks of the domain, the lifecycle and the placement -/
  | progress (id : RouteId) (domainVerified : Bool) (status : Lifecycle.Status) (nodes : List Nat)
      (withheld : Bool)
  | readEdit (c : CallId) (id : RouteId)
  | writeEdit (c : CallId) (env : EditEnv) (form : HostForm)
  | readAliases (c : CallId) (id : RouteId)
  | readProven (c : CallId)
  | writeProven (c : CallId) (txt : Str → Bool)
  | readClaim (c : CallId) (id : RouteId)
  | writeClaim (c : CallId)

namespace World

def row (w : World) (id : RouteId) : Option HostRow :=
  w.table.rows.find? fun h => h.base.id = id

def setJob (w : World) (c : CallId) (job : Option Job) : World :=
  { w with jobs := update w.jobs c job }

/-- An update of one row. -/
def modify (w : World) (id : RouteId) (f : HostRow → HostRow) (hf : ∀ h, (f h).base.id = h.base.id) :
    World :=
  { w with table := w.table.modify id f hf }

/-- `UPDATE routes SET aliases_verified = ? WHERE id = ?`. -/
def setVerified (w : World) (id : RouteId) (verified : Str) : World :=
  w.modify id (fun h => { h with base := { h.base with aliasesVerified := verified } }) (WildcardHosts.verified_id verified)

def remove (w : World) (id : RouteId) : World :=
  { w with
    table := {
      rows := w.table.rows.filter fun h => h.base.id ≠ id
      sorted := w.table.sorted.filter _
      positive := fun h hh => w.table.positive h (mem_of_mem_filter hh) } }

end World

section Steps

variable (idna : Idna) (isIP : Str → Bool)

def step (w : World) : Event → Option World
  | .create n =>
    (WildcardHosts.step idna isIP w.table (.create n)).map fun table => { w with table := table }
  | .delete id => some (w.remove id)
  | .apiUpdate id call =>
    some (w.modify id (WildcardHosts.apiUpdated call) (WildcardHosts.apiUpdated_id call))
  | .clientEdit id form =>
    some (w.modify id (WildcardHosts.clientEdited isIP form) (WildcardHosts.clientEdited_id form))
  | .progress id domainVerified status nodes withheld =>
    some (w.modify id (fun h => WildcardHosts.progressed
      ⟨h.base.aliasesVerified, domainVerified, status, nodes, withheld⟩ h) fun _ => rfl)
  | .readEdit c id => (w.row id).map fun h => w.setJob c (some (.editing id h))
  | .writeEdit c env form =>
    match w.jobs c with
    | some (.editing id old) =>
      match hostsUpdate idna isIP env form old with
      | .ok new => some ((w.modify id (commitEdit env.platformAdmin old new) fun _ => rfl).setJob c none)
      | .error _ => some (w.setJob c none)
    | _ => none
  | .readAliases c id => (w.row id).map fun h => w.setJob c (some (.listed id h.base.aliases))
  | .readProven c =>
    match w.jobs c with
    | some (.listed id aliases) =>
      (w.row id).map fun h => w.setJob c (some (.probing id aliases h.base.aliasesVerified))
    | _ => none
  | .writeProven c txt =>
    match w.jobs c with
    | some (.probing id aliases prev) =>
      match verifyAliases txt aliases prev with
      | some verified => some ((w.setVerified id verified).setJob c none)
      | none => some (w.setJob c none)
    | _ => none
  | .readClaim c id =>
    (w.claims id).bind fun claimed => (w.row id).map fun h =>
      w.setJob c (some (.approving id claimed h.base.aliases h.base.aliasesVerified))
  | .writeClaim c =>
    match w.jobs c with
    | some (.approving id claimed aliases verified) =>
      some { (w.setVerified id (mergeClaim claimed aliases verified)).setJob c none with
        claims := update w.claims id none }
    | _ => none

end Steps

/-- What the call has read still stands in the list of the route. -/
def StillListed (w : World) (id : RouteId) (list : List Str) : Prop :=
  ∀ h ∈ w.table.rows, h.base.id = id → ∀ a ∈ list, a ∈ splitHosts h.base.aliases

/-- No alias was taken off the list between the reads of a check or an approval and its write. -/
def Current (w : World) : Event → Prop
  | .writeProven c _ =>
    match w.jobs c with
    | some (.probing id aliases _) => StillListed w id (splitHosts aliases)
    | _ => True
  | .writeClaim c =>
    match w.jobs c with
    | some (.approving id _ aliases verified) =>
      StillListed w id (splitHosts aliases ++ splitHosts verified)
    | _ => True
  | _ => True

/-! ### Stored lists -/

/-- The separators of `splitHostList`. -/
def separates (c : Char) : Bool :=
  [',', ' ', '\t', '\n', '\r', ';'].contains c

lemma splitHosts_eq_names (raw : Str) : splitHosts raw = names separates raw := rfl

lemma splitHostCSV_eq_splitHosts (raw : Str) : Ownership.splitHostCSV raw = splitHosts raw := by
  have hsep : Ownership.isHostSeparator = separates := by
    funext c
    simp [Ownership.isHostSeparator, separates]
  rw [splitHosts_eq_names, ← hsep]
  rfl

variable {raw d a primary zone p aliases x : Str} {keep isIP : Str → Bool}

lemma isName_of_mem_splitHosts (h : d ∈ splitHosts raw) : IsName separates d :=
  NameLists.isName_of_mem_names (Text.of_toLower_ascii (by decide)) h

lemma splitHosts_join {list : List Str} (h : ∀ d ∈ list, IsName separates d) : splitHosts (join list) = list :=
  NameLists.names_join rfl h

/-- The form keeps names of a list. -/
lemma joined_sanitizeAliases {idna : Idna}
    (h : HostEdit.sanitizeAliases idna isIP raw primary zone = .ok aliases) : Joined separates aliases := by
  obtain ⟨out, rfl, hclean⟩ := HostEdit.clean_of_sanitizeAliases h
  refine ⟨out, fun d hd => ?_, rfl⟩
  have hchars := (hclean d hd).chars
  refine ⟨(hclean d hd).ne, fun c hc => HostEdit.separator_of_hostChar (hchars c hc), ?_, ?_⟩
  · exact Text.trimSpace_eq_self fun c hc => (Caddyapi.hostChar_facts (hchars c hc)).1
  · exact Text.toLower_eq_self fun c hc => (Caddyapi.hostChar_facts (hchars c hc)).2.1

/-! ### Rows as they are kept -/

/-- The proven aliases were written from a list, and the domain in lower case. -/
structure WellKept (h : HostRow) : Prop where
  joined : Joined separates h.base.aliasesVerified
  lower : toLower h.base.domain = h.base.domain

/-- Every proven alias is on the list. -/
def Listed (h : HostRow) : Prop :=
  ∀ a ∈ splitHosts h.base.aliasesVerified, a ∈ splitHosts h.base.aliases

section Rows

variable {idna : Idna} {isIP : Str → Bool} {w w' : World}

variable {old new h : HostRow} {form : HostForm} {env : EditEnv} {aliases prev verified a current : Str} {e : Event}

lemma domain_of_hostsUpdate (h : hostsUpdate idna isIP env form old = .ok new) :
    new.base.domain = trimSpace (toLower form.domain) := by
  obtain ⟨-, -, h⟩ := bind_eq_ok.mp h
  obtain ⟨-, -, h⟩ := bind_eq_ok.mp h
  obtain ⟨aliases, -, h⟩ := bind_eq_ok.mp h
  obtain ⟨-, -, h⟩ := bind_eq_ok.mp h
  obtain ⟨-, -, h⟩ := bind_eq_ok.mp h
  obtain ⟨-, -, h⟩ := bind_eq_ok.mp h
  obtain ⟨path, -, h⟩ := bind_eq_ok.mp h
  obtain ⟨-, -, h⟩ := bind_eq_ok.mp h
  obtain ⟨-, -, h⟩ := bind_eq_ok.mp h
  obtain ⟨-, -, h⟩ := bind_eq_ok.mp h
  cases h
  rfl

/-- The two columns that an edit writes together. -/
lemma aliases_of_hostsUpdate (h : hostsUpdate idna isIP env form old = .ok new) :
    Joined separates new.base.aliasesVerified ∧
      ∀ a ∈ splitHosts new.base.aliasesVerified, a ∈ splitHosts new.base.aliases := by
  obtain ⟨domain, path, zone, aliases, hacc⟩ := HostEdit.accepted_of_hostsUpdate h
  rw [hacc.applied]
  simp only [HostForm.apply]
  split_ifs
  · exact ⟨joined_sanitizeAliases hacc.sanitized, fun a ha => ha⟩
  unfold HostEdit.keepProvenHosts
  rw [splitHostCSV_eq_splitHosts, splitHostCSV_eq_splitHosts]
  exact ⟨⟨_, fun _ hd => isName_of_mem_splitHosts (mem_of_mem_filter hd), rfl⟩, fun a ha => by
    change a ∈ splitHosts (join _) at ha
    rw [splitHosts_join fun d hd => isName_of_mem_splitHosts (mem_of_mem_filter hd)] at ha
    exact mem_of_mem_filter ha⟩

lemma WellKept.commitEdit (h : hostsUpdate idna isIP env form old = .ok new) (row : HostRow) :
    WellKept (commitEdit env.platformAdmin old new row) := by
  refine ⟨(aliases_of_hostsUpdate h).1, ?_⟩
  change toLower new.base.domain = new.base.domain
  rw [domain_of_hostsUpdate h, Text.trimSpace_toLower, Text.toLower_toLower]

lemma verifyAliases_eq_some {txt : Str → Bool} (h : verifyAliases txt aliases prev = some verified) :
    ∃ keep : Str → Bool, verified = join ((splitHosts aliases).filter keep) := by
  unfold verifyAliases at h
  dsimp only at h
  split_ifs at h
  cases h
  exact ⟨_, rfl⟩

/-- An alias that a check writes was proven before, or its TXT record is there. -/
lemma mem_of_verifyAliases {txt : Str → Bool}
    (h : verifyAliases txt aliases prev = some verified) (ha : a ∈ splitHosts verified) :
    a ∈ splitHosts prev ∨ txt a := by
  unfold verifyAliases at h
  dsimp only at h
  split_ifs at h
  cases h
  rw [splitHosts_join fun d hd => isName_of_mem_splitHosts (mem_of_mem_filter hd)] at ha
  have hkeep := (mem_filter.mp ha).2
  rw [Bool.or_eq_true, contains_iff_mem, Bool.and_eq_true] at hkeep
  exact hkeep.imp id And.right

/-- A claim adds names of the list to the proven ones. -/
lemma mergeClaim_eq (claimed current verified : Str) :
    ∃ list, mergeClaim claimed current verified = join list ∧
      ∀ a ∈ list, a ∈ splitHosts current ++ splitHosts verified := by
  have hstep : ∀ (keep : List Str) (a x : Str),
      x ∈ (if (splitHosts claimed).contains a && !keep.contains a then keep ++ [a] else keep) →
        x ∈ keep ∨ a = x := by
    intro keep a x hx
    split_ifs at hx
    · rcases mem_append.mp hx with hx | hx
      · exact .inl hx
      · exact .inr (mem_singleton.mp hx).symm
    · exact .inl hx
  refine ⟨_, rfl, fun a ha => ?_⟩
  rcases mem_foldl hstep ha with ha | ⟨b, hb, rfl⟩
  · exact mem_append_right _ ha
  · exact mem_append_left _ hb

/-- Where a row after a step comes from. -/
inductive Source (w : World) (e : Event) (h' : HostRow) : Prop where
  /-- the list and the proven names are those of a row before -/
  | kept (h : HostRow) (mem : h ∈ w.table.rows) (aliases : h'.base.aliases = h.base.aliases)
      (verified : h'.base.aliasesVerified = h.base.aliasesVerified)
      (domain : h'.base.domain = h.base.domain ∨ toLower h'.base.domain = h'.base.domain)
  /-- a new route or an edit, which write both columns -/
  | together (kept : WellKept h') (listed : Listed h')
  /-- a check or an approval, which write the proven names alone -/
  | proven (h : HostRow) (mem : h ∈ w.table.rows) (aliases : h'.base.aliases = h.base.aliases)
      (domain : h'.base.domain = h.base.domain) (list : List Str) (joined : h'.base.aliasesVerified = join list)
      (isName : ∀ a ∈ list, IsName separates a)
      (current : Current w e → ∀ a ∈ list, a ∈ splitHosts h.base.aliases)

lemma Source.self (hh : h ∈ w.table.rows) : Source w e h :=
  .kept h hh rfl rfl (.inl rfl)

lemma source_modify {id : RouteId} {f : HostRow → HostRow} (hf : ∀ h, (f h).base.id = h.base.id)
    (h : ∀ h ∈ w.table.rows, h.base.id = id → Source w e (f h)) :
    ∀ h' ∈ (w.modify id f hf).table.rows, Source w e h' := by
  intro h' hh'
  obtain ⟨row, hrow, rfl⟩ := mem_map.mp hh'
  split_ifs with hid
  · exact h row hrow hid
  · exact .self hrow

/-- A write of the proven names, of a list that the route has where the write is current. -/
lemma source_setVerified {id : RouteId} {list : List Str} (hname : ∀ a ∈ list, IsName separates a)
    (hcurrent : Current w e → StillListed w id list) :
    ∀ h' ∈ (w.setVerified id (join list)).table.rows, Source w e h' := by
  refine source_modify (f := fun h => { h with base := { h.base with aliasesVerified := join list } })
    (fun _ => rfl) fun row hrow hid => ?_
  exact .proven row hrow rfl rfl list rfl hname fun hcur => hcurrent hcur row hrow hid

lemma source_of_step (h : step idna isIP w e = some w') : ∀ h' ∈ w'.table.rows, Source w e h' := by
  have hsame : ∀ h' ∈ w.table.rows, Source w e h' := fun h' hh' => .self hh'
  cases e with
  | create n =>
    obtain ⟨table, htable, rfl⟩ := Option.map_eq_some_iff.mp h
    simp only [WildcardHosts.step] at htable
    split_ifs at htable with hnew
    cases htable
    intro h' hh'
    rcases mem_append.mp hh' with hh' | hh'
    · exact .self hh'
    · rw [mem_singleton.mp hh']
      exact .together ⟨⟨[], by simp, rfl⟩, Text.toLower_toLower _⟩ fun a ha => ha
  | delete id =>
    cases h
    exact fun h' hh' => .self (mem_of_mem_filter hh')
  | apiUpdate id call =>
    cases h
    refine source_modify _ fun row hrow _ => .kept row hrow ?_ ?_ (.inl ?_)
    all_goals rw [WildcardHosts.apiUpdated_base]
  | clientEdit id form =>
    cases h
    refine source_modify _ fun row hrow _ => ?_
    unfold WildcardHosts.clientEdited
    dsimp only
    split
    · split_ifs
      · exact .kept row hrow rfl rfl (.inr (Text.toLower_toLower _))
      · exact .self hrow
    · exact .self hrow
  | progress id domainVerified status nodes withheld =>
    cases h
    exact source_modify _ fun row hrow _ => .kept row hrow rfl rfl (.inl rfl)
  | readEdit c id =>
    obtain ⟨row, -, rfl⟩ := Option.map_eq_some_iff.mp h
    exact hsame
  | writeEdit c env form =>
    simp only [step] at h
    split at h
    · rename_i id old hjob
      split at h
      · rename_i new hok
        cases h
        refine source_modify (f := commitEdit env.platformAdmin old new) (fun _ => rfl) fun row _ _ => ?_
        exact .together (WellKept.commitEdit hok row) (aliases_of_hostsUpdate hok).2
      · cases h
        exact hsame
    · cases h
  | readAliases c id =>
    obtain ⟨row, -, rfl⟩ := Option.map_eq_some_iff.mp h
    exact hsame
  | readProven c =>
    simp only [step] at h
    split at h
    · obtain ⟨row, -, rfl⟩ := Option.map_eq_some_iff.mp h
      exact hsame
    · cases h
  | writeProven c txt =>
    simp only [step] at h
    split at h
    · rename_i id aliases prev hjob
      split at h
      · rename_i verified hverified
        cases h
        obtain ⟨keep, rfl⟩ := verifyAliases_eq_some hverified
        refine source_setVerified ?_ fun hcurrent => ?_
        · exact fun a ha => isName_of_mem_splitHosts (mem_of_mem_filter ha)
        · simp only [Current, hjob] at hcurrent
          exact fun row hrow hid a ha => hcurrent row hrow hid a (mem_of_mem_filter ha)
      · cases h
        exact hsame
    · cases h
  | readClaim c id =>
    obtain ⟨claimed, -, h⟩ := Option.bind_eq_some_iff.mp h
    obtain ⟨row, -, rfl⟩ := Option.map_eq_some_iff.mp h
    exact hsame
  | writeClaim c =>
    simp only [step] at h
    split at h
    · rename_i id claimed aliases verified hjob
      cases h
      obtain ⟨list, hlist, hmem⟩ := mergeClaim_eq claimed aliases verified
      rw [hlist]
      refine source_setVerified ?_ fun hcurrent => ?_
      · exact fun a ha => (mem_append.mp (hmem a ha)).elim isName_of_mem_splitHosts isName_of_mem_splitHosts
      · simp only [Current, hjob] at hcurrent
        exact fun row hrow hid a ha => hcurrent row hrow hid a (hmem a ha)
    · cases h

lemma wellKept_step (hs : ∀ h ∈ w.table.rows, WellKept h)
    (h : step idna isIP w e = some w') : ∀ h ∈ w'.table.rows, WellKept h := by
  intro h' hh'
  cases source_of_step h h' hh' with
  | kept row hrow _ hverified hdomain =>
    refine ⟨hverified ▸ (hs row hrow).joined, ?_⟩
    rcases hdomain with hdomain | hlower
    · rw [hdomain, (hs row hrow).lower]
    · exact hlower
  | together hkept _ => exact hkept
  | proven row hrow _ hdomain list hjoined hname _ =>
    exact ⟨⟨list, hname, hjoined⟩, by rw [hdomain, (hs row hrow).lower]⟩

/-- Where no alias was taken off the list in between, no proven alias is off the list. -/
lemma listed_step (hs : ∀ h ∈ w.table.rows, Listed h) (hcurrent : Current w e)
    (h : step idna isIP w e = some w') : ∀ h ∈ w'.table.rows, Listed h := by
  intro h' hh'
  cases source_of_step h h' hh' with
  | kept row hrow haliases hverified _ =>
    unfold Listed
    rw [haliases, hverified]
    exact hs row hrow
  | together _ hlisted => exact hlisted
  | proven row hrow haliases _ list hjoined hname hlist =>
    unfold Listed
    rw [haliases, hjoined, splitHosts_join hname]
    exact hlist hcurrent

end Rows

/-! ### The check and the config -/

/-- A host matcher is the domain or an alias that is listed and proven. -/
lemma mem_routeHosts {row : Portal.Row} (hx : x ∈ (routeHosts row).1) :
    x = row.domain ∨ (x ∈ splitHosts row.aliases ∧ x ∈ splitHosts row.aliasesVerified) := by
  refine Portal.routeHosts_induction (I := fun out => ∀ x ∈ out.1, x = row.domain ∨
    (x ∈ splitHosts row.aliases ∧ x ∈ splitHosts row.aliasesVerified)) ?_ (fun out _ _ hout => hout) ?_ x hx
  · exact fun y hy => .inl (mem_singleton.mp hy)
  intro out a ha hproven _ hout y hy
  rcases mem_append.mp hy with hy | hy
  · exact hout y hy
  · rw [mem_singleton.mp hy]
    exact .inr ⟨ha, hproven⟩

/-- The alias query, over a column that was written from a list. -/
lemma findInSet_iff {h : HostRow} (hkept : WellKept h) (d : Str) :
    (h.base.aliasesVerified ≠ [] ∧ findInSet d (h.base.aliasesVerified.filter (· ≠ ' '))) ↔
      trimSpace d ∈ splitHosts h.base.aliasesVerified := by
  obtain ⟨list, hname, hjoined⟩ := hkept.joined
  rw [hjoined, splitHosts_join hname]
  exact NameLists.any_splitOn_join rfl rfl hname d

/-- What the check allows. -/
lemma domainAllowed_iff {rows : List HostRow} (hkept : ∀ h ∈ rows, WellKept h) (nodes : List TunnelNode)
    (d : Str) : domainAllowed rows nodes d ↔ (∃ n ∈ nodes, n.offers d) ∨ ∃ h ∈ rows, eligible h ∧
        (d = h.base.domain ∨ trimSpace d ∈ splitHosts h.base.aliasesVerified) := by
  simp only [domainAllowed, Bool.or_eq_true, any_eq_true, Bool.and_eq_true, decide_eq_true_eq]
  constructor
  · rintro ((⟨h, hh, heq, helig⟩ | hnode) | ⟨h, hh, hfound, helig⟩)
    · exact .inr ⟨h, hh, helig, .inl heq.symm⟩
    · exact .inl hnode
    · exact .inr ⟨h, hh, helig, .inr ((findInSet_iff (hkept h hh) d).mp hfound)⟩
  · rintro (hnode | ⟨h, hh, helig, heq | hmem⟩)
    · exact .inl (.inr hnode)
    · exact .inl (.inl ⟨h, hh, heq.symm, helig⟩)
    · exact .inr ⟨h, hh, (findInSet_iff (hkept h hh) d).mpr hmem, helig⟩

/-- A table as the migrations leave it: no alias is proven, and the claims wait for approval. -/
structure Migrated (w : World) : Prop where
  unproven : ∀ h ∈ w.table.rows, h.base.aliasesVerified = []
  lower : ∀ h ∈ w.table.rows, toLower h.base.domain = h.base.domain

/-- The literal hosts of a TLS route that a node serves are allowed, as they are asked for. -/
def Complete (w : World) (nodes : List TunnelNode) : Prop :=
  ∀ (portalDial : Str) (grants members : List (Nat × Nat)) (node : Nat), ∀ h ∈ w.table.rows,
    h.columns.ssl → Portal.onNode node h.row →
      ∀ x ∈ (Portal.compile portalDial (w.table.db grants members) h.row).hosts, '*' ∉ x →
        toLower x = x ∧ domainAllowed w.table.rows nodes x

/-- What is allowed, apart from the endpoints of tunnels, is the domain or a listed and proven alias of
an eligible route. -/
def Sound (w : World) (nodes : List TunnelNode) : Prop :=
  ∀ d, domainAllowed w.table.rows nodes d → (∃ n ∈ nodes, n.offers d) ∨
    ∃ h ∈ w.table.rows, eligible h ∧ (d = h.base.domain ∨
      (trimSpace d ∈ splitHosts h.base.aliases ∧ trimSpace d ∈ splitHosts h.base.aliasesVerified))

lemma complete_of_wellKept {w : World} (hkept : ∀ h ∈ w.table.rows, WellKept h) (nodes : List TunnelNode) :
    Complete w nodes := by
  intro portalDial grants members node h hh hssl hon x hx hstar
  have helig : eligible h := by
    simp only [Portal.onNode, Bool.and_eq_true] at hon
    simp only [eligible, Bool.and_eq_true]
    exact ⟨⟨hon.1.1.2, hssl⟩, hon.1.2⟩
  rcases mem_routeHosts hx with hdomain | ⟨-, hproven⟩
  · rw [hdomain]
    refine ⟨(hkept h hh).lower, (domainAllowed_iff hkept nodes _).mpr (.inr ⟨h, hh, helig, .inl rfl⟩)⟩
  have hname := isName_of_mem_splitHosts hproven
  refine ⟨hname.lower, (domainAllowed_iff hkept nodes _).mpr (.inr ⟨h, hh, helig, .inr ?_⟩)⟩
  rw [hname.trimmed]
  exact hproven

lemma sound_of_listed {w : World} (hkept : ∀ h ∈ w.table.rows, WellKept h)
    (hlisted : ∀ h ∈ w.table.rows, Listed h) (nodes : List TunnelNode) : Sound w nodes := by
  intro d hd
  rcases (domainAllowed_iff hkept nodes d).mp hd with hnode | ⟨h, hh, helig, hdomain | hproven⟩
  · exact .inl hnode
  · exact .inr ⟨h, hh, helig, .inl hdomain⟩
  · exact .inr ⟨h, hh, helig, .inr ⟨hlisted h hh _ hproven, hproven⟩⟩

open Routes.RouteUpdate (plainRow)

/-- One served route with an alias from before the migration. -/
def shop : World where
  table := {
    rows := [{
      base := {
        id := 1
        domain := "shop.io"
        aliases := "old.shop.io"
        nodes := [1] }
      columns := { plainRow with ssl := true } }]
    sorted := pairwise_singleton _ _
    positive := by simp }
  claims := fun _ => none
  jobs := fun _ => none

lemma shop_migrated : Migrated shop :=
  ⟨by simp [shop], by decide +kernel⟩

/-- The owner takes the alias off the list while the TXT record is asked for. -/
def lateCheck : List Event :=
  [.readAliases 0 1, .readProven 0, .readEdit 1 1,
    .writeEdit 1 {} { domain := "shop.io", columns := { plainRow with ssl := true } },
    .writeProven 0 fun _ => true]

/-- The TXT record is found before the edit is written. -/
def timelyCheck : List Event :=
  [.readAliases 0 1, .readProven 0, .readEdit 1 1, .writeProven 0 fun _ => true,
    .writeEdit 1 {} { domain := "shop.io", columns := { plainRow with ssl := true } }]

/-- The query finds in the column what the panel splits off it. -/
def ReadersAgree (w : World) : Prop :=
  ∀ h ∈ w.table.rows, ∀ d, (h.base.aliasesVerified ≠ [] ∧ findInSet d (h.base.aliasesVerified.filter (· ≠ ' '))) ↔
    trimSpace d ∈ splitHosts h.base.aliasesVerified

end CertAsk
