import CaddyPanel.Handlers.HostEdit

/-!
# Wildcard hosts on a node

An alias `*.zone` needs no proof of its own: it stands for every name of a zone that has DNS-01
certificates. It may be emitted only on a route that covers the root path, in a config that has the
automation policy of the zone. The rows come from several write paths; the admin editor is the only
one that knows about wildcard aliases.
-/

namespace WildcardHosts

open List
open Text (Str)
open Caddyapi (Idna Route Helpers wildcardHost withWildcardHost withWildcardHosts)
open HostEdit
open Portal (splitHosts routeHosts)

/-! ### Certificates by DNS-01 -/

/-- `WildcardPolicy`. -/
structure WildcardPolicy where
  zone : Str
  provider : Str
  fields : List (Str × Str)

/-- The names that an automation policy is for. -/
structure AutomationPolicy where
  subjects : List Str

section Policies

variable (renders : WildcardPolicy → Bool)

/-- `dnsZones`; `renders` says that `providerJSON` has an object for the provider and its fields. -/
def dnsZones (dns01ModuleAvailable : Bool) (policies : List WildcardPolicy) : List Str :=
  if dns01ModuleAvailable then (policies.filter renders).map (·.zone) else []

/-- The DNS-01 policies of `BuildNodeConfig`. -/
def dnsPolicies (dns01ModuleAvailable : Bool) (policies : List WildcardPolicy) :
    List AutomationPolicy :=
  if dns01ModuleAvailable then
    (policies.filter renders).map fun wp => ⟨[wildcardHost wp.zone, wp.zone]⟩
  else []

lemma policy_of_mem_dnsZones {available : Bool} {policies : List WildcardPolicy} {zone : Str}
    (h : zone ∈ dnsZones renders available policies) :
    ∃ p ∈ dnsPolicies renders available policies, wildcardHost zone ∈ p.subjects := by
  unfold dnsZones at h
  split_ifs at h with havail
  · obtain ⟨wp, hwp, rfl⟩ := mem_map.mp h
    refine ⟨⟨[wildcardHost wp.zone, wp.zone]⟩, ?_, mem_cons_self⟩
    rw [dnsPolicies, if_pos havail]
    exact mem_map_of_mem hwp
  · cases h

end Policies

/-! ### Rows with a wildcard alias -/

/-- A star stands only in the alias of the enabled zone, and only where the route covers the root. -/
structure WildcardOK (row : Portal.Row) : Prop where
  domain : '*' ∉ row.domain
  aliases : ∀ a ∈ splitHosts row.aliases, '*' ∈ a →
    row.wildcardEnabled ∧ row.wildcardZone ≠ [] ∧ a = wildcardHost row.wildcardZone
  root : ∀ a ∈ splitHosts row.aliases, '*' ∈ a → rootPath row.pathPrefix

lemma routeHosts_of_wildcardOK {row : Portal.Row} (h : WildcardOK row) :
    (∀ x ∈ (routeHosts row).1, '*' ∉ x) ∧ ((routeHosts row).2 ≠ [] → rootPath row.pathPrefix) := by
  refine Portal.routeHosts_induction (I := fun out => (∀ x ∈ out.1, '*' ∉ x) ∧
    (out.2 ≠ [] → rootPath row.pathPrefix)) ⟨?_, fun hne => absurd rfl hne⟩ ?_ ?_
  · intro x hx
    rw [mem_singleton.mp hx]
    exact h.domain
  · intro out _ hroot hout
    exact ⟨hout.1, fun _ => by simpa [rootPath] using hroot⟩
  intro out a ha _ hnozone hout
  refine ⟨fun x hx => ?_, hout.2⟩
  rcases mem_append.mp hx with hx | hx
  · exact hout.1 x hx
  obtain rfl := mem_singleton.mp hx
  intro hstar
  -- a wildcard of the zone that is proven is taken for the whole zone
  obtain ⟨hen, hz, heq⟩ := h.aliases x ha hstar
  exact hnozone ⟨hen, hz, heq, by simpa [rootPath] using h.root x ha hstar⟩

/-- The zone of a row is the one of a proven wildcard. -/
lemma wildcardHost_proven {row : Portal.Row} (h : (routeHosts row).2 ≠ []) :
    wildcardHost (routeHosts row).2 ∈ splitHosts row.aliasesVerified := by
  revert h
  refine Portal.routeHosts_induction (I := fun out => out.2 ≠ [] →
    wildcardHost out.2 ∈ splitHosts row.aliasesVerified) ?_ ?_ ?_
  · exact fun hne => absurd rfl hne
  · exact fun out hproven _ _ _ => hproven
  · exact fun out a _ _ _ hout => hout

/-! ### Routes with a wildcard host -/

section Emission

variable {idna : Idna} {hp : Helpers} {portalDial : Str} {zones : List Str} {db : Portal.Db} {node : Nat}

/-- Good rows give good routes. -/
lemma wildcard_of_mem_nodeRoutes (hok : ∀ row ∈ db.rows, WildcardOK row) {r : Route}
    (hr : r ∈ Portal.nodeRoutes idna hp portalDial zones db node) {zone : Str}
    (hzone : wildcardHost zone ∈ r.hosts) : rootPath r.pathPrefix ∧ zone ∈ zones := by
  obtain ⟨row, hrow, -, rfl⟩ := Portal.mem_nodeRoutes.mp hr
  obtain ⟨hplain, hroot⟩ := routeHosts_of_wildcardOK (hok row hrow)
  rw [(Portal.served_fields row).2.1]
  rcases Caddyapi.mem_withWildcardHost hzone with hmem | ⟨heq, hne, hin⟩
  · exact absurd mem_cons_self (hplain _ hmem)
  · rw [append_cancel_left heq]
    exact ⟨hroot hne, hin⟩

end Emission

/-! ### The write paths -/

/-- What the client's editor sends. -/
structure ClientForm where
  domain : Str
  pathPrefix : Str
  upstreamPort : Int
  webSocket : Bool
  forceHTTPS : Bool
  /-- ownership, plan, range, collisions -/
  allowed : Bool := true

/-- `RouteEditSave`; a refused edit leaves the row. -/
def clientEdited (isIP : Str → Bool) (form : ClientForm) (h : HostRow) : HostRow :=
  let domain := Text.toLower (Text.trimSpace form.domain)
  match Routes.RouteUpdate.normalizePath form.pathPrefix with
  | .ok path =>
    if validDomain isIP domain && form.allowed then
      { base :=
          { h.base with
            domain := domain
            domainVerified := h.base.domainVerified && domain = Text.toLower h.base.domain &&
              path = h.columns.pathPrefix }
        columns :=
          { h.columns with
            pathPrefix := path
            upstreamPort := form.upstreamPort
            webSocket := form.webSocket
            forceHTTPS := form.forceHTTPS || h.columns.requireClientCert } }
    else h
  | .error _ => h

/-- `UpdateRoute`; a refused update leaves the row. -/
def apiUpdated (call : Routes.RouteUpdate.Call) (h : HostRow) : HostRow :=
  match call.finish h.columns h.columns with
  | .ok (columns, _) => { h with columns := columns }
  | .error _ => h

/-- `HostsUpdate`; a refused edit leaves the row. -/
def adminEdited (idna : Idna) (isIP : Str → Bool) (env : EditEnv) (form : HostForm) (h : HostRow) :
    HostRow :=
  match hostsUpdate idna isIP env form h with
  | .ok h' => h'
  | .error _ => h

/-- What checks, the certificate machinery and placement write: never a name or a path. -/
structure Progress where
  aliasesVerified : Str
  domainVerified : Bool
  status : Lifecycle.Status
  nodes : List Nat
  withheld : Bool

def progressed (p : Progress) (h : HostRow) : HostRow :=
  { h with
    base :=
      { h.base with
        aliasesVerified := p.aliasesVerified
        domainVerified := p.domainVerified
        status := p.status
        nodes := p.nodes
        withheld := p.withheld } }

/-- A new row: `Create` writes no aliases. -/
structure NewRoute where
  id : Nat
  domain : Str
  wildcardEnabled : Bool := false
  wildcardZone : Str := []
  domainVerified : Bool := true
  nodes : List Nat := []
  columns : Routes.RouteUpdate.Columns
  route : Route := { id := [], hosts := [] }

def NewRoute.host (n : NewRoute) : HostRow where
  base :=
    { id := n.id
      domain := Text.toLower (Text.trimSpace n.domain)
      wildcardEnabled := n.wildcardEnabled
      wildcardZone := n.wildcardZone
      domainVerified := n.domainVerified
      nodes := n.nodes
      status := .pendingDns
      route := n.route }
  columns := n.columns

/-! ### The table over time -/

/-- The rows in the order of their ids. -/
structure State where
  rows : List HostRow
  sorted : rows.Pairwise fun a b => a.base.id < b.base.id
  positive : ∀ h ∈ rows, 0 < h.base.id

/-- The tables of a push, with any grants of the portal. -/
def State.db (s : State) (grants members : List (Nat × Nat)) : Portal.Db where
  rows := s.rows.map HostRow.row
  grants := grants
  members := members
  sorted := pairwise_map.mpr s.sorted
  positive := by
    intro r hr
    obtain ⟨h, hh, rfl⟩ := mem_map.mp hr
    exact s.positive h hh

/-- One row is rewritten under its id. -/
def State.modify (s : State) (id : Nat) (f : HostRow → HostRow)
    (hf : ∀ h, (f h).base.id = h.base.id) : State where
  rows := s.rows.map fun h => if h.base.id = id then f h else h
  sorted := by
    rw [pairwise_map]
    refine s.sorted.imp fun {a b} hab => ?_
    have hid : ∀ h : HostRow, (if h.base.id = id then f h else h).base.id = h.base.id := by
      intro h
      split_ifs
      · exact hf h
      · rfl
    rw [hid a, hid b]
    exact hab
  positive := by
    intro h hh
    obtain ⟨h', hh', rfl⟩ := mem_map.mp hh
    split_ifs
    · rw [hf h']
      exact s.positive h' hh'
    · exact s.positive h' hh'

def State.empty : State where
  rows := []
  sorted := .nil
  positive := fun _ h => nomatch h

inductive Event where
  | create (n : NewRoute)
  | adminEdit (id : Nat) (env : EditEnv) (form : HostForm)
  | apiUpdate (id : Nat) (call : Routes.RouteUpdate.Call)
  | clientEdit (id : Nat) (form : ClientForm)
  | progress (id : Nat) (p : Progress)

section Steps

variable {idna : Idna} {isIP : Str → Bool}

lemma adminEdited_id (env : EditEnv) (form : HostForm) (h : HostRow) :
    (adminEdited idna isIP env form h).base.id = h.base.id := by
  unfold adminEdited
  split
  · next h' hok =>
    obtain ⟨domain, path, zone, aliases, hacc⟩ := accepted_of_hostsUpdate hok
    rw [hacc.applied]
    rfl
  · rfl

lemma apiUpdated_base (call : Routes.RouteUpdate.Call) (h : HostRow) : (apiUpdated call h).base = h.base := by
  unfold apiUpdated
  split <;> rfl

lemma apiUpdated_id (call : Routes.RouteUpdate.Call) (h : HostRow) : (apiUpdated call h).base.id = h.base.id := by
  rw [apiUpdated_base]

lemma verified_id (verified : Str) (h : HostRow) :
    { h with base := { h.base with aliasesVerified := verified } }.base.id = h.base.id :=
  rfl

lemma clientEdited_id (form : ClientForm) (h : HostRow) : (clientEdited isIP form h).base.id = h.base.id := by
  unfold clientEdited
  dsimp only
  split
  · split_ifs <;> rfl
  · rfl

variable (idna isIP)

def step (s : State) : Event → Option State
  | .create n =>
    if hnew : (∀ h ∈ s.rows, h.base.id < n.id) ∧ 0 < n.id ∧
        validDomain isIP (Text.toLower (Text.trimSpace n.domain)) then
      some
        { rows := s.rows ++ [n.host]
          sorted := pairwise_append.mpr ⟨s.sorted, pairwise_singleton _ _, by
            intro a ha b hb
            rw [mem_singleton.mp hb]
            exact hnew.1 a ha⟩
          positive := by
            intro h hh
            rcases mem_append.mp hh with hh | hh
            · exact s.positive h hh
            · rw [mem_singleton.mp hh]
              exact hnew.2.1 }
    else none
  | .adminEdit id env form =>
    some (s.modify id (adminEdited idna isIP env form) (adminEdited_id env form))
  | .apiUpdate id call =>
    some (s.modify id (apiUpdated call) (apiUpdated_id call))
  | .clientEdit id form => some (s.modify id (clientEdited isIP form) (clientEdited_id form))
  | .progress id p => some (s.modify id (progressed p) fun _ => rfl)

end Steps

/-! ### Every reachable row is good -/

/-- The row lists a wildcard alias, proven or not. -/
def listsWildcard (h : HostRow) : Bool :=
  (splitHosts h.base.aliases).any fun a => a.contains '*'

/-- A write path that does not look at the aliases gives no prefix to a row with a wildcard alias. -/
def KeepsRoot (s : State) : Event → Prop
  | .apiUpdate id call => ∀ h ∈ s.rows, h.base.id = id → listsWildcard h →
      ∀ raw ∈ call.input.pathPrefix, rootPath (Text.trimSpace raw)
  | .clientEdit id form => ∀ h ∈ s.rows, h.base.id = id → listsWildcard h →
      rootPath (Text.trimSpace form.pathPrefix)
  | _ => True

lemma listsWildcard_of_mem {h : HostRow} {a : Str} (ha : a ∈ splitHosts h.base.aliases)
    (hstar : '*' ∈ a) : listsWildcard h :=
  any_eq_true.mpr ⟨a, ha, by simpa using hstar⟩

lemma rootPath_of_normalizePath {raw path : Str} (h : Routes.RouteUpdate.normalizePath raw = .ok path)
    (hroot : rootPath (Text.trimSpace raw)) : rootPath path := by
  simp only [rootPath, Bool.or_eq_true, decide_eq_true_eq] at hroot
  rcases hroot with hroot | hroot
  · simp only [Routes.RouteUpdate.normalizePath, hroot] at h
    cases h
    rfl
  · simp only [Routes.RouteUpdate.normalizePath, hroot] at h
    cases h
    rfl

section Rows

variable {idna : Idna} {isIP : Str → Bool} {h : HostRow}

/-- The editor that knows wildcard aliases checks all that a good row needs. -/
lemma WildcardOK.adminEdited (hok : WildcardOK h.row) (env : EditEnv) (form : HostForm) :
    WildcardOK (adminEdited idna isIP env form h).row := by
  unfold WildcardHosts.adminEdited
  split
  · next h' haccept =>
    obtain ⟨domain, path, zone, aliases, hacc⟩ := accepted_of_hostsUpdate haccept
    have hstar := star_of_sanitizeAliases hacc.sanitized
    rw [hacc.applied]
    refine ⟨not_star_of_validDomain hacc.valid, fun a ha hs => ?_, fun a ha hs => ?_⟩
    · obtain ⟨hzone, heq, -⟩ := hstar a ha hs
      unfold wildcardAliasZone at hzone heq
      split_ifs at hzone heq with hen
      · exact ⟨hen, hzone, heq⟩
      · exact absurd rfl hzone
    · exact hacc.root (hstar a ha hs).2.2
  · exact hok

lemma WildcardOK.apiUpdated (hok : WildcardOK h.row) {call : Routes.RouteUpdate.Call} (hroot : listsWildcard h →
      ∀ raw ∈ call.input.pathPrefix, rootPath (Text.trimSpace raw)) : WildcardOK (apiUpdated call h).row := by
  unfold WildcardHosts.apiUpdated
  split
  · next columns changed hfin =>
    obtain ⟨path, hpath, rfl⟩ := Routes.RouteUpdate.Call.finish_eq_ok hfin
    refine ⟨hok.domain, hok.aliases, fun a ha hs => ?_⟩
    have hold := hok.root a ha hs
    have hnew : rootPath path := by
      unfold Routes.RouteUpdate.nextPath at hpath
      split at hpath
      · cases hpath
        exact hold
      · next raw hraw =>
        exact rootPath_of_normalizePath hpath (hroot (listsWildcard_of_mem ha hs) raw hraw)
    change rootPath (ite _ _ _ : Routes.RouteUpdate.Columns).pathPrefix
    split_ifs
    · exact hold
    · exact hnew
  · exact hok

lemma WildcardOK.clientEdited (hok : WildcardOK h.row) {form : ClientForm}
    (hroot : listsWildcard h → rootPath (Text.trimSpace form.pathPrefix)) :
    WildcardOK (clientEdited isIP form h).row := by
  unfold WildcardHosts.clientEdited
  dsimp only
  split
  · next path hpath =>
    split_ifs with hvalid
    · rw [Bool.and_eq_true] at hvalid
      refine ⟨not_star_of_validDomain hvalid.1, hok.aliases, fun a ha hs => ?_⟩
      exact rootPath_of_normalizePath hpath (hroot (listsWildcard_of_mem ha hs))
    · exact hok
  · exact hok

lemma WildcardOK.progressed (hok : WildcardOK h.row) (p : Progress) : WildcardOK (progressed p h).row :=
  ⟨hok.domain, hok.aliases, hok.root⟩

/-- Every row of the table is good. -/
def Good (s : State) : Prop :=
  ∀ h ∈ s.rows, WildcardOK h.row

lemma Good.modify {s : State} (hs : Good s) {id : Nat} {f : HostRow → HostRow} {hf : ∀ h, (f h).base.id = h.base.id}
    (hgood : ∀ h ∈ s.rows, h.base.id = id → WildcardOK h.row → WildcardOK (f h).row) : Good (s.modify id f hf) := by
  intro h' hh'
  obtain ⟨h, hh, rfl⟩ := mem_map.mp hh'
  split_ifs with hid
  · exact hgood h hh hid (hs h hh)
  · exact hs h hh

lemma Good.step {s s' : State} {e : Event} (hs : Good s) (hroot : KeepsRoot s e)
    (h : step idna isIP s e = some s') : Good s' := by
  cases e with
  | create n =>
    simp only [WildcardHosts.step] at h
    split_ifs at h with hnew
    cases h
    intro h' hh'
    rcases mem_append.mp hh' with hh' | hh'
    · exact hs h' hh'
    · rw [mem_singleton.mp hh']
      exact ⟨not_star_of_validDomain hnew.2.2, nofun, nofun⟩
  | adminEdit id env form =>
    cases h
    exact hs.modify fun h _ _ hok => hok.adminEdited env form
  | apiUpdate id call =>
    cases h
    exact hs.modify fun h hh hid hok => hok.apiUpdated (hroot h hh hid)
  | clientEdit id form =>
    cases h
    exact hs.modify fun h hh hid hok => hok.clientEdited (hroot h hh hid)
  | progress id p =>
    cases h
    exact hs.modify fun h _ _ hok => hok.progressed p

end Rows

/-- In every run in which no update or client edit gives a prefix to a route that lists a wildcard
alias, a node's routes have a wildcard host only where they cover the root, next to the policy of
its zone. -/
theorem wildcard_hosts_at_root_with_policy {idna : Idna} {isIP : Str → Bool} {events : List Event}
    {s : State} (hroot : Runs.Meets (step idna isIP) KeepsRoot State.empty events)
    (hrun : Runs.run (step idna isIP) State.empty events = some s)
    (hp : Helpers) (portalDial : Str) (grants members : List (Nat × Nat)) (node : Nat)
    (renders : WildcardPolicy → Bool) (dns01ModuleAvailable : Bool) (policies : List WildcardPolicy) :
    ∀ r ∈ Portal.nodeRoutes idna hp portalDial (dnsZones renders dns01ModuleAvailable policies)
        (s.db grants members) node,
      ∀ zone, wildcardHost zone ∈ r.hosts → rootPath r.pathPrefix ∧
        ∃ p ∈ dnsPolicies renders dns01ModuleAvailable policies, wildcardHost zone ∈ p.subjects := by
  have hgood : Good s :=
    Runs.run_invariant_of_meets (fun _ _ _ hs hC h => hs.step hC h) (by simp [Good, State.empty])
      hroot hrun
  have hok : ∀ row ∈ (s.db grants members).rows, WildcardOK row := by
    intro row hrow
    obtain ⟨h, hh, rfl⟩ := mem_map.mp hrow
    exact hgood h hh
  intro r hr zone hzone
  obtain ⟨hpath, hin⟩ := wildcard_of_mem_nodeRoutes hok hr hzone
  exact ⟨hpath, policy_of_mem_dnsZones renders hin⟩

/-! ### A prefix on a wildcard route -/

open Routes.RouteUpdate (plainRow portAndPath)

/-- A host, its wildcard alias, and a check that it is served. -/
def wildcardSetup : List Event :=
  [.create { id := 1, domain := "app.z.io", columns := plainRow }, .adminEdit 1 {}
      { domain := "app.z.io"
        aliases := "*.z.io"
        wildcardEnabled := true
        wildcardZone := "z.io"
        columns := plainRow },
    .progress 1 ⟨"*.z.io", true, .active, [1], false⟩]

theorem wildcard_hosts_at_root_with_policy_served :
    ∃ s, Runs.run (step Caddyapi.asciiIdna fun _ => false) State.empty wildcardSetup = some s ∧
      ∀ r ∈ Portal.nodeRoutes Caddyapi.asciiIdna Caddyapi.plainHelpers []
          (dnsZones (fun _ => true) true [⟨"z.io", [], []⟩]) (s.db [] []) 1,
        ∀ zone, wildcardHost zone ∈ r.hosts → rootPath r.pathPrefix ∧
          ∃ p ∈ dnsPolicies (fun _ => true) true [⟨"z.io", [], []⟩], wildcardHost zone ∈ p.subjects := by
  have hroot : Runs.Meets (step Caddyapi.asciiIdna fun _ => false) KeepsRoot State.empty
      wildcardSetup := ⟨trivial, trivial, trivial, trivial⟩
  exact ⟨_, rfl, wildcard_hosts_at_root_with_policy hroot rfl Caddyapi.plainHelpers [] [] [] 1
    (fun _ => true) true [⟨"z.io", [], []⟩]⟩

/-- After an update of the path alone the node has the wildcard on a prefix, without any policy. -/
theorem wildcard_host_on_path_without_policy :
    ∃ s, Runs.run (step Caddyapi.asciiIdna fun _ => false) State.empty
        (wildcardSetup ++ [.apiUpdate 1 (portAndPath .second)]) = some s ∧
      ∃ r ∈ Portal.nodeRoutes Caddyapi.asciiIdna Caddyapi.plainHelpers []
          (dnsZones (fun _ => true) true []) (s.db [] []) 1,
        wildcardHost "z.io" ∈ r.hosts ∧ r.pathPrefix = "/app" ∧ dnsPolicies (fun _ => true) true [] = [] := by
  refine ⟨_, rfl, _, Portal.mem_nodeRoutes.mpr ⟨_, mem_cons_self, ?_, rfl⟩, ?_, ?_, rfl⟩
  · decide +kernel
  · decide +kernel
  · decide +kernel

end WildcardHosts
