import CaddyPanel.Caddyapi.NodeConfig

/-!
# Full pushes (`buildNodePush`)

The configuration of a node from the rows of the database. `filter_fullRoutes` says in which order
the routes that concern one request, or one server name, stand in it.
-/

namespace Routes.NodePush

open List
open Text (Str trimSpace)
open Caddyapi (Idna Helpers Route NodeSettings NodeConfig Emitted sortRoutesForEmission
  buildNodeConfig buildRoute withModules withWildcardHost preludeRoutes hostSetsOverlap hostMatches
  EmitLe emitKey FaithfulHosts connPolicy wantsCache)

/-! ### The database of a node -/

structure NodeDb where
  /-- the compiled rows that the node serves, by id -/
  rows : List Route
  /-- the zones that have a DNS-01 policy -/
  zones : List Str
  /-- `routes.wildcard_enabled` -/
  wildcardEnabled : Str → Bool
  /-- `routes.waf_quarantine_fingerprint` of the routes in quarantine -/
  parked : Str → Option Str

section

variable (wafFingerprint : Str → Str) (s : NodeSettings) (db : NodeDb)

def buildRoutesForNode (idna : Idna) (hp : Helpers) (db : NodeDb) : List Route :=
  sortRoutesForEmission idna hp db.rows

/-- Directives that a node refused are left out as long as they are the same text. -/
def applyWAFQuarantine (r : Route) : Route :=
  let directives := trimSpace r.wafDirectives
  if directives ≠ [] && db.parked r.id = some (wafFingerprint directives) then
    { r with wafDirectives := [] }
  else r

def withBranding (r : Route) : Route :=
  { r with errorBranding := s.errorBranding }

/-- A row as a full push gives it to `BuildNodeConfig`. -/
def prepared (r : Route) : Route :=
  withBranding s (applyWAFQuarantine wafFingerprint db r)

end

section

variable {wafFingerprint : Str → Str} {s : NodeSettings} {db : NodeDb}

lemma prepared_eq (r : Route) : ∃ directives, prepared wafFingerprint s db r =
    { r with wafDirectives := directives, errorBranding := s.errorBranding } := by
  unfold prepared applyWAFQuarantine
  dsimp only
  split
  · exact ⟨[], rfl⟩
  · exact ⟨r.wafDirectives, rfl⟩

lemma prepared_id (r : Route) : (prepared wafFingerprint s db r).id = r.id := by
  obtain ⟨directives, h⟩ := prepared_eq r
  rw [h]

lemma prepared_congr {db' : NodeDb} {r : Route} (h : db'.parked r.id = db.parked r.id) :
    prepared wafFingerprint s db' r = prepared wafFingerprint s db r := by
  unfold prepared applyWAFQuarantine
  rw [h]

end

/-- What the panel and the web server of a node compute, and the settings of the node. -/
structure Node where
  idna : Idna
  hp : Helpers
  caUsable : Str → Bool
  wafFingerprint : Str → Str
  settings : NodeSettings

namespace Node

variable (N : Node) (db : NodeDb)

/-- The row as it stands in the configuration, with its zone. -/
def widened (r : Route) : Route :=
  withWildcardHost db.zones (prepared N.wafFingerprint N.settings db r)

/-- `buildNodePush`. -/
def fullConfig : NodeConfig :=
  buildNodeConfig N.idna N.hp N.caUsable { N.settings with zones := db.zones }
    ((buildRoutesForNode N.idna N.hp db).map (prepared N.wafFingerprint N.settings db))

/-- The routes of the full configuration in the order they are tried. -/
def fullRoutes : List Route :=
  sortRoutesForEmission N.idna N.hp ((buildRoutesForNode N.idna N.hp db).map (N.widened db))

def emitted (r : Route) : Emitted :=
  buildRoute N.hp (withModules N.settings r)

def overlap (a b : Route) : Bool :=
  hostSetsOverlap N.idna a.hosts b.hosts

/-- The rows are compared as the server compares them, also with their zones. -/
def FaithfulDb : Prop :=
  FaithfulHosts N.idna (db.rows.map (N.widened db))

/-- Of two rows that share a host by a zone only, one comes first by its keys. -/
def ZonesApart : Prop :=
  ∀ a ∈ db.rows, ∀ b ∈ db.rows, N.overlap (N.widened db a) (N.widened db b) →
    Groups.tied (EmitLe N.hp) (N.widened db a) (N.widened db b) → N.overlap a b

/-- Rows that are both seen share a host. -/
def Together (rows : List Route) (m : Route → Bool) : Prop :=
  ∀ a ∈ rows, ∀ b ∈ rows, m (N.widened db a) → m (N.widened db b) → N.overlap (N.widened db a) (N.widened db b)

variable {N} {db}

/-! ### What a full push changes in a row -/

lemma widened_eq (r : Route) : ∃ extra directives, N.widened db r =
      { r with hosts := r.hosts ++ extra, wafDirectives := directives, errorBranding := N.settings.errorBranding } ∧
    (extra = [] ∨ r.requireClientCert = false) := by
  obtain ⟨directives, h⟩ := @prepared_eq N.wafFingerprint N.settings db r
  unfold widened withWildcardHost
  rw [h]
  split_ifs with hno
  · exact ⟨[], directives, by rw [append_nil], .inl rfl⟩
  · exact ⟨[], directives, by rw [append_nil], .inl rfl⟩
  · simp only [Bool.or_eq_true, not_or, Bool.not_eq_true] at hno
    exact ⟨_, directives, rfl, .inr hno.1.2⟩

lemma widened_id (r : Route) : (N.widened db r).id = r.id := by
  obtain ⟨extra, directives, h, -⟩ := widened_eq r
  rw [h]

lemma hosts_subset_widened (r : Route) : r.hosts ⊆ (N.widened db r).hosts := by
  obtain ⟨extra, directives, h, -⟩ := @widened_eq N db r
  rw [h]
  exact subset_append_left _ _

lemma widened_wantsCache (r : Route) : wantsCache N.hp (N.widened db r) = wantsCache N.hp r := by
  obtain ⟨extra, directives, h, -⟩ := widened_eq r
  rw [h]
  rfl

/-- A row that takes no zone. -/
lemma widened_of_plain {r : Route} (h : withWildcardHost db.zones r = r) :
    N.widened db r = prepared N.wafFingerprint N.settings db r := by
  obtain ⟨directives, hr⟩ := @prepared_eq N.wafFingerprint N.settings db r
  rw [widened, hr]
  unfold withWildcardHost at h ⊢
  split at h
  · rename_i hno
    exact if_pos hno
  rename_i hno
  split at h
  · rename_i hhas
    exact (if_neg hno).trans (if_pos hhas)
  · have hhosts := congrArg Route.hosts h
    simp at hhosts

lemma plain_widened {r : Route} (h : withWildcardHost db.zones r = r) :
    (N.widened db r).hosts = r.hosts ∧ emitKey N.hp (N.widened db r) = emitKey N.hp r := by
  obtain ⟨directives, hr⟩ := @prepared_eq N.wafFingerprint N.settings db r
  rw [widened_of_plain h, hr]
  exact ⟨rfl, rfl⟩

/-! ### The routes of a full push -/

lemma mem_fullRoutes {r : Route} : r ∈ N.fullRoutes db ↔ ∃ q ∈ db.rows, N.widened db q = r := by
  unfold fullRoutes buildRoutesForNode
  rw [Caddyapi.mem_sortRoutesForEmission, mem_map]
  simp only [Caddyapi.mem_sortRoutesForEmission]

lemma fullConfig_eq : N.fullConfig db =
      let routes := N.fullRoutes db
      let pols := Caddyapi.buildConnPolicies N.caUsable N.settings.mtlsFailOpen N.settings.pqCurveAvailable routes
      { routes := preludeRoutes N.hp N.settings ++ routes.map N.emitted
        tlsConnectionPolicies := pols
        strictSNIHost := Caddyapi.hasClientAuth pols
        cacheApp := N.settings.cacheModuleAvailable &&
          ((Caddyapi.panelRoute N.settings).any (wantsCache N.hp) || routes.any (wantsCache N.hp)) } := by
  unfold fullConfig buildNodeConfig fullRoutes
  rw [Caddyapi.withWildcardHosts_eq_map, map_map]
  rfl

lemma fullRoutes_perm : (N.fullRoutes db).Perm (db.rows.map (N.widened db)) :=
  Caddyapi.sortRoutesForEmission_perm.trans (Caddyapi.sortRoutesForEmission_perm.map _)

lemma mem_built {r : Route} (hr : r ∈ (buildRoutesForNode N.idna N.hp db).map (N.widened db)) :
    ∃ q ∈ db.rows, N.widened db q = r := by
  obtain ⟨q, hq, rfl⟩ := mem_map.mp hr
  exact ⟨q, Caddyapi.mem_sortRoutesForEmission.mp hq, rfl⟩

/-- Seen through a predicate whose routes overlap pairwise, the routes are in the order of their
keys, and of the rows where those agree. -/
lemma filter_fullRoutes {m : Route → Bool} (hfaithful : N.FaithfulDb db) (hm : N.Together db db.rows m) :
    (N.fullRoutes db).filter m =
      (((buildRoutesForNode N.idna N.hp db).map (N.widened db)).filter m).insertionSort (EmitLe N.hp) := by
  refine Caddyapi.filter_sortRoutesForEmission (fun r hr => ?_) fun a' ha' b' hb' hma hmb => ?_
  · obtain ⟨q, hq, rfl⟩ := mem_built hr
    exact hfaithful _ (mem_map_of_mem hq)
  · obtain ⟨a, ha, rfl⟩ := mem_built ha'
    obtain ⟨b, hb, rfl⟩ := mem_built hb'
    exact hm a ha b hb hma hmb

/-- Seen through a predicate whose rows overlap pairwise, the rows are in the order of their keys. -/
lemma filter_buildRoutesForNode {m : Route → Bool} (hfaithful : N.FaithfulDb db)
    (hm : ∀ a ∈ db.rows, ∀ b ∈ db.rows, m (N.widened db a) → m (N.widened db b) → N.overlap a b) :
    ((buildRoutesForNode N.idna N.hp db).map (N.widened db)).filter m =
      ((db.rows.filter (m ∘ N.widened db)).insertionSort (EmitLe N.hp)).map (N.widened db) := by
  have hfaithful' : FaithfulHosts N.idna db.rows := fun r hr h hh =>
    hfaithful _ (mem_map_of_mem hr) h (hosts_subset_widened r hh)
  rw [filter_map, buildRoutesForNode]
  exact congrArg (map (N.widened db)) (Caddyapi.filter_sortRoutesForEmission hfaithful' hm)

/-- Two tables give the same routes, up to a change of each, where their rows do and the changes keep the order. -/
lemma filter_fullRoutes_congr {db' : NodeDb} {m : Route → Bool} {f g : Route → Route}
    (hfaithful : N.FaithfulDb db) (hfaithful' : N.FaithfulDb db')
    (hzones : N.ZonesApart db) (hzones' : N.ZonesApart db')
    (hm : N.Together db db.rows (m ∘ f)) (hm' : N.Together db' db'.rows m)
    (hsame : ∀ a ∈ db.rows, m (f (N.widened db a)) → f (N.widened db a) = N.widened db' (g a))
    (hrows : (db.rows.filter (m ∘ f ∘ N.widened db)).map g = db'.rows.filter (m ∘ N.widened db'))
    (horder : ∀ a ∈ db.rows, ∀ b ∈ db.rows, m (f (N.widened db a)) → m (f (N.widened db b)) →
      (EmitLe N.hp a b ↔ EmitLe N.hp (g a) (g b)) ∧
        (EmitLe N.hp (N.widened db a) (N.widened db b) ↔ EmitLe N.hp (f (N.widened db a)) (f (N.widened db b)))) :
    ((N.fullRoutes db).map f).filter m = (N.fullRoutes db').filter m := by
  rw [filter_map, filter_fullRoutes hfaithful hm, filter_fullRoutes hfaithful' hm',
    map_insertionSort (EmitLe N.hp) (EmitLe N.hp), ← filter_map]
  · refine Groups.insertionSort_eq_of_tied _ fun x => ?_
    -- among routes with the same keys the rows decide
    have htied : ∀ a ∈ db.rows, ((fun r => Groups.tied (EmitLe N.hp) x r && m r) ∘ f) (N.widened db a) →
        Groups.tied (EmitLe N.hp) x (f (N.widened db a)) ∧ m (f (N.widened db a)) := fun a _ h =>
      Bool.and_eq_true_iff.mp h
    rw [filter_filter, filter_filter, filter_map, filter_buildRoutesForNode hfaithful,
      filter_buildRoutesForNode hfaithful', map_map]
    · have hseen : (db.rows.filter (((fun r => Groups.tied (EmitLe N.hp) x r && m r) ∘ f) ∘ N.widened db)).map g =
          db'.rows.filter ((fun r => Groups.tied (EmitLe N.hp) x r && m r) ∘ N.widened db') := by
        have hsplit : ∀ (l : List Route) (w : Route → Route),
            l.filter ((fun r => Groups.tied (EmitLe N.hp) x r && m r) ∘ w) =
              (l.filter (m ∘ w)).filter (Groups.tied (EmitLe N.hp) x ∘ w) := fun l w => by
          rw [filter_filter]
          rfl
        rw [hsplit, ← hrows, filter_map]
        refine congrArg (map g) ((hsplit db.rows (f ∘ N.widened db)).trans (filter_congr fun a ha => ?_))
        obtain ⟨ha, hma⟩ := mem_filter.mp ha
        exact congrArg (Groups.tied (EmitLe N.hp) x) (hsame a ha hma)
      rw [← hseen, ← map_insertionSort (EmitLe N.hp) (EmitLe N.hp), map_map]
      · refine map_congr_left fun a ha => ?_
        obtain ⟨ha, hma⟩ := mem_filter.mp ((mem_insertionSort _).mp ha)
        exact hsame a ha (htied a ha hma).2
      · intro a ha b hb
        obtain ⟨ha, hma⟩ := mem_filter.mp ha
        obtain ⟨hb, hmb⟩ := mem_filter.mp hb
        exact (horder a ha b hb (htied a ha hma).2 (htied b hb hmb).2).1
    · intro a ha b hb hma hmb
      obtain ⟨hta, hma⟩ := Bool.and_eq_true_iff.mp hma
      obtain ⟨htb, hmb⟩ := Bool.and_eq_true_iff.mp hmb
      exact hzones' a ha b hb (hm' a ha b hb hma hmb) (Groups.tied_of_tied _ hta htb)
    · intro a ha b hb hma hmb
      obtain ⟨hta, hma⟩ := htied a ha hma
      obtain ⟨htb, hmb⟩ := htied b hb hmb
      refine hzones a ha b hb (hm a ha b hb hma hmb) ((Groups.tied_iff _).mpr ?_)
      rw [(horder a ha b hb hma hmb).2, (horder b hb a ha hmb hma).2]
      exact (Groups.tied_iff _).mp (Groups.tied_of_tied _ hta htb)
  · intro a' ha' b' hb'
    obtain ⟨ha', hma⟩ := mem_filter.mp ha'
    obtain ⟨hb', hmb⟩ := mem_filter.mp hb'
    obtain ⟨a, ha, rfl⟩ := mem_built ha'
    obtain ⟨b, hb, rfl⟩ := mem_built hb'
    exact (horder a ha b hb hma hmb).2

lemma any_fullRoutes {p : Route → Bool} (h : ∀ r, p (N.widened db r) = p r) :
    (N.fullRoutes db).any p = db.rows.any p := by
  rw [Bool.eq_iff_iff, any_eq_true, any_eq_true]
  constructor
  · rintro ⟨r, hr, hpr⟩
    obtain ⟨q, hq, rfl⟩ := mem_fullRoutes.mp hr
    exact ⟨q, hq, h q ▸ hpr⟩
  · rintro ⟨q, hq, hpq⟩
    exact ⟨_, mem_fullRoutes.mpr ⟨q, hq, rfl⟩, (h q).trans hpq⟩

end Node

/-! ### Answers -/

/-- A web server that matches hosts by its own rule. -/
def matching (idna : Idna) (env : Caddy.Env) : Caddy.Env :=
  { env with hostMatches := hostMatches idna }

/-- Two configurations answer every request over every connection in the same way. -/
structure SameAnswers (idna : Idna) (a b : NodeConfig) : Prop where
  route : ∀ env req, a.firstMatch (matching idna env) req = b.firstMatch (matching idna env) req
  policy : ∀ sni, a.policyFor idna sni = b.policyFor idna sni
  strictSNIHost : a.strictSNIHost = b.strictSNIHost
  cacheApp : a.cacheApp = b.cacheApp

namespace Node

variable {N : Node} {db : NodeDb}

/-! ### Requests -/

/-- The route takes the request. -/
def takes (N : Node) (env : Caddy.Env) (req : Caddy.Request) (r : Route) : Bool :=
  (N.emitted r).matches (matching N.idna env) req

/-- Two rows that take one request overlap. -/
lemma FaithfulDb.takes_together (h : N.FaithfulDb db) (env : Caddy.Env) (req : Caddy.Request) :
    N.Together db db.rows (N.takes env req) := fun _ ha _ hb hta htb =>
  Caddyapi.hostSetsOverlap_of_matches (h _ (mem_map_of_mem ha)) (h _ (mem_map_of_mem hb))
    (Caddyapi.hostMatches_of_matches hta) (Caddyapi.hostMatches_of_matches htb)

/-- The panel's own routes first, then those that take the request in the order of the list. -/
lemma firstMatch_eq {cfg : NodeConfig} {routes : List Route}
    (h : cfg.routes = preludeRoutes N.hp N.settings ++ routes.map N.emitted) (env : Caddy.Env) (req : Caddy.Request) :
    cfg.firstMatch (matching N.idna env) req =
      ((preludeRoutes N.hp N.settings).find? fun e => e.matches (matching N.idna env) req).or
        ((routes.filter (N.takes env req)).head?.map N.emitted) := by
  unfold NodeConfig.firstMatch
  rw [h, find?_append, find?_map, head?_filter]
  rfl

/-! ### Connections -/

/-- What a route asks of connections. -/
def ask (N : Node) (r : Route) : List Str × Caddyapi.HostConnPolicy :=
  (r.hosts, connPolicy N.caUsable N.settings.pqCurveAvailable r)

/-- The zone of a row changes the hosts it asks for only. -/
lemma widened_asks (r : Route) : (N.ask (N.widened db r)).2 = (N.ask r).2 := by
  obtain ⟨extra, directives, h, -⟩ := widened_eq r
  rw [h]
  rfl

lemma widened_asksCert (r : Route) : Caddyapi.asksCert (N.ask (N.widened db r)) = Caddyapi.asksCert (N.ask r) := by
  obtain ⟨extra, directives, h, hextra | hcert⟩ := @widened_eq N db r
  · rw [h, hextra, append_nil]
    rfl
  · -- a route with a zone asks for no certificate
    have hnone : (N.ask r).2.caPEM = [] := by simp [ask, connPolicy, hcert]
    simp only [Caddyapi.asksCert, widened_asks, hnone, ne_eq, not_true_eq_false, decide_false, Bool.and_false]

/-- Two rows that ask something of one server name share a host. -/
lemma FaithfulDb.asks_together (h : N.FaithfulDb db) (sni : Str) :
    N.Together db db.rows (Caddyapi.asksFor N.idna sni ∘ N.ask) := by
  have hmatch : ∀ r : Route, (∀ h ∈ r.hosts, Caddyapi.Faithful N.idna h) →
      Caddyapi.asksFor N.idna sni (N.ask r) → hostMatches N.idna r.hosts sni := by
    intro r hf hask
    obtain ⟨h, hh, hsni⟩ := any_eq_true.mp (Bool.and_eq_true_iff.mp hask).2
    refine Bool.or_eq_true_iff.mpr (.inr (any_eq_true.mpr ⟨h, hh, ?_⟩))
    rw [(hf h hh).entryMatches]
    exact hsni
  intro a ha b hb hma hmb
  have hfa := h _ (mem_map_of_mem ha)
  have hfb := h _ (mem_map_of_mem hb)
  exact Caddyapi.hostSetsOverlap_of_matches hfa hfb (hmatch _ hfa hma) (hmatch _ hfb hmb)

lemma tlsConnectionPolicies_fullConfig : (N.fullConfig db).tlsConnectionPolicies =
    Caddyapi.buildConnPolicies N.caUsable N.settings.mtlsFailOpen N.settings.pqCurveAvailable (N.fullRoutes db) := by
  rw [fullConfig_eq]

lemma policyFor_fullConfig (sni : Str) : (N.fullConfig db).policyFor N.idna sni =
    Caddyapi.hostPolicyFor N.idna (Caddyapi.clientAuthMode N.settings.mtlsFailOpen) sni
      (Caddyapi.hostPolicies ((N.fullRoutes db).map N.ask)) := by
  rw [Caddyapi.policyFor_eq _ tlsConnectionPolicies_fullConfig]
  rfl

lemma strictSNIHost_fullConfig :
    (N.fullConfig db).strictSNIHost = db.rows.any fun r => Caddyapi.asksCert (N.ask r) := by
  have hstrict : (N.fullConfig db).strictSNIHost = Caddyapi.hasClientAuth (N.fullConfig db).tlsConnectionPolicies := by
    rw [fullConfig_eq]
  rw [hstrict, tlsConnectionPolicies_fullConfig, Caddyapi.hasClientAuth_eq]
  exact any_map.trans (any_fullRoutes widened_asksCert)

lemma cacheApp_fullConfig : (N.fullConfig db).cacheApp = (N.settings.cacheModuleAvailable &&
    ((Caddyapi.panelRoute N.settings).any (wantsCache N.hp) || db.rows.any (wantsCache N.hp))) := by
  rw [fullConfig_eq, ← any_fullRoutes widened_wantsCache]

end Node

end Routes.NodePush
