import CaddyPanel.Dnssteer.Reconciler
import CaddyPanel.Lib.Batches
import CaddyPanel.Lib.Runs

/-!
# Passes without end

Each pass of the reconciler looks at the first orphaned rows in the order of their providers, and at the next routes
behind its cursor. The rows of a provider whose calls always fail stay where they are. The cursor goes on whether or
not a route fails.
-/

namespace Dnssteer

open List Rows Runs
open Text (Str)

variable {cfg : Config} {l : Ledger} {o : Owned} {e : Env} {s : State}

/-! ### What becomes of a row -/

lemma mem_forgetOwned {key : ℕ × ℕ × Str} : o ∈ forgetOwned l key ↔ o ∈ l ∧ o.key ≠ key := by
  rw [forgetOwned, mem_delete, decide_eq_false_iff_not]

lemma mem_rememberOwned {o' : Owned} : o' ∈ rememberOwned l o ↔ (o' ∈ l ∧ o'.key ≠ o.key) ∨ o' = o := by
  have hnew : o.key ∉ (forgetOwned l o.key).rows.map Owned.key := by
    intro hmem
    obtain ⟨o', ho', hkey⟩ := mem_map.mp hmem
    exact (mem_forgetOwned.mp ho').2 hkey
  have hinsert : (forgetOwned l o.key).insert o = some (rememberOwned l o) := by
    rw [rememberOwned, Rows.insert, dif_neg hnew]
    rfl
  rw [mem_insert hinsert, mem_forgetOwned]

/-- A change of the ledger brings no orphaned row. -/
def Clean (cfg : Config) (l l' : Ledger) : Prop :=
  ∀ o ∈ l', cfg.orphaned o → o ∈ l

lemma Clean.refl (l : Ledger) : Clean cfg l l :=
  fun _ ho _ => ho

variable {l' l'' : Ledger} {keys keys' : List (ℕ × ℕ × Str)}

lemma Clean.trans (h : Clean cfg l l') (h' : Clean cfg l' l'') : Clean cfg l l'' :=
  fun o ho horphaned => h o (h' o ho horphaned) horphaned

lemma clean_forgetOwned (key : ℕ × ℕ × Str) : Clean cfg l (forgetOwned l key) :=
  fun _ ho _ => (mem_forgetOwned.mp ho).1

lemma clean_rememberOwned (h : cfg.orphaned o = false) : Clean cfg l (rememberOwned l o) := by
  intro o' ho' horphaned
  obtain ⟨ho', -⟩ | rfl := mem_rememberOwned.mp ho'
  · exact ho'
  · rw [h] at horphaned
    cases horphaned

/-- The row that gets the number of its record is the one that was just inserted. -/
lemma clean_storeRecordID (h : cfg.orphaned o = false) (id : ℕ) :
    Clean cfg l (storeRecordID (rememberOwned l o) o.key id) := by
  intro o' ho' horphaned
  obtain ⟨o₀, ho₀, rfl⟩ := mem_update.mp ho'
  by_cases hkey : o₀.key = o.key
  · obtain ⟨-, hne⟩ | rfl := mem_rememberOwned.mp ho₀
    · exact absurd hkey hne
    rw [if_pos (decide_eq_true rfl)] at horphaned
    have hsame : cfg.orphaned { o₀ with recordID := some id } = cfg.orphaned o₀ := rfl
    rw [hsame, h] at horphaned
    cases horphaned
  · rw [if_neg (by simpa using hkey)] at horphaned ⊢
    exact clean_rememberOwned h o₀ ho₀ horphaned

/-! ### Routes -/

/-- A row for a candidate of a steered route is not orphaned. -/
lemma orphaned_eq_false {sr : Route} {providerID : ℕ} {c : Candidate} (hsr : sr ∈ cfg.routes)
    (hsteered : Config.steered sr) (hprovider : sr.dnsProviderID = some providerID)
    (hc : c ∈ cfg.loadCandidates sr) (recordID : Option ℕ) :
    cfg.orphaned ⟨sr.id, c.id, providerID, sr.domain, c.ip, recordID⟩ = false := by
  obtain ⟨node, hnode, rfl⟩ := mem_map.mp hc
  obtain ⟨hnode, hserves⟩ := mem_filter.mp hnode
  have hlookup : cfg.nodes.lookup node.id = some node := lookup_key hnode
  simp only [Config.steered, Bool.and_eq_true, Bool.not_eq_true'] at hsteered
  simp only [Bool.and_eq_true, Bool.or_eq_true, decide_eq_true_eq] at hserves
  simp only [Config.orphaned, lookup_key hsr, hsteered, hprovider, hlookup]
  obtain hanchor | hassigned := hserves.1
  · simp [hanchor]
  · simp [hassigned]

section Steer

variable {a : Answers} {sr : Route} {providerID : ℕ} {b : Books}

lemma clean_applyAction {action : Action × ℕ} (h : ∀ nodeID type name value, action.1 = .add nodeID type name value →
      cfg.orphaned ⟨sr.id, nodeID, providerID, sr.domain, value, none⟩ = false) :
    Clean cfg b.ledger (applyAction a sr providerID b action).ledger := by
  obtain ⟨action, i⟩ := action
  cases action with
  | add nodeID type name value =>
    have hrow := h nodeID type name value rfl
    simp only [applyAction]
    split
    · exact clean_forgetOwned _
    split
    · exact clean_storeRecordID hrow _
    · exact clean_rememberOwned hrow
    · exact clean_rememberOwned hrow
  | remove x =>
    simp only [applyAction]
    split
    · exact clean_forgetOwned _
    · exact .refl _
    · exact .refl _

lemma clean_reconcileRoute (hsr : sr ∈ cfg.routes) (hsteered : Config.steered sr)
    (hprovider : sr.dnsProviderID = some providerID) :
    Clean cfg b.ledger (reconcileRoute a sr providerID (cfg.loadCandidates sr) b).ledger := by
  have hplan : Clean cfg b.ledger (diffAndApply a sr providerID (cfg.loadCandidates sr) b).ledger := by
    refine List.foldlRecOn (motive := fun b' : Books => Clean cfg b.ledger b'.ledger) _ _ (.refl _)
      fun b' hb' action haction => hb'.trans (clean_applyAction fun nodeID type name value hadd => ?_)
    have hmem := fst_mem_of_mem_zipIdx haction
    rw [hadd, planActions, mem_append] at hmem
    obtain hmem | hmem := hmem
    · obtain ⟨c, hc, heq⟩ := mem_map.mp hmem
      cases heq
      exact orphaned_eq_false hsr hsteered hprovider (mem_filter.mp hc).1 none
    · obtain ⟨x, -, heq⟩ := mem_map.mp hmem
      cases heq
  unfold reconcileRoute
  split
  · exact .refl _
  split
  · split
    · exact hplan
    · exact .refl _
  · exact .refl _
  · exact .refl _

lemma clean_steerOne (hsr : sr ∈ cfg.routes) (hsteered : Config.steered sr) :
    Clean cfg s.ledger (steerOne cfg e s sr).ledger := by
  simp only [steerOne]
  split
  · next providerID hprovider =>
    split
    · exact clean_reconcileRoute hsr hsteered hprovider
    · exact .refl _
  · exact .refl _

lemma clean_steerRoutes : Clean cfg s.ledger (steerRoutes cfg e s).ledger := by
  have hfold : Clean cfg s.ledger ((targets cfg s.cursor).foldl (steerOne cfg e) s).ledger :=
    List.foldlRecOn (motive := fun t : State => Clean cfg s.ledger t.ledger) _ _ (.refl _) fun _ ht _ hsr =>
      ht.trans (clean_steerOne (mem_targets hsr).1 (mem_targets hsr).2.1)
  simp only [steerRoutes]
  split
  · exact .refl _
  split
  · exact hfold
  · exact hfold

end Steer

/-! ### The cleanup -/

/-- Every call fails. -/
def Answers.Fails (a : Answers) : Prop :=
  a.lookup = .failed ∨ a.lookup = .ready ∧ a.listed = false

/-- Every call succeeds, or the provider has been deleted. -/
def Answers.Works (a : Answers) : Prop :=
  a.lookup = .gone ∨ a.lookup = .ready ∧ a.listed ∧ ∀ i, a.replies i = .ok

/-- Of the rows of the ledger, only such with one of the keys are lost. -/
structure Prunes (keys : List (ℕ × ℕ × Str)) (l l' : Ledger) : Prop where
  sub : ∀ o ∈ l', o ∈ l
  stays : ∀ o ∈ l, o.key ∉ keys → o ∈ l'

lemma Prunes.refl (keys : List (ℕ × ℕ × Str)) (l : Ledger) : Prunes keys l l :=
  ⟨fun _ ho => ho, fun _ ho _ => ho⟩

lemma Prunes.trans (h : Prunes keys l l') (h' : Prunes keys l' l'') : Prunes keys l l'' :=
  ⟨fun o ho => h.sub o (h'.sub o ho), fun o ho hkey => h'.stays o (h.stays o ho hkey) hkey⟩

lemma Prunes.mono (h : Prunes keys l l') (hkeys : keys ⊆ keys') : Prunes keys' l l' :=
  ⟨h.sub, fun o ho hkey => h.stays o ho fun hmem => hkey (hkeys hmem)⟩

lemma prunes_forgetOwned {key : ℕ × ℕ × Str} (h : key ∈ keys) : Prunes keys l (forgetOwned l key) :=
  ⟨fun _ ho => (mem_forgetOwned.mp ho).1, fun _ ho hkey => mem_forgetOwned.mpr ⟨ho, fun heq => hkey (heq ▸ h)⟩⟩

section Cleanup

variable {a : Answers} {b : Books} {owned : List Owned} {live : List Record} {t : Owned}

variable {keys : List (ℕ × ℕ × Str)}

lemma prunes_cleanupRow {x : Owned × ℕ} (h : x.1.key ∈ keys) : Prunes keys b.ledger (cleanupRow a live b x).ledger := by
  unfold cleanupRow
  split
  · split
    · exact prunes_forgetOwned h
    · exact .refl _ _
    · exact .refl _ _
  · exact prunes_forgetOwned h

lemma prunes_cleanupProvider (a : Answers) (owned : List Owned) (b : Books) :
    Prunes (owned.map Owned.key) b.ledger (cleanupProvider a owned b).ledger := by
  unfold cleanupProvider
  split
  · exact List.foldlRecOn (motive := Prunes _ b.ledger) _ _ (.refl _ _) fun _ hl _ ht =>
      hl.trans (prunes_forgetOwned (mem_map_of_mem ht))
  · exact .refl _ _
  split
  · exact List.foldlRecOn (motive := fun b' : Books => Prunes _ b.ledger b'.ledger) _ _ (.refl _ _) fun _ hb _ hx =>
      hb.trans (prunes_cleanupRow (mem_map_of_mem (fst_mem_of_mem_zipIdx hx)))
  · exact .refl _ _

lemma cleanupProvider_of_fails (h : a.Fails) : cleanupProvider a owned b = b := by
  unfold cleanupProvider
  obtain hlookup | ⟨hlookup, hlisted⟩ := h
  · rw [hlookup]
  · rw [hlookup, hlisted]
    rfl

/-- A provider that works is through with every row it was given. -/
lemma not_mem_cleanupProvider (h : a.Works) (ht : t ∈ owned) :
    ∀ o ∈ (cleanupProvider a owned b).ledger, o.key ≠ t.key := by
  unfold cleanupProvider
  obtain hlookup | ⟨hlookup, hlisted, hok⟩ := h
  · rw [hlookup]
    exact foldl_of_mem (P := fun l : Ledger => ∀ o ∈ l, o.key ≠ t.key) ht
      (fun _ _ ho => (mem_forgetOwned.mp ho).2) (fun _ hl _ _ o ho => hl o (mem_forgetOwned.mp ho).1) _
  rw [hlookup, hlisted]
  obtain ⟨i, hi⟩ := mem_iff_getElem?.mp ht
  refine foldl_of_mem (P := fun b : Books => ∀ o ∈ b.ledger, o.key ≠ t.key) (a := (t, i))
    (mem_zipIdx_iff_getElem?.mpr hi) (fun b' o ho => ?_) (fun _ hb x _ o ho => hb o ?_) _
  · have hforget : (cleanupRow a b.zone.records b' (t, i)).ledger = forgetOwned b'.ledger t.key := by
      simp only [cleanupRow, hok]
      split <;> rfl
    rw [hforget] at ho
    exact (mem_forgetOwned.mp ho).2
  · exact (prunes_cleanupRow (mem_singleton_self _)).sub o ho

end Cleanup

/-- What the providers answer during a pass whose queries for rows and routes succeed. -/
structure Env.Answered (cfg : Config) (failing : ℕ → Bool) (e : Env) : Prop where
  orphansListed : e.orphansListed
  routesListed : e.routesListed
  cleanupFails : ∀ p, failing p → (e.cleanup p).Fails
  cleanupWorks : ∀ p, failing p = false → (e.cleanup p).Works
  steerFails : ∀ r ∈ cfg.routes, ∀ p ∈ r.dnsProviderID, failing p → (e.steer r.id).Fails
  steerWorks : ∀ r ∈ cfg.routes, ∀ p ∈ r.dnsProviderID, failing p = false → (e.steer r.id).Works

section Orphans

variable {failing : ℕ → Bool}

/-- The keys of the rows that a pass can delete. -/
def servedKeys (failing : ℕ → Bool) (e : Env) : List (ℕ × ℕ × Str) :=
  (e.batch.filter fun o => !failing o.providerID).map Owned.key

lemma prunes_cleanupOne (he : e.Answered cfg failing) (s : State) (p : ℕ) :
    Prunes (servedKeys failing e) s.ledger (cleanupOne e s p).ledger := by
  simp only [cleanupOne]
  cases hp : failing p with
  | true =>
    rw [cleanupProvider_of_fails (he.cleanupFails p hp)]
    exact .refl _ _
  | false =>
    refine (prunes_cleanupProvider (e.cleanup p) _ ⟨s.zones p, s.ledger⟩).mono ?_
    refine map_subset _ fun o ho => ?_
    obtain ⟨ho, hprovider⟩ := mem_filter.mp ho
    exact mem_filter.mpr ⟨ho, by simp [of_decide_eq_true hprovider, hp]⟩

lemma prunes_cleanupOrphans (he : e.Answered cfg failing) (s : State) :
    Prunes (servedKeys failing e) s.ledger (cleanupOrphans e s).ledger := by
  rw [cleanupOrphans, if_pos he.orphansListed]
  exact List.foldlRecOn (motive := fun t : State => Prunes _ s.ledger t.ledger) _ _ (.refl _ _) fun t ht p _ =>
    ht.trans (prunes_cleanupOne he t p)

lemma not_mem_cleanupOrphans (he : e.Answered cfg failing) {t : Owned} (ht : t ∈ e.batch)
    (hworks : failing t.providerID = false) : ∀ o ∈ (cleanupOrphans e s).ledger, o.key ≠ t.key := by
  rw [cleanupOrphans, if_pos he.orphansListed]
  have hmem : t.providerID ∈ (e.batch.map Owned.providerID).reverse.dedup.reverse := by
    rw [mem_reverse, mem_dedup, mem_reverse]
    exact mem_map_of_mem ht
  refine foldl_of_mem (P := fun s : State => ∀ o ∈ s.ledger, o.key ≠ t.key) hmem (fun s => ?_)
    (fun s hs p _ o ho => hs o ((prunes_cleanupOne he s p).sub o ho)) s
  exact not_mem_cleanupProvider (he.cleanupWorks _ hworks) (mem_filter.mpr ⟨ht, by simp⟩)

end Orphans

/-! ### The cursor -/

lemma cursor_steerOne (sr : Route) : (steerOne cfg e s sr).cursor = sr.id := by
  simp only [steerOne]
  split
  · split
    · rfl
    · rfl
  · rfl

lemma cursor_foldl_steerOne (ts : List Route) :
    (ts.foldl (steerOne cfg e) s).cursor = Batches.lastKey Route.id s.cursor ts := by
  induction ts generalizing s with
  | nil => rfl
  | cons sr ts ih =>
    rw [foldl_cons, ih, cursor_steerOne]
    rfl

/-- The steered routes behind the cursor. -/
def behind (cfg : Config) (cursor : ℕ) : List Route :=
  (cfg.routes.rows.filter fun r => Config.steered r && cursor < r.id).insertionSort fun a b => a.id ≤ b.id

lemma sorted_behind (cursor : ℕ) : (behind cfg cursor).Pairwise fun a b => a.id < b.id := by
  have hle : (behind cfg cursor).Pairwise fun a b => a.id ≤ b.id := pairwise_insertionSort _ _
  have hne : (behind cfg cursor).Pairwise fun a b => a.id ≠ b.id := by
    rw [← pairwise_map]
    refine ((perm_insertionSort _ _).map Route.id).nodup_iff.mpr ?_
    exact cfg.routes.nodup.sublist (filter_sublist.map _)
  exact hle.imp₂ (fun _ _ hle hne => Nat.lt_of_le_of_ne hle hne) hne

lemma mem_behind {cursor : ℕ} {r : Route} :
    r ∈ behind cfg cursor ↔ r ∈ cfg.routes.rows.filter Config.steered ∧ cursor < r.id := by
  rw [behind, mem_insertionSort, mem_filter, mem_filter, Bool.and_eq_true, decide_eq_true_eq, and_assoc]

/-- The cursor goes on whatever the providers answer. -/
lemma cursor_steerRoutes (h : e.routesListed) : (steerRoutes cfg e s).cursor =
    if (targets cfg s.cursor).length < routeLimit then 0
    else Batches.lastKey Route.id s.cursor (targets cfg s.cursor) := by
  simp only [steerRoutes, h, Bool.not_true, Bool.false_eq_true, if_false]
  split
  · rfl
  · exact cursor_foldl_steerOne _

/-! ### Passes without end -/

/-- How many orphaned rows of failing providers are listed before those of the provider of `o`. -/
def failedBefore (cfg : Config) (failing : ℕ → Bool) (l : Ledger) (o : Owned) : ℕ :=
  Batches.stuckBefore Owned.providerID failing o (l.rows.filter cfg.orphaned)

/-- The states and the environments of the passes from `s` on. -/
structure Passes (cfg : Config) (failing : ℕ → Bool) (s : State) where
  state : ℕ → State
  env : ℕ → Env
  start : state 0 = s
  step : ∀ n, reconcile cfg (state n) (env n) = some (state (n + 1))
  answered : ∀ n, (env n).Answered cfg failing

namespace Passes

variable {failing : ℕ → Bool} (p : Passes cfg failing s)

lemma listing (n : ℕ) : Listing cfg (p.state n).ledger (p.env n).rows := by
  have h := p.step n
  unfold reconcile at h
  split at h
  · next hlisting => exact hlisting
  · cases h

lemma state_succ (n : ℕ) : p.state (n + 1) = steerRoutes cfg (p.env n) (cleanupOrphans (p.env n) (p.state n)) := by
  have h := p.step n
  rw [reconcile, if_pos (p.listing n)] at h
  exact (Option.some.inj h).symm

lemma mem_rows {n : ℕ} : o ∈ (p.env n).rows ↔ o ∈ (p.state n).ledger ∧ cfg.orphaned o := by
  rw [(p.listing n).1.mem_iff, mem_filter]
  exact Iff.rfl

lemma clean_succ (n : ℕ) : Clean cfg (cleanupOrphans (p.env n) (p.state n)).ledger (p.state (n + 1)).ledger := by
  rw [p.state_succ]
  exact clean_steerRoutes

lemma backlog : Batches.Backlog routeLimit Owned.providerID failing fun n => (p.env n).rows where
  nodup := fun n => (p.listing n).1.nodup_iff.mpr (((p.state n).ledger.nodup.of_map _).filter _)
  sorted := fun n => (p.listing n).2
  shrinks := fun n o ho => by
    obtain ⟨ho, horphaned⟩ := p.mem_rows.mp ho
    exact p.mem_rows.mpr ⟨(prunes_cleanupOrphans (p.answered n) _).sub o (p.clean_succ n o ho horphaned), horphaned⟩
  serves := fun n t ht hworks hmem => by
    obtain ⟨hmem, horphaned⟩ := p.mem_rows.mp hmem
    exact not_mem_cleanupOrphans (p.answered n) ht hworks t (p.clean_succ n t hmem horphaned) rfl

lemma sweep : Batches.Sweep routeLimit Route.id (cfg.routes.rows.filter Config.steered) (behind cfg)
    fun n => (p.state n).cursor where
  sorted := sorted_behind
  mem_behind := fun _ _ => mem_behind
  next := fun n => by
    rw [p.state_succ, cursor_steerRoutes (p.answered n).routesListed, cursor_cleanupOrphans]
    rfl

lemma stuckBefore_rows (o : Owned) :
    Batches.stuckBefore Owned.providerID failing o (p.env 0).rows = failedBefore cfg failing s.ledger o := by
  have hperm := (p.listing 0).1
  rw [p.start] at hperm
  exact (hperm.filter _).length_eq

/-- Every row of a provider that works and every steered name is processed at last. A row may also be replaced before
its turn, by one for the same node and address. -/
structure Fair : Prop where
  orphans : ∀ o ∈ s.ledger, cfg.orphaned o → failing o.providerID = false →
    ∃ n, o ∈ (p.env n).batch ∨ o ∉ (p.state n).ledger
  routes : ∀ r ∈ cfg.routes, Config.steered r → ∃ n, r ∈ targets cfg (p.state n).cursor

lemma exists_tried (horphaned : cfg.orphaned o) (hworks : failing o.providerID = false)
    (hfew : failedBefore cfg failing s.ledger o < routeLimit) : ∃ n, o ∈ (p.env n).batch ∨ o ∉ (p.state n).ledger := by
  rw [← p.stuckBefore_rows] at hfew
  obtain ⟨n, htaken | hgone⟩ := p.backlog.exists_tried hworks hfew
  · exact ⟨n, .inl htaken⟩
  · exact ⟨n, .inr fun hmem => hgone (p.mem_rows.mpr ⟨hmem, horphaned⟩)⟩

/-! ### A row that is never reached -/

/-- The routes of the passes add and remove no row. -/
def Quiet : Prop :=
  ∀ n, (p.state (n + 1)).ledger = (cleanupOrphans (p.env n) (p.state n)).ledger

variable {p}

lemma Quiet.mem_succ (h : p.Quiet) {n : ℕ} (ho : o ∈ (p.state n).ledger)
    (hkeep : o ∈ (p.env n).batch → failing o.providerID) : o ∈ (p.state (n + 1)).ledger := by
  rw [h n]
  refine (prunes_cleanupOrphans (p.answered n) _).stays o ho fun hserved => ?_
  obtain ⟨t, ht, hkey⟩ := mem_map.mp hserved
  obtain ⟨ht, hworks⟩ := mem_filter.mp ht
  have htl : t ∈ (p.state n).ledger := (p.mem_rows.mp (mem_of_mem_take ht)).1
  obtain rfl : t = o := inj_on_of_nodup_map (p.state n).ledger.nodup htl ho hkey
  simp [hkeep ht] at hworks

lemma Quiet.mem_of_failing (h : p.Quiet) (ho : o ∈ s.ledger) (hfails : failing o.providerID) (n : ℕ) :
    o ∈ (p.state n).ledger := by
  induction n with
  | zero =>
    rw [p.start]
    exact ho
  | succ n ih => exact h.mem_succ ih fun _ => hfails

lemma Quiet.not_mem_batch (h : p.Quiet)
    (hmany : routeLimit ≤ failedBefore cfg failing s.ledger o) (n : ℕ) : o ∉ (p.env n).batch := by
  -- the rows of failing providers are still there
  have hstill : failedBefore cfg failing s.ledger o ≤
      Batches.stuckBefore Owned.providerID failing o (p.env n).rows := by
    have hnodup : (s.ledger.rows.filter cfg.orphaned).Nodup := (s.ledger.nodup.of_map _).filter _
    refine ((hnodup.filter _).subperm fun t ht => ?_).length_le
    obtain ⟨ht, hbefore⟩ := mem_filter.mp ht
    obtain ⟨ht, horphaned⟩ := mem_filter.mp ht
    have hfails : failing t.providerID := (Bool.and_eq_true_iff.mp hbefore).1
    exact mem_filter.mpr ⟨p.mem_rows.mpr ⟨h.mem_of_failing ht hfails n, horphaned⟩, hbefore⟩
  exact Batches.not_mem_take (p.backlog.nodup n) (p.backlog.sorted n) (hmany.trans hstill)

lemma Quiet.mem_ledger (h : p.Quiet) (ho : o ∈ s.ledger)
    (hmany : routeLimit ≤ failedBefore cfg failing s.ledger o) (n : ℕ) : o ∈ (p.state n).ledger := by
  induction n with
  | zero =>
    rw [p.start]
    exact ho
  | succ n ih => exact h.mem_succ ih fun hbatch => absurd hbatch (h.not_mem_batch hmany n)

end Passes

/-! ### Passes that exist -/

/-- A provider that is out of reach, or one that does all it is asked. -/
def Answers.always : Bool → Answers
  | true => ⟨.failed, false, fun _ => .failed, fun _ => false⟩
  | false => ⟨.ready, true, fun _ => .ok, fun _ => true⟩

/-- The candidates of no route can be read. -/
def quietEnv (cfg : Config) (failing : ℕ → Bool) (s : State) : Env where
  orphansListed := true
  rows := (s.ledger.rows.filter cfg.orphaned).insertionSort fun o o' => o.providerID ≤ o'.providerID
  cleanup := fun p => .always (failing p)
  routesListed := true
  candidatesRead := fun _ => false
  steer := fun id => .always (((cfg.routes.lookup id).bind Route.dnsProviderID).any failing)

lemma fails_always : (Answers.always true).Fails :=
  .inl rfl

lemma works_always : (Answers.always false).Works :=
  .inr ⟨rfl, rfl, fun _ => rfl⟩

lemma answered_quietEnv (cfg : Config) (failing : ℕ → Bool) (s : State) :
    (quietEnv cfg failing s).Answered cfg failing where
  orphansListed := rfl
  routesListed := rfl
  cleanupFails := fun p hp => by
    simp only [quietEnv, hp]
    exact fails_always
  cleanupWorks := fun p hp => by
    simp only [quietEnv, hp]
    exact works_always
  steerFails := fun r hr p hprovider hp => by
    simp only [quietEnv, lookup_key hr, Option.bind_some, Option.mem_def.mp hprovider, Option.any_some, hp]
    exact fails_always
  steerWorks := fun r hr p hprovider hp => by
    simp only [quietEnv, lookup_key hr, Option.bind_some, Option.mem_def.mp hprovider, Option.any_some, hp]
    exact works_always

lemma ledger_steerRoutes (h : ∀ id, e.candidatesRead id = false) : (steerRoutes cfg e s).ledger = s.ledger := by
  have hfold : ((targets cfg s.cursor).foldl (steerOne cfg e) s).ledger = s.ledger := by
    refine foldl_keeps (g := State.ledger) (fun t sr => ?_) _ s
    simp only [steerOne, h, Bool.false_eq_true]
    split <;> rfl
  simp only [steerRoutes]
  split
  · rfl
  split
  · exact hfold
  · exact hfold

/-- Passes from any state on. -/
def quietPasses (cfg : Config) (failing : ℕ → Bool) (s : State) : Passes cfg failing s where
  state := fun n => (fun s => steerRoutes cfg (quietEnv cfg failing s) (cleanupOrphans (quietEnv cfg failing s) s))^[n] s
  env := fun n => quietEnv cfg failing
    ((fun s => steerRoutes cfg (quietEnv cfg failing s) (cleanupOrphans (quietEnv cfg failing s) s))^[n] s)
  start := rfl
  step := fun n => by
    rw [reconcile, if_pos ⟨perm_insertionSort _ _, pairwise_insertionSort _ _⟩, Function.iterate_succ_apply']
  answered := fun _ => answered_quietEnv cfg failing _

/-- Providers that fail hold up nobody else exactly where fewer of their orphaned rows than a batch are listed before
the orphaned rows of any provider that works. -/
theorem fair_iff_few_failed (cfg : Config) (failing : ℕ → Bool) (s : State) :
    (∀ p : Passes cfg failing s, p.Fair) ↔
      ∀ o ∈ s.ledger, cfg.orphaned o → failing o.providerID = false →
        failedBefore cfg failing s.ledger o < routeLimit := by
  constructor
  · intro hfair o ho horphaned hworks
    by_contra hmany
    have hquiet : (quietPasses cfg failing s).Quiet := fun n => by
      rw [Passes.state_succ]
      exact ledger_steerRoutes fun _ => rfl
    obtain ⟨n, hbatch | hgone⟩ := (hfair (quietPasses cfg failing s)).orphans o ho horphaned hworks
    · exact hquiet.not_mem_batch (Nat.le_of_not_lt hmany) n hbatch
    · exact hgone (hquiet.mem_ledger ho (Nat.le_of_not_lt hmany) n)
  · intro hfew p
    exact {
      orphans := fun o ho horphaned hworks => p.exists_tried horphaned hworks (hfew o ho horphaned hworks)
      routes := fun r hr hsteered =>
        p.sweep.exists_taken (by decide) (mem_filter.mpr ⟨hr, hsteered⟩) (cfg.positive r hr) }

/-- The records of deleted routes: a batch of them at provider `1`, one at provider `2`. -/
def deletedRecord (providerID routeID : ℕ) : Owned :=
  ⟨routeID, 1, providerID, "app.example.com", "203.0.113.7", none⟩

def deletedRecords : Ledger where
  rows := (List.range routeLimit).map (deletedRecord 1) ++ [deletedRecord 2 routeLimit]
  nodup := by
    have hkeys : ((List.range routeLimit).map (deletedRecord 1) ++ [deletedRecord 2 routeLimit]).map Owned.key =
        (List.range (routeLimit + 1)).map fun id => (id, 1, "203.0.113.7".toList) := by
      rw [range_succ]
      simp [deletedRecord, Owned.key, Function.comp_def]
    rw [hkeys]
    exact nodup_range.map fun id id' h => congrArg Prod.fst h

/-- No route is left. -/
def emptyConfig : Config :=
  ⟨⟨[], nodup_nil⟩, ⟨[], nodup_nil⟩, [], fun _ hr => absurd hr not_mem_nil⟩

lemma routeLimit_le_failedBefore :
    routeLimit ≤ failedBefore emptyConfig (· = 1) deletedRecords (deletedRecord 2 routeLimit) := by
  have horphaned : ∀ o, emptyConfig.orphaned o := fun _ => rfl
  have hall : ((List.range routeLimit).map (deletedRecord 1)).Sublist
      ((deletedRecords.rows.filter emptyConfig.orphaned).filter fun t =>
        (t.providerID = 1 : Bool) && t.providerID < (deletedRecord 2 routeLimit).providerID) := by
    rw [filter_eq_self.mpr fun o _ => horphaned o]
    refine List.Sublist.trans ?_ ((sublist_append_left _ _).filter _)
    rw [filter_eq_self.mpr]
    intro o ho
    obtain ⟨id, -, rfl⟩ := mem_map.mp ho
    rfl
  have hlength := hall.length_le
  rw [length_map, length_range] at hlength
  exact hlength

/-- Provider `1` does not answer, and the orphaned record at provider `2` is never looked at. -/
theorem record_never_reached : ∃ (cfg : Config) (failing : ℕ → Bool) (s : State) (o : Owned),
    o ∈ s.ledger ∧ cfg.orphaned o ∧ failing o.providerID = false ∧ Nonempty (Passes cfg failing s) ∧
      ∀ p : Passes cfg failing s, ∀ n, o ∈ (p.state n).ledger ∧ o ∉ (p.env n).batch := by
  refine ⟨emptyConfig, (· = 1), ⟨fun _ => ⟨[], 0, by simp, by simp⟩, deletedRecords, 0⟩, deletedRecord 2 routeLimit,
    ?_, rfl, rfl, ⟨quietPasses _ _ _⟩, fun p n => ?_⟩
  · exact mem_append_right _ mem_cons_self
  have hquiet : p.Quiet := by
    intro n
    rw [p.state_succ, steerRoutes]
    split
    · rfl
    · rfl
  refine ⟨hquiet.mem_ledger ?_ routeLimit_le_failedBefore n, hquiet.not_mem_batch routeLimit_le_failedBefore n⟩
  exact mem_append_right _ mem_cons_self

end Dnssteer
