import CaddyPanel.Dnssteer.Reconciler
import Mathlib.Data.List.Perm.Subperm

/-!
# What a pass does to a steered name

A pass deletes the records that orphaned rows match, and then applies the plan of each of its routes to what is left in
the zone. Every call can fail. The plan is made from addresses, so that nodes which share one, a failed addition, an
orphaned row and another route of the name decide whether the name keeps a record.
-/

namespace Dnssteer

open List
open Text (Str)

/-- The records of a name. -/
def named (name : Str) (records : List Record) : List Record :=
  records.filter (·.name = name)

variable {name ip : Str} {candidates : List Candidate} {existing existing' : List Record} {r : Record}

lemma mem_named : r ∈ named name existing ↔ r ∈ existing ∧ r.name = name := by
  simp [named]

/-! ### Plans -/

lemma existingByIP_eq_some (h : existingByIP name existing ip = some r) : r ∈ named name existing ∧ r.value = ip :=
  ⟨mem_reverse.mp (mem_of_find?_eq_some h), by simpa using find?_some h⟩

lemma mem_addresses : ip ∈ addresses name existing ↔ ∃ r ∈ named name existing, r.value = ip := by
  simp [addresses, named]

lemma existingByIP_isSome : (existingByIP name existing ip).isSome ↔ ip ∈ addresses name existing := by
  rw [existingByIP, mem_addresses]
  simp [named]

lemma existingByIP_eq_none : existingByIP name existing ip = none ↔ ip ∉ addresses name existing := by
  rw [← existingByIP_isSome, Bool.not_eq_true, Option.isSome_eq_false_iff, Option.isNone_iff_eq_none]

/-- Plans read the records of the name only. -/
lemma lookups_congr (h : named name existing = named name existing') :
    existingByIP name existing = existingByIP name existing' ∧ addresses name existing = addresses name existing' := by
  have hfilter : existing.filter (·.name = name) = existing'.filter (·.name = name) := h
  refine ⟨funext fun ip => ?_, ?_⟩
  · rw [existingByIP, hfilter, existingByIP]
  · rw [addresses, hfilter, addresses]

lemma planActions_congr (h : named name existing = named name existing') :
    planActions name candidates existing = planActions name candidates existing' := by
  unfold planActions removals failStatic toAdd toRemove
  rw [(lookups_congr h).1, (lookups_congr h).2]

/-- The candidates that should not be served and are. -/
def unwanted (name : Str) (candidates : List Candidate) (existing : List Record) : List Candidate :=
  candidates.filter fun c => !c.wanted && c.ip ∈ addresses name existing

lemma mem_toRemove {x : Removal} : x ∈ toRemove name candidates existing ↔
    ∃ c ∈ candidates, c.wanted = false ∧ existingByIP name existing c.ip = some x.record ∧ c.id = x.nodeID := by
  obtain ⟨nodeID, record⟩ := x
  simp [toRemove, and_assoc]

lemma length_toRemove : (toRemove name candidates existing).length = (unwanted name candidates existing).length := by
  rw [toRemove, length_filterMap_eq_countP, countP_filter, unwanted, ← countP_eq_length_filter]
  refine countP_congr fun c _ => ?_
  simp [existingByIP_isSome, and_comm]

/-- Whether fail-static applies: no wanted address is missing, and the unwanted candidates are as many as the
addresses. -/
def Static (name : Str) (candidates : List Candidate) (existing : List Record) : Prop :=
  (∀ c ∈ candidates, c.wanted → c.ip ∈ addresses name existing) ∧
    (unwanted name candidates existing).length = (addresses name existing).length

/-- An enabled healthy candidate has the address. -/
def wantedIP (candidates : List Candidate) (ip : Str) : Prop :=
  ∃ c ∈ candidates, c.wanted ∧ c.ip = ip

/-- The name has records, all of them are different, each has the address of an unwanted candidate, and fail-static does
not apply. -/
def Stranded (name : Str) (candidates : List Candidate) (existing : List Record) : Prop :=
  named name existing ≠ [] ∧ ((named name existing).map Record.value).Nodup ∧
    (∀ r ∈ named name existing, ∃ c ∈ candidates, c.wanted = false ∧ c.ip = r.value) ∧
    ¬ Static name candidates existing

/-- A record has the address of an unwanted candidate and of a wanted one. -/
def Shared (name : Str) (candidates : List Candidate) (existing : List Record) : Prop :=
  ∃ c ∈ unwanted name candidates existing, wantedIP candidates c.ip

lemma mem_toRemove_of_removals {x : Removal} (h : x ∈ removals name candidates existing) :
    x ∈ toRemove name candidates existing := by
  unfold removals at h
  split at h
  · exact (mem_insertionSort _).mp (mem_of_mem_tail h)
  · exact h

lemma stranded_congr (h : named name existing = named name existing') :
    Stranded name candidates existing ↔ Stranded name candidates existing' := by
  unfold Stranded Static unwanted
  rw [h, (lookups_congr h).2]

lemma shared_congr (h : named name existing = named name existing') :
    Shared name candidates existing ↔ Shared name candidates existing' := by
  unfold Shared unwanted
  rw [(lookups_congr h).2]

/-- What is removed is the record of an unwanted candidate. -/
lemma exists_unwanted {x : Removal} (h : x ∈ removals name candidates existing) :
    ∃ c ∈ unwanted name candidates existing, existingByIP name existing c.ip = some x.record := by
  obtain ⟨c, hc, hwanted, hrec, -⟩ := mem_toRemove.mp (mem_toRemove_of_removals h)
  refine ⟨c, mem_filter.mpr ⟨hc, ?_⟩, hrec⟩
  rw [hwanted, decide_eq_true (existingByIP_isSome.mp (Option.isSome_of_eq_some hrec))]
  rfl

/-- Fail-static leaves fewer removals than there are addresses. -/
lemma length_removals_lt (hstatic : Static name candidates existing) (hne : removals name candidates existing ≠ []) :
    (removals name candidates existing).length < (addresses name existing).length := by
  have hpos : 0 < (toRemove name candidates existing).length := by
    obtain ⟨x, hx⟩ := exists_mem_of_ne_nil _ hne
    exact length_pos_of_mem (mem_toRemove_of_removals hx)
  have hadd : toAdd name candidates existing = [] := by
    simp only [toAdd, map_eq_nil_iff, filter_eq_nil_iff, Bool.and_eq_true, Option.isNone_iff_eq_none,
      existingByIP_eq_none, not_and, not_not]
    exact hstatic.1
  have hcount := length_toRemove.trans hstatic.2
  have hfail : failStatic name candidates existing := by
    simp [failStatic, hadd, hcount, ne_nil_of_length_pos hpos]
  rw [removals, if_pos hfail, length_tail, length_insertionSort]
  omega

/-- A name that is not stranded has a record that the plan spares. -/
lemma exists_spared (hids : (existing.map Record.id).Nodup) (hsome : named name existing ≠ [])
    (h : ¬ Stranded name candidates existing) :
    ∃ r ∈ named name existing, ∀ x ∈ removals name candidates existing, x.record ≠ r := by
  by_contra hnone
  push Not at hnone
  have hunwanted : ∀ r ∈ named name existing,
      ∃ c ∈ unwanted name candidates existing, existingByIP name existing c.ip = some r := by
    intro r hr
    obtain ⟨x, hx, rfl⟩ := hnone r hr
    exact exists_unwanted hx
  have hnodup : (named name existing).Nodup := (hids.of_map _).filter _
  refine h ⟨hsome, ?_, fun r hr => ?_, fun hstatic => ?_⟩
  -- the map has one record for an address, so that a second one would be spared
  · refine hnodup.map_on fun r hr r' hr' heq => ?_
    obtain ⟨c, -, hc⟩ := hunwanted r hr
    obtain ⟨c', -, hc'⟩ := hunwanted r' hr'
    have hip : c.ip = c'.ip := ((existingByIP_eq_some hc).2.symm.trans heq).trans (existingByIP_eq_some hc').2
    exact Option.some.inj ((hip ▸ hc).symm.trans hc')
  · obtain ⟨c, hc, hrec⟩ := hunwanted r hr
    obtain ⟨hc, hcond⟩ := mem_filter.mp hc
    exact ⟨c, hc, by simpa using (Bool.and_eq_true_iff.mp hcond).1, (existingByIP_eq_some hrec).2.symm⟩
  -- fail-static leaves too few removals for every record of the name
  · have hsub : named name existing ⊆ (removals name candidates existing).map Removal.record := by
      intro r hr
      obtain ⟨x, hx, rfl⟩ := hnone r hr
      exact mem_map_of_mem hx
    have hle := (hnodup.subperm hsub).length_le
    have hdedup : (addresses name existing).length ≤ ((named name existing).map Record.value).length :=
      (dedup_sublist _).length_le
    have hne : removals name candidates existing ≠ [] := by
      rintro hnil
      rw [hnil, map_nil, subset_nil] at hsub
      exact hsome hsub
    have hlt := length_removals_lt hstatic hne
    rw [length_map] at hle hdedup
    omega

/-! ### The calls of a plan -/

section Calls

variable {a : Answers} {sr : Route} {providerID : ℕ} {b : Books} {actions : List (Action × ℕ)}

lemma zone_applyAction_add (nodeID : ℕ) (type : RecordType) (value : Str) (i : ℕ) :
    (applyAction a sr providerID b (.add nodeID type name value, i)).zone =
      if a.remembered i ∧ a.replies i ≠ .failed then b.zone.append type name value sr.ttl else b.zone := by
  cases hrem : a.remembered i <;> cases hreply : a.replies i <;> simp [applyAction, hrem, hreply]

lemma zone_applyAction_remove (x : Removal) (i : ℕ) :
    (applyAction a sr providerID b (.remove x, i)).zone =
      if a.replies i = .failed then b.zone else b.zone.delete x.record.id := by
  cases hreply : a.replies i <;> simp [applyAction, hreply]

lemma named_delete {z : Zone} {id : ℕ} (h : ∀ r ∈ named name z.records, r.id ≠ id) :
    named name (z.delete id).records = named name z.records := by
  have hswap : named name (z.delete id).records = (named name z.records).filter (·.id ≠ id) :=
    filter_comm _ _ _
  rw [hswap]
  exact filter_eq_self.mpr fun r hr => decide_eq_true (h r hr)

/-- Calls about other names leave the records of a name. -/
lemma named_foldl_applyAction
    (hadd : ∀ nodeID type name' value i, (.add nodeID type name' value, i) ∈ actions → name' ≠ name)
    (hremove : ∀ x i, (.remove x, i) ∈ actions → ∀ r ∈ named name b.zone.records, r.id ≠ x.record.id) :
    named name (actions.foldl (applyAction a sr providerID) b).zone.records = named name b.zone.records := by
  induction actions generalizing b with
  | nil => rfl
  | cons action actions ih =>
    have hstep : named name (applyAction a sr providerID b action).zone.records = named name b.zone.records := by
      obtain ⟨action, i⟩ := action
      cases action with
      | add nodeID type name' value =>
        rw [zone_applyAction_add]
        split
        · have hne := hadd nodeID type name' value i mem_cons_self
          simp [Zone.append, named, filter_append, hne]
        · rfl
      | remove x =>
        rw [zone_applyAction_remove]
        split
        · rfl
        · exact named_delete (hremove x i mem_cons_self)
    rw [foldl_cons, ih (fun _ _ _ _ _ h => hadd _ _ _ _ _ (mem_cons_of_mem _ h)) ?_, hstep]
    rw [hstep]
    exact fun x i hx => hremove x i (mem_cons_of_mem _ hx)

/-- No call but the removal of a record takes it away. -/
lemma mem_applyAction {action : Action × ℕ} (hr : r ∈ b.zone.records)
    (h : ∀ x, action.1 = .remove x → x.record.id ≠ r.id) : r ∈ (applyAction a sr providerID b action).zone.records := by
  obtain ⟨action, i⟩ := action
  cases action with
  | add nodeID type name value =>
    rw [zone_applyAction_add]
    split
    · exact mem_append_left _ hr
    · exact hr
  | remove x =>
    rw [zone_applyAction_remove]
    split
    · exact hr
    · exact mem_filter.mpr ⟨hr, decide_eq_true (h x rfl).symm⟩

lemma mem_foldl_applyAction (hr : r ∈ b.zone.records) (h : ∀ x i, (.remove x, i) ∈ actions → x.record.id ≠ r.id) :
    r ∈ (actions.foldl (applyAction a sr providerID) b).zone.records := by
  induction actions generalizing b with
  | nil => exact hr
  | cons action actions ih =>
    refine ih (mem_applyAction hr fun x hx => ?_) fun x i hx => h x i (mem_cons_of_mem _ hx)
    exact h x action.2 (hx ▸ mem_cons_self)

lemma next_le_applyAction (action : Action × ℕ) : b.zone.next ≤ (applyAction a sr providerID b action).zone.next := by
  obtain ⟨action, i⟩ := action
  cases action with
  | add nodeID type name value =>
    rw [zone_applyAction_add]
    split
    · exact Nat.le_succ _
    · exact le_rfl
  | remove x =>
    rw [zone_applyAction_remove]
    split <;> exact le_rfl

/-- An addition that succeeds is there at the end: only records from before are removed. -/
lemma exists_added {nodeID i : ℕ} {type : RecordType} {value : Str} (hadd : (.add nodeID type name value, i) ∈ actions)
    (hremembered : a.remembered i) (hok : a.replies i = .ok)
    (h : ∀ x j, (.remove x, j) ∈ actions → x.record.id < b.zone.next) :
    ∃ r ∈ named name (actions.foldl (applyAction a sr providerID) b).zone.records, r.value = value := by
  induction actions generalizing b with
  | nil => cases hadd
  | cons action actions ih =>
    have hrest : ∀ x j, (.remove x, j) ∈ actions → x.record.id < b.zone.next :=
      fun x j hx => h x j (mem_cons_of_mem _ hx)
    obtain rfl | hadd := mem_cons.mp hadd
    · have hzone : (applyAction a sr providerID b (.add nodeID type name value, i)).zone =
          b.zone.append type name value sr.ttl := by
        rw [zone_applyAction_add, if_pos ⟨hremembered, by simp [hok]⟩]
      rw [foldl_cons]
      refine ⟨⟨b.zone.next, type, name, value, sr.ttl⟩,
        mem_named.mpr ⟨mem_foldl_applyAction ?_ fun x j hx => ?_, rfl⟩, rfl⟩
      · rw [hzone]
        exact mem_append_right _ (mem_singleton_self _)
      · exact (hrest x j hx).ne
    · exact ih hadd fun x j hx => (hrest x j hx).trans_le (next_le_applyAction action)

lemma mem_removals_of_plan {x : Removal} {i : ℕ}
    (h : (.remove x, i) ∈ (planActions name candidates existing).zipIdx) : x ∈ removals name candidates existing := by
  have hmem := fst_mem_of_mem_zipIdx h
  simp [planActions, toAdd] at hmem
  exact hmem

lemma removed_mem_named {x : Removal} (h : x ∈ removals name candidates existing) : x.record ∈ named name existing := by
  obtain ⟨c, -, hrec⟩ := exists_unwanted h
  exact (existingByIP_eq_some hrec).1

/-- A record that the plan does not remove outlives it. -/
lemma mem_diffAndApply (hr : r ∈ named sr.domain b.zone.records)
    (h : ∀ x ∈ removals sr.domain candidates b.zone.records, x.record ≠ r) :
    r ∈ named sr.domain (diffAndApply a sr providerID candidates b).zone.records := by
  obtain ⟨hmem, hname⟩ := mem_named.mp hr
  refine mem_named.mpr ⟨mem_foldl_applyAction hmem fun x i hx hid => ?_, hname⟩
  have hx := mem_removals_of_plan hx
  exact h x hx (inj_on_of_nodup_map b.zone.nodup (mem_named.mp (removed_mem_named hx)).1 hmem hid)

lemma exists_addition {c : Candidate} (hc : c ∈ candidates) (hwanted : c.wanted)
    (hip : c.ip ∉ addresses sr.domain b.zone.records) : ∃ i,
    (planActions sr.domain candidates b.zone.records)[i]? = some (.add c.id (recordType c.ip) sr.domain c.ip) ∧
      (a.remembered i → a.replies i = .ok →
        ∃ r ∈ named sr.domain (diffAndApply a sr providerID candidates b).zone.records, r.value = c.ip) := by
  have hadd : Action.add c.id (recordType c.ip) sr.domain c.ip ∈ planActions sr.domain candidates b.zone.records := by
    refine mem_append_left _ (mem_map.mpr ⟨c, mem_filter.mpr ⟨hc, ?_⟩, rfl⟩)
    rw [hwanted, existingByIP_eq_none.mpr hip]
    rfl
  obtain ⟨i, hi⟩ := mem_iff_getElem?.mp hadd
  refine ⟨i, hi, fun hremembered hok => ?_⟩
  refine exists_added (mem_zipIdx_iff_getElem?.mpr hi) hremembered hok fun x j hx => ?_
  exact b.zone.fresh _ (mem_named.mp (removed_mem_named (mem_removals_of_plan hx))).1

/-- The plan of another name leaves the records of this one. -/
lemma named_reconcileRoute (h : sr.domain ≠ name) :
    named name (reconcileRoute a sr providerID candidates b).zone.records = named name b.zone.records := by
  have happly : named name (diffAndApply a sr providerID candidates b).zone.records = named name b.zone.records := by
    refine named_foldl_applyAction (fun nodeID type name' value i hx => ?_) fun x i hx r hr hid => ?_
    · have hmem := fst_mem_of_mem_zipIdx hx
      simp [planActions, toAdd] at hmem
      obtain ⟨c, -, -, -, rfl, -⟩ := hmem
      exact h
    · obtain ⟨hmem, hname⟩ := mem_named.mp (removed_mem_named (mem_removals_of_plan hx))
      obtain ⟨hr, hname'⟩ := mem_named.mp hr
      have hsame := congrArg Record.name (inj_on_of_nodup_map b.zone.nodup hr hmem hid)
      exact h (hname.symm.trans (hsame.symm.trans hname'))
  unfold reconcileRoute
  repeat' split
  · rfl
  · exact happly
  all_goals rfl

end Calls

/-! ### A pass -/

section Pass

variable {cfg : Config} {e : Env} {s s' : State} {sr : Route} {p : ℕ}

/-- The orphaned rows of the provider stand for no record of the name. -/
def Unmatched (cfg : Config) (s : State) (p : ℕ) (name : Str) : Prop :=
  ∀ o ∈ s.ledger, cfg.orphaned o → o.providerID = p → ∀ r ∈ named name (s.zones p).records, matchOwned o [r] = none

lemma matchOwned_singleton {o : Owned} {live : List Record} (h : matchOwned o live = some r) :
    matchOwned o [r] = some r := by
  unfold matchOwned at h ⊢
  rw [find?_singleton, if_pos (find?_some h)]

lemma named_cleanupProvider {a : Answers} {owned : List Owned} {b : Books}
    (h : ∀ o ∈ owned, ∀ r ∈ named name b.zone.records, matchOwned o [r] = none) :
    named name (cleanupProvider a owned b).zone.records = named name b.zone.records := by
  have hfold : named name (owned.zipIdx.foldl (cleanupRow a b.zone.records) b).zone.records =
      named name b.zone.records := by
    refine List.foldlRecOn (motive := fun b' : Books => named name b'.zone.records = named name b.zone.records) _ _ rfl
      fun b' hb' o ho => ?_
    have hdelete : ∀ r, matchOwned o.1 b.zone.records = some r →
        named name (b'.zone.delete r.id).records = named name b.zone.records := by
      intro r hr
      rw [named_delete fun r' hr' hid => ?_, hb']
      -- the record with the number would be one of the name, and these are not matched
      obtain ⟨hmem', -⟩ := mem_named.mp (hb' ▸ hr')
      obtain rfl := inj_on_of_nodup_map b.zone.nodup hmem' (mem_of_find?_eq_some hr) hid
      have hnone := h o.1 (fst_mem_of_mem_zipIdx ho) r' (hb' ▸ hr')
      rw [matchOwned_singleton hr] at hnone
      cases hnone
    unfold cleanupRow
    split
    · next r hr =>
      split
      · exact hdelete r hr
      · exact hdelete r hr
      · exact hb'
    · exact hb'
  unfold cleanupProvider
  split
  · rfl
  · rfl
  split
  · exact hfold
  · rfl

lemma named_cleanupOrphans (hlisting : Listing cfg s.ledger e.rows) (h : Unmatched cfg s p name) :
    named name ((cleanupOrphans e s).zones p).records = named name (s.zones p).records := by
  unfold cleanupOrphans
  split
  · refine List.foldlRecOn (motive := fun t : State => named name (t.zones p).records = named name (s.zones p).records)
      _ _ rfl fun t ht q _ => ?_
    by_cases hq : p = q
    · subst hq
      simp only [cleanupOne, Function.update_self]
      rw [named_cleanupProvider fun o ho r hr => ?_, ht]
      obtain ⟨ho, hprovider⟩ := mem_filter.mp ho
      obtain ⟨hledger, horphaned⟩ := mem_filter.mp (hlisting.1.mem_iff.mp (mem_of_mem_take ho))
      exact h o hledger horphaned (of_decide_eq_true hprovider) r (ht ▸ hr)
    · simp only [cleanupOne, Function.update_of_ne hq]
      exact ht
  · rfl

/-- The name has one steered route, its records are known to no orphaned row, and its plan leaves one of them and shares
none between wanted and unwanted candidates. -/
structure Safe (cfg : Config) (s : State) (sr : Route) (p : ℕ) : Prop where
  alone : ∀ r ∈ cfg.routes, Config.steered r → r.dnsProviderID = some p → r.domain = sr.domain → r = sr
  unmatched : Unmatched cfg s p sr.domain
  unstranded : ¬ Stranded sr.domain (cfg.loadCandidates sr) (s.zones p).records
  unshared : ¬ Shared sr.domain (cfg.loadCandidates sr) (s.zones p).records

/-- The name keeps a record, a wanted address keeps its records, and a wanted address that is not there has an addition
which brings it in if it succeeds. -/
structure Kept (cfg : Config) (e : Env) (sr : Route) (p : ℕ) (s s' : State) : Prop where
  served : named sr.domain (s.zones p).records ≠ [] → named sr.domain (s'.zones p).records ≠ []
  healthy : ∀ r ∈ named sr.domain (s.zones p).records, wantedIP (cfg.loadCandidates sr) r.value →
    r ∈ named sr.domain (s'.zones p).records
  added : e.routesListed → sr ∈ targets cfg s.cursor → e.candidatesRead sr.id → (e.steer sr.id).lookup = .ready →
    (e.steer sr.id).listed → ∀ c ∈ cfg.loadCandidates sr, c.wanted → c.ip ∉ addresses sr.domain (s.zones p).records →
    ∃ i, (planActions sr.domain (cfg.loadCandidates sr) (s.zones p).records)[i]? =
        some (.add c.id (recordType c.ip) sr.domain c.ip) ∧
      ((e.steer sr.id).remembered i → (e.steer sr.id).replies i = .ok →
        ∃ r ∈ named sr.domain (s'.zones p).records, r.value = c.ip)

lemma named_steerOne {r : Route} (h : r.dnsProviderID = some p → r.domain ≠ name) :
    named name ((steerOne cfg e s r).zones p).records = named name (s.zones p).records := by
  unfold steerOne
  dsimp only
  split
  · next q hq =>
    split
    · by_cases hpq : p = q
      · subst hpq
        simp only [Function.update_self]
        exact named_reconcileRoute (h hq)
      · simp only [Function.update_of_ne hpq]
    · rfl
  · rfl

lemma named_foldl_steerOne {ts : List Route} (h : ∀ r ∈ ts, r.dnsProviderID = some p → r.domain ≠ name) :
    named name ((ts.foldl (steerOne cfg e) s).zones p).records = named name (s.zones p).records :=
  List.foldlRecOn (motive := fun t : State => named name (t.zones p).records = named name (s.zones p).records) _ _ rfl
    fun _ ht r hr => (named_steerOne (h r hr)).trans ht

lemma nodup_targets (cfg : Config) (cursor : ℕ) : (targets cfg cursor).Nodup :=
  ((perm_insertionSort _ _).nodup_iff.mpr ((cfg.routes.nodup.of_map _).filter _)).sublist (take_sublist _ _)

/-- The plan of the route itself. -/
lemma kept_steerOne (hprovider : sr.dnsProviderID = some p)
    (hstranded : ¬ Stranded sr.domain (cfg.loadCandidates sr) (s.zones p).records)
    (hshared : ¬ Shared sr.domain (cfg.loadCandidates sr) (s.zones p).records) :
    (named sr.domain (s.zones p).records ≠ [] → named sr.domain ((steerOne cfg e s sr).zones p).records ≠ []) ∧
      ∀ r ∈ named sr.domain (s.zones p).records, wantedIP (cfg.loadCandidates sr) r.value →
        r ∈ named sr.domain ((steerOne cfg e s sr).zones p).records := by
  have hsame : ∀ {z : Zone}, z = s.zones p →
      (named sr.domain (s.zones p).records ≠ [] → named sr.domain z.records ≠ []) ∧
        ∀ r ∈ named sr.domain (s.zones p).records, wantedIP (cfg.loadCandidates sr) r.value →
          r ∈ named sr.domain z.records := by
    rintro _ rfl
    exact ⟨id, fun _ hr _ => hr⟩
  unfold steerOne
  rw [hprovider]
  dsimp only
  split
  · simp only [Function.update_self]
    unfold reconcileRoute
    split
    · exact hsame rfl
    split
    · split
      · refine ⟨fun hsome => ?_, fun r hr hwanted => mem_diffAndApply hr fun x hx heq => ?_⟩
        · obtain ⟨r, hr, hspared⟩ := exists_spared (s.zones p).nodup hsome hstranded
          exact ne_nil_of_mem (mem_diffAndApply hr hspared)
        · obtain ⟨c, hc, hrec⟩ := exists_unwanted hx
          exact hshared ⟨c, hc, (existingByIP_eq_some hrec).2 ▸ heq ▸ hwanted⟩
      · exact hsame rfl
    · exact hsame rfl
    · exact hsame rfl
  · exact hsame rfl

/-- An address that is missing is added by the plan. -/
lemma added_steerOne (hprovider : sr.dnsProviderID = some p) (hread : e.candidatesRead sr.id)
    (hlookup : (e.steer sr.id).lookup = .ready) (hlisted : (e.steer sr.id).listed) {c : Candidate}
    (hc : c ∈ cfg.loadCandidates sr) (hwanted : c.wanted) (hip : c.ip ∉ addresses sr.domain (s.zones p).records) :
    ∃ i, (planActions sr.domain (cfg.loadCandidates sr) (s.zones p).records)[i]? =
        some (.add c.id (recordType c.ip) sr.domain c.ip) ∧
      ((e.steer sr.id).remembered i → (e.steer sr.id).replies i = .ok →
        ∃ r ∈ named sr.domain ((steerOne cfg e s sr).zones p).records, r.value = c.ip) := by
  have hsteer : (steerOne cfg e s sr).zones p =
      (diffAndApply (e.steer sr.id) sr p (cfg.loadCandidates sr) ⟨s.zones p, s.ledger⟩).zone := by
    unfold steerOne reconcileRoute
    simp [hprovider, hread, hlookup, hlisted, ne_nil_of_mem hc]
  rw [hsteer]
  exact @exists_addition _ (e.steer sr.id) sr p ⟨s.zones p, s.ledger⟩ c hc hwanted hip

lemma zones_steerRoutes : (steerRoutes cfg e s).zones =
    if e.routesListed then ((targets cfg s.cursor).foldl (steerOne cfg e) s).zones else s.zones := by
  unfold steerRoutes
  cases e.routesListed
  · rfl
  · dsimp only
    rw [if_neg (by decide), if_pos rfl]
    split <;> rfl

end Pass

/-! ### A name with three nodes -/

/-- A steered name of provider 1. -/
def appRoute (id nodeID : ℕ) : Route :=
  ⟨id, "app.example.com", nodeID, some 1, true, true, false, 60⟩

def ip₁ : Str := "10.0.0.1"
def ip₂ : Str := "10.0.0.2"
def ip₃ : Str := "10.0.0.3"

/-- One route that has all nodes. -/
def threeNodes (n₁ n₂ n₃ : Str × Bool) : Config where
  routes := ⟨[appRoute 1 1], by decide⟩
  nodes := ⟨[⟨1, n₁.1, true, n₁.2⟩, ⟨2, n₂.1, true, n₂.2⟩, ⟨3, n₃.1, true, n₃.2⟩], by simp⟩
  assignments := [(1, 2), (1, 3)]
  positive := forall_mem_singleton.mpr (by decide)

/-- Two routes of the name; the second has a healthy node. -/
def twoRoutes : Config where
  routes := ⟨[appRoute 1 1, appRoute 2 2], by decide⟩
  nodes := ⟨[⟨1, ip₁, true, false⟩, ⟨2, ip₂, true, false⟩, ⟨3, ip₃, true, true⟩], by simp⟩
  assignments := [(2, 3)]
  positive := by decide

def appRecord (id : ℕ) (value : Str) : Record :=
  ⟨id, .A, "app.example.com", value, 60⟩

/-- Two records, and a row for a route that is gone. -/
def appState : State where
  zones := fun _ =>
    { records := [appRecord 0 ip₁, appRecord 1 ip₂]
      next := 2
      nodup := by simp [appRecord]
      fresh := forall_mem_cons.mpr ⟨Nat.zero_lt_two, forall_mem_singleton.mpr (Nat.lt_succ_self 1)⟩ }
  ledger := ⟨[⟨9, 1, 1, "old.example.com", ip₁, none⟩], nodup_singleton _⟩
  cursor := 0

/-- The first calls of a plan fail, as many as are given for the route. -/
def failingFirst (calls : ℕ → ℕ) : Env where
  orphansListed := true
  rows := [⟨9, 1, 1, "old.example.com", ip₁, none⟩]
  cleanup := fun _ => ⟨.ready, true, fun _ => .ok, fun _ => true⟩
  routesListed := true
  candidatesRead := fun _ => true
  steer := fun id => ⟨.ready, true, fun i => if i < calls id then .failed else .ok, fun _ => true⟩

lemma safe_threeNodes : Safe (threeNodes (ip₁, true) (ip₂, false) (ip₃, true)) appState (appRoute 1 1) 1 where
  alone := fun r hr _ _ _ => mem_singleton.mp hr
  unmatched := by
    have hall : ∀ o ∈ appState.ledger.rows, ∀ r ∈ (appState.zones 1).records, matchOwned o [r] = none := by
      decide +kernel
    exact fun o ho _ _ r hr => hall o ho r (mem_named.mp hr).1
  unstranded := by
    unfold Stranded Static
    decide +kernel
  unshared := by
    unfold Shared wantedIP
    decide +kernel

end Dnssteer
