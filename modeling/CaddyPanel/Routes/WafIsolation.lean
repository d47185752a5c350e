import CaddyPanel.Lib.Runs
import CaddyPanel.Routes.NodePush

/-!
# Isolation of refused WAF directives (`isolateWAFFailure`)

A node refuses a config as a whole. The panel then takes the custom WAF directives out of every
route that has some, and adds them back one route at a time, as long as the node takes the result.
What the node refuses is recorded by its fingerprint, and the next build leaves it out again
(`isolated_push_stable`).
-/

namespace Routes.WafIsolation

open List
open Text (Str trimSpace)
open Caddyapi (Idna Helpers Route NodeSettings NodeConfig)
open NodePush (NodeDb prepared)

/-! ### Builds -/

/-- A `nodePush`: the config and the route set that it is rendered from. -/
structure Push where
  cfg : NodeConfig
  built : List Route
  routeIDs : List Str
  settings : NodeSettings

/-- The database of a node; ids are unique. -/
structure NodeTable extends NodeDb where
  unique : (rows.map Route.id).Nodup

structure QuarantineWrite where
  routeID : Str
  fingerprint : Str
  reason : Str

/-- The fingerprints after the writes. -/
def parkedAfter (parked : Str → Option Str) (writes : List QuarantineWrite) : Str → Option Str :=
  writes.foldl (fun parked w id => if id = w.routeID then some w.fingerprint else parked id) parked

def NodeTable.record (db : NodeTable) (writes : List QuarantineWrite) : NodeTable :=
  { db with parked := parkedAfter db.parked writes }

section

variable (idna : Idna) (hp : Helpers) (caUsable : Str → Bool) (wafFingerprint : Str → Str)

def render (settings : NodeSettings) (built : List Route) : NodeConfig :=
  Caddyapi.buildNodeConfig idna hp caUsable settings built

/-- `with`. -/
def Push.withBuilt (np : Push) (built : List Route) : Push :=
  { np with cfg := render idna hp caUsable np.settings built, built := built }

def buildNodePush (s : NodeSettings) (db : NodeTable) : Push :=
  let built := (NodePush.buildRoutesForNode idna hp db.toNodeDb).map
    (prepared wafFingerprint s db.toNodeDb)
  let settings := { s with zones := db.zones }
  { cfg := render idna hp caUsable settings built
    built := built
    routeIDs := built.map Route.id
    settings := settings }

/-! ### The search -/

def wafIsolationLimit : Nat := 6

/-- The routes with directives of their own, by index. -/
def wafCandidates (built : List Route) : List Nat :=
  (built.zipIdx.filter fun p => trimSpace p.1.wafDirectives ≠ []).map Prod.snd

def isConfigRejection (err : Str) : Bool :=
  "400" <:+: err

/-- The write of `quarantineRouteWAF`. -/
def quarantineRouteWAF (routeID directives cause : Str) : QuarantineWrite where
  routeID := routeID
  fingerprint := wafFingerprint (trimSpace directives)
  reason := cause.take 255

def setDirectives (routes : List Route) (i : Nat) (directives : Str) : List Route :=
  routes.modify i fun r => { r with wafDirectives := directives }

/-- The node and the search after some suspects: what the node took last, its live config, and the
routes that are parked. -/
structure Probe where
  accepted : List Route
  live : NodeConfig
  writes : List QuarantineWrite

def Push.directives (np : Push) (i : Nat) : Str :=
  (np.built.getD i default).wafDirectives

def Push.park (np : Push) (i : Nat) (cause : Str) : QuarantineWrite :=
  quarantineRouteWAF wafFingerprint (np.routeIDs.getD i []) (np.directives i) cause

/-- Add one suspect back. A refused config leaves the node where it was. -/
def trySuspect (load : NodeConfig → Option Str) (np : Push) (p : Probe) (i : Nat) : Probe :=
  let next := setDirectives p.accepted i (np.directives i)
  match load (render idna hp caUsable np.settings next) with
  | some err => { p with writes := p.writes ++ [np.park wafFingerprint i err] }
  | none => { p with accepted := next, live := render idna hp caUsable np.settings next }

def withoutDirectives (built : List Route) : List Route :=
  (wafCandidates built).foldl (fun routes i => setDirectives routes i []) built

structure Isolation where
  push : Option Push
  live : NodeConfig
  writes : List QuarantineWrite

def tooManySuspects (loadErr : Str) : Str :=
  "node refused the config and too many routes carry custom WAF directives to test one by one: "
    ++ loadErr

/-- `load` is the answer of the node to a config: nothing, or why it is refused. -/
def isolateWAFFailure (load : NodeConfig → Option Str) (np : Push) (loadErr : Str)
    (live : NodeConfig) : Isolation :=
  let cand := wafCandidates np.built
  if !isConfigRejection loadErr || cand = [] || np.routeIDs.length ≠ np.built.length then
    ⟨none, live, []⟩
  else
    let base := withoutDirectives np.built
    match load (render idna hp caUsable np.settings base) with
    -- the fault is somewhere else
    | some _ => ⟨none, live, []⟩
    | none =>
      let start : Probe := ⟨base, render idna hp caUsable np.settings base, []⟩
      if wafIsolationLimit < cand.length then
        ⟨some (np.withBuilt idna hp caUsable base), start.live,
          cand.map fun i => np.park wafFingerprint i (tooManySuspects loadErr)⟩
      else
        let p := cand.foldl (trySuspect idna hp caUsable wafFingerprint load np) start
        ⟨some (np.withBuilt idna hp caUsable p.accepted), p.live, p.writes⟩

/-- `loadNodeConfig`: the push that is live afterwards, or why there is none. -/
def loadNodeConfig (load : NodeConfig → Option Str) (np : Push) (live : NodeConfig) :
    Except Str Push × NodeConfig × List QuarantineWrite :=
  match load np.cfg with
  | none => (.ok np, np.cfg, [])
  | some err =>
    let res := isolateWAFFailure idna hp caUsable wafFingerprint load np err live
    match res.push with
    | some recovered => (.ok recovered, res.live, res.writes)
    | none => (.error err, res.live, res.writes)

end

/-! ### The routes that are held back -/

/-- The route set without the directives of some routes. -/
def hold (held : List Nat) (built : List Route) : List Route :=
  built.mapIdx fun i r => if i ∈ held then { r with wafDirectives := [] } else r

lemma getElem?_hold (held : List Nat) (built : List Route) (i : Nat) :
    (hold held built)[i]? = built[i]?.map fun r => if i ∈ held then { r with wafDirectives := [] } else r := by
  rw [hold, getElem?_mapIdx]

lemma hold_nil (built : List Route) : hold [] built = built := by
  apply ext_getElem?
  simp [getElem?_hold]

/-- One more route is held back. -/
lemma setDirectives_nil (held : List Nat) (built : List Route) (i : Nat) :
    setDirectives (hold held built) i [] = hold (i :: held) built := by
  apply ext_getElem?
  intro j
  rw [setDirectives, getElem?_modify, getElem?_hold, getElem?_hold, Option.map_eq_map,
    Option.map_map]
  congr 1
  funext r
  by_cases hij : i = j
  · subst hij
    by_cases hmem : i ∈ held <;> simp [hmem]
  · have hji : j ≠ i := fun h => hij h.symm
    simp [hij, hji]

/-- One route less is held back. -/
lemma setDirectives_hold {held held' : List Nat} {i : Nat} (h : ∀ j, j ∈ held' ↔ j ∈ held ∧ j ≠ i)
    (built : List Route) :
    setDirectives (hold held built) i (built.getD i default).wafDirectives = hold held' built := by
  apply ext_getElem?
  intro j
  rw [setDirectives, getElem?_modify, getElem?_hold, getElem?_hold, Option.map_eq_map,
    Option.map_map]
  cases hr : built[j]? with
  | none => rfl
  | some r =>
    simp only [Option.map_some, Function.comp_apply]
    by_cases hij : i = j
    · subst hij
      have hget : built.getD i default = r := by rw [getD_eq_getElem?_getD, hr]; rfl
      have hnot : i ∉ held' := fun hmem => ((h i).mp hmem).2 rfl
      rw [if_neg hnot, hget]
      by_cases hmem : i ∈ held <;> simp [hmem]
    · have hiff : j ∈ held' ↔ j ∈ held := by
        rw [h j]
        exact and_iff_left fun heq => hij heq.symm
      rw [if_neg hij]
      simp only [hiff]

lemma withoutDirectives_eq (built : List Route) : withoutDirectives built = hold (wafCandidates built) built := by
  have hloop := Runs.foldl_invariant (f := fun routes i => setDirectives routes i [])
    (I := fun rest routes => ∃ held, (∀ i, i ∈ held ∨ i ∈ rest ↔ i ∈ wafCandidates built) ∧
      routes = hold held built) (l := wafCandidates built) (b := built) ?_ ?_
  · obtain ⟨held, hheld, hroutes⟩ := hloop
    refine hroutes.trans (ext_getElem? fun i => ?_)
    simp [getElem?_hold, ← hheld]
  · rintro i rest routes ⟨held, hheld, rfl⟩
    refine ⟨i :: held, fun j => ?_, setDirectives_nil held built i⟩
    rw [← hheld j, mem_cons, mem_cons]
    tauto
  · exact ⟨[], fun i => by simp, (hold_nil built).symm⟩

lemma mem_wafCandidates {built : List Route} {i : Nat} :
    i ∈ wafCandidates built ↔ ∃ r, built[i]? = some r ∧ trimSpace r.wafDirectives ≠ [] := by
  simp [wafCandidates, mem_zipIdx_iff_getElem?]

lemma nodup_wafCandidates (built : List Route) : (wafCandidates built).Nodup := by
  have hsub : (wafCandidates built).Sublist (built.zipIdx.map Prod.snd) :=
    filter_sublist.map _
  rw [zipIdx_map_snd] at hsub
  exact hsub.nodup nodup_range'

/-! ### The search -/

section Search

variable {idna : Idna} {hp : Helpers} {caUsable : Str → Bool} {wafFingerprint : Str → Str}
  {load : NodeConfig → Option Str} {np : Push}

/-- What is recorded about a route that is held back. -/
def Push.mark (wafFingerprint : Str → Str) (np : Push) (i : Nat) : Str × Str :=
  (np.routeIDs.getD i [], wafFingerprint (trimSpace (np.directives i)))

def QuarantineWrite.mark (w : QuarantineWrite) : Str × Str :=
  (w.routeID, w.fingerprint)

/-- The search after some suspects: what was refused, and what is left to do, is held back. -/
structure Searched (idna : Idna) (hp : Helpers) (caUsable : Str → Bool) (wafFingerprint : Str → Str)
    (np : Push) (rejected rest : List Nat) (p : Probe) : Prop where
  sub : (rejected ++ rest).Sublist (wafCandidates np.built)
  accepted : p.accepted = hold (rejected ++ rest) np.built
  live : p.live = render idna hp caUsable np.settings p.accepted
  writes : p.writes.map QuarantineWrite.mark = rejected.map (np.mark wafFingerprint)

lemma Searched.trySuspect {rejected rest : List Nat} {i : Nat} {p : Probe}
    (h : Searched idna hp caUsable wafFingerprint np rejected (i :: rest) p) :
    ∃ rejected', Searched idna hp caUsable wafFingerprint np rejected' rest
      (trySuspect idna hp caUsable wafFingerprint load np p i) := by
  have hnodup := h.sub.nodup (nodup_wafCandidates np.built)
  unfold WafIsolation.trySuspect
  dsimp only
  split
  · -- refused: the directives stay out and are recorded
    refine ⟨rejected ++ [i], ?_, ?_, h.live, ?_⟩
    · rw [append_assoc]
      exact h.sub
    · rw [append_assoc]
      exact h.accepted
    · rw [map_append, map_append, h.writes]
      rfl
  -- taken: the directives are back
  refine ⟨rejected, ?_, ?_, rfl, h.writes⟩
  · exact ((sublist_cons_self i rest).append_left rejected).trans h.sub
  rw [h.accepted]
  refine setDirectives_hold (fun j => ?_) np.built
  have hi : i ∉ rejected ++ rest := by
    intro hmem
    rw [nodup_middle] at hnodup
    exact (nodup_cons.mp hnodup).1 hmem
  rw [mem_append, mem_append, mem_cons]
  constructor
  · intro hj
    refine ⟨hj.imp id .inr, ?_⟩
    rintro rfl
    exact hi (mem_append.mpr hj)
  · rintro ⟨hj | rfl | hj, hne⟩
    · exact .inl hj
    · exact absurd rfl hne
    · exact .inr hj

/-- What a successful isolation leaves: some suspects are held back and recorded, and the rest is
live. -/
lemma isolateWAFFailure_eq_some {loadErr : Str} {live : NodeConfig} {np' : Push}
    (h : (isolateWAFFailure idna hp caUsable wafFingerprint load np loadErr live).push = some np') :
    ∃ held, held.Sublist (wafCandidates np.built) ∧
      np' = np.withBuilt idna hp caUsable (hold held np.built) ∧
      (isolateWAFFailure idna hp caUsable wafFingerprint load np loadErr live).live = np'.cfg ∧
      (isolateWAFFailure idna hp caUsable wafFingerprint load np loadErr live).writes.map
        QuarantineWrite.mark = held.map (np.mark wafFingerprint) := by
  have hstart : Searched idna hp caUsable wafFingerprint np [] (wafCandidates np.built)
      ⟨withoutDirectives np.built, render idna hp caUsable np.settings (withoutDirectives np.built),
        []⟩ := ⟨List.Sublist.refl _, withoutDirectives_eq np.built, rfl, rfl⟩
  obtain ⟨held, hend⟩ := Runs.foldl_invariant
    (I := fun rest p => ∃ rejected, Searched idna hp caUsable wafFingerprint np rejected rest p)
    (f := trySuspect idna hp caUsable wafFingerprint load np)
    (fun i rest p ⟨_, hp⟩ => hp.trySuspect) ⟨[], hstart⟩
  generalize hres : isolateWAFFailure idna hp caUsable wafFingerprint load np loadErr live = res
    at h ⊢
  unfold isolateWAFFailure at hres
  dsimp only at hres
  split at hres
  · subst hres
    cases h
  split at hres
  · subst hres
    cases h
  split at hres
  · subst hres
    cases h
    refine ⟨wafCandidates np.built, List.Sublist.refl _, ?_, rfl, ?_⟩
    · rw [withoutDirectives_eq]
    · rw [map_map]
      rfl
  · subst hres
    cases h
    have hsub := hend.sub
    have haccepted := hend.accepted
    rw [append_nil] at hsub haccepted
    exact ⟨held, hsub, by rw [haccepted], hend.live, hend.writes⟩

end Search

/-! ### The next build -/

lemma parkedAfter_of_forall_ne {parked : Str → Option Str} {writes : List QuarantineWrite} {id : Str}
    (h : ∀ w ∈ writes, w.routeID ≠ id) : parkedAfter parked writes id = parked id := by
  induction writes generalizing parked with
  | nil => rfl
  | cons w writes ih =>
    obtain ⟨hw, h⟩ := forall_mem_cons.mp h
    exact (ih h).trans (if_neg fun heq => hw heq.symm)

lemma parkedAfter_of_mem {parked : Str → Option Str} {writes : List QuarantineWrite}
    {id fingerprint : Str} (hmem : ∃ w ∈ writes, w.routeID = id)
    (h : ∀ w ∈ writes, w.routeID = id → w.fingerprint = fingerprint) :
    parkedAfter parked writes id = some fingerprint := by
  induction writes generalizing parked with
  | nil =>
    obtain ⟨w, hw, -⟩ := hmem
    cases hw
  | cons w writes ih =>
    obtain ⟨hw, h⟩ := forall_mem_cons.mp h
    by_cases hlater : ∃ w' ∈ writes, w'.routeID = id
    · exact ih hlater h
    have hid : w.routeID = id := by
      obtain ⟨w', hw', hid⟩ := hmem
      rcases mem_cons.mp hw' with rfl | hw'
      · exact hid
      · exact absurd ⟨w', hw', hid⟩ hlater
    refine (parkedAfter_of_forall_ne fun w' hw' hid' => hlater ⟨w', hw', hid'⟩).trans ?_
    exact (if_pos hid.symm).trans (congrArg some (hw hid))

section Rebuild

variable {idna : Idna} {hp : Helpers} {caUsable : Str → Bool} {wafFingerprint : Str → Str}
  {s : NodeSettings} {db : NodeTable}

/-- Directives that a build keeps are those of the row. -/
lemma prepared_of_directives {db : NodeDb} {r : Route}
    (h : trimSpace (prepared wafFingerprint s db r).wafDirectives ≠ []) :
    prepared wafFingerprint s db r = NodePush.withBranding s r := by
  unfold prepared NodePush.applyWAFQuarantine at h ⊢
  dsimp only at h ⊢
  split_ifs at h ⊢
  · exact absurd rfl h
  · rfl

lemma prepared_of_parked {db : NodeDb} {r : Route} (hne : trimSpace r.wafDirectives ≠ [])
    (h : db.parked r.id = some (wafFingerprint (trimSpace r.wafDirectives))) :
    prepared wafFingerprint s db r = NodePush.withBranding s { r with wafDirectives := [] } := by
  unfold prepared NodePush.applyWAFQuarantine
  rw [if_pos]
  rw [h, Bool.and_eq_true]
  exact ⟨decide_eq_true hne, decide_eq_true rfl⟩

variable (idna hp caUsable wafFingerprint s db)

lemma nodup_routeIDs : (buildNodePush idna hp caUsable wafFingerprint s db).routeIDs.Nodup := by
  have hids : (buildNodePush idna hp caUsable wafFingerprint s db).routeIDs =
      (NodePush.buildRoutesForNode idna hp db.toNodeDb).map Route.id := by
    refine (map_map ..).trans (map_congr_left fun r _ => ?_)
    exact NodePush.prepared_id r
  rw [hids]
  exact (Caddyapi.sortRoutesForEmission_perm.map Route.id).nodup_iff.mpr db.unique

variable {idna hp caUsable wafFingerprint s db}

/-- A build after the writes of a search holds back what the search held back. -/
lemma built_record {held : List Nat} {writes : List QuarantineWrite}
    (hheld : held.Sublist (wafCandidates (buildNodePush idna hp caUsable wafFingerprint s db).built))
    (hwrites : writes.map QuarantineWrite.mark =
      held.map ((buildNodePush idna hp caUsable wafFingerprint s db).mark wafFingerprint)) :
    (buildNodePush idna hp caUsable wafFingerprint s (db.record writes)).built =
      hold held (buildNodePush idna hp caUsable wafFingerprint s db).built := by
  have hnodup := nodup_routeIDs idna hp caUsable wafFingerprint s db
  generalize hnp : buildNodePush idna hp caUsable wafFingerprint s db = np at hheld hwrites hnodup ⊢
  have hbuilt : np.built = (NodePush.buildRoutesForNode idna hp db.toNodeDb).map
      (prepared wafFingerprint s db.toNodeDb) := by
    subst hnp
    rfl
  have hids : np.routeIDs = np.built.map Route.id := by
    subst hnp
    rfl
  apply ext_getElem?
  intro i
  have hrebuilt : (buildNodePush idna hp caUsable wafFingerprint s (db.record writes)).built =
      (NodePush.buildRoutesForNode idna hp db.toNodeDb).map
        (prepared wafFingerprint s (db.record writes).toNodeDb) := rfl
  rw [getElem?_hold, hrebuilt, hbuilt, getElem?_map, getElem?_map]
  cases hr : (NodePush.buildRoutesForNode idna hp db.toNodeDb)[i]? with
  | none => rfl
  | some r =>
    have hnth : np.built[i]? = some (prepared wafFingerprint s db.toNodeDb r) := by
      rw [hbuilt, getElem?_map, hr]
      rfl
    have hid : np.routeIDs[i]? = some r.id := by
      rw [hids, getElem?_map, hnth, Option.map_some, NodePush.prepared_id]
    simp only [Option.map_some, Option.some.injEq]
    -- a write for the route is a write for this place
    have hplace : ∀ w ∈ writes, w.routeID = r.id → i ∈ held ∧ w.mark = np.mark wafFingerprint i := by
      intro w hw hwid
      have hmark : w.mark ∈ held.map (np.mark wafFingerprint) :=
        hwrites ▸ mem_map_of_mem hw
      obtain ⟨j, hj, hjw⟩ := mem_map.mp hmark
      obtain ⟨q, hq, -⟩ := mem_wafCandidates.mp (hheld.subset hj)
      have hqid : np.routeIDs[j]? = some q.id := by
        rw [hids, getElem?_map, hq, Option.map_some]
      have hsame : q.id = r.id := by
        have hfst : np.routeIDs.getD j [] = w.routeID := congrArg Prod.fst hjw
        rwa [List.getD_eq_getElem?_getD, hqid, hwid] at hfst
      obtain ⟨hlt, -⟩ := List.getElem?_eq_some_iff.mp hqid
      obtain rfl : j = i := (List.getElem?_inj hlt hnodup).mp (by rw [hqid, hid, hsame])
      exact ⟨hj, hjw.symm⟩
    by_cases hi : i ∈ held
    · rw [if_pos hi]
      obtain ⟨q, hq, hne⟩ := mem_wafCandidates.mp (hheld.subset hi)
      obtain rfl : prepared wafFingerprint s db.toNodeDb r = q := Option.some.inj (hnth.symm.trans hq)
      have hkept := prepared_of_directives hne
      have hdirectives : np.directives i = r.wafDirectives := by
        rw [Push.directives, getD_eq_getElem?_getD, hnth, hkept]
        rfl
      have hmark : np.mark wafFingerprint i = (r.id, wafFingerprint (trimSpace r.wafDirectives)) := by
        rw [Push.mark, hdirectives, getD_eq_getElem?_getD, hid, Option.getD_some]
      have hparked : parkedAfter db.parked writes r.id =
          some (wafFingerprint (trimSpace r.wafDirectives)) := by
        apply parkedAfter_of_mem
        · have hmem : np.mark wafFingerprint i ∈ writes.map QuarantineWrite.mark :=
            hwrites ▸ mem_map_of_mem hi
          obtain ⟨w, hw, hwmark⟩ := mem_map.mp hmem
          exact ⟨w, hw, congrArg Prod.fst (hwmark.trans hmark)⟩
        · intro w hw hwid
          exact congrArg Prod.snd ((hplace w hw hwid).2.trans hmark)
      rw [hkept] at hne ⊢
      exact prepared_of_parked hne hparked
    · rw [if_neg hi]
      refine NodePush.prepared_congr (parkedAfter_of_forall_ne fun w hw hwid => ?_)
      exact hi (hplace w hw hwid).1

end Rebuild

/-- Two sites with directives of their own. -/
def twoSites : NodeTable where
  rows := [ { id := "1", hosts := ["a.io"], wafEnabled := true, wafDirectives := "bad" },
    { id := "2", hosts := ["b.io"], wafEnabled := true, wafDirectives := "fine" }]
  zones := []
  wildcardEnabled := fun _ => false
  parked := fun _ => none
  unique := by decide

/-- A node that refuses some directives. -/
def refusesBad (cfg : NodeConfig) : Option Str :=
  if cfg.routes.any fun e => match e.route with
    | .mk _ handle _ => handle.any fun h => match h with
      | .waf directives => "bad" <:+: directives
      | _ => false
  then some "400: invalid WAF config" else none

def twoSitesPush (db : NodeTable) : Push :=
  buildNodePush Caddyapi.asciiIdna Caddyapi.plainHelpers (fun _ => true) id
    { wafModuleAvailable := true } db

def twoSitesIsolated : Isolation :=
  isolateWAFFailure Caddyapi.asciiIdna Caddyapi.plainHelpers (fun _ => true) id refusesBad
    (twoSitesPush twoSites) "400: invalid WAF config" ⟨[], [], false, false⟩

end Routes.WafIsolation
