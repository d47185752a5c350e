import CaddyPanel.Lib.Batches
import CaddyPanel.Routes.Lifecycle
import CaddyPanel.Routes.Placement

/-!
# Automatic failover (`AutoFailover`)

Every two minutes the routes of nodes that have been down for longer than the grace period are
listed, the oldest 500 of them, and tried one by one. Routes that are bound to a tunnel are listed
too, and skipped; so are routes for which no node has room.
-/

namespace Failover

open List
open Lifecycle (Status)
open Slots (NodeId GroupId RouteId Row Node)

structure Panel where
  slots : Slots.State
  status : RouteId → Status
  /-- `health_status` is `down`, and the node was last seen before the grace period -/
  longDown : NodeId → Bool
  /-- the keys of `caddy_nodes` -/
  nodeIds : List NodeId
  mem_nodeIds : ∀ n, slots.isNode n → n ∈ nodeIds

/-- A row of the listing. -/
structure Candidate where
  id : RouteId
  fromNode : NodeId
  group : GroupId
  viaPeer : Bool
  deriving DecidableEq

namespace Panel

def candidateOf (p : Panel) (id : RouteId) (row : Row) : Option Candidate :=
  (p.slots.nodes row.anchor).bind fun node =>
    if node.enabled && !node.healthy && p.longDown row.anchor && (p.status id).serving then
      some ⟨id, row.anchor, node.group, row.viaPeer⟩
    else none

/-- The listing without its `LIMIT`. -/
def candidates (p : Panel) : List Candidate :=
  (p.slots.routes.entries.filterMap fun e => p.candidateOf e.1 e.2).insertionSort
    fun a b => a.id ≤ b.id

/-- The nodes in the order of a query; `rank` says where the query puts each. -/
def ranked (p : Panel) (rank : NodeId → Nat) : List NodeId :=
  p.nodeIds.insertionSort fun a b => rank a ≤ rank b

/-- What a transaction on the placement leaves behind. -/
def place (p : Panel) (slots : Slots.State) (h : slots.isNode = p.slots.isNode) : Panel :=
  { p with
    slots := slots
    mem_nodeIds := fun n hn => p.mem_nodeIds n ((congrFun h n).symm.trans hn) }

/-- One round of the loop of `AutoFailover`. -/
def failNext (rank : RouteId → NodeId → Nat) (p : Panel) (c : Candidate) : Panel :=
  if c.viaPeer then p
  else
    match h : p.slots.failoverRoute c.id c.fromNode c.group (p.ranked (rank c.id)) with
    | some slots => p.place slots (Slots.State.isNode_failoverRoute h)
    | none => p

def batchLimit : Nat := 500

def autoFailover (rank : RouteId → NodeId → Nat) (p : Panel) : Panel :=
  (p.candidates.take batchLimit).foldl (failNext rank) p

/-! ### Where a route can go -/

/-- A healthy node has a copy of the route, or one of the group has a free slot. -/
def hasDestination (p : Panel) (c : Candidate) (row : Row) : Bool :=
  (p.slots.standby c.fromNode row).isSome ||
    p.nodeIds.any (p.slots.candidate c.group c.fromNode true)

/-- A round would leave the route where it is. -/
def stuck (p : Panel) (c : Candidate) : Bool :=
  c.viaPeer || !(p.slots.routes.lookup c.id).any (p.hasDestination c)

end Panel

variable {p p' : Panel} {c : Candidate} {rank : RouteId → NodeId → Nat}

lemma Panel.mem_candidates : c ∈ p.candidates ↔
    ∃ row, p.slots.routes.lookup c.id = some row ∧ p.candidateOf c.id row = some c := by
  unfold Panel.candidates
  rw [mem_insertionSort, mem_filterMap]
  constructor
  · rintro ⟨⟨id, row⟩, he, hc⟩
    have hid : c.id = id := by
      obtain ⟨node, -, hc⟩ := Option.bind_eq_some_iff.mp hc
      split_ifs at hc
      cases hc
      rfl
    subst hid
    exact ⟨row, AList.mem_lookup_iff.mpr he, hc⟩
  · rintro ⟨row, hrow, hc⟩
    exact ⟨⟨c.id, row⟩, AList.mem_lookup_iff.mp hrow, hc⟩

variable {id : RouteId} {s s' : Slots.State} {n fromNode : NodeId} {order : List NodeId} {group : GroupId}

lemma Panel.candidateOf_eq_some {row : Row} (h : p.candidateOf id row = some c) :
    ∃ node, p.slots.nodes row.anchor = some node ∧ node.enabled ∧ node.healthy = false ∧
      p.longDown row.anchor ∧ (p.status id).serving ∧ c = ⟨id, row.anchor, node.group, row.viaPeer⟩ := by
  obtain ⟨node, hnode, h⟩ := Option.bind_eq_some_iff.mp h
  split_ifs at h with hcond
  simp only [Bool.and_eq_true, Bool.not_eq_true'] at hcond
  cases h
  exact ⟨node, hnode, hcond.1.1.1, hcond.1.1.2, hcond.1.2, hcond.2, rfl⟩

lemma Panel.candidates_sorted (p : Panel) : p.candidates.Pairwise (Candidate.id · < Candidate.id ·) := by
  have hle : p.candidates.Pairwise (Candidate.id · ≤ Candidate.id ·) :=
    pairwise_insertionSort _ _
  have hne : p.candidates.Pairwise (Candidate.id · ≠ Candidate.id ·) := by
    refine ((perm_insertionSort _ _).pairwise_iff Ne.symm).mpr ?_
    refine List.Pairwise.filterMap _ ?_ (nodupKeys_iff_pairwise.mp p.slots.routes.nodupKeys)
    intro e e' hkeys b hb b' hb'
    obtain ⟨_, -, -, -, -, -, rfl⟩ := p.candidateOf_eq_some hb
    obtain ⟨_, -, -, -, -, -, rfl⟩ := p.candidateOf_eq_some hb'
    exact hkeys
  exact (hle.and hne).imp fun h => Nat.lt_of_le_of_ne h.1 h.2

/-! ### What a move changes -/

lemma nodes_setCurrent (s : Slots.State) (n m : NodeId) (f : Nat → Nat) :
    (s.setCurrent n f).nodes m = (s.nodes m).map fun node =>
      { node with current := if m = n then f node.current else node.current } := by
  by_cases h : m = n
  · subst h
    simp [Slots.State.setCurrent]
  · simp [Slots.State.setCurrent, h]

/-- The counters of nodes other than the one the route leaves do not fall, and nothing else about a
node changes. -/
lemma nodes_failoverRoute (h : s.failoverRoute id fromNode group order = some s') (n : NodeId) :
    ∃ f : Nat → Nat, (n ≠ fromNode → ∀ k, k ≤ f k) ∧
      s'.nodes n = (s.nodes n).map fun node => { node with current := f node.current } := by
  obtain ⟨row, dest, claimed, s₁, -, -, -, -, hdest, rfl⟩ := Slots.State.failoverRoute_eq_some h
  have hclaim : ∃ g : Nat → Nat, (∀ k, k ≤ g k) ∧
      s₁.nodes n = (s.nodes n).map fun node => { node with current := g node.current } := by
    rcases hdest with ⟨-, -, rfl⟩ | ⟨-, -, hclaim⟩
    · exact ⟨fun k => k, fun k => le_rfl, by simp⟩
    obtain ⟨-, rfl⟩ := Slots.State.claim_eq_some hclaim
    refine ⟨fun k => if n = dest then k + 1 else k, fun k => ?_, nodes_setCurrent s dest n _⟩
    dsimp only
    split <;> omega
  obtain ⟨g, hg, hnodes⟩ := hclaim
  refine ⟨fun k => if n = fromNode then g k - 1 else g k, fun hn k => by simp [hn, hg k], ?_⟩
  have hrelease := nodes_setCurrent (s₁.writeRow id (row.failover fromNode dest claimed)) fromNode n (· - 1)
  have hwrite : (s₁.writeRow id (row.failover fromNode dest claimed)).nodes n = s₁.nodes n := rfl
  rw [hwrite, hnodes, Option.map_map] at hrelease
  exact hrelease

/-- One move, seen from the nodes: a healthy node never gains room. -/
structure Moved (s s' : Slots.State) : Prop where
  ready : s'.ready = s.ready
  standby : s'.standby = s.standby
  candidate : ∀ group skip n, s'.candidate group skip true n → s.candidate group skip true n
  fixed : ∀ n, (s'.nodes n).map (fun node => (node.group, node.enabled, node.healthy)) =
    (s.nodes n).map fun node => (node.group, node.enabled, node.healthy)

lemma moved_failoverRoute (h : s.failoverRoute id fromNode group order = some s')
    (hdown : (s.nodes fromNode).all (fun node => !node.healthy)) : Moved s s' := by
  have hnodes := nodes_failoverRoute h
  have hready : s'.ready = s.ready := by
    funext n
    obtain ⟨f, -, hf⟩ := hnodes n
    unfold Slots.State.ready
    rw [hf]
    cases s.nodes n <;> rfl
  refine ⟨hready, ?_, ?_, ?_⟩
  · funext skip row
    have hstandbys : s'.standbys skip row = s.standbys skip row := by
      exact congrArg (fun r : NodeId → Bool => row.assigned.filter fun n => n ≠ skip && r n) hready
    have hpriority : ∀ n, (s'.nodes n).elim 0 Node.priority = (s.nodes n).elim 0 Node.priority := by
      intro n
      obtain ⟨f, -, hf⟩ := hnodes n
      rw [hf]
      cases s.nodes n <;> rfl
    have hpreferred : s'.preferred = s.preferred := by
      funext a b
      simp only [Slots.State.preferred, hpriority]
    unfold Slots.State.standby
    rw [hstandbys, hpreferred]
  · intro group skip n hn
    obtain ⟨f, hle, hf⟩ := hnodes n
    unfold Slots.State.candidate at hn ⊢
    rw [hf] at hn
    cases hnode : s.nodes n with
    | none => simp [hnode] at hn
    | some node =>
      simp only [hnode, Option.map_some, Option.any_some, Bool.and_eq_true, Bool.not_true,
        Bool.false_or] at hn ⊢
      refine ⟨⟨hn.1.1, ?_⟩, hn.2⟩
      have hne : n ≠ fromNode := by
        rintro rfl
        simp [hnode, hn.2] at hdown
      have hroom : f node.current < node.max := by simpa [Node.hasRoom] using hn.1.2
      simpa [Node.hasRoom] using Nat.lt_of_le_of_lt (hle hne node.current) hroom
  · intro n
    obtain ⟨f, -, hf⟩ := hnodes n
    rw [hf, Option.map_map]
    rfl

/-! ### One round -/

/-- The candidates of a row do not change with the counters. -/
lemma candidateOf_place (hs : s.isNode = p.slots.isNode) (h : Moved p.slots s)
    (id : RouteId) (row : Row) : (p.place s hs).candidateOf id row = p.candidateOf id row := by
  have hfixed := h.fixed row.anchor
  unfold Panel.candidateOf Panel.place
  cases hnode : p.slots.nodes row.anchor with
  | none =>
    rw [hnode, Option.map_none, Option.map_eq_none_iff] at hfixed
    simp [hfixed]
  | some node =>
    rw [hnode, Option.map_some, Option.map_eq_some_iff] at hfixed
    obtain ⟨node', hnode', heq⟩ := hfixed
    simp only [Prod.mk.injEq] at heq
    simp [hnode', heq]

lemma stuck_place (hs : s.isNode = p.slots.isNode) (h : Moved p.slots s)
    (hrow : s.routes.lookup c.id = p.slots.routes.lookup c.id) (hstuck : p.stuck c) : (p.place s hs).stuck c := by
  unfold Panel.stuck Panel.place at *
  rw [Bool.or_eq_true] at hstuck ⊢
  refine hstuck.imp id fun hnone => ?_
  rw [hrow]
  cases hlookup : p.slots.routes.lookup c.id with
  | none => rfl
  | some row =>
    simp only [hlookup, Option.any_some, Panel.hasDestination, Bool.not_eq_true', Bool.or_eq_false_iff,
      any_eq_false] at hnone ⊢
    refine ⟨by rw [h.standby, hnone.1], fun n hn hcand => ?_⟩
    exact hnone.2 n hn (h.candidate _ _ _ hcand)

/-- The row of a candidate, with what the listing read of it. -/
lemma Panel.row_of_mem (h : c ∈ p.candidates) : ∃ row, p.slots.routes.lookup c.id = some row ∧
    row.anchor = c.fromNode ∧ row.viaPeer = c.viaPeer ∧ (p.slots.nodes c.fromNode).all (fun node => !node.healthy) := by
  obtain ⟨row, hrow, hc⟩ := Panel.mem_candidates.mp h
  obtain ⟨node, hnode, -, hdown, -, -, heq⟩ := p.candidateOf_eq_some hc
  rw [heq]
  exact ⟨row, by rw [← hrow], rfl, rfl, by simp [hnode, hdown]⟩

/-- The transaction moves a route that is where it was found, and has somewhere to go. -/
lemma isSome_failoverRoute_iff {row : Row} (hrow : p.slots.routes.lookup c.id = some row)
    (hanchor : row.anchor = c.fromNode) (rank : NodeId → Nat) :
    (p.slots.failoverRoute c.id c.fromNode c.group (p.ranked rank)).isSome ↔ p.hasDestination c row := by
  have hnone : p.slots.failoverRoute c.id row.anchor c.group (p.ranked rank) = none ↔ _ :=
    Slots.State.failoverRoute_eq_none_iff hrow
  rw [hanchor] at hnone
  rw [← Option.ne_none_iff_isSome, Ne, hnone]
  simp only [Panel.hasDestination, Bool.or_eq_true, any_eq_true, Option.isSome_iff_ne_none, ne_eq,
    not_and_or, not_forall, Panel.ranked, mem_insertionSort, Bool.not_eq_false, exists_prop]

/-- A round leaves a stuck route where it is, and moves any other onto a healthy node. -/
lemma failoverRoute_isSome_iff (h : c ∈ p.candidates) (hvia : c.viaPeer = false) (rank : NodeId → Nat) :
    (p.slots.failoverRoute c.id c.fromNode c.group (p.ranked rank)).isSome ↔ p.stuck c = false := by
  obtain ⟨row, hrow, hanchor, -, -⟩ := p.row_of_mem h
  rw [isSome_failoverRoute_iff hrow hanchor]
  simp [Panel.stuck, hvia, hrow]

/-- The rows after a move: the route is on a healthy node, the others are where they were. -/
lemma lookup_failoverRoute (h : s.failoverRoute id fromNode group order = some s') :
    (∃ row, s'.routes.lookup id = some row ∧ s.ready row.anchor) ∧
      ∀ id', id' ≠ id → s'.routes.lookup id' = s.routes.lookup id' := by
  obtain ⟨row, dest, claimed, s₁, -, -, -, hready, hdest, rfl⟩ := Slots.State.failoverRoute_eq_some h
  have hroutes : s₁.routes = s.routes := by
    rcases hdest with ⟨-, -, rfl⟩ | ⟨-, -, hclaim⟩
    · rfl
    · exact Slots.State.routes_claim hclaim
  refine ⟨⟨_, Slots.State.lookup_writeRow _ _ _, by rwa [Slots.Row.anchor_failover]⟩, ?_⟩
  intro id' hne
  rw [← hroutes]
  exact Slots.State.lookup_writeRow_ne _ hne

lemma try_failNext (rank : RouteId → NodeId → Nat) (p : Panel) (c : Candidate) (hc : c ∈ p.candidates) :
    Batches.Try Candidate.id Panel.candidates Panel.stuck c p (p.failNext rank c) := by
  have hsame : ∀ hstuck : p.stuck c,
      Batches.Try Candidate.id Panel.candidates Panel.stuck c p p := by
    intro hstuck
    refine ⟨fun u hu => hu, fun u hu _ => ⟨hu, id⟩, fun hfree => ?_, fun _ => ⟨hc, hstuck⟩⟩
    rw [hstuck] at hfree
    cases hfree
  unfold Panel.failNext
  split
  · rename_i hvia
    exact hsame (by simp [Panel.stuck, hvia])
  rename_i hvia
  rw [Bool.not_eq_true] at hvia
  have hsome := failoverRoute_isSome_iff hc hvia (rank c.id)
  split
  · rename_i s hs
    obtain ⟨row, -, -, -, hdown⟩ := p.row_of_mem hc
    have hmoved := moved_failoverRoute hs hdown
    obtain ⟨⟨row', hrow', hready⟩, hothers⟩ := lookup_failoverRoute hs
    have hnode := Slots.State.isNode_failoverRoute hs
    -- the route's new node is healthy
    have hgone : ∀ u ∈ (p.place s hnode).candidates, u.id ≠ c.id := by
      intro u hu hid
      obtain ⟨row₀, hrow₀, hanchor, -, hdown₀⟩ := Panel.row_of_mem hu
      rw [hid] at hrow₀
      cases hrow'.symm.trans hrow₀
      rw [← hmoved.ready, hanchor] at hready
      unfold Slots.State.ready at hready
      cases hget : s.nodes u.fromNode with
      | none => simp [hget] at hready
      | some node =>
        simp only [Panel.place, hget, Option.all_some, Bool.not_eq_true'] at hdown₀
        simp [hget, hdown₀] at hready
    have hkeeps : ∀ u, u.id ≠ c.id → (u ∈ (p.place s hnode).candidates ↔ u ∈ p.candidates) := by
      intro u hid
      have hlookup : (p.place s hnode).slots.routes.lookup u.id = p.slots.routes.lookup u.id :=
        hothers u.id hid
      rw [Panel.mem_candidates, Panel.mem_candidates, hlookup]
      simp only [candidateOf_place hnode hmoved]
    have hfree : p.stuck c = false := hsome.mp (by rw [hs]; rfl)
    refine ⟨fun u hu => (hkeeps u (hgone u hu)).mp hu, fun u hu hne => ⟨(hkeeps u hne).mpr hu, ?_⟩,
      fun _ hmem => hgone c hmem rfl, fun hstuck => ?_⟩
    · exact stuck_place hnode hmoved (hothers u.id hne)
    · rw [hfree] at hstuck
      cases hstuck
  · rename_i hs
    rw [hs] at hsome
    refine hsame ?_
    simpa using hsome

/-! ### Passes without end -/

/-- The state after `k` passes. -/
def passes (p : Panel) (rank : Nat → RouteId → NodeId → Nat) : Nat → Panel
  | 0 => p
  | k + 1 => (passes p rank k).autoFailover (rank k)

/-- What failover never changes: only the anchors of routes and the counters of nodes move. -/
structure Frame (p p' : Panel) : Prop where
  status : p'.status = p.status
  longDown : p'.longDown = p.longDown
  fixed : ∀ n, (p'.slots.nodes n).map (fun node => (node.group, node.enabled, node.healthy)) =
    (p.slots.nodes n).map fun node => (node.group, node.enabled, node.healthy)
  rows : ∀ id row, p.slots.routes.lookup id = some row →
    ∃ row', p'.slots.routes.lookup id = some row' ∧ row'.viaPeer = row.viaPeer

lemma Frame.refl (p : Panel) : Frame p p :=
  ⟨rfl, rfl, fun _ => rfl, fun _ row h => ⟨row, h, rfl⟩⟩

lemma Frame.trans {p₁ p₂ p₃ : Panel} (h : Frame p₁ p₂) (h' : Frame p₂ p₃) : Frame p₁ p₃ where
  status := h'.status.trans h.status
  longDown := h'.longDown.trans h.longDown
  fixed := fun n => (h'.fixed n).trans (h.fixed n)
  rows := by
    intro id row hrow
    obtain ⟨row₂, hrow₂, hvia₂⟩ := h.rows id row hrow
    obtain ⟨row₃, hrow₃, hvia₃⟩ := h'.rows id row₂ hrow₂
    exact ⟨row₃, hrow₃, hvia₃.trans hvia₂⟩

lemma frame_failNext (rank : RouteId → NodeId → Nat) (p : Panel) (c : Candidate) : Frame p (p.failNext rank c) := by
  unfold Panel.failNext
  split
  · exact Frame.refl p
  split
  · rename_i s hs
    refine ⟨rfl, rfl, fun n => ?_, fun id row hrow => ?_⟩
    · obtain ⟨f, -, hf⟩ := nodes_failoverRoute hs n
      rw [Panel.place, hf, Option.map_map]
      rfl
    by_cases hid : id = c.id
    · obtain ⟨row₀, dest, claimed, s₁, hrow₀, -, -, -, -, rfl⟩ := Slots.State.failoverRoute_eq_some hs
      subst hid
      cases hrow.symm.trans hrow₀
      exact ⟨_, Slots.State.lookup_writeRow _ _ _, by unfold Row.failover; split <;> rfl⟩
    · exact ⟨row, ((lookup_failoverRoute hs).2 id hid).trans hrow, rfl⟩
  · exact Frame.refl p

lemma frame_passes (p : Panel) (rank : Nat → RouteId → NodeId → Nat) (k : Nat) : Frame p (passes p rank k) := by
  have hround : ∀ (cs : List Candidate) (rank : RouteId → NodeId → Nat) (q : Panel),
      Frame q (cs.foldl (Panel.failNext rank) q) := by
    intro cs rank
    induction cs with
    | nil => exact Frame.refl
    | cons c cs ih => exact fun q => (frame_failNext rank q c).trans (ih _)
  induction k with
  | zero => exact Frame.refl p
  | succ k ih => exact ih.trans (hround _ _ _)

/-- The route is listed as long as it is on its node. -/
lemma Frame.mem_candidates_iff (h : Frame p p') (hc : c ∈ p.candidates) :
    c ∈ p'.candidates ↔ ∃ row, p'.slots.routes.lookup c.id = some row ∧ row.anchor = c.fromNode := by
  constructor
  · intro hc'
    obtain ⟨row, hrow, hanchor, -⟩ := Panel.row_of_mem hc'
    exact ⟨row, hrow, hanchor⟩
  rintro ⟨row', hrow', hanchor'⟩
  obtain ⟨row, hrow, hof⟩ := Panel.mem_candidates.mp hc
  obtain ⟨node, hnode, henabled, hdown, hlong, hserving, heq⟩ := p.candidateOf_eq_some hof
  refine Panel.mem_candidates.mpr ⟨row', hrow', ?_⟩
  obtain ⟨row'', hrow'', hvia⟩ := h.rows c.id row hrow
  cases hrow'.symm.trans hrow''
  have hanchor : row.anchor = c.fromNode := by rw [heq]
  have hfixed := h.fixed row'.anchor
  rw [hanchor', ← hanchor, hnode, Option.map_some, Option.map_eq_some_iff] at hfixed
  obtain ⟨node', hnode', hsame⟩ := hfixed
  simp only [Prod.mk.injEq] at hsame
  unfold Panel.candidateOf
  rw [hanchor', ← hanchor, hnode', Option.bind_some, h.longDown, h.status]
  rw [if_pos (by simp [hsame, henabled, hdown, hlong, hserving]), hsame.1, hvia]
  exact congrArg some heq.symm

/-- How many routes listed before `c` will not move. -/
def Panel.stuckBefore (p : Panel) (c : Candidate) : Nat :=
  Batches.stuckAhead Candidate.id Panel.candidates Panel.stuck c p

/-- While a healthy node of the group keeps a free slot, a listed route that is not bound to a tunnel
is moved after finitely many passes exactly where no pass finds a whole batch of routes in front of
it that cannot be moved. -/
theorem eventually_moved_iff (p : Panel) (rank : Nat → RouteId → NodeId → Nat) (c : Candidate)
    (hc : c ∈ p.candidates) (hvia : c.viaPeer = false)
    (hpeer : ∀ k, ∃ n, (passes p rank k).slots.candidate c.group c.fromNode true n) :
    (∃ k row, (passes p rank k).slots.routes.lookup c.id = some row ∧ row.anchor ≠ c.fromNode) ↔
      ∀ k, (∃ row, (passes p rank k).slots.routes.lookup c.id = some row ∧ row.anchor = c.fromNode) →
        (passes p rank k).stuckBefore c < Panel.batchLimit := by
  have hlisted := fun k => (frame_passes p rank k).mem_candidates_iff hc
  have hpass : ∀ k, Batches.Pass Panel.batchLimit Panel.candidates Panel.stuck (passes p rank k)
      (passes p rank (k + 1)) := fun k =>
    Batches.pass_of_tries Panel.candidates_sorted (try_failNext (rank k)) (passes p rank k)
  have hfree : ∀ k, c ∈ (passes p rank k).candidates → (passes p rank k).stuck c = false := by
    intro k hmem
    obtain ⟨row, hrow, -, -⟩ := Panel.row_of_mem hmem
    obtain ⟨n, hn⟩ := hpeer k
    have hid : n ∈ (passes p rank k).nodeIds := by
      refine (passes p rank k).mem_nodeIds n ?_
      unfold Slots.State.candidate at hn
      cases hnode : (passes p rank k).slots.nodes n with
      | none => simp [hnode] at hn
      | some node => simp [Slots.State.isNode, hnode]
    have hany : (passes p rank k).nodeIds.any
        ((passes p rank k).slots.candidate c.group c.fromNode true) :=
      any_eq_true.mpr ⟨n, hid, hn⟩
    simp [Panel.stuck, hvia, hrow, Panel.hasDestination, hany]
  have hserved := Batches.eventually_served_iff Panel.candidates_sorted hpass hfree
  simp only [hlisted] at hserved
  refine Iff.trans (exists_congr fun k => ?_) hserved
  obtain ⟨row₀, hrow₀, -⟩ := Panel.row_of_mem hc
  obtain ⟨row, hrow, -⟩ := (frame_passes p rank k).rows c.id row₀ hrow₀
  simp [hrow]

/-! ### Two nodes of one group -/

def node (healthy : Bool) : Node where
  group := 0
  enabled := true
  approved := true
  healthy := healthy
  priority := 0
  current := 0
  max := 1000

/-- Node 1 is down, and node 2 has room. -/
def twoNodes (n : NodeId) : Option Node :=
  if n = 1 then some (node false) else if n = 2 then some (node true) else none

def routeOn (viaPeer : Bool) : Row where
  anchor := 1
  assigned := []
  assigned_nodup := nodup_nil
  domain := []
  path := []
  verified := true
  viaPeer := viaPeer
  group := 0

/-- Routes 0, 1, … on node 1; the first `tunnelled` of them are bound to a tunnel. -/
def outage (tunnelled total : Nat) : Panel where
  slots := {
    groups := fun _ => some .failover
    nodes := twoNodes
    routes := ⟨(List.range total).map fun id => ⟨id, routeOn (id < tunnelled)⟩, by
      rw [List.NodupKeys, List.keys, map_map]
      exact nodup_range.map fun _ _ h => h⟩
    calls := fun _ => none }
  status := fun _ => .active
  longDown := fun n => n = 1
  nodeIds := [1, 2]
  mem_nodeIds := by
    intro n hn
    by_cases h₁ : n = 1
    · simp [h₁]
    by_cases h₂ : n = 2
    · simp [h₂]
    · simp [Slots.State.isNode, twoNodes, h₁, h₂] at hn

lemma foldl_failNext_of_viaPeer (rank : RouteId → NodeId → Nat) (p : Panel) {cs : List Candidate}
    (h : cs.all Candidate.viaPeer) : cs.foldl (Panel.failNext rank) p = p := by
  induction cs with
  | nil => rfl
  | cons c cs ih =>
    rw [all_cons, Bool.and_eq_true] at h
    have hskip : p.failNext rank c = p := by simp [Panel.failNext, h.1]
    rw [foldl_cons, hskip, ih h.2]

lemma passes_eq_self {p : Panel} (h : (p.candidates.take Panel.batchLimit).all Candidate.viaPeer)
    (rank : Nat → RouteId → NodeId → Nat) (k : Nat) : passes p rank k = p := by
  induction k with
  | zero => rfl
  | succ k ih =>
    rw [passes, ih]
    exact foldl_failNext_of_viaPeer _ p h

/-- Five hundred routes with a tunnel keep a younger one on the dead node. -/
theorem tunnelled_routes_starve : ⟨500, 1, 0, false⟩ ∈ (outage 500 501).candidates ∧
    ∀ rank k, (passes (outage 500 501) rank k).slots.candidate 0 1 true 2 ∧
      ((passes (outage 500 501) rank k).slots.routes.lookup 500).map Row.anchor = some 1 := by
  have hbatch : ((outage 500 501).candidates.take Panel.batchLimit).all Candidate.viaPeer := by
    decide +kernel
  refine ⟨by decide +kernel, fun rank k => ?_⟩
  rw [passes_eq_self hbatch]
  decide +kernel

/-- Behind three routes with a tunnel and one without, the fifth is moved. -/
theorem eventually_moved_behindTunnels : ∃ k row,
    (passes (outage 3 5) (fun _ _ _ => 0) k).slots.routes.lookup 4 = some row ∧ row.anchor ≠ 1 := by
  set p := (outage 3 5).autoFailover fun _ _ => 0 with hp
  have hempty : (p.candidates.take Panel.batchLimit).all Candidate.viaPeer := by decide +kernel
  have hlater : ∀ k, passes (outage 3 5) (fun _ _ _ => 0) (k + 1) = p := by
    intro k
    induction k with
    | zero => rfl
    | succ k ih =>
      rw [passes, ih]
      exact foldl_failNext_of_viaPeer _ p hempty
  refine (eventually_moved_iff (outage 3 5) (fun _ _ _ => 0) ⟨4, 1, 0, false⟩ (by decide +kernel) rfl
    fun k => ⟨2, ?_⟩).mpr fun k _ => ?_
  · cases k with
    | zero => decide +kernel
    | succ k =>
      rw [hlater]
      decide +kernel
  · cases k with
    | zero => decide +kernel
    | succ k =>
      rw [hlater]
      decide +kernel

end Failover
