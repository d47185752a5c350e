import CaddyPanel.Routes.SlotCounts

/-!
# Where a route is placed

No flow of `Slots` adds a node to the fleet or drops one, and a failover finds nobody just where no
node has room.
-/

namespace Slots

open List Option Runs

/-- A row of `caddy_nodes`. -/
def State.isNode (s : State) (n : NodeId) : Bool :=
  (s.nodes n).isSome

/-! ### No flow adds a node or drops one -/

section Fleet

variable {s s' : State}

namespace State

@[simp] lemma isNode_setCurrent (s : State) (n : NodeId) (f : Nat → Nat) : (s.setCurrent n f).isNode = s.isNode := by
  funext m
  by_cases h : m = n
  · subst h
    simp [isNode, setCurrent]
  · simp [isNode, setCurrent, h]

@[simp] lemma isNode_writeRow (s : State) (id : RouteId) (row : Row) :
    (s.writeRow id row).isNode = s.isNode := rfl

@[simp] lemma isNode_mapRow (s : State) (id : RouteId) (f : Row → Row) : (s.mapRow id f).isNode = s.isNode := by
  unfold mapRow
  split <;> rfl

lemma isNode_foldl_release (s : State) (ns : List NodeId) : (ns.foldl release s).isNode = s.isNode :=
  foldl_keeps (fun t n => isNode_setCurrent t n _) ns s

variable {n nodeID node fromNode src : NodeId} {all order nodes : List NodeId} {group : GroupId}

lemma isNode_claim (h : s.claim n = some s') : s'.isNode = s.isNode := by
  unfold claim at h
  split at h
  · split at h
    · cases h
      exact isNode_setCurrent s n _
    · cases h
  · cases h

lemma isNode_evict (s : State) (id : RouteId) : (s.evict id).isNode = s.isNode := by
  unfold evict
  split
  · split
    · rfl
    · exact isNode_foldl_release _ _
  · rfl

lemma isNode_evictConflict {domain path : Text.Str}
    (h : s.evictConflict domain path = some s') : s'.isNode = s.isNode := by
  unfold evictConflict at h
  split at h
  · split at h
    · cases h
    · cases h
      exact isNode_evict s _
  · cases h
    rfl

lemma isNode_claimPrimary {r : NewRoute} {mode : Mode}
    (h : s.claimPrimary r group mode nodeID all order = some (node, nodes, s')) : s'.isNode = s.isNode := by
  unfold claimPrimary at h
  split at h
  · rename_i hclaim
    cases h
    exact isNode_claim hclaim
  split at h
  · split at h
    · rename_i halt
      cases h
      rw [isNode_mapRow]
      exact isNode_claim (claimNodeWithCapacity_eq_some halt).1
    · cases h
  · cases h

lemma isNode_assignPeer (s : State) (id : RouteId) (nodeID n : NodeId) :
    (assignPeer id nodeID s n).isNode = s.isNode := by
  unfold assignPeer
  split
  · exact isNode_mapRow _ _ _
  split
  · rename_i hclaim
    rw [isNode_mapRow]
    exact isNode_claim hclaim
  · rfl

lemma isNode_create {r : NewRoute} {mode : Mode} (h : s.create r group mode nodeID all order = some s') :
    s'.isNode = s.isNode := by
  obtain ⟨s₁, node, nodes, s₂, hevict, -, hclaim, rfl⟩ := create_eq_some h
  have hfan : (s₂.fanOut r.id mode node nodes).isNode = s₂.isNode := by
    unfold fanOut
    split
    · exact foldl_keeps (fun t n => isNode_assignPeer t r.id node n) nodes s₂
    · rfl
  rw [hfan, isNode_claimPrimary hclaim, isNode_writeRow, isNode_evictConflict hevict]

lemma isNode_delete (s : State) (id : RouteId) (nodeID : NodeId) (fanOut : List NodeId) :
    (s.delete id nodeID fanOut).isNode = s.isNode := by
  unfold delete
  rw [isNode_foldl_release]
  exact isNode_setCurrent _ _ _

lemma isNode_failoverRoute {id : RouteId} (h : s.failoverRoute id fromNode group order = some s') :
    s'.isNode = s.isNode := by
  obtain ⟨row, dest, claimed, s₁, -, -, -, -, hdest, rfl⟩ := failoverRoute_eq_some h
  have hnode : s₁.isNode = s.isNode := by
    rcases hdest with ⟨-, -, rfl⟩ | ⟨-, -, hclaim⟩
    · rfl
    · exact isNode_claim hclaim
  exact (isNode_setCurrent _ _ _).trans hnode

lemma isNode_forwardMove {m : NodeMove} (h : s.forwardMove src m = some s') : s'.isNode = s.isNode := by
  obtain ⟨s₁, hclaim, h⟩ := bind_eq_some_iff.mp h
  have hnode : s₁.isNode = s.isNode := by
    split at hclaim
    · cases hclaim
      rfl
    · exact isNode_claim hclaim
  split at h
  · obtain ⟨row, -, h⟩ := bind_eq_some_iff.mp h
    obtain ⟨row', -, rfl⟩ := map_eq_some_iff.mp h
    exact hnode
  · cases h
    exact hnode

lemma isNode_backMove {m : NodeMove} (h : s.backMove src m = some s') : s'.isNode = s.isNode := by
  unfold backMove at h
  have hnode : (if m.shared then s else s.release m.dest).isNode = s.isNode := by
    split
    · rfl
    · exact isNode_setCurrent _ _ _
  dsimp only at h
  split at h
  · obtain ⟨row', -, rfl⟩ := map_eq_some_iff.mp h
    exact hnode
  · cases h
    exact hnode

lemma isNode_applyMoves {plan : Plan} (h : s.applyMoves plan = some s') : s'.isNode = s.isNode := by
  obtain ⟨s₁, hmoves, rfl⟩ := map_eq_some_iff.mp h
  rw [isNode_setCurrent]
  exact foldlM_keeps (fun _ _ _ => isNode_forwardMove) hmoves

lemma isNode_revertMoves {plan : Plan} (h : s.revertMoves plan = some s') : s'.isNode = s.isNode := by
  obtain ⟨s₁, hmoves, rfl⟩ := map_eq_some_iff.mp h
  rw [isNode_setCurrent]
  exact foldlM_keeps (fun _ _ _ => isNode_backMove) hmoves

end State

lemma isNode_step {e : Event} (h : step s e = some s') : s'.isNode = s.isNode := by
  cases e with
  | place c group order =>
    obtain ⟨mode, -, rfl⟩ := map_eq_some_iff.mp h
    rfl
  | create c r order =>
    simp only [step] at h
    split at h
    · cases h
      rename_i group mode nodeID rest hnodup hcall
      cases hcreate : s.create r group mode nodeID (nodeID :: rest) order with
      | none => rfl
      | some s₁ =>
        have hnode : s₁.isNode = s.isNode := State.isNode_create hcreate
        exact hnode
    · cases h
  | proveDomain id =>
    cases h
    exact State.isNode_mapRow _ _ _
  | evict id =>
    cases h
    exact State.isNode_evict s id
  | readAnchor c id =>
    obtain ⟨row, -, rfl⟩ := map_eq_some_iff.mp h
    rfl
  | readFanOut c =>
    simp only [step] at h
    split at h
    · cases h
      rfl
    · cases h
  | delete c =>
    simp only [step] at h
    split at h
    · cases h
      exact State.isNode_delete s _ _ _
    · cases h
  | failover id fromNode group order => exact State.isNode_failoverRoute h
  | listRoutes c src group drain =>
    cases h
    rfl
  | readMembers c =>
    simp only [step] at h
    split at h
    · cases h
      rfl
    · cases h
  | planMoves c order =>
    simp only [step] at h
    split at h
    · obtain ⟨plan, -, rfl⟩ := map_eq_some_iff.mp h
      rfl
    · cases h
  | applyMoves c =>
    simp only [step] at h
    split at h
    · obtain ⟨s₁, hmoves, rfl⟩ := map_eq_some_iff.mp h
      have hnode : s₁.isNode = s.isNode := State.isNode_applyMoves hmoves
      exact hnode
    · cases h
  | revertMoves c =>
    simp only [step] at h
    split at h
    · obtain ⟨s₁, hmoves, rfl⟩ := map_eq_some_iff.mp h
      have hnode : s₁.isNode = s.isNode := State.isNode_revertMoves hmoves
      exact hnode
    · cases h
  | moveToNode id dest platform =>
    obtain ⟨row, -, h⟩ := bind_eq_some_iff.mp h
    split at h
    · cases h
      rfl
    · cases h
  | alertMove id sibling =>
    cases h
    exact State.isNode_mapRow _ _ _
  | clone id newId =>
    obtain ⟨row, -, h⟩ := bind_eq_some_iff.mp h
    split at h
    · cases h
    · cases h
      rfl
  | setNode n enabled approved healthy =>
    cases h
    funext m
    by_cases hm : m = n
    · subst hm
      simp [State.isNode]
    · simp [State.isNode, hm]

end Fleet

/-! ### When a failover finds nobody -/

variable {s s' : State} {order : List NodeId} {group : GroupId} {skip n : NodeId} {id : RouteId}

namespace State

lemma isSome_claim_of_candidate {healthyOnly : Bool} (h : s.candidate group skip healthyOnly n) :
    (s.claim n).isSome := by
  unfold claim
  cases hnode : s.nodes n with
  | none => simp [candidate, hnode] at h
  | some node =>
    have hroom : node.current < node.max := by
      simp only [candidate, hnode, any_some, Bool.and_eq_true, Node.hasRoom, decide_eq_true_eq] at h
      exact h.1.2
    dsimp only
    rw [if_pos hroom]
    rfl

lemma claimNodeWithCapacity_eq_none_iff {healthyOnly : Bool} :
    s.claimNodeWithCapacity group skip healthyOnly order = none ↔
      ∀ n ∈ order, s.candidate group skip healthyOnly n = false := by
  unfold claimNodeWithCapacity
  constructor
  · intro h n hn
    by_contra hcandidate
    have hmem : n ∈ order.filter (s.candidate group skip healthyOnly) :=
      mem_filter.mpr ⟨hn, by simpa using hcandidate⟩
    -- the first candidate is tried, and it has room
    obtain ⟨k, ks, hks⟩ := exists_cons_of_ne_nil (ne_nil_of_mem hmem)
    have hk : s.candidate group skip healthyOnly k := by
      refine (mem_filter.mp (?_ : k ∈ order.filter _)).2
      rw [hks]
      exact mem_cons_self
    rw [hks, findSome?_eq_none_iff] at h
    have hnone := h k (by simp)
    have hclaim := isSome_claim_of_candidate hk
    rw [map_eq_none_iff] at hnone
    rw [hnone] at hclaim
    cases hclaim
  · intro h
    have hempty : order.filter (s.candidate group skip healthyOnly) = [] :=
      filter_eq_nil_iff.mpr fun n hn => by simp [h n hn]
    simp [hempty]

lemma failoverRoute_eq_none_iff {row : Row} (hrow : s.routes.lookup id = some row) :
    s.failoverRoute id row.anchor group order = none ↔
      s.standby row.anchor row = none ∧ ∀ n ∈ order, s.candidate group row.anchor true n = false := by
  rw [← claimNodeWithCapacity_eq_none_iff]
  unfold failoverRoute
  simp only [hrow, ne_eq, not_true_eq_false]
  cases s.standby row.anchor row with
  | some dest => simp
  | none =>
    cases s.claimNodeWithCapacity group row.anchor true order with
    | none => simp
    | some claimed => simp

end State

end Slots
