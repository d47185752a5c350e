import CaddyPanel.Routes.Slots

/-!
# The counters of a node are exact

A transaction moves a counter and the rows behind it in separate statements. `Counted due` says how
far each counter is ahead of the rows in between; every statement has one lemma that says how it
moves `due`, and a transaction is right when it ends with nothing due.
-/

namespace Slots

open List Option
open Tables (count weight)

/-! ### Counters that are owed -/

/-- Inside a transaction a counter may be ahead of the routes on its node, by what is `due`. -/
def State.Counted (due : NodeId → Int) (s : State) : Prop :=
  ∀ n node, s.nodes n = some node →
    (node.current : Int) = s.held n + due n ∧ node.current ≤ node.max

variable {s s' : State} {n k skip nodeID node fromNode dest src : NodeId} {row row' : Row}
  {ns order all nodes : List NodeId} {id id' : RouteId} {group : GroupId} {r : NewRoute} {mode : Mode} {m : NodeMove}

lemma State.accurate_iff_counted : s.Accurate ↔ s.Counted fun _ => 0 := by
  simp only [State.Accurate, State.Counted, Int.add_zero, Int.natCast_inj]

lemma State.claim_eq_some (h : s.claim n = some s') : (s.nodes n).any Node.hasRoom ∧ s' = s.setCurrent n (· + 1) := by
  unfold State.claim at h
  split at h
  · rename_i node hnode
    obtain ⟨hroom, hs'⟩ := ite_none_right_eq_some.mp h
    exact ⟨by simpa [hnode, Node.hasRoom] using hroom, (Option.some.inj hs').symm⟩
  · cases h

lemma State.routes_claim (h : s.claim n = some s') : s'.routes = s.routes := by
  rw [(State.claim_eq_some h).2]
  rfl

namespace State.Counted

variable {s s' : State} {due due' : NodeId → Int} {n : NodeId} {id : RouteId} {row : Row}

lemma congr (h : s.Counted due) (hdue : ∀ n, due' n = due n) : s.Counted due' := by
  rwa [funext hdue]

lemma setCall (h : s.Counted due) (c : CallId) (call : Option Call) : (s.setCall c call).Counted due :=
  h

lemma setCurrent (h : s.Counted due) {f : Nat → Nat} {d : Int} (hf : ∀ node, s.nodes n = some node →
      (f node.current : Int) = node.current + d ∧ f node.current ≤ node.max) :
    (s.setCurrent n f).Counted fun k => due k + if k = n then d else 0 := by
  intro k node hnode
  obtain ⟨rfl, hnode⟩ | ⟨hk, hnode⟩ := Runs.update_eq_some hnode
  · obtain ⟨node, hold, rfl⟩ := map_eq_some_iff.mp hnode
    obtain ⟨hcurrent, -⟩ := h k node hold
    obtain ⟨hnew, hmax⟩ := hf node hold
    refine ⟨?_, hmax⟩
    show (f node.current : Int) = s.held k + (due k + if k = k then d else 0)
    rw [if_pos rfl]
    omega
  · obtain ⟨hcurrent, hmax⟩ := h k node hnode
    refine ⟨?_, hmax⟩
    show (node.current : Int) = s.held k + (due k + if k = n then d else 0)
    rw [if_neg hk]
    omega

lemma claim (h : s.Counted due) (hclaim : s.claim n = some s') :
    s'.Counted fun k => due k + if k = n then 1 else 0 := by
  obtain ⟨hroom, rfl⟩ := State.claim_eq_some hclaim
  apply h.setCurrent
  intro node hnode
  rw [hnode] at hroom
  exact ⟨by omega, of_decide_eq_true hroom⟩

/-- Taking `k` slots back never meets the floor at zero while that many routes are on the node or
still counted. -/
lemma sub (h : s.Counted due) {k : Nat} (hk : (k : Int) ≤ s.held n + due n) :
    (s.setCurrent n (· - k)).Counted fun i => due i + if i = n then -(k : Int) else 0 := by
  apply h.setCurrent
  intro node hnode
  obtain ⟨hcurrent, hmax⟩ := h n node hnode
  constructor
  · show ((node.current - k : Nat) : Int) = _
    omega
  · show node.current - k ≤ node.max
    omega

lemma release (h : s.Counted due) (hn : 1 ≤ s.held n + due n) :
    (s.release n).Counted fun k => due k + if k = n then -1 else 0 :=
  h.sub hn

lemma releaseAll {ns : List NodeId} (h : s.Counted due) (hnodup : ns.Nodup) (hdue : ∀ n ∈ ns, 1 ≤ due n) :
    (ns.foldl State.release s).Counted fun k => due k + if k ∈ ns then -1 else 0 := by
  induction ns generalizing s due with
  | nil => exact h.congr (by simp)
  | cons n ns ih =>
    obtain ⟨hn, hnodup⟩ := nodup_cons.mp hnodup
    have hfirst : 1 ≤ s.held n + due n := by
      have := hdue n mem_cons_self
      omega
    have hrest : ∀ k ∈ ns, 1 ≤ due k + if k = n then -1 else 0 := by
      intro k hk
      rw [if_neg (by rintro rfl; exact hn hk)]
      exact (hdue k (mem_cons_of_mem _ hk)).trans_eq (Int.add_zero _).symm
    refine (ih (h.release hfirst) hnodup hrest).congr fun k => ?_
    by_cases hk : k = n
    · subst hk
      simp [hn]
    · simp [hk]

/-- Writing a row moves what is due by the nodes it adds and drops. -/
lemma writeRow (h : s.Counted due) (hdue : ∀ n, due' n + weight (Row.holds n) (some row) =
      due n + weight (Row.holds n) (s.routes.lookup id)) : (s.writeRow id row).Counted due' := by
  intro n node hnode
  obtain ⟨hcurrent, hmax⟩ := h n node hnode
  have hcount := Tables.count_insert (Row.holds n) id row s.routes
  have hn := hdue n
  simp only [State.held, State.writeRow] at hcurrent ⊢
  omega

lemma deleteRow (h : s.Counted due) :
    (s.deleteRow id).Counted fun n => due n + weight (Row.holds n) (s.routes.lookup id) := by
  intro n node hnode
  obtain ⟨hcurrent, hmax⟩ := h n node hnode
  have hcount := Tables.count_erase (Row.holds n) id s.routes
  simp only [State.held, State.deleteRow] at hcurrent ⊢
  omega

end State.Counted

/-! ### The nodes of a row -/

namespace Row

lemma holds_iff : row.holds n ↔ row.anchor = n ∨ n ∈ row.assigned := by
  simp [holds]

@[simp] lemma mem_assign : k ∈ (row.assign n).assigned ↔ k = n ∨ k ∈ row.assigned :=
  mem_insert_iff

@[simp] lemma mem_unassign : k ∈ (row.unassign n).assigned ↔ k ≠ n ∧ k ∈ row.assigned :=
  row.assigned_nodup.mem_erase_iff

@[simp] lemma anchor_assign (row : Row) (n : NodeId) : (row.assign n).anchor = row.anchor := rfl

@[simp] lemma anchor_unassign (row : Row) (n : NodeId) : (row.unassign n).anchor = row.anchor := rfl

@[simp] lemma anchor_setAnchor (row : Row) (n : NodeId) : (row.setAnchor n).anchor = n := rfl

@[simp] lemma assigned_setAnchor (row : Row) (n : NodeId) :
    (row.setAnchor n).assigned = row.assigned := rfl

/-- What a row weighs on a node. -/
lemma weight_eq (row : Row) (n : NodeId) :
    weight (holds n) (some row) = if row.anchor = n ∨ n ∈ row.assigned then 1 else 0 := by
  simp only [Tables.weight_some, holds_iff]

lemma mem_holders : n ∈ row.holders ↔ row.holds n := by
  rw [holds_iff]
  simp only [holders, fanOut, mem_cons, mem_filter]
  by_cases h : n = row.anchor
  · simp [h]
  · simp [h, Ne.symm h]

end Row

/-- Deleting a route and releasing the nodes that held it. -/
lemma State.Counted.releaseHolders
    (h : s.Counted fun _ => 0) (hrow : s.routes.lookup id = some row) (hns : ns.Perm row.holders) :
    (ns.foldl State.release (s.deleteRow id)).Counted fun _ => 0 := by
  have hmem : ∀ n, n ∈ ns ↔ row.holds n := fun n => hns.mem_iff.trans Row.mem_holders
  have hnodup : ns.Nodup := hns.nodup_iff.mpr (nodup_cons.mpr ⟨by simp [Row.fanOut], row.assigned_nodup.filter _⟩)
  have hdeleted : (s.deleteRow id).Counted fun n =>
      0 + weight (Row.holds n) (s.routes.lookup id) := h.deleteRow
  rw [hrow] at hdeleted
  refine (hdeleted.releaseAll hnodup fun n hn => ?_).congr fun n => ?_
  · simp [(hmem n).mp hn]
  by_cases hn : row.holds n
  · simp [hn, (hmem n).mpr hn]
  · simp [hn, mt (hmem n).mp hn]

lemma State.Counted.evict (h : s.Counted fun _ => 0) (id : RouteId) : (s.evict id).Counted fun _ => 0 := by
  unfold State.evict
  split
  · rename_i row hrow
    split
    · exact h
    · exact h.releaseHolders hrow (List.Perm.refl _)
  · exact h

lemma State.Counted.evictConflict {domain path : Text.Str}
    (h : s.Counted fun _ => 0) (hevict : s.evictConflict domain path = some s') : s'.Counted fun _ => 0 := by
  unfold State.evictConflict at hevict
  split at hevict
  · split at hevict
    · cases hevict
    · cases hevict
      exact h.evict _
  · cases hevict
    exact h

/-! ### Claims -/

/-- The node that was claimed was a candidate. -/
lemma State.claimNodeWithCapacity_eq_some {healthyOnly : Bool}
    (h : s.claimNodeWithCapacity group skip healthyOnly order = some (n, s')) :
    s.claim n = some s' ∧ s.candidate group skip healthyOnly n := by
  obtain ⟨k, hk, hclaim⟩ := exists_of_findSome?_eq_some h
  obtain ⟨t, ht, he⟩ := map_eq_some_iff.mp hclaim
  cases he
  exact ⟨ht, (mem_filter.mp (mem_of_mem_take hk)).2⟩

/-! ### Create -/

lemma State.mapRow_of_lookup (f : Row → Row)
    (h : s.routes.lookup id = some row) : s.mapRow id f = s.writeRow id (f row) := by
  simp only [State.mapRow, h]

@[simp] lemma State.lookup_writeRow (s : State) (id : RouteId) (row : Row) :
    (s.writeRow id row).routes.lookup id = some row :=
  AList.lookup_insert _

/-- A peer joins: the slot that was claimed is the one the new row stands for. -/
lemma State.Counted.assignPeer (h : s.Counted fun _ => 0) (hrow : s.routes.lookup id = some row)
    (hn : n ≠ row.anchor → n ∉ row.assigned) :
    ∃ row', (State.assignPeer id row.anchor s n).Counted (fun _ => 0) ∧
      (State.assignPeer id row.anchor s n).routes.lookup id = some row' ∧
      row'.anchor = row.anchor ∧ ∀ k ∈ row'.assigned, k = n ∨ k ∈ row.assigned := by
  unfold State.assignPeer
  split
  · rw [State.mapRow_of_lookup _ hrow]
    refine ⟨row.assign n, h.writeRow fun k => ?_, by simp, rfl, fun k hk => Row.mem_assign.mp hk⟩
    simp only [hrow, Row.weight_eq, Row.anchor_assign, Row.mem_assign]
    grind
  split
  · rename_i s' hclaim
    have hlookup : s'.routes.lookup id = some row := by rw [State.routes_claim hclaim, hrow]
    rw [State.mapRow_of_lookup _ hlookup]
    refine ⟨row.assign n, (h.claim hclaim).writeRow fun k => ?_, by simp, rfl,
      fun k hk => Row.mem_assign.mp hk⟩
    simp only [hlookup, Row.weight_eq, Row.anchor_assign, Row.mem_assign]
    grind
  · exact ⟨row, h, hrow, rfl, fun k hk => .inr hk⟩

lemma State.Counted.assignPeers (h : s.Counted fun _ => 0) (hrow : s.routes.lookup id = some row) (hall : all.Nodup)
    (hfresh : ∀ n ∈ all, n ≠ row.anchor → n ∉ row.assigned) :
    (all.foldl (State.assignPeer id row.anchor) s).Counted fun _ => 0 := by
  induction all generalizing s row with
  | nil => exact h
  | cons n all ih =>
    obtain ⟨hn, hall⟩ := nodup_cons.mp hall
    obtain ⟨row', hcount, hrow', hanchor, hassigned⟩ :=
      h.assignPeer hrow (hfresh n mem_cons_self)
    rw [← hanchor]
    rw [← hanchor] at hcount hrow'
    apply ih hcount hrow' hall
    intro k hk hne hmem
    rcases hassigned k hmem with rfl | hmem
    · exact hn hk
    · exact hfresh k (mem_cons_of_mem _ hk) (hanchor ▸ hne) hmem

/-- The new row and the slot it was given: the primary's, or another node's. -/
lemma State.Counted.claimPrimary (h : s.Counted fun _ => 0) (hid : s.routes.lookup r.id = none)
    (hclaim : (s.writeRow r.id (r.row group nodeID)).claimPrimary r group mode nodeID all order =
      some (node, nodes, s')) :
    s'.Counted (fun _ => 0) ∧ s'.routes.lookup r.id = some (r.row group node) ∧ (nodes = all ∨ nodes = [node]) := by
  have hinserted : (s.writeRow r.id (r.row group nodeID)).Counted
      fun n => if n = nodeID then -1 else 0 := by
    refine h.writeRow fun n => ?_
    simp only [hid, Tables.weight_none, Row.weight_eq, NewRoute.row]
    grind
  unfold State.claimPrimary at hclaim
  split at hclaim
  · rename_i s₁ hprimary
    cases hclaim
    refine ⟨(hinserted.claim hprimary).congr fun n => ?_, ?_, .inl rfl⟩
    · split <;> rfl
    · rw [State.routes_claim hprimary, State.lookup_writeRow]
  split at hclaim
  · split at hclaim
    · rename_i alt s₁ hcapacity
      cases hclaim
      obtain ⟨halt, -⟩ := State.claimNodeWithCapacity_eq_some hcapacity
      have hlookup : s₁.routes.lookup r.id = some (r.row group nodeID) := by
        rw [State.routes_claim halt, State.lookup_writeRow]
      rw [State.mapRow_of_lookup _ hlookup]
      refine ⟨(hinserted.claim halt).writeRow fun n => ?_, by simp [NewRoute.row, Row.setAnchor],
        .inr rfl⟩
      simp only [hlookup, Row.weight_eq, NewRoute.row, Row.setAnchor]
      grind
    · cases hclaim
  · cases hclaim

/-- What a `Create` that commits has done. -/
lemma State.create_eq_some (h : s.create r group mode nodeID all order = some s') :
    ∃ s₁ node nodes s₂, s.evictConflict r.domain r.path = some s₁ ∧
      s₁.routes.lookup r.id = none ∧
      (s₁.writeRow r.id (r.row group nodeID)).claimPrimary r group mode nodeID all order =
        some (node, nodes, s₂) ∧ s' = s₂.fanOut r.id mode node nodes := by
  unfold State.create at h
  split at h
  · cases h
  rename_i s₁ hevict
  split at h
  · cases h
  rename_i hid
  split at h
  · cases h
  rename_i node nodes s₂ hclaim
  cases h
  exact ⟨s₁, node, nodes, s₂, hevict, by simpa using hid, hclaim, rfl⟩

lemma State.Counted.create (h : s.Counted fun _ => 0) (hall : all.Nodup)
    (hcreate : s.create r group mode nodeID all order = some s') : s'.Counted fun _ => 0 := by
  obtain ⟨s₁, node, nodes, s₂, hevict, hnone, hclaim, rfl⟩ := State.create_eq_some hcreate
  obtain ⟨hcount, hrow, hnodes⟩ := (h.evictConflict hevict).claimPrimary hnone hclaim
  have hnodup : nodes.Nodup := by
    rcases hnodes with rfl | rfl
    · exact hall
    · exact nodup_singleton node
  unfold State.fanOut
  split
  · exact hcount.assignPeers hrow hnodup (by simp [NewRoute.row])
  · exact hcount

/-! ### Failover -/

lemma State.mem_standbys : n ∈ s.standbys fromNode row ↔ n ∈ row.assigned ∧ n ≠ fromNode ∧
      (s.nodes n).any (fun node => node.up && node.healthy) := by
  simp only [State.standbys, mem_filter, Bool.and_eq_true, decide_eq_true_eq]

/-- The node can take a route over. -/
def State.ready (s : State) (n : NodeId) : Bool :=
  (s.nodes n).any fun node => node.up && node.healthy

lemma State.ready_of_candidate (h : s.candidate group skip true n) : s.ready n := by
  unfold State.candidate at h
  unfold State.ready
  cases hnode : s.nodes n with
  | none => simp [hnode] at h
  | some node =>
    simp only [hnode, any_some, Bool.and_eq_true, Bool.not_true] at h ⊢
    exact ⟨h.1.1.2, h.2⟩

/-- Without a standby every candidate for the claim is a node the route is not on. -/
lemma State.not_mem_of_standby_eq_none (h : s.standby fromNode row = none)
    (hn : s.candidate group fromNode true n) : n ∉ row.assigned ∧ n ≠ fromNode := by
  have hempty : s.standbys fromNode row = [] := by
    have hlength := (perm_insertionSort (fun a b => s.preferred a b)
      (s.standbys fromNode row)).length_eq
    rw [State.standby, head?_eq_none_iff] at h
    rw [h] at hlength
    exact length_eq_zero_iff.mp hlength.symm
  cases hnode : s.nodes n with
  | none => simp [State.candidate, hnode] at hn
  | some node =>
    simp only [State.candidate, hnode, any_some, Bool.and_eq_true, decide_eq_true_eq,
      Bool.not_true, Bool.false_or] at hn
    obtain ⟨⟨⟨⟨-, hne⟩, hup⟩, -⟩, hhealthy⟩ := hn
    refine ⟨fun hmem => ?_, hne⟩
    have hstandby : n ∈ s.standbys fromNode row :=
      State.mem_standbys.mpr ⟨hmem, hne, by simp [hnode, hup, hhealthy]⟩
    simp [hempty] at hstandby

@[simp] lemma Row.anchor_failover (row : Row) (fromNode dest : NodeId) (claimed : Bool) :
    (row.failover fromNode dest claimed).anchor = dest := by
  unfold Row.failover
  split <;> rfl

@[simp] lemma Row.mem_failover {claimed : Bool} :
    n ∈ (row.failover fromNode dest claimed).assigned ↔
      (n ≠ fromNode ∧ n ∈ row.assigned) ∨ (fromNode ∈ row.assigned ∧ claimed ∧ n = dest) := by
  unfold Row.failover
  split
  · rename_i hcopy
    simp only [Bool.and_eq_true, contains_iff_mem] at hcopy
    simp [hcopy, or_comm]
  · rename_i hcopy
    simp only [Row.mem_unassign, Row.assigned_setAnchor]
    grind

/-- A failover that commits found a standby, or claimed a slot on a node without the route. -/
lemma State.failoverRoute_eq_some (h : s.failoverRoute id fromNode group order = some s') :
    ∃ row dest claimed s₁, s.routes.lookup id = some row ∧ row.anchor = fromNode ∧
      dest ≠ fromNode ∧ s.ready dest ∧
      ((dest ∈ row.assigned ∧ claimed = false ∧ s₁ = s) ∨
        (dest ∉ row.assigned ∧ claimed ∧ s.claim dest = some s₁)) ∧
      s' = (s₁.writeRow id (row.failover fromNode dest claimed)).release fromNode := by
  unfold State.failoverRoute at h
  split at h
  · cases h
  rename_i row hrow
  split at h
  · cases h
  rename_i hanchor
  rw [not_not] at hanchor
  split at h
  · rename_i dest hstandby
    cases h
    obtain ⟨hassigned, hne, hready⟩ := State.mem_standbys.mp ((mem_insertionSort _).mp (mem_of_mem_head? hstandby))
    exact ⟨row, dest, false, s, hrow, hanchor, hne, hready, .inl ⟨hassigned, rfl, rfl⟩, rfl⟩
  rename_i hstandby
  split at h
  · rename_i dest s₁ hclaim
    cases h
    obtain ⟨hclaimed, hcandidate⟩ := State.claimNodeWithCapacity_eq_some hclaim
    obtain ⟨hfresh, hne⟩ := State.not_mem_of_standby_eq_none hstandby hcandidate
    exact ⟨row, dest, true, s₁, hrow, hanchor, hne, State.ready_of_candidate hcandidate,
      .inr ⟨hfresh, rfl, hclaimed⟩, rfl⟩
  · cases h

lemma State.Counted.failoverRoute (h : s.Counted fun _ => 0)
    (hfailover : s.failoverRoute id fromNode group order = some s') : s'.Counted fun _ => 0 := by
  obtain ⟨row, dest, claimed, s₁, hrow, hanchor, hne, -, hdest, rfl⟩ :=
    State.failoverRoute_eq_some hfailover
  -- once the row is written the dead node is counted for one route too many
  have hrelease : ∀ {t : State}, (t.Counted fun n => if n = fromNode then 1 else 0) →
      (t.release fromNode).Counted fun _ => 0 := by
    intro t ht
    refine (ht.release ?_).congr fun n => ?_
    · simp only [if_true]
      omega
    · split <;> rfl
  rcases hdest with ⟨hassigned, rfl, rfl⟩ | ⟨hfresh, rfl, hclaim⟩
  · refine hrelease (h.writeRow fun n => ?_)
    simp only [hrow, Row.weight_eq, Row.anchor_failover, Row.mem_failover]
    grind
  · have hlookup : s₁.routes.lookup id = some row := by rw [State.routes_claim hclaim, hrow]
    refine hrelease ((h.claim hclaim).writeRow fun n => ?_)
    simp only [hlookup, Row.weight_eq, Row.anchor_failover, Row.mem_failover]
    grind

/-! ### Migration -/

/-- The move finds its route on the nodes its plan read. -/
def NodeMove.Fits (src : NodeId) (m : NodeMove) (row : Row) : Prop :=
  row.holds src ∧ (m.anchor ↔ row.anchor = src) ∧
    (m.srcRow ↔ src ∈ row.assigned) ∧ (m.shared ↔ row.holds m.dest)

/-- The reverted move finds its route on the nodes the move left it on. -/
def NodeMove.FitsBack (src : NodeId) (m : NodeMove) (row : Row) : Prop :=
  row.holds src = false ∧ (m.anchor ∨ m.srcRow) ∧
    if m.shared then m.anchor → row.anchor = m.dest ∧ m.dest ∈ row.assigned
    else (m.anchor ↔ row.anchor = m.dest) ∧ (m.srcRow ↔ m.dest ∈ row.assigned)

lemma Row.forward_eq_some (h : row.forward src m = some row') :
    row'.anchor = (if m.anchor then m.dest else row.anchor) ∧ ∀ n, n ∈ row'.assigned ↔
        if m.srcRow then (n ≠ src ∧ n ∈ row.assigned) ∨ (m.shared = false ∧ n = m.dest) else n ∈ row.assigned := by
  obtain ⟨anchored, hanchored, h⟩ := bind_eq_some_iff.mp h
  have hassigned : anchored.assigned = row.assigned ∧
      anchored.anchor = if m.anchor then m.dest else row.anchor := by
    split at hanchored
    · rename_i hm
      split at hanchored
      · cases hanchored
        simp [hm]
      · cases hanchored
    · rename_i hm
      cases hanchored
      simp [hm]
  obtain ⟨hassigned, hanchor⟩ := hassigned
  split at h
  · simp_all
  split at h
  · cases h
  split at h
  · cases h
    simp_all
  · split at h
    · cases h
    · cases h
      simp_all [or_comm]

/-- A move takes its route off the source and puts it on the destination. -/
lemma Row.holds_forward (hne : m.dest ≠ src) (hfits : m.Fits src row) (h : row.forward src m = some row') (n : NodeId) :
    (row'.anchor = n ∨ n ∈ row'.assigned) ↔ ((row.anchor = n ∨ n ∈ row.assigned) ∧ n ≠ src) ∨ n = m.dest := by
  obtain ⟨hsrc, hanchor, hassigned, hshared⟩ := hfits
  obtain ⟨hanchor', hassigned'⟩ := Row.forward_eq_some h
  rw [Row.holds_iff] at hsrc hshared
  grind

lemma Row.back_eq_some (h : row.back src m = some row') :
    row'.anchor = (if m.anchor ∧ row.anchor = m.dest then src else row.anchor) ∧
      ∀ n, n ∈ row'.assigned ↔ if m.srcRow ∧ m.shared then n = src ∨ n ∈ row.assigned
        else if m.srcRow ∧ m.dest ∈ row.assigned then
          n = src ∨ (n ≠ m.dest ∧ n ∈ row.assigned) else n ∈ row.assigned := by
  unfold Row.back at h
  set anchored := if (m.anchor && decide (row.anchor = m.dest)) then row.setAnchor src
    else row with hanchored
  have hassigned : anchored.assigned = row.assigned ∧
      anchored.anchor = if m.anchor ∧ row.anchor = m.dest then src else row.anchor := by
    rw [hanchored]
    simp only [Bool.and_eq_true, decide_eq_true_eq]
    split <;> simp
  clear_value anchored
  obtain ⟨hassigned, hanchor⟩ := hassigned
  dsimp only at h
  split at h
  · simp_all
  split at h
  · cases h
    simp_all
  split at h
  · simp_all
  split at h
  · cases h
  · cases h
    simp_all

/-- A reverted move puts its route back on the source, and off the destination unless that had it
before. -/
lemma Row.holds_back (hne : m.dest ≠ src) (hfits : m.FitsBack src row) (h : row.back src m = some row') (n : NodeId) :
    (row'.anchor = n ∨ n ∈ row'.assigned) ↔
      ((row.anchor = n ∨ n ∈ row.assigned) ∧ (m.shared ∨ n ≠ m.dest)) ∨ n = src := by
  obtain ⟨hsrc, hflags, hplaces⟩ := hfits
  obtain ⟨hanchor', hassigned'⟩ := Row.back_eq_some h
  rw [hanchor']
  cases hshared : m.shared
  · grind
  · grind

lemma State.lookup_writeRow_ne (row : Row) (h : id' ≠ id) :
    (s.writeRow id row).routes.lookup id' = s.routes.lookup id' :=
  AList.lookup_insert_ne h

/-- After a forward move the source is still counted for a route it no longer has. -/
lemma State.Counted.forwardMove {due : NodeId → Int} (h : s.Counted due) (hne : m.dest ≠ src)
    (hrow : s.routes.lookup m.route = some row) (hfits : m.Fits src row) (hmove : s.forwardMove src m = some s') :
    s'.Counted (fun n => due n + if n = src then 1 else 0) ∧ s'.nodes src = s.nodes src ∧
      ∀ id, id ≠ m.route → s'.routes.lookup id = s.routes.lookup id := by
  obtain ⟨s₁, hclaim, hmove⟩ := bind_eq_some_iff.mp hmove
  have hflags : (m.anchor || m.srcRow) := by
    obtain ⟨hsrc, hanchor, hassigned, -⟩ := hfits
    rw [Row.holds_iff, ← hanchor, ← hassigned] at hsrc
    simpa using hsrc
  have hclaimed : s₁.routes = s.routes ∧ s₁.nodes src = s.nodes src ∧
      s₁.Counted fun n => due n + if m.shared = false ∧ n = m.dest then 1 else 0 := by
    split at hclaim
    · rename_i hshared
      cases hclaim
      exact ⟨rfl, rfl, h.congr (by simp [hshared])⟩
    · rename_i hshared
      refine ⟨State.routes_claim hclaim, ?_, (h.claim hclaim).congr (by simp [hshared])⟩
      obtain ⟨-, rfl⟩ := State.claim_eq_some hclaim
      exact Function.update_of_ne hne.symm _ _
  obtain ⟨hroutes, hnodes, hcount⟩ := hclaimed
  rw [if_pos hflags, hroutes, hrow] at hmove
  obtain ⟨row', hforward, rfl⟩ := map_eq_some_iff.mp hmove
  refine ⟨hcount.writeRow fun n => ?_, hnodes, fun id hid => ?_⟩
  · have hholds := Row.holds_forward hne hfits hforward n
    obtain ⟨hsrc, -, -, hshared⟩ := hfits
    rw [Row.holds_iff] at hsrc hshared
    simp only [hroutes, hrow, Row.weight_eq]
    grind
  · rw [State.lookup_writeRow_ne _ hid, hroutes]

/-- Moves of different routes, each of which leaves the source `d` further ahead of its rows. -/
lemma State.Counted.foldMoves {move : State → NodeMove → Option State} {Fits : NodeMove → Row → Prop}
    {moves : List NodeMove} {d k : Int}
    (hstep : ∀ {s s' : State} {m : NodeMove} {row : Row} {k : Int}, (s.Counted fun n => if n = src then k else 0) →
      m.dest ≠ src → s.routes.lookup m.route = some row → Fits m row → move s m = some s' →
      s'.Counted (fun n => (if n = src then k else 0) + if n = src then d else 0) ∧ s'.nodes src = s.nodes src ∧
        ∀ id, id ≠ m.route → s'.routes.lookup id = s.routes.lookup id) (h : s.Counted fun n => if n = src then k else 0)
    (hroutes : (moves.map NodeMove.route).Nodup) (hne : ∀ m ∈ moves, m.dest ≠ src)
    (hfits : ∀ m ∈ moves, ∃ row, s.routes.lookup m.route = some row ∧ Fits m row)
    (hmoves : moves.foldlM move s = some s') :
    s'.Counted (fun n => if n = src then k + moves.length * d else 0) ∧ s'.nodes src = s.nodes src := by
  induction moves generalizing s k with
  | nil =>
    cases hmoves
    exact ⟨h.congr (by simp), rfl⟩
  | cons m moves ih =>
    obtain ⟨s₁, hmove, hmoves⟩ := bind_eq_some_iff.mp hmoves
    obtain ⟨hm, hroutes⟩ := nodup_cons.mp hroutes
    obtain ⟨row, hrow, hfit⟩ := hfits m mem_cons_self
    obtain ⟨hcount, hnodes, hframe⟩ := hstep h (hne m mem_cons_self) hrow hfit hmove
    have hcount' : s₁.Counted fun n => if n = src then k + d else 0 := hcount.congr fun n => by split <;> simp
    have hrest : ∀ m' ∈ moves, ∃ row, s₁.routes.lookup m'.route = some row ∧ Fits m' row := by
      intro m' hm'
      obtain ⟨row', hrow', hfit'⟩ := hfits m' (mem_cons_of_mem _ hm')
      refine ⟨row', (hframe m'.route fun he => hm ?_).trans hrow', hfit'⟩
      exact he ▸ mem_map_of_mem hm'
    obtain ⟨hcount'', hnodes'⟩ := ih hcount' hroutes (fun m' hm' => hne m' (mem_cons_of_mem _ hm')) hrest hmoves
    refine ⟨hcount''.congr fun n => ?_, hnodes'.trans hnodes⟩
    simp only [length_cons, Int.natCast_succ, Int.add_mul, Int.one_mul, Int.add_assoc, Int.add_comm d]

lemma State.Counted.applyMoves {plan : Plan} (h : s.Counted fun _ => 0)
    (hfits : ∀ m ∈ plan.moves, ∃ row, s.routes.lookup m.route = some row ∧ m.Fits plan.src row)
    (happly : s.applyMoves plan = some s') : s'.Counted fun _ => 0 := by
  obtain ⟨s₁, hmoves, rfl⟩ := map_eq_some_iff.mp happly
  have hstart : s.Counted fun n => if n = plan.src then 0 else 0 := h.congr (by simp)
  obtain ⟨hcount, -⟩ := hstart.foldMoves State.Counted.forwardMove plan.routes_nodup plan.dest_ne hfits hmoves
  refine (hcount.sub ?_).congr fun n => ?_
  · simp only [if_true]
    omega
  by_cases hn : n = plan.src
  · simp only [if_pos hn]
    omega
  · simp [hn]

/-- A route that is on a node is counted there. -/
lemma State.one_le_held (hrow : s.routes.lookup id = some row) (hn : row.holds n) : 1 ≤ s.held n := by
  have hcount := Tables.count_erase (Row.holds n) id s.routes
  rw [hrow, Tables.weight_some, if_pos hn] at hcount
  rw [State.held, ← hcount]
  exact Nat.le_add_left 1 _

/-- After a reverted move the source has a route it is not yet counted for. -/
lemma State.Counted.backMove {due : NodeId → Int} (h : s.Counted due) (hdue : 0 ≤ due m.dest) (hne : m.dest ≠ src)
    (hrow : s.routes.lookup m.route = some row) (hfits : m.FitsBack src row) (hmove : s.backMove src m = some s') :
    s'.Counted (fun n => due n + if n = src then -1 else 0) ∧ s'.nodes src = s.nodes src ∧
      ∀ id, id ≠ m.route → s'.routes.lookup id = s.routes.lookup id := by
  have hdest : m.shared = false → row.holds m.dest := by
    intro hshared
    obtain ⟨-, hflags, hplaces⟩ := hfits
    rw [hshared] at hplaces
    rw [Row.holds_iff, ← hplaces.1, ← hplaces.2]
    exact hflags
  unfold State.backMove at hmove
  set s₁ := if m.shared then s else s.release m.dest with hs₁
  have hreleased : s₁.routes = s.routes ∧ s₁.nodes src = s.nodes src ∧
      s₁.Counted fun n => due n + if m.shared = false ∧ n = m.dest then -1 else 0 := by
    rw [hs₁]
    split
    · rename_i hshared
      exact ⟨rfl, rfl, h.congr (by simp [hshared])⟩
    rename_i hshared
    have hheld := State.one_le_held hrow (hdest (Bool.not_eq_true _ ▸ hshared))
    refine ⟨rfl, Function.update_of_ne hne.symm _ _, (h.release ?_).congr (by simp [hshared])⟩
    omega
  obtain ⟨hroutes, hnodes, hcount⟩ := hreleased
  dsimp only at hmove
  rw [hroutes, hrow] at hmove
  obtain ⟨row', hback, rfl⟩ := map_eq_some_iff.mp hmove
  refine ⟨hcount.writeRow fun n => ?_, hnodes, fun id hid => ?_⟩
  · have hholds := Row.holds_back hne hfits hback n
    obtain ⟨hsrc, -⟩ := hfits
    rw [← Bool.not_eq_true, Row.holds_iff] at hsrc
    simp only [Row.holds_iff] at hdest
    simp only [hroutes, hrow, Row.weight_eq]
    grind
  · rw [State.lookup_writeRow_ne _ hid, hroutes]

lemma State.Counted.revertMoves {plan : Plan} (h : s.Counted fun _ => 0) (hfits : ∀ m ∈ plan.moves,
      ∃ row, s.routes.lookup m.route = some row ∧ m.FitsBack plan.src row)
    (hroom : ∀ node, s.nodes plan.src = some node → node.current + plan.moves.length ≤ node.max)
    (hrevert : s.revertMoves plan = some s') : s'.Counted fun _ => 0 := by
  obtain ⟨s₁, hmoves, rfl⟩ := map_eq_some_iff.mp hrevert
  have hstart : s.Counted fun n => if n = plan.src then 0 else 0 := h.congr (by simp)
  obtain ⟨hcount, hnodes⟩ := hstart.foldMoves
    (fun h hne => h.backMove (by simp [hne]) hne) plan.routes_nodup plan.dest_ne hfits hmoves
  refine (hcount.setCurrent (d := plan.moves.length) fun node hnode => ?_).congr fun n => ?_
  · exact ⟨Int.natCast_add _ _, hroom node (hnodes ▸ hnode)⟩
  by_cases hn : n = plan.src
  · simp only [if_pos hn]
    omega
  · simp [hn]

/-! ### Runs -/

/-- Some row is stored there, and it satisfies `P`. -/
def Stored (P : Row → Prop) : Option Row → Prop
  | some row => P row
  | none => False

instance Stored.decidable (P : Row → Prop) [DecidablePred P] : DecidablePred (Stored P)
  | some row => inferInstanceAs (Decidable (P row))
  | none => .isFalse fun h => h

instance NodeMove.Fits.decidable (src : NodeId) (m : NodeMove) (row : Row) :
    Decidable (m.Fits src row) := by
  unfold NodeMove.Fits
  infer_instance

instance NodeMove.FitsBack.decidable (src : NodeId) (m : NodeMove) (row : Row) :
    Decidable (m.FitsBack src row) := by
  unfold NodeMove.FitsBack
  infer_instance

/-- Making `dest` the anchor changes no node's routes. -/
def Row.SameNodes (dest : NodeId) (row : Row) : Prop :=
  row.anchor = dest ∨ (row.anchor ∈ row.assigned ∧ dest ∈ row.assigned)

/-- The transaction finds its routes on the nodes its call read, and a statement that leaves the
counters alone leaves the routes of every node alone. -/
def ActsOnRead (s : State) : Event → Prop
  | .delete c =>
    match s.calls c with
    | some (.deleteFanOut id nodeID fanOut) =>
      Stored (fun row => (nodeID :: fanOut).Perm row.holders) (s.routes.lookup id)
    | _ => True
  | .applyMoves c =>
    match s.calls c with
    | some (.planned plan) =>
      ∀ m ∈ plan.moves, Stored (m.Fits plan.src) (s.routes.lookup m.route)
    | _ => True
  | .revertMoves c =>
    match s.calls c with
    | some (.moved plan) =>
      (∀ m ∈ plan.moves, Stored (m.FitsBack plan.src) (s.routes.lookup m.route)) ∧
        ∀ node ∈ s.nodes plan.src, node.current + plan.moves.length ≤ node.max
    | _ => True
  | .moveToNode id dest _ => ∀ row ∈ s.routes.lookup id, row.SameNodes dest
  | .alertMove id sibling => ∀ row ∈ s.routes.lookup id, row.SameNodes sibling
  | .clone id _ => s.routes.lookup id = none
  | _ => True

instance Row.SameNodes.decidable (dest : NodeId) (row : Row) : Decidable (row.SameNodes dest) :=
  inferInstanceAs (Decidable (_ ∨ _))

instance ActsOnRead.decidable (s : State) (e : Event) : Decidable (ActsOnRead s e) := by
  unfold ActsOnRead
  split <;> try split
  all_goals infer_instance

lemma Stored.exists {P : Row → Prop} {o : Option Row} (h : Stored P o) : ∃ row, o = some row ∧ P row := by
  cases o with
  | none => exact h.elim
  | some row => exact ⟨row, rfl, h⟩

lemma State.Counted.setAnchor
    (h : s.Counted fun _ => 0) (hrow : s.routes.lookup id = some row) (hsame : row.SameNodes dest) :
    (s.writeRow id (row.setAnchor dest)).Counted fun _ => 0 := by
  refine h.writeRow fun n => ?_
  simp only [hrow, Row.weight_eq, Row.anchor_setAnchor, Row.assigned_setAnchor]
  unfold Row.SameNodes at hsame
  grind

lemma counted_step {e : Event} (h : s.Counted fun _ => 0) (hread : ActsOnRead s e)
    (hstep : step s e = some s') : s'.Counted fun _ => 0 := by
  cases e with
  | place c group order =>
    obtain ⟨mode, -, rfl⟩ := map_eq_some_iff.mp hstep
    exact h.setCall c _
  | create c r order =>
    simp only [step] at hstep
    split at hstep
    · rename_i group mode nodeID rest hnodup hcall
      cases hstep
      apply State.Counted.setCall
      cases hcreate : s.create r group mode nodeID (nodeID :: rest) order with
      | none => exact h
      | some s₁ => exact h.create hnodup hcreate
    · cases hstep
  | proveDomain id =>
    cases hstep
    cases hrow : s.routes.lookup id with
    | none => simpa only [State.mapRow, hrow] using h
    | some row =>
      rw [State.mapRow_of_lookup _ hrow]
      exact h.writeRow fun n => by simp only [hrow, Row.weight_eq]
  | evict id =>
    cases hstep
    exact h.evict id
  | readAnchor c id =>
    obtain ⟨row, -, rfl⟩ := map_eq_some_iff.mp hstep
    exact h.setCall c _
  | readFanOut c =>
    simp only [step] at hstep
    split at hstep
    · cases hstep
      exact h.setCall c _
    · cases hstep
  | delete c =>
    simp only [step] at hstep
    split at hstep
    · rename_i id nodeID fanOut hcall
      cases hstep
      simp only [ActsOnRead, hcall] at hread
      obtain ⟨row, hrow, hnodes⟩ := hread.exists
      exact (h.releaseHolders hrow hnodes).setCall c _
    · cases hstep
  | failover id fromNode group order => exact h.failoverRoute hstep
  | listRoutes c src group drain =>
    cases hstep
    exact h.setCall c _
  | readMembers c =>
    simp only [step] at hstep
    split at hstep
    · cases hstep
      exact h.setCall c _
    · cases hstep
  | planMoves c order =>
    simp only [step] at hstep
    split at hstep
    · obtain ⟨plan, -, rfl⟩ := map_eq_some_iff.mp hstep
      exact h.setCall c _
    · cases hstep
  | applyMoves c =>
    simp only [step] at hstep
    split at hstep
    · rename_i plan hcall
      obtain ⟨s₁, happly, rfl⟩ := map_eq_some_iff.mp hstep
      simp only [ActsOnRead, hcall] at hread
      exact (h.applyMoves (fun m hm => (hread m hm).exists) happly).setCall c _
    · cases hstep
  | revertMoves c =>
    simp only [step] at hstep
    split at hstep
    · rename_i plan hcall
      obtain ⟨s₁, hrevert, rfl⟩ := map_eq_some_iff.mp hstep
      simp only [ActsOnRead, hcall] at hread
      obtain ⟨hfits, hroom⟩ := hread
      exact (h.revertMoves (fun m hm => (hfits m hm).exists) hroom hrevert).setCall c _
    · cases hstep
  | moveToNode id dest platform =>
    obtain ⟨row, hrow, hmove⟩ := bind_eq_some_iff.mp hstep
    split at hmove
    · cases hmove
      exact h.setAnchor hrow (hread row hrow)
    · cases hmove
  | alertMove id sibling =>
    cases hstep
    cases hrow : s.routes.lookup id with
    | none => simpa only [State.mapRow, hrow] using h
    | some row =>
      rw [State.mapRow_of_lookup _ hrow]
      exact h.setAnchor hrow (hread row hrow)
  | clone id newId =>
    obtain ⟨row, hrow, -⟩ := bind_eq_some_iff.mp hstep
    exact absurd (hread.symm.trans hrow) (by simp)
  | setNode n enabled approved healthy =>
    cases hstep
    intro k node hnode
    obtain ⟨rfl, hnode⟩ | ⟨-, hnode⟩ := Runs.update_eq_some hnode
    · obtain ⟨node, hold, rfl⟩ := map_eq_some_iff.mp hnode
      exact h k node hold
    · exact h k node hnode

/-- From exact counters, every run whose transactions act on what their calls read keeps each
counter the number of routes on its node, and within the node's limit. -/
theorem node_counters_exact {s s' : State} {es : List Event} (h : s.Accurate)
    (hread : Runs.Meets step ActsOnRead s es) (hrun : Runs.run step s es = some s') : s'.Accurate := by
  rw [State.accurate_iff_counted] at h ⊢
  refine Runs.run_invariant_of_meets (I := fun t => t.Counted fun _ => 0) ?_ h hread hrun
  intro t e t' ht hcond hstep
  exact counted_step ht hcond hstep

/-- Three empty nodes of one group. -/
def fleet (mode : Mode) : State where
  groups := fun _ => some mode
  nodes := fun n =>
    if n < 3 then
      some { group := 0, enabled := true, approved := true, healthy := true, priority := 0,
             current := 0, max := 2 }
    else none
  routes := ∅
  calls := fun _ => none

lemma fleet_accurate (mode : Mode) : (fleet mode).Accurate := by
  intro n node hnode
  dsimp only [fleet] at hnode
  split at hnode
  · cases hnode
    exact ⟨rfl, Nat.zero_le _⟩
  · cases hnode

def shopRoute (id : RouteId) : NewRoute where
  id := id
  domain := "shop.example"
  path := []
  verified := false
  tunnel := false
  viaPeer := false

/-- An unverified route is created on a standby pair, fails over to the standby, is migrated off it
and back, is displaced by a second claim for its domain, and that one is deleted. -/
def fleetEvents : List Event :=
  [.place 0 0 ⟨[0, 1, 2], by decide⟩, .create 0 (shopRoute 1) [], .failover 1 0 0 [1, 2],
    .listRoutes 1 1 0 true, .readMembers 1, .planMoves 1 [0, 1, 2], .applyMoves 1, .revertMoves 1,
    .place 2 0 ⟨[2, 1, 0], by decide⟩, .create 2 (shopRoute 2) [], .readAnchor 3 2, .readFanOut 3,
    .delete 3]

theorem node_counters_exact_run : ∃ s', Runs.run step (fleet .failover) fleetEvents = some s' ∧ s'.Accurate :=
  ⟨_, rfl, @node_counters_exact (fleet .failover) _ fleetEvents (fleet_accurate .failover)
    (by decide) rfl⟩

/-- A bulk move takes the route to another node and leaves both counters behind. -/
theorem node_counters_drift_on_bulk_move :
    (fleet .single).Accurate ∧ ∃ s', Runs.run step (fleet .single)
        [.place 0 0 ⟨[0, 1, 2], by decide⟩, .create 0 (shopRoute 1) [], .moveToNode 1 2 true] =
      some s' ∧ ¬ s'.Accurate := by
  refine ⟨fleet_accurate .single, _, rfl, fun h => ?_⟩
  have hnode := (h 0 _ rfl).1
  revert hnode
  decide

end Slots
