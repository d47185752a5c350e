import Mathlib.Data.List.Sort
import CaddyPanel.Lib.Runs
import CaddyPanel.Lib.Tables
import CaddyPanel.Lib.Text

/-!
# Node slots (`caddy_nodes.current_routes`)

Every flow that puts a route on a node, or takes it off, keeps the node's counter by hand. Each
event below is one transaction of one flow, or one read that the flow makes before its transaction,
so a run is an interleaving of any number of calls. Where a query sorts nodes by load the event
carries the order.
-/

namespace Slots

open List
open Function (update)
open Tables (Table count weight)
open Text (Str)

abbrev NodeId := Nat
abbrev GroupId := Nat
abbrev RouteId := Nat
abbrev CallId := Nat

/-- `node_groups.mode`. -/
inductive Mode where
  | single
  | activeActive
  | failover
  deriving DecidableEq

structure Node where
  group : GroupId
  enabled : Bool
  approved : Bool
  healthy : Bool
  priority : Int
  current : Nat
  max : Nat

/-- A row of `routes` with its rows of `route_node_assignments`, which the foreign key deletes
together with it. -/
structure Row where
  anchor : NodeId
  assigned : List NodeId
  /-- the primary key of `route_node_assignments` -/
  assigned_nodup : assigned.Nodup
  domain : Str
  path : Str
  verified : Bool
  viaPeer : Bool
  /-- the group of the route's service -/
  group : GroupId

/-- The node serves the route, as its anchor or as a fan-out peer. -/
def Row.holds (n : NodeId) (row : Row) : Bool :=
  row.anchor = n || row.assigned.contains n

/-- `fanOutNodes`: the assigned nodes apart from the anchor the caller read. -/
def Row.fanOut (anchor : NodeId) (row : Row) : List NodeId :=
  row.assigned.filter (· ≠ anchor)

/-- The nodes `evictUnverifiedRoute` releases. -/
def Row.holders (row : Row) : List NodeId :=
  row.anchor :: row.fanOut row.anchor

/-- One route membership leaving the source of a migration. -/
structure NodeMove where
  route : RouteId
  dest : NodeId
  anchor : Bool
  srcRow : Bool
  shared : Bool

/-- The moves of one migration: one for a route, and never back onto the source. -/
structure Plan where
  src : NodeId
  moves : List NodeMove
  routes_nodup : (moves.map NodeMove.route).Nodup
  dest_ne : ∀ m ∈ moves, m.dest ≠ src

/-- The routes a migration listed, with the anchor of each. -/
abbrev Listing := { rts : List (RouteId × NodeId) // (rts.map Prod.fst).Nodup }

/-- What a call has read, or done, between two of its transactions. -/
inductive Call where
  /-- `nodePlacement` answered; the head of the list is the primary -/
  | placed (group : GroupId) (mode : Mode) (all : { l : List NodeId // l.Nodup })
  | deleteAnchor (id : RouteId) (nodeID : NodeId)
  | deleteFanOut (id : RouteId) (nodeID : NodeId) (fanOut : List NodeId)
  | listed (src : NodeId) (group : GroupId) (drain : Bool) (rts : Listing)
  | members (src : NodeId) (group : GroupId) (drain : Bool) (rts : Listing)
      (members : RouteId → List NodeId)
  | planned (plan : Plan)
  /-- committed; a failed push may still revert it -/
  | moved (plan : Plan)

structure State where
  groups : GroupId → Option Mode
  nodes : NodeId → Option Node
  routes : Table RouteId Row
  calls : CallId → Option Call

/-- How many distinct routes the node holds. -/
def State.held (s : State) (n : NodeId) : Nat :=
  count (Row.holds n) s.routes

/-- Each counter is the number of routes on the node, and within its limit. -/
def State.Accurate (s : State) : Prop :=
  ∀ n node, s.nodes n = some node → node.current = s.held n ∧ node.current ≤ node.max

/-! ### Statements on `caddy_nodes` -/

def State.setCurrent (s : State) (n : NodeId) (f : Nat → Nat) : State :=
  { s with
    nodes := update s.nodes n
      ((s.nodes n).map fun node => { node with current := f node.current }) }

/-- `SET current_routes = current_routes + 1 WHERE id = ? AND current_routes < max_routes`, when it
updates a row. -/
def State.claim (s : State) (n : NodeId) : Option State :=
  match s.nodes n with
  | some node => if node.current < node.max then some (s.setCurrent n (· + 1)) else none
  | none => none

/-- `SET current_routes = GREATEST(current_routes - 1, 0)`. -/
def State.release (s : State) (n : NodeId) : State :=
  s.setCurrent n (· - 1)

def Node.up (node : Node) : Bool :=
  node.enabled && node.approved

def Node.hasRoom (node : Node) : Bool :=
  node.current < node.max

def State.candidate (s : State) (group : GroupId) (skip : NodeId) (healthyOnly : Bool)
    (n : NodeId) : Bool :=
  (s.nodes n).any fun node =>
    node.group = group && n ≠ skip && node.up && node.hasRoom && (!healthyOnly || node.healthy)

def State.claimNodeWithCapacity (s : State) (group : GroupId) (skip : NodeId) (healthyOnly : Bool)
    (order : List NodeId) : Option (NodeId × State) :=
  ((order.filter (s.candidate group skip healthyOnly)).take 8).findSome? fun n =>
    (s.claim n).map fun s' => (n, s')

/-! ### Statements on `routes` and `route_node_assignments` -/

def State.writeRow (s : State) (id : RouteId) (row : Row) : State :=
  { s with routes := s.routes.insert id row }

def State.deleteRow (s : State) (id : RouteId) : State :=
  { s with routes := s.routes.erase id }

/-- An `UPDATE … WHERE id = ?`, which updates nothing when the route is gone. -/
def State.mapRow (s : State) (id : RouteId) (f : Row → Row) : State :=
  match s.routes.lookup id with
  | some row => s.writeRow id (f row)
  | none => s

def Row.setAnchor (n : NodeId) (row : Row) : Row :=
  { row with anchor := n }

/-- `INSERT OR IGNORE INTO route_node_assignments`. -/
def Row.assign (n : NodeId) (row : Row) : Row :=
  { row with
    assigned := row.assigned.insert n
    assigned_nodup := row.assigned_nodup.insert }

/-- `DELETE FROM route_node_assignments WHERE node_id = ?`. -/
def Row.unassign (n : NodeId) (row : Row) : Row :=
  { row with
    assigned := row.assigned.erase n
    assigned_nodup := row.assigned_nodup.erase n }

def State.setCall (s : State) (c : CallId) (call : Option Call) : State :=
  { s with calls := update s.calls c call }

/-! ### Create, delete and eviction -/

/-- `evictUnverifiedRoute`: nothing happens to a route that was verified meanwhile. -/
def State.evict (s : State) (id : RouteId) : State :=
  match s.routes.lookup id with
  | some row => if row.verified then s else row.holders.foldl State.release (s.deleteRow id)
  | none => s

/-- The route that already has this domain and path. -/
def State.conflict (s : State) (domain path : Str) : Option (RouteId × Row) :=
  (s.routes.entries.find? fun e => e.2.domain = domain && e.2.path = path).map fun e => (e.1, e.2)

/-- The anti-squat step of `Create`; `none` is `ErrDomainTaken`. -/
def State.evictConflict (s : State) (domain path : Str) : Option State :=
  match s.conflict domain path with
  | some (id, row) => if row.verified then none else some (s.evict id)
  | none => some s

/-- The nodes with room that `nodePlacement` picks in a group, primary first. -/
def State.nodePlacement (s : State) (group : GroupId) (mode : Mode) (order : List NodeId) :
    List NodeId :=
  let withRoom := order.filter fun n =>
    (s.nodes n).any fun node => node.group = group && node.up && node.hasRoom
  match mode with
  | .activeActive => withRoom
  | .failover => withRoom.take 2
  | .single => withRoom.take 1

lemma State.nodup_nodePlacement (s : State) (group : GroupId) (mode : Mode) {order : List NodeId}
    (h : order.Nodup) : (s.nodePlacement group mode order).Nodup := by
  have hfilter : ∀ p : NodeId → Bool, (order.filter p).Nodup := fun p => h.filter p
  cases mode with
  | single => exact (hfilter _).sublist (take_sublist _ _)
  | activeActive => exact hfilter _
  | failover => exact (hfilter _).sublist (take_sublist _ _)

/-- What `Create` inserts. -/
structure NewRoute where
  id : RouteId
  domain : Str
  path : Str
  verified : Bool
  /-- the form asks for a tunnel -/
  tunnel : Bool
  viaPeer : Bool

def NewRoute.row (r : NewRoute) (group : GroupId) (anchor : NodeId) : Row where
  anchor := anchor
  assigned := []
  assigned_nodup := .nil
  domain := r.domain
  path := r.path
  verified := r.verified
  viaPeer := r.viaPeer
  group := group

/-- The slot on the primary, or on another node of a `single` group; the answer is the node that
was claimed and the list the fan-out goes over. -/
def State.claimPrimary (s : State) (r : NewRoute) (group : GroupId) (mode : Mode) (nodeID : NodeId)
    (all order : List NodeId) : Option (NodeId × List NodeId × State) :=
  match s.claim nodeID with
  | some s' => some (nodeID, all, s')
  | none =>
    if mode = .single && !r.tunnel then
      match s.claimNodeWithCapacity group nodeID false order with
      | some (alt, s') => some (alt, [alt], s'.mapRow r.id (Row.setAnchor alt))
      | none => none
    else none

/-- One round of the fan-out loop: a peer that filled up is skipped. -/
def State.assignPeer (id : RouteId) (nodeID : NodeId) (s : State) (n : NodeId) : State :=
  if n = nodeID then s.mapRow id (Row.assign n)
  else
    match s.claim n with
    | some s' => s'.mapRow id (Row.assign n)
    | none => s

def State.fanOut (s : State) (id : RouteId) (mode : Mode) (nodeID : NodeId) (all : List NodeId) :
    State :=
  if mode ≠ .single && 1 < all.length then all.foldl (State.assignPeer id nodeID) s else s

/-- The transaction of `Create`. -/
def State.create (s : State) (r : NewRoute) (group : GroupId) (mode : Mode) (nodeID : NodeId)
    (all order : List NodeId) : Option State :=
  match s.evictConflict r.domain r.path with
  | none => none
  | some s₁ =>
    if (s₁.routes.lookup r.id).isSome then none
    else
      match (s₁.writeRow r.id (r.row group nodeID)).claimPrimary r group mode nodeID all order with
      | none => none
      | some (node, nodes, s₂) => some (s₂.fanOut r.id mode node nodes)

/-- The transaction of `Delete`, on the nodes read before it. -/
def State.delete (s : State) (id : RouteId) (nodeID : NodeId) (fanOut : List NodeId) : State :=
  fanOut.foldl State.release ((s.deleteRow id).release nodeID)

/-! ### Failover -/

/-- `ORDER BY n.priority DESC, n.id ASC`. -/
def State.preferred (s : State) (a b : NodeId) : Bool :=
  let priority (n : NodeId) := (s.nodes n).elim 0 Node.priority
  priority b < priority a || (priority a = priority b && a ≤ b)

/-- The healthy peers that already have a copy of the route. -/
def State.standbys (s : State) (fromNode : NodeId) (row : Row) : List NodeId :=
  row.assigned.filter fun n =>
    n ≠ fromNode && (s.nodes n).any fun node => node.up && node.healthy

def State.standby (s : State) (fromNode : NodeId) (row : Row) : Option NodeId :=
  ((s.standbys fromNode row).insertionSort fun a b => s.preferred a b).head?

/-- The copy on the dead node goes; a node that was claimed for a fan-out route gets one. -/
def Row.failover (fromNode dest : NodeId) (claimed : Bool) (row : Row) : Row :=
  let moved := (row.setAnchor dest).unassign fromNode
  if row.assigned.contains fromNode && claimed then moved.assign dest else moved

def State.failoverRoute (s : State) (id : RouteId) (fromNode : NodeId) (group : GroupId)
    (order : List NodeId) : Option State :=
  match s.routes.lookup id with
  | none => none
  | some row =>
    -- `WHERE id = ? AND caddy_node_id = ?`: a route that moved meanwhile is left alone
    if row.anchor ≠ fromNode then none
    else
      match s.standby fromNode row with
      | some dest => some ((s.writeRow id (row.failover fromNode dest false)).release fromNode)
      | none =>
        match s.claimNodeWithCapacity group fromNode true order with
        | some (dest, s') =>
          some ((s'.writeRow id (row.failover fromNode dest true)).release fromNode)
        | none => none

/-! ### Migration -/

/-- The `WHERE` of the two listings of `migrateNodeRoutes`. -/
def Row.leaves (src : NodeId) (drain : Bool) (row : Row) : Bool :=
  row.holds src && !(drain && row.viaPeer)

def State.leavingRoutes (s : State) (src : NodeId) (drain : Bool) : List (RouteId × NodeId) :=
  ((s.routes.entries.filter fun e => e.2.leaves src drain).map fun e =>
    (e.1, e.2.anchor)).insertionSort fun a b => a.1 ≤ b.1

lemma State.nodup_leavingRoutes (s : State) (src : NodeId) (drain : Bool) :
    ((s.leavingRoutes src drain).map Prod.fst).Nodup := by
  have hkeys : (s.routes.entries.map Sigma.fst).Nodup := s.routes.nodupKeys
  have hsub := (filter_sublist (l := s.routes.entries)
    (p := fun e => e.2.leaves src drain)).map Sigma.fst
  have hnodup : (((s.routes.entries.filter fun e => e.2.leaves src drain).map fun e =>
      (e.1, e.2.anchor)).map Prod.fst).Nodup := by
    rw [map_map]
    exact hkeys.sublist hsub
  exact ((perm_insertionSort _ _).map Prod.fst).nodup_iff.mpr hnodup

def State.membersOf (s : State) (src : NodeId) (drain : Bool) (id : RouteId) : List NodeId :=
  match s.routes.lookup id with
  | some row => if row.leaves src drain then row.assigned else []
  | none => []

/-- A peer of the source and its free slots. -/
abbrev Peer := NodeId × Int

def State.peers (s : State) (src : NodeId) (group : GroupId) (drain : Bool) (order : List NodeId) :
    List Peer :=
  order.filterMap fun n =>
    (s.nodes n).bind fun node =>
      if node.group = group && n ≠ src && node.up && (!drain || node.healthy) then
        some (n, (node.max : Int) - node.current)
      else none

/-- The first peer with a free slot that does not serve the route, and the peers after it is
taken. -/
def pickFree (serves : NodeId → Bool) : List Peer → Option (NodeId × List Peer)
  | [] => none
  | (n, free) :: peers =>
    if 0 < free && !serves n then some (n, (n, free - 1) :: peers)
    else (pickFree serves peers).map fun d => (d.1, (n, free) :: d.2)

def planMove (src : NodeId) (members : List NodeId) (r : RouteId × NodeId) (peers : List Peer) :
    Option (NodeMove × List Peer) :=
  let move (dest : NodeId) (shared : Bool) : NodeMove :=
    { route := r.1, dest := dest, anchor := r.2 = src, srcRow := members.contains src,
      shared := shared }
  match pickFree (fun n => n = r.2 || members.contains n) peers with
  | some (dest, peers') => some (move dest false, peers')
  | none =>
    -- no free slot: hand off to a peer that already serves the route
    (peers.find? fun p => members.contains p.1 || (r.2 ≠ src && p.1 = r.2)).map
      fun p => (move p.1 true, peers)

/-- `none` when the peers do not have room for every route. -/
def planMoves (src : NodeId) (members : RouteId → List NodeId) :
    List (RouteId × NodeId) → List Peer → Option (List NodeMove)
  | [], _ => some []
  | r :: rts, peers =>
    (planMove src (members r.1) r peers).bind fun d =>
      (planMoves src members rts d.2).map (d.1 :: ·)

lemma pickFree_eq_some {serves : NodeId → Bool} {peers peers' : List Peer} {dest : NodeId}
    (h : pickFree serves peers = some (dest, peers')) :
    dest ∈ peers.map Prod.fst ∧ peers'.map Prod.fst = peers.map Prod.fst := by
  induction peers generalizing peers' with
  | nil => cases h
  | cons p peers ih =>
    obtain ⟨n, free⟩ := p
    rw [pickFree] at h
    split at h
    · cases h
      exact ⟨mem_cons_self, rfl⟩
    obtain ⟨⟨d, rest⟩, hd, he⟩ := Option.map_eq_some_iff.mp h
    cases he
    obtain ⟨hmem, hmap⟩ := ih hd
    exact ⟨mem_cons_of_mem _ hmem, congrArg (n :: ·) hmap⟩

lemma planMove_eq_some {src : NodeId} {members : List NodeId} {r : RouteId × NodeId}
    {peers peers' : List Peer} {m : NodeMove} (h : planMove src members r peers = some (m, peers')) :
    m.route = r.1 ∧ m.dest ∈ peers.map Prod.fst ∧ peers'.map Prod.fst = peers.map Prod.fst := by
  rw [planMove] at h
  split at h
  · rename_i hpick
    cases h
    exact ⟨rfl, pickFree_eq_some hpick⟩
  · obtain ⟨p, hp, he⟩ := Option.map_eq_some_iff.mp h
    cases he
    exact ⟨rfl, mem_map_of_mem (mem_of_find?_eq_some hp), rfl⟩

/-- A plan has one move for each route it was given, each onto one of the peers. -/
lemma planMoves_eq_some {src : NodeId} {members : RouteId → List NodeId}
    {rts : List (RouteId × NodeId)} {peers : List Peer} {moves : List NodeMove}
    (h : planMoves src members rts peers = some moves) :
    moves.map NodeMove.route = rts.map Prod.fst ∧ ∀ m ∈ moves, m.dest ∈ peers.map Prod.fst := by
  induction rts generalizing peers moves with
  | nil =>
    cases h
    exact ⟨rfl, by simp⟩
  | cons r rts ih =>
    obtain ⟨⟨m, peers'⟩, hm, hrest⟩ := Option.bind_eq_some_iff.mp h
    obtain ⟨rest, hplan, rfl⟩ := Option.map_eq_some_iff.mp hrest
    obtain ⟨hroute, hdest, hpeers⟩ := planMove_eq_some hm
    obtain ⟨hroutes, hdests⟩ := ih hplan
    constructor
    · simp only [map_cons, hroute, hroutes]
    intro m' hm'
    rcases mem_cons.mp hm' with rfl | hm'
    · exact hdest
    · exact hpeers ▸ hdests m' hm'

lemma State.ne_of_mem_peers {s : State} {src n : NodeId} {group : GroupId} {drain : Bool}
    {order : List NodeId} (h : n ∈ (s.peers src group drain order).map Prod.fst) : n ≠ src := by
  obtain ⟨p, hp, rfl⟩ := mem_map.mp h
  obtain ⟨n, -, hn⟩ := mem_filterMap.mp hp
  obtain ⟨node, -, hnode⟩ := Option.bind_eq_some_iff.mp hn
  split at hnode
  · rename_i hcond
    cases hnode
    simp only [Bool.and_eq_true, decide_eq_true_eq] at hcond
    exact hcond.1.1.2
  · cases hnode

/-- The statements of a forward move on its route; `none` when one of them does not hit exactly one
row. -/
def Row.forward (src : NodeId) (m : NodeMove) (row : Row) : Option Row :=
  let anchored :=
    if m.anchor then if row.anchor = src then some (row.setAnchor m.dest) else none else some row
  anchored.bind fun row =>
    if !m.srcRow then some row
    else if !row.assigned.contains src then none
    else if m.shared then some (row.unassign src)
    else if row.assigned.contains m.dest then none
    else some ((row.unassign src).assign m.dest)

def State.forwardMove (src : NodeId) (s : State) (m : NodeMove) : Option State :=
  (if m.shared then some s else s.claim m.dest).bind fun s₁ =>
    if m.anchor || m.srcRow then
      (s₁.routes.lookup m.route).bind fun row =>
        (row.forward src m).map fun row' => s₁.writeRow m.route row'
    else some s₁

/-- The statements of a reverted move: best effort, but a duplicate key still fails it. -/
def Row.back (src : NodeId) (m : NodeMove) (row : Row) : Option Row :=
  let row := if m.anchor && row.anchor = m.dest then row.setAnchor src else row
  if !m.srcRow then some row
  else if m.shared then some (row.assign src)
  else if !row.assigned.contains m.dest then some row
  else if row.assigned.contains src then none
  else some ((row.unassign m.dest).assign src)

def State.backMove (src : NodeId) (s : State) (m : NodeMove) : Option State :=
  let s₁ := if m.shared then s else s.release m.dest
  match s₁.routes.lookup m.route with
  | some row => (row.back src m).map fun row' => s₁.writeRow m.route row'
  | none => some s₁

/-- `applyNodeMoves`, forward. -/
def State.applyMoves (s : State) (plan : Plan) : Option State :=
  (plan.moves.foldlM (State.forwardMove plan.src) s).map fun s' =>
    s'.setCurrent plan.src (· - plan.moves.length)

/-- `applyNodeMoves`, revert. -/
def State.revertMoves (s : State) (plan : Plan) : Option State :=
  (plan.moves.foldlM (State.backMove plan.src) s).map fun s' =>
    s'.setCurrent plan.src (· + plan.moves.length)

/-! ### The system -/

inductive Event where
  | place (c : CallId) (group : GroupId) (order : { l : List NodeId // l.Nodup })
  | create (c : CallId) (r : NewRoute) (order : List NodeId)
  | proveDomain (id : RouteId)
  | evict (id : RouteId)
  | readAnchor (c : CallId) (id : RouteId)
  | readFanOut (c : CallId)
  | delete (c : CallId)
  | failover (id : RouteId) (fromNode : NodeId) (group : GroupId) (order : List NodeId)
  | listRoutes (c : CallId) (src : NodeId) (group : GroupId) (drain : Bool)
  | readMembers (c : CallId)
  | planMoves (c : CallId) (order : List NodeId)
  | applyMoves (c : CallId)
  | revertMoves (c : CallId)
  | moveToNode (id : RouteId) (dest : NodeId) (platform : Bool)
  /-- one `UPDATE` of the alert engine's own failover -/
  | alertMove (id : RouteId) (sibling : NodeId)
  | clone (id newId : RouteId)
  /-- the prober or an operator -/
  | setNode (n : NodeId) (enabled approved healthy : Bool)

/-- The destination of `moveRouteToNode` is up, and in the group of the route for all but platform
admins. -/
def State.mayMove (s : State) (row : Row) (dest : NodeId) (platform : Bool) : Bool :=
  (s.nodes dest).any fun node => node.up && (platform || node.group = row.group)

/-- What `HostsClone` inserts: `domain_verified` is not copied and defaults to 0. -/
def Row.clone (row : Row) : Row :=
  { row with
    assigned := []
    assigned_nodup := .nil
    domain := "clone-of-" ++ row.domain
    verified := false }

def Node.setFlags (enabled approved healthy : Bool) (node : Node) : Node :=
  { node with enabled := enabled, approved := approved, healthy := healthy }

def State.startMigration (s : State) (src : NodeId) (drain : Bool) : Listing :=
  ⟨s.leavingRoutes src drain, s.nodup_leavingRoutes src drain⟩

/-- The plan of a migration from what it has read, with the peers as they are now. -/
def State.plan (s : State) (src : NodeId) (group : GroupId) (drain : Bool) (rts : Listing)
    (members : RouteId → List NodeId) (order : List NodeId) : Option Plan :=
  match h : Slots.planMoves src members rts.1 (s.peers src group drain order) with
  | some moves => some {
      src := src
      moves := moves
      routes_nodup := (planMoves_eq_some h).1 ▸ rts.2
      dest_ne := fun m hm => State.ne_of_mem_peers ((planMoves_eq_some h).2 m hm) }
  | none => none

def step (s : State) : Event → Option State
  | .place c group order =>
    (s.groups group).map fun mode =>
      s.setCall c (some (.placed group mode
        ⟨s.nodePlacement group mode order.1, s.nodup_nodePlacement group mode order.2⟩))
  | .create c r order =>
    match s.calls c with
    | some (.placed group mode ⟨nodeID :: rest, _⟩) =>
      some (((s.create r group mode nodeID (nodeID :: rest) order).getD s).setCall c none)
    | _ => none
  | .proveDomain id => some (s.mapRow id fun row => { row with verified := true })
  | .evict id => some (s.evict id)
  | .readAnchor c id =>
    (s.routes.lookup id).map fun row => s.setCall c (some (.deleteAnchor id row.anchor))
  | .readFanOut c =>
    match s.calls c with
    | some (.deleteAnchor id nodeID) =>
      some (s.setCall c (some (.deleteFanOut id nodeID
        (((s.routes.lookup id).map (Row.fanOut nodeID)).getD []))))
    | _ => none
  | .delete c =>
    match s.calls c with
    | some (.deleteFanOut id nodeID fanOut) => some ((s.delete id nodeID fanOut).setCall c none)
    | _ => none
  | .failover id fromNode group order => s.failoverRoute id fromNode group order
  | .listRoutes c src group drain =>
    some (s.setCall c (some (.listed src group drain (s.startMigration src drain))))
  | .readMembers c =>
    match s.calls c with
    | some (.listed src group drain rts) =>
      some (s.setCall c (some (.members src group drain rts (s.membersOf src drain))))
    | _ => none
  | .planMoves c order =>
    match s.calls c with
    | some (.members src group drain rts members) =>
      (s.plan src group drain rts members order).map fun plan => s.setCall c (some (.planned plan))
    | _ => none
  | .applyMoves c =>
    match s.calls c with
    | some (.planned plan) =>
      (s.applyMoves plan).map fun s' => s'.setCall c (some (.moved plan))
    | _ => none
  | .revertMoves c =>
    match s.calls c with
    | some (.moved plan) => (s.revertMoves plan).map fun s' => s'.setCall c none
    | _ => none
  | .moveToNode id dest platform =>
    (s.routes.lookup id).bind fun row =>
      if s.mayMove row dest platform then some (s.writeRow id (row.setAnchor dest)) else none
  | .alertMove id sibling => some (s.mapRow id (Row.setAnchor sibling))
  | .clone id newId =>
    (s.routes.lookup id).bind fun row =>
      if (s.conflict row.clone.domain row.path).isSome || (s.routes.lookup newId).isSome then none
      else some (s.writeRow newId row.clone)
  | .setNode n enabled approved healthy =>
    some { s with
      nodes := update s.nodes n ((s.nodes n).map (Node.setFlags enabled approved healthy)) }

end Slots
