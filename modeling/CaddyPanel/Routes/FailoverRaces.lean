import CaddyPanel.Routes.Failover

/-!
# The two failover mechanisms at once

`AutoFailover` lists the routes of dead nodes and moves each in a transaction of its own. The alert
engine's `tryAutoFailover` picks one healthy sibling, lists the active routes of the dead node and
updates them one by one. Operators, the prober and every other flow of the panel may act between any
two of these statements. `moves` counts how often a route has changed its node, so that a route that
was moved away and back can be told from one that stayed.
-/

namespace FailoverRaces

open Option
open Failover (Panel Candidate)
open Function (update)
open Lifecycle (Status)
open Slots (NodeId RouteId CallId Row Node)

/-- The sibling of a dead node, as the query of `tryAutoFailover` saw it. -/
structure Sibling where
  id : NodeId
  node : Node
  enabled : node.enabled
  healthy : node.healthy

/-- What a pass has read. A selected route stands beside its number of moves at that time. -/
inductive Job where
  /-- `AutoFailover` with the candidates that are left -/
  | auto (todo : List (Candidate × Nat))
  /-- `tryAutoFailover` has found a sibling for the node -/
  | chosen (nodeID : NodeId) (sibling : Sibling)
  /-- `tryAutoFailover` with the routes that are left -/
  | alert (sibling : Sibling) (todo : List (RouteId × Nat))

structure World where
  panel : Panel
  moves : RouteId → Nat
  jobs : CallId → Option Job

inductive Event where
  /-- any other flow on the placement, the node switches and the prober's verdicts included -/
  | panel (e : Slots.Event)
  /-- `via_wg_peer_id`, which the edit form sets -/
  | bindTunnel (id : RouteId) (viaPeer : Bool)
  | setStatus (id : RouteId) (status : Status)
  | setLongDown (n : NodeId) (longDown : Bool)
  | listCandidates (c : CallId)
  | failNext (c : CallId) (rank : NodeId → Nat)
  /-- the query has no order, so the event says which of its rows comes first -/
  | chooseSibling (c : CallId) (nodeID sibling : NodeId)
  | listActive (c : CallId)
  | moveNext (c : CallId)

/-- The moves of the two mechanisms, which have events of their own here. -/
def automatic : Slots.Event → Bool
  | .failover .. | .alertMove .. => true
  | _ => false

namespace World

def anchorOf (p : Panel) (id : RouteId) : Option NodeId :=
  (p.slots.routes.lookup id).map Row.anchor

/-- A statement on the placement; `moves` follows. -/
def write (w : World) (p : Panel) : World :=
  { w with
    panel := p
    moves := fun id => if anchorOf p id = anchorOf w.panel id then w.moves id else w.moves id + 1 }

def setJob (w : World) (c : CallId) (job : Job) : World :=
  { w with jobs := update w.jobs c (some job) }

def mapRow (w : World) (id : RouteId) (f : Row → Row) : Panel :=
  w.panel.place (w.panel.slots.mapRow id f) (Slots.State.isNode_mapRow _ _ _)

/-- The candidates of a pass, each with its moves so far. -/
def batch (w : World) : List (Candidate × Nat) :=
  (w.panel.candidates.take Panel.batchLimit).map fun c => (c, w.moves c.id)

/-- The node is a row of the query for a sibling. -/
def sibling (w : World) (nodeID n : NodeId) : Option Sibling :=
  (w.panel.slots.nodes nodeID).bind fun dead =>
    (w.panel.slots.nodes n).bind fun node =>
      if h : node.healthy ∧ node.enabled then
        if node.group = dead.group && n ≠ nodeID && w.panel.slots.groups dead.group = some .failover then
          some ⟨n, node, h.2, h.1⟩
        else none
      else none

/-- `routes WHERE caddy_node_id = ? AND status = 'active'`, each with its moves so far. -/
def activeOn (w : World) (nodeID : NodeId) : List (RouteId × Nat) :=
  (w.panel.slots.routes.entries.filter fun e =>
    e.2.anchor = nodeID && w.panel.status e.1 = .active).map fun e => (e.1, w.moves e.1)

end World

def step (w : World) : Event → Option World
  | .panel e =>
    if automatic e then none
    else
      match h : Slots.step w.panel.slots e with
      | some s => some (w.write (w.panel.place s (Slots.isNode_step h)))
      | none => none
  | .bindTunnel id viaPeer => some (w.write (w.mapRow id fun row => { row with viaPeer := viaPeer }))
  | .setStatus id status =>
    some { w with panel := { w.panel with status := update w.panel.status id status } }
  | .setLongDown n longDown =>
    some { w with panel := { w.panel with longDown := update w.panel.longDown n longDown } }
  | .listCandidates c => some (w.setJob c (.auto w.batch))
  | .failNext c rank =>
    match w.jobs c with
    | some (.auto (next :: todo)) =>
      some ((w.write (w.panel.failNext (fun _ => rank) next.1)).setJob c (.auto todo))
    | _ => none
  | .chooseSibling c nodeID n => (w.sibling nodeID n).map fun s => w.setJob c (.chosen nodeID s)
  | .listActive c =>
    match w.jobs c with
    | some (.chosen nodeID s) => some (w.setJob c (.alert s (w.activeOn nodeID)))
    | _ => none
  | .moveNext c =>
    match w.jobs c with
    -- the update reads nothing of the row but its id
    | some (.alert s (next :: todo)) =>
      some ((w.write (w.mapRow next.1 (Row.setAnchor s.id))).setJob c (.alert s todo))
    | _ => none

/-! ### Automatic moves -/

/-- A route that an automatic step takes to another node. -/
structure Move where
  route : RouteId
  /-- the row before the move -/
  row : Row
  dest : NodeId
  /-- the destination when it was chosen -/
  chosen : Option Node
  /-- the moves of the route when it was selected -/
  selected : Nat

/-- The row before and the node after, when they differ. -/
def relocated (p p' : Panel) (id : RouteId) : Option (Row × NodeId) :=
  (p.slots.routes.lookup id).bind fun row =>
    (World.anchorOf p' id).bind fun dest =>
      if dest = row.anchor then none else some (row, dest)

def autoMove (w : World) : Event → Option Move
  | .failNext c rank =>
    match w.jobs c with
    | some (.auto (next :: _)) =>
      -- the destination is chosen in the transaction of the move
      (relocated w.panel (w.panel.failNext (fun _ => rank) next.1) next.1.id).map fun m =>
        ⟨next.1.id, m.1, m.2, w.panel.slots.nodes m.2, next.2⟩
    | _ => none
  | .moveNext c =>
    match w.jobs c with
    | some (.alert s (next :: _)) =>
      (relocated w.panel (w.mapRow next.1 (Row.setAnchor s.id)) next.1).map fun m =>
        ⟨next.1, m.1, m.2, some s.node, next.2⟩
    | _ => none
  | _ => none

def hasRoom (w : World) (n : NodeId) : Bool :=
  (w.panel.slots.nodes n).any Node.hasRoom

structure Move.Safe (w : World) (m : Move) : Prop where
  untunnelled : m.row.viaPeer = false
  ready : m.chosen.any (fun node => node.up && node.healthy)
  room : m.dest ∈ m.row.assigned ∨ hasRoom w m.dest
  undisturbed : w.moves m.route = m.selected

def SafeMove (w : World) (e : Event) : Prop :=
  ∀ m, autoMove w e = some m → m.Safe w

/-- The turn of a route of `AutoFailover`: since it was listed it was not bound to a tunnel, and not
moved away and back. -/
def FreshCandidate (w : World) (c : Candidate) (selected : Nat) : Prop :=
  c.viaPeer = false → ∀ row, w.panel.slots.routes.lookup c.id = some row → row.anchor = c.fromNode →
    w.panel.hasDestination c row → row.viaPeer = false ∧ w.moves c.id = selected

/-- The turn of a route of `tryAutoFailover`, unless it is on the sibling already. -/
def FreshActive (w : World) (s : Sibling) (id : RouteId) (selected : Nat) : Prop :=
  ∀ row, w.panel.slots.routes.lookup id = some row → row.anchor ≠ s.id →
    row.viaPeer = false ∧ s.node.approved ∧ (s.id ∈ row.assigned ∨ hasRoom w s.id) ∧
      w.moves id = selected

def Fresh (w : World) : Event → Prop
  | .failNext c _ =>
    match w.jobs c with
    | some (.auto (next :: _)) => FreshCandidate w next.1 next.2
    | _ => True
  | .moveNext c =>
    match w.jobs c with
    | some (.alert s (next :: _)) => FreshActive w s next.1 next.2
    | _ => True
  | _ => True

/-! ### What each mechanism guarantees -/

lemma relocated_self (p : Panel) (id : RouteId) : relocated p p id = none := by
  unfold relocated World.anchorOf
  cases p.slots.routes.lookup id <;> simp

lemma relocated_eq_some {p p' : Panel} {id : RouteId} {row row' : Row}
    (hrow : p.slots.routes.lookup id = some row) (hrow' : p'.slots.routes.lookup id = some row')
    (hne : row'.anchor ≠ row.anchor) : relocated p p' id = some (row, row'.anchor) := by
  simp [relocated, World.anchorOf, hrow, hrow', hne]

section AutoFailover

variable {p : Panel} {c : Candidate} {rank : RouteId → NodeId → Nat} {row : Row}

/-- Where the transaction of a candidate takes its route. -/
lemma relocated_failNext (hvia : c.viaPeer = false) (hrow : p.slots.routes.lookup c.id = some row)
    (hanchor : row.anchor = c.fromNode) (hdest : p.hasDestination c row) :
    ∃ dest, relocated p (p.failNext rank c) c.id = some (row, dest) ∧ p.slots.ready dest ∧
      (dest ∈ row.assigned ∨ (p.slots.nodes dest).any Node.hasRoom) := by
  have hsome := (Failover.isSome_failoverRoute_iff hrow hanchor (rank c.id)).mpr hdest
  obtain ⟨s, hs⟩ := isSome_iff_exists.mp hsome
  have hnext : p.failNext rank c = p.place s (Slots.State.isNode_failoverRoute hs) := by
    unfold Panel.failNext
    rw [if_neg (by simp [hvia])]
    split
    · rename_i s' hs'
      cases hs.symm.trans hs'
      rfl
    · rename_i hnone
      cases hs.symm.trans hnone
  obtain ⟨row₀, dest, claimed, s₁, hrow₀, -, hne, hready, hclaim, rfl⟩ :=
    Slots.State.failoverRoute_eq_some hs
  cases hrow.symm.trans hrow₀
  refine ⟨dest, ?_, hready, ?_⟩
  · rw [hnext]
    have hrow' : (p.place _ (Slots.State.isNode_failoverRoute hs)).slots.routes.lookup c.id =
        some (row.failover c.fromNode dest claimed) := Slots.State.lookup_writeRow _ _ _
    have hmoved := relocated_eq_some hrow hrow' (by rwa [Slots.Row.anchor_failover, hanchor])
    rwa [Slots.Row.anchor_failover] at hmoved
  · rcases hclaim with ⟨hmem, -, -⟩ | ⟨-, -, hclaim⟩
    · exact .inl hmem
    · exact .inr (Slots.State.claim_eq_some hclaim).1

/-- Nothing moves without these four. -/
lemma of_relocated_failNext {dest : NodeId} (h : relocated p (p.failNext rank c) c.id = some (row, dest)) :
    c.viaPeer = false ∧ p.slots.routes.lookup c.id = some row ∧ row.anchor = c.fromNode ∧ p.hasDestination c row := by
  have hrow : p.slots.routes.lookup c.id = some row := by
    obtain ⟨row₀, hrow, h⟩ := bind_eq_some_iff.mp h
    obtain ⟨dest₀, -, h⟩ := bind_eq_some_iff.mp h
    split_ifs at h
    cases h
    exact hrow
  have hmoved : p.failNext rank c ≠ p := by
    intro heq
    rw [heq, relocated_self] at h
    cases h
  unfold Panel.failNext at hmoved
  split_ifs at hmoved with hvia
  · exact absurd rfl hmoved
  split at hmoved
  · rename_i s hs
    obtain ⟨row₀, -, -, -, hrow₀, hanchor, -, -, -, -⟩ := Slots.State.failoverRoute_eq_some hs
    cases hrow.symm.trans hrow₀
    refine ⟨by simpa using hvia, hrow, hanchor, ?_⟩
    exact (Failover.isSome_failoverRoute_iff hrow hanchor (rank c.id)).mp (by simp [hs])
  · exact absurd rfl hmoved

end AutoFailover

lemma relocated_setAnchor {w : World} {id : RouteId} {n : NodeId} {m : Row × NodeId} :
    relocated w.panel (w.mapRow id (Row.setAnchor n)) id = some m ↔
      w.panel.slots.routes.lookup id = some m.1 ∧ m.1.anchor ≠ n ∧ m.2 = n := by
  obtain ⟨row, dest⟩ := m
  cases hrow : w.panel.slots.routes.lookup id with
  | none => simp [relocated, hrow]
  | some row₀ =>
    have hrow' : (w.mapRow id (Row.setAnchor n)).slots.routes.lookup id = some (row₀.setAnchor n) := by
      have hslots : (w.mapRow id (Row.setAnchor n)).slots = w.panel.slots.mapRow id (Row.setAnchor n) :=
        rfl
      rw [hslots, Slots.State.mapRow_of_lookup _ hrow]
      exact Slots.State.lookup_writeRow _ _ _
    simp only [relocated, World.anchorOf, hrow, hrow', bind_some, map_some,
      Slots.Row.setAnchor, Option.some.injEq]
    split_ifs with hsame
    · constructor
      · intro h
        cases h
      · rintro ⟨rfl, hne, -⟩
        exact absurd hsame.symm hne
    · simp only [Option.some.injEq, Prod.mk.injEq]
      constructor
      · rintro ⟨rfl, rfl⟩
        exact ⟨rfl, Ne.symm hsame, rfl⟩
      · rintro ⟨rfl, -, rfl⟩
        exact ⟨rfl, rfl⟩

lemma safeMove_failNext_iff (w : World) (c : CallId) (rank : NodeId → Nat) :
    SafeMove w (.failNext c rank) ↔ Fresh w (.failNext c rank) := by
  unfold SafeMove autoMove Fresh
  dsimp only
  split
  · constructor
    · intro hsafe hvia row hrow hanchor hdest
      obtain ⟨dest, hmoved, -, -⟩ := relocated_failNext hvia hrow hanchor hdest
      have hmove := hsafe _ (by rw [hmoved]; rfl)
      exact ⟨hmove.untunnelled, hmove.undisturbed⟩
    intro hfresh m hm
    obtain ⟨⟨row, dest⟩, hmoved, rfl⟩ := map_eq_some_iff.mp hm
    obtain ⟨hvia, hrow, hanchor, hdest⟩ := of_relocated_failNext hmoved
    obtain ⟨dest', hmoved', hready, hroom⟩ := relocated_failNext hvia hrow hanchor hdest
    cases hmoved.symm.trans hmoved'
    obtain ⟨htunnel, hsame⟩ := hfresh hvia row hrow hanchor hdest
    exact ⟨htunnel, hready, hroom, hsame⟩
  · simp

lemma safeMove_moveNext_iff (w : World) (c : CallId) : SafeMove w (.moveNext c) ↔ Fresh w (.moveNext c) := by
  unfold SafeMove autoMove Fresh
  dsimp only
  split
  · rename_i s next todo hjob
    constructor
    · intro hsafe row hrow hanchor
      have hmoved : relocated w.panel (w.mapRow next.1 (Row.setAnchor s.id)) next.1 = some (row, s.id) :=
        relocated_setAnchor.mpr ⟨hrow, hanchor, rfl⟩
      have hmove := hsafe _ (by rw [hmoved]; rfl)
      have hready := hmove.ready
      simp only [any_some, Node.up, s.enabled, s.healthy, Bool.and_true] at hready
      exact ⟨hmove.untunnelled, hready, hmove.room, hmove.undisturbed⟩
    · intro hfresh m hm
      obtain ⟨⟨row, dest⟩, hmoved, rfl⟩ := map_eq_some_iff.mp hm
      obtain ⟨hrow, hanchor, rfl⟩ := relocated_setAnchor.mp hmoved
      obtain ⟨htunnel, happroved, hroom, hsame⟩ := hfresh row hrow hanchor
      refine ⟨htunnel, ?_, hroom, hsame⟩
      simp [Slots.Node.up, s.enabled, s.healthy, happroved]
  · simp

/-- Over every interleaving: the automatic moves are safe exactly where each turn finds its route as
it was selected, and the alert engine's sibling is approved and has a copy or room. -/
theorem automatic_moves_safe_iff (w : World) (es : List Event) :
    Runs.Meets step SafeMove w es ↔ Runs.Meets step Fresh w es := by
  refine Runs.meets_congr (fun w e => ?_) w es
  cases e with
  | failNext c rank => exact safeMove_failNext_iff w c rank
  | moveNext c => exact safeMove_moveNext_iff w c
  | panel e => exact ⟨fun _ => trivial, fun _ _ h => nomatch h⟩
  | bindTunnel id viaPeer => exact ⟨fun _ => trivial, fun _ _ h => nomatch h⟩
  | setStatus id status => exact ⟨fun _ => trivial, fun _ _ h => nomatch h⟩
  | setLongDown n longDown => exact ⟨fun _ => trivial, fun _ _ h => nomatch h⟩
  | listCandidates c => exact ⟨fun _ => trivial, fun _ _ h => nomatch h⟩
  | chooseSibling c nodeID n => exact ⟨fun _ => trivial, fun _ _ h => nomatch h⟩
  | listActive c => exact ⟨fun _ => trivial, fun _ _ h => nomatch h⟩

/-! ### A dead node with one route -/

/-- Node 1 is down; node 2 is enabled and healthy, not approved, and full. -/
def fullSibling (n : NodeId) : Option Node :=
  if n = 1 then some (Failover.node false)
  else if n = 2 then some { Failover.node true with approved := false, max := 0 }
  else none

/-- The panel of `Failover.outage` with other nodes. -/
def deadNode (tunnelled total : Nat) (nodes : NodeId → Option Node)
    (h : ∀ n, (nodes n).isSome → n ∈ [1, 2]) : World where
  panel := {
    slots := { (Failover.outage tunnelled total).slots with nodes := nodes }
    status := fun _ => .active
    longDown := fun n => n = 1
    nodeIds := [1, 2]
    mem_nodeIds := h }
  moves := fun _ => 0
  jobs := fun _ => none

lemma mem_of_fullSibling (n : NodeId) (h : (fullSibling n).isSome) : n ∈ [1, 2] := by
  unfold fullSibling at h
  split_ifs at h with h₁ h₂ <;> simp_all

/-- The alert engine takes a tunnelled route to a full node that nobody approved; and a route that is
bound to a tunnel after it was listed is moved by `AutoFailover`. -/
theorem automatic_moves_unsafe :
    ¬ Runs.Meets step SafeMove (deadNode 1 1 fullSibling mem_of_fullSibling)
      [.chooseSibling 0 1 2, .listActive 0, .moveNext 0] ∧
    ¬ Runs.Meets step SafeMove (deadNode 0 1 Failover.twoNodes (Failover.outage 0 1).mem_nodeIds)
      [.listCandidates 0, .bindTunnel 0 true, .failNext 0 fun _ => 0] := by
  constructor
  · rintro ⟨-, -, hsafe, -⟩
    exact absurd (hsafe _ rfl).untunnelled (by decide +kernel)
  · rintro ⟨-, -, hsafe, -⟩
    exact absurd (hsafe _ rfl).untunnelled (by decide +kernel)

end FailoverRaces
