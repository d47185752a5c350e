import CaddyPanel.Lib.IP
import CaddyPanel.Lib.Rows
import Mathlib.Data.List.Dedup
import Mathlib.Data.List.Sort

/-!
# The reconciler of DNS steering

`internal/domain/dnssteer` keeps the address records of steered names in step with the health of the nodes. A pass
first deletes the records of orphaned rows of its ledger, then plans and applies the changes of the next routes. The
tables of routes and nodes are a configuration; the zones, the ledger and the cursor are the state. What the providers
and the database answer during a pass is an environment.
-/

namespace Dnssteer

open List
open Text (Str)

inductive RecordType where
  | A
  | AAAA
  deriving DecidableEq

def recordType (ip : Str) : RecordType :=
  if ((IP.parseIP ip).bind IP.to4).isSome then .A else .AAAA

structure Record where
  id : ℕ
  type : RecordType
  name : Str
  value : Str
  ttl : ℕ
  deriving DecidableEq

/-- The address records of a zone. The provider numbers them and gives no number twice. -/
structure Zone where
  records : List Record
  next : ℕ
  nodup : (records.map Record.id).Nodup
  fresh : ∀ r ∈ records, r.id < next

namespace Zone

def append (z : Zone) (type : RecordType) (name value : Str) (ttl : ℕ) : Zone where
  records := z.records ++ [⟨z.next, type, name, value, ttl⟩]
  next := z.next + 1
  nodup := by
    rw [map_append, nodup_append]
    refine ⟨z.nodup, nodup_singleton _, fun a ha b hb hab => ?_⟩
    obtain ⟨r, hr, rfl⟩ := mem_map.mp ha
    obtain rfl := mem_singleton.mp hb
    exact absurd hab (z.fresh r hr).ne
  fresh := by
    intro r hr
    obtain hr | hr := mem_append.mp hr
    · exact (z.fresh r hr).trans (Nat.lt_succ_self _)
    · obtain rfl := mem_singleton.mp hr
      exact Nat.lt_succ_self _

def delete (z : Zone) (id : ℕ) : Zone where
  records := z.records.filter (·.id ≠ id)
  next := z.next
  nodup := z.nodup.sublist (filter_sublist.map _)
  fresh := fun r hr => z.fresh r (mem_filter.mp hr).1

end Zone

/-- What a call of the provider comes to: done, done without an answer, or not done. -/
inductive Reply where
  | ok
  | lost
  | failed
  deriving DecidableEq

/-! ### The plan -/

structure Candidate where
  id : ℕ
  ip : Str
  enabled : Bool
  healthy : Bool
  deriving DecidableEq

def Candidate.wanted (c : Candidate) : Bool :=
  c.enabled && c.healthy

/-- The record of `existingByIP`: of several with one address, the last. -/
def existingByIP (name : Str) (existing : List Record) (ip : Str) : Option Record :=
  (existing.filter (·.name = name)).reverse.find? (·.value = ip)

/-- The keys of `existingByIP`. -/
def addresses (name : Str) (existing : List Record) : List Str :=
  ((existing.filter (·.name = name)).map Record.value).dedup

structure Removal where
  nodeID : ℕ
  record : Record
  deriving DecidableEq

inductive Action where
  | add (nodeID : ℕ) (type : RecordType) (name value : Str)
  | remove (removal : Removal)
  deriving DecidableEq

def toAdd (name : Str) (candidates : List Candidate) (existing : List Record) : List Action :=
  (candidates.filter fun c => c.wanted && (existingByIP name existing c.ip).isNone).map
    fun c => .add c.id (recordType c.ip) name c.ip

def toRemove (name : Str) (candidates : List Candidate) (existing : List Record) : List Removal :=
  (candidates.filter fun c => !c.wanted).filterMap fun c => (existingByIP name existing c.ip).map (⟨c.id, ·⟩)

/-- Fail-static: a plan that adds nothing and drops as many records as there are addresses keeps the one of the lowest
node. -/
def failStatic (name : Str) (candidates : List Candidate) (existing : List Record) : Bool :=
  (toAdd name candidates existing).isEmpty && !(toRemove name candidates existing).isEmpty &&
    (toRemove name candidates existing).length = (addresses name existing).length

def removals (name : Str) (candidates : List Candidate) (existing : List Record) : List Removal :=
  if failStatic name candidates existing then
    ((toRemove name candidates existing).insertionSort fun a b => a.nodeID ≤ b.nodeID).tail
  else toRemove name candidates existing

def planActions (name : Str) (candidates : List Candidate) (existing : List Record) : List Action :=
  toAdd name candidates existing ++ (removals name candidates existing).map .remove

/-! ### The ledger -/

/-- A row of `dns_steering_records`; no record id is the empty text of the column. -/
structure Owned where
  routeID : ℕ
  nodeID : ℕ
  providerID : ℕ
  name : Str
  value : Str
  recordID : Option ℕ
  deriving DecidableEq

def Owned.key (o : Owned) : ℕ × ℕ × Str :=
  (o.routeID, o.nodeID, o.value)

abbrev Ledger := Rows Owned.key

def forgetOwned (l : Ledger) (key : ℕ × ℕ × Str) : Ledger :=
  l.delete fun o => o.key = key

def rememberOwned (l : Ledger) (o : Owned) : Ledger :=
  ((forgetOwned l o.key).insert o).getD (forgetOwned l o.key)

def storeRecordID (l : Ledger) (key : ℕ × ℕ × Str) (id : ℕ) : Ledger :=
  l.update (fun o => o.key = key) (fun o => { o with recordID := some id })

def matchOwned (o : Owned) (live : List Record) : Option Record :=
  live.find? fun r =>
    match o.recordID with
    | some id => r.id = id
    | none => r.name = o.name && r.value = o.value

/-! ### Calls of a provider -/

/-- `providerFor`: the row is gone, it cannot be read or used, or there is a client. -/
inductive Lookup where
  | gone
  | failed
  | ready
  deriving DecidableEq

/-- The answers to one group of calls. `replies` is for the call of the row or action of that position, `remembered`
for the insert into the ledger before it. -/
structure Answers where
  lookup : Lookup
  listed : Bool
  replies : ℕ → Reply
  remembered : ℕ → Bool

/-- A zone, and the ledger. -/
structure Books where
  zone : Zone
  ledger : Ledger

def cleanupRow (a : Answers) (live : List Record) (b : Books) (o : Owned × ℕ) : Books :=
  match matchOwned o.1 live with
  | some r =>
    match a.replies o.2 with
    | .ok => ⟨b.zone.delete r.id, forgetOwned b.ledger o.1.key⟩
    | .lost => { b with zone := b.zone.delete r.id }
    | .failed => b
  | none => { b with ledger := forgetOwned b.ledger o.1.key }

def cleanupProvider (a : Answers) (owned : List Owned) (b : Books) : Books :=
  match a.lookup with
  | .gone => { b with ledger := owned.foldl (fun l o => forgetOwned l o.key) b.ledger }
  | .failed => b
  | .ready => if a.listed then owned.zipIdx.foldl (cleanupRow a b.zone.records) b else b

/-- A row of `routes`. -/
structure Route where
  id : ℕ
  domain : Str
  nodeID : ℕ
  dnsProviderID : Option ℕ
  steeringEnabled : Bool
  domainVerified : Bool
  disabled : Bool
  ttl : ℕ
  deriving DecidableEq

def applyAction (a : Answers) (sr : Route) (providerID : ℕ) (b : Books) : Action × ℕ → Books
  | (.add nodeID type name value, i) =>
    let o : Owned := ⟨sr.id, nodeID, providerID, sr.domain, value, none⟩
    if !a.remembered i then { b with ledger := forgetOwned b.ledger o.key }
    else
      let b := { b with ledger := rememberOwned b.ledger o }
      match a.replies i with
      | .ok => ⟨b.zone.append type name value sr.ttl, storeRecordID b.ledger o.key b.zone.next⟩
      -- the row stays, since the call may have been applied
      | .lost => { b with zone := b.zone.append type name value sr.ttl }
      | .failed => b
  | (.remove removal, i) =>
    match a.replies i with
    | .ok => ⟨b.zone.delete removal.record.id, forgetOwned b.ledger (sr.id, removal.nodeID, removal.record.value)⟩
    | .lost => { b with zone := b.zone.delete removal.record.id }
    | .failed => b

def diffAndApply (a : Answers) (sr : Route) (providerID : ℕ) (candidates : List Candidate) (b : Books) : Books :=
  (planActions sr.domain candidates b.zone.records).zipIdx.foldl (applyAction a sr providerID) b

/-- `reconcileRoute` after the candidates are read. -/
def reconcileRoute (a : Answers) (sr : Route) (providerID : ℕ) (candidates : List Candidate) (b : Books) : Books :=
  if candidates.isEmpty then b
  else
    match a.lookup with
    | .ready => if a.listed then diffAndApply a sr providerID candidates b else b
    | .gone | .failed => b

/-! ### A pass -/

/-- A row of `caddy_nodes`; no address is the empty text. -/
structure Node where
  id : ℕ
  publicIP : Str
  isEnabled : Bool
  healthy : Bool
  deriving DecidableEq

structure Config where
  routes : Rows Route.id
  nodes : Rows Node.id
  /-- `route_node_assignments` -/
  assignments : List (ℕ × ℕ)
  /-- the keys are counted from one -/
  positive : ∀ r ∈ routes, 0 < r.id

namespace Config

def loadCandidates (cfg : Config) (sr : Route) : List Candidate :=
  (cfg.nodes.rows.filter fun n =>
      (n.id = sr.nodeID || (sr.id, n.id) ∈ cfg.assignments) && (IP.parseIP n.publicIP).isSome).map
    fun n => ⟨n.id, n.publicIP, n.isEnabled, n.healthy⟩

/-- The rows of the `SELECT` in `cleanupOrphans`. -/
def orphaned (cfg : Config) (o : Owned) : Bool :=
  match cfg.routes.lookup o.routeID with
  | none => true
  | some r =>
    !r.steeringEnabled || !r.domainVerified || r.disabled || r.dnsProviderID ≠ some o.providerID ||
      r.domain ≠ o.name || (r.nodeID ≠ o.nodeID && (o.routeID, o.nodeID) ∉ cfg.assignments) ||
      !(cfg.nodes.lookup o.nodeID).any (·.publicIP = o.value)

/-- The `WHERE` of `Reconcile` without the cursor. -/
def steered (r : Route) : Bool :=
  r.steeringEnabled && r.domainVerified && r.dnsProviderID.isSome && !r.disabled

end Config

structure State where
  /-- the zone of a provider, whose name is unique -/
  zones : ℕ → Zone
  ledger : Ledger
  cursor : ℕ

/-- The answers of a pass, by provider for the cleanup and by route for the rest. -/
structure Env where
  orphansListed : Bool
  /-- the orphaned rows in the order in which the database gives them -/
  rows : List Owned
  cleanup : ℕ → Answers
  routesListed : Bool
  candidatesRead : ℕ → Bool
  steer : ℕ → Answers

def routeLimit : ℕ := 500

def Env.batch (e : Env) : List Owned :=
  e.rows.take routeLimit

def cleanupOne (e : Env) (s : State) (providerID : ℕ) : State :=
  let b := cleanupProvider (e.cleanup providerID) (e.batch.filter (·.providerID = providerID))
    ⟨s.zones providerID, s.ledger⟩
  { s with zones := Function.update s.zones providerID b.zone, ledger := b.ledger }

def cleanupOrphans (e : Env) (s : State) : State :=
  if e.orphansListed then ((e.batch.map Owned.providerID).reverse.dedup.reverse).foldl (cleanupOne e) s else s

/-- The routes of a pass. -/
def targets (cfg : Config) (cursor : ℕ) : List Route :=
  ((cfg.routes.rows.filter fun r => Config.steered r && cursor < r.id).insertionSort
    fun a b => a.id ≤ b.id).take routeLimit

def steerOne (cfg : Config) (e : Env) (s : State) (sr : Route) : State :=
  let s := { s with cursor := sr.id }
  match sr.dnsProviderID with
  | some providerID =>
    if e.candidatesRead sr.id then
      let b := reconcileRoute (e.steer sr.id) sr providerID (cfg.loadCandidates sr) ⟨s.zones providerID, s.ledger⟩
      { s with zones := Function.update s.zones providerID b.zone, ledger := b.ledger }
    else s
  | none => s

def steerRoutes (cfg : Config) (e : Env) (s : State) : State :=
  if !e.routesListed then s
  else
    let ts := targets cfg s.cursor
    let s := ts.foldl (steerOne cfg e) s
    if ts.length < routeLimit then { s with cursor := 0 } else s

/-- What the database may list: every orphaned row once, in the order of the providers. -/
def Listing (cfg : Config) (l : Ledger) (rows : List Owned) : Prop :=
  rows.Perm (l.rows.filter cfg.orphaned) ∧ rows.Pairwise fun o o' => o.providerID ≤ o'.providerID

instance (cfg : Config) (l : Ledger) (rows : List Owned) : Decidable (Listing cfg l rows) :=
  inferInstanceAs (Decidable (_ ∧ _))

def reconcile (cfg : Config) (s : State) (e : Env) : Option State :=
  if Listing cfg s.ledger e.rows then some (steerRoutes cfg e (cleanupOrphans e s)) else none

variable {cfg : Config} {e : Env} {s : State} {sr : Route} {cursor : ℕ}

lemma mem_targets (h : sr ∈ targets cfg cursor) : sr ∈ cfg.routes ∧ Config.steered sr ∧ cursor < sr.id := by
  have hmem := mem_of_mem_take h
  rw [mem_insertionSort, mem_filter, Bool.and_eq_true, decide_eq_true_eq] at hmem
  exact hmem

lemma cursor_cleanupOrphans : (cleanupOrphans e s).cursor = s.cursor := by
  unfold cleanupOrphans
  split
  · exact List.foldlRecOn (motive := fun t : State => t.cursor = s.cursor) _ _ rfl fun _ ht _ _ => ht
  · rfl

end Dnssteer
