import CaddyPanel.Lib.Tables
import CaddyPanel.Routes.RouteUpdate

/-!
# The ports of a service

`Create` and `UpdateRoute` look for another route with the port before their transaction; the
transaction locks the service row and checks the range again. Any number of calls run at once, next
to deletes and to changes of the range.
-/

namespace Routes.Ports

open Runs
open Text (Str)
open Tables (Table)
open RouteUpdate
open Function (update)

/-! ### The table -/

/-- A row that dials a port of the service. -/
def dials (row : Columns) : Bool :=
  row.kind ≠ .redirect && !row.external

/-- The collision query: another row of the service has the port, whether it dials or not. -/
def portTaken (rows : Table Nat Columns) (port : Int) (routeID : Nat) : Bool :=
  rows.entries.any fun e => e.1 ≠ routeID && e.2.upstreamPort = port

/-- `RoutesOutsidePorts`. -/
def routesOutsidePorts (rows : Table Nat Columns) (range : Int × Int) : Nat :=
  Tables.count (fun row => dials row &&
    (row.upstreamPort < range.1 || range.2 < row.upstreamPort)) rows

/-! ### Creating a route -/

/-- The fields of `CreateInput` that the row and the checks of the port depend on. Every kind but
`redirect` is stored as `proxy`. -/
structure CreateInput where
  kind : Caddyapi.Kind := .proxy
  external : Bool := false
  upstreamPort : Int
  https : Bool := false
  pathPrefix : Str := []
  ssl : Bool := true
  webSocket : Bool := false
  forceHTTPS : Bool := false
  requireClientCert : Bool := false
  redirectURL : Str := []
  redirectCode : Int := 0

inductive CreateError where
  | route (e : UpdateError)
  | redirectURLRequired
  | redirectCode
  /-- a check against a table or a name that says nothing about ports -/
  | refused
  deriving DecidableEq

/-- What the call learns from other tables. -/
structure CreateEnv where
  ownerClient : Nat
  plan : RoutePlan
  /-- domain, placeholders, rewrite and, for an external route, plan and target -/
  screened : Bool := true
  /-- wildcard zone, trust anchor, placement and tunnel -/
  placed : Bool := true
  /-- quotas, no verified row with the host and path, the insert and the claim of a slot -/
  inserted : Bool := true
  /-- the unverified row with the same host and path that the transaction evicts -/
  evicted : Option Nat := none

/-- The shape that `Create` gives an external route and a redirect, within the plan. -/
def CreateInput.settle (i : CreateInput) (plan : RoutePlan) : CreateInput :=
  let i := if i.external then
      { i with
        kind := .proxy
        https := true
        ssl := true
        upstreamPort := if i.upstreamPort = 0 then 443 else i.upstreamPort }
    else i
  let i := if i.kind = .redirect then { i with upstreamPort := 0 } else i
  { i with
    ssl := i.ssl && (plan.ssl || i.external)
    webSocket := i.webSocket && plan.webSocket
    forceHTTPS := i.forceHTTPS || i.requireClientCert }

def CreateInput.state (i : CreateInput) (path : Str) : RouteState where
  kind := i.kind
  external := i.external
  upstreamPort := i.upstreamPort
  pathPrefix := path
  ssl := i.ssl
  webSocket := i.webSocket
  redirectURL := i.redirectURL

def CreateInput.row (i : CreateInput) (path : Str) (ownerClient : Nat) : Columns where
  ownerClient := ownerClient
  kind := i.kind
  external := i.external
  requireClientCert := i.requireClientCert
  upstreamPort := i.upstreamPort
  pathPrefix := path
  ssl := i.ssl
  webSocket := i.webSocket
  forceHTTPS := i.forceHTTPS
  policy := ⟨if i.https then "https" else "http", false, false, false, [], 0, []⟩

def redirectCheck (i : CreateInput) : Except CreateError Unit :=
  if i.kind = .redirect && !i.external then
    if i.redirectURL = [] then .error .redirectURLRequired
    else if i.redirectCode ∈ [0, 301, 302, 307, 308] then .ok ()
    else .error .redirectCode
  else .ok ()

def createIf (b : Bool) (e : CreateError) : Except CreateError Unit :=
  if b then .ok () else .error e

/-- `Create` up to the transaction: the row that it is going to insert. -/
def prepareCreate (clientID : Nat) (i : CreateInput) (env : CreateEnv) (portUsed : Bool) :
    Except CreateError Columns := do
  let path ← (normalizePath i.pathPrefix).mapError .route
  createIf env.screened .refused
  createIf (clientID = 0 || env.ownerClient = clientID) (.route .serviceNotYours)
  redirectCheck i
  let i := i.settle env.plan
  (checkRouteState env.plan portUsed (i.state path)).mapError .route
  createIf (!i.requireClientCert || i.ssl) (.route .mtlsNeedsTLS)
  createIf env.placed .refused
  return i.row path env.ownerClient

/-- What `CheckLockedPort` reads of a row that is to be inserted. -/
def lockedState (row : Columns) : RouteState where
  kind := row.kind
  external := row.external
  upstreamPort := row.upstreamPort
  pathPrefix := []
  ssl := false
  webSocket := false

/-- The transaction of `Create`, with the range under the lock. -/
def commitCreate (env : CreateEnv) (range : Int × Int) (row : Columns) : Except CreateError Unit := do
  (checkLockedPort (some range) (lockedState row)).mapError .route
  createIf env.inserted .refused

/-! ### Calls that run at once -/

inductive Request where
  | create (clientID : Nat) (input : CreateInput) (env : CreateEnv)
  | update (routeID : Nat) (call : Call)

/-- How far a call has come. -/
inductive Phase where
  | idle
  /-- an update has read its row -/
  | read (cur : Columns)
  /-- an update has passed its checks -/
  | toUpdate (cur : Columns) (w : RouteWrite)
  /-- a create has passed its checks -/
  | toInsert (row : Columns)
  | ended (result : Except CreateError Unit)

/-- The port range of the service, its rows, the ids below which one has been given out, and the
calls. -/
structure State (ι : Type) where
  range : Int × Int
  rows : Table Nat Columns
  nextID : Nat
  phase : ι → Phase

inductive Event (ι : Type) where
  | read (c : ι)
  /-- the checks outside the transaction; the collision query may fail, which passes for no row -/
  | check (c : ι) (queryFails : Bool)
  /-- the transaction; an insert takes `newID` -/
  | commit (c : ι) (newID : Nat)
  | delete (routeID : Nat)
  /-- a change of the range, which takes the same lock -/
  | resize (range : Int × Int)

section Step

variable {ι : Type} [DecidableEq ι]

def State.setPhase (s : State ι) (c : ι) (p : Phase) : State ι :=
  { s with phase := update s.phase c p }

/-- Where the checks of an update lead. -/
def updatePhase (cur : Columns) : Except UpdateError (Option RouteWrite) → Phase
  | .ok (some w) => .toUpdate cur w
  | .ok none => .ended (.ok ())
  | .error e => .ended (.error (.route e))

/-- Where the checks of a create lead. -/
def insertPhase : Except CreateError Columns → Phase
  | .ok row => .toInsert row
  | .error e => .ended (.error e)

/-- The checks of an update, with the answer of the collision query. -/
def checkUpdate (rows : Table Nat Columns) (queryFails : Bool) (routeID : Nat) (call : Call)
    (cur : Columns) : Phase :=
  let port := call.input.upstreamPort.getD cur.upstreamPort
  let env := { call.env with portUsed := !queryFails && portTaken rows port routeID }
  updatePhase cur ({ call with env := env }.prepare cur)

def checkCreate (rows : Table Nat Columns) (queryFails : Bool) (clientID : Nat) (i : CreateInput)
    (env : CreateEnv) : Phase :=
  let port := (i.settle env.plan).upstreamPort
  insertPhase (prepareCreate clientID i env (!queryFails && portTaken rows port 0))

/-- The transaction of an update. -/
def State.commitUpdate (s : State ι) (c : ι) (routeID : Nat) (call : Call) (cur : Columns)
    (w : RouteWrite) : State ι :=
  match { call with env := { call.env with lockedRange := some s.range } }.commit cur w
      (s.rows.lookup routeID) with
  | .ok (row, _) => { s with rows := s.rows.insert routeID row }.setPhase c (.ended (.ok ()))
  | .error e => s.setPhase c (.ended (.error (.route e)))

/-- The rows without the one that the transaction of a create evicts. -/
def withoutEvicted (env : CreateEnv) (rows : Table Nat Columns) : Table Nat Columns :=
  match env.evicted with
  | some id => rows.erase id
  | none => rows

/-- The transaction of a create. -/
def State.commitInsert (s : State ι) (c : ι) (newID : Nat) (env : CreateEnv) (row : Columns) :
    State ι :=
  match commitCreate env s.range row with
  | .ok () =>
    { s with
      rows := (withoutEvicted env s.rows).insert newID row
      nextID := newID + 1 }.setPhase c (.ended (.ok ()))
  | .error e => s.setPhase c (.ended (.error e))

def step (calls : ι → Request) (s : State ι) : Event ι → Option (State ι)
  | .read c =>
    match calls c, s.phase c with
    | .update routeID _, .idle =>
      match s.rows.lookup routeID with
      | some cur => some (s.setPhase c (.read cur))
      | none => some (s.setPhase c (.ended (.error (.route .routeNotFound))))
    | _, _ => none
  | .check c queryFails =>
    match calls c, s.phase c with
    | .update routeID call, .read cur =>
      some (s.setPhase c (checkUpdate s.rows queryFails routeID call cur))
    | .create clientID input env, .idle =>
      some (s.setPhase c (checkCreate s.rows queryFails clientID input env))
    | _, _ => none
  | .commit c newID =>
    match calls c, s.phase c with
    | .update routeID call, .toUpdate cur w => some (s.commitUpdate c routeID call cur w)
    | .create _ _ env, .toInsert row =>
      -- ids grow and are never given out twice
      if s.nextID ≤ newID then some (s.commitInsert c newID env row) else none
    | _, _ => none
  | .delete routeID => some { s with rows := s.rows.erase routeID }
  | .resize range =>
    if routesOutsidePorts s.rows range = 0 then some { s with range := range } else none

/-! ### What a step does -/

/-- The row that an update has read. -/
def Phase.snapshot : Phase → Option Columns
  | .read cur | .toUpdate cur _ => some cur
  | _ => none

/-- All that a step can do to the service and its rows. -/
inductive Moves (calls : ι → Request) (s : State ι) : Event ι → State ι → Prop where
  /-- a call goes on; what it has read it keeps, or reads now -/
  | call (e : Event ι) (c : ι) (p : Phase)
      (hp : ∀ cur, p.snapshot = some cur → (s.phase c).snapshot = some cur ∨
        ∃ routeID call, calls c = .update routeID call ∧ s.rows.lookup routeID = some cur) :
      Moves calls s e (s.setPhase c p)
  | update (c : ι) (newID routeID : Nat) (call : Call) (cur row : Columns) (w : RouteWrite)
      (hc : calls c = .update routeID call) (hp : s.phase c = .toUpdate cur w)
      (hlock : checkLockedPort (some s.range) (w.state cur) = .ok ())
      (hrow : s.rows.lookup routeID = some row) :
      Moves calls s (.commit c newID)
        ({ s with rows := s.rows.insert routeID (w.store row) }.setPhase c (.ended (.ok ())))
  | insert (c : ι) (newID clientID : Nat) (i : CreateInput) (env : CreateEnv) (row : Columns)
      (hc : calls c = .create clientID i env) (hp : s.phase c = .toInsert row)
      (hid : s.nextID ≤ newID)
      (hlock : checkLockedPort (some s.range) (lockedState row) = .ok ()) :
      Moves calls s (.commit c newID) ({ s with
          rows := (withoutEvicted env s.rows).insert newID row
          nextID := newID + 1 }.setPhase c (.ended (.ok ())))
  | delete (routeID : Nat) : Moves calls s (.delete routeID) { s with rows := s.rows.erase routeID }
  | resize (range : Int × Int) (h : routesOutsidePorts s.rows range = 0) :
      Moves calls s (.resize range) { s with range := range }

lemma mapError_eq_ok {ε ε' α : Type} {x : Except ε α} {f : ε → ε'} {a : α} : x.mapError f = .ok a ↔ x = .ok a := by
  cases x <;> simp [Except.mapError]

variable {cur row' row cur' : Columns} {range : Int × Int} {newID routeID clientID id id' nextID : Nat}
  {rows : Table Nat Columns}

lemma commit_eq_ok {call : Call} {w : RouteWrite} {live : Option Columns}
    {changed : Bool} (h : call.commit cur w live = .ok (row', changed)) :
    checkLockedPort call.env.lockedRange (w.state cur) = .ok () ∧ ∃ row, live = some row ∧ row' = w.store row := by
  obtain ⟨_, hlock, h⟩ := bind_eq_ok.mp h
  refine ⟨hlock, ?_⟩
  cases live with
  | none => cases h
  | some row =>
    obtain ⟨-, -, h⟩ := bind_eq_ok.mp h
    cases h
    exact ⟨row, rfl, rfl⟩

lemma commitCreate_eq_ok {env : CreateEnv} (h : commitCreate env range row = .ok ()) :
    checkLockedPort (some range) (lockedState row) = .ok () := by
  obtain ⟨_, hlock, -⟩ := bind_eq_ok.mp h
  exact mapError_eq_ok.mp hlock

variable {calls : ι → Request} {s s' : State ι} {e : Event ι}

lemma updatePhase_snapshot {r : Except UpdateError (Option RouteWrite)}
    (h : (updatePhase cur r).snapshot = some cur') : cur' = cur := by
  rcases r with e | _ | w
  · cases h
  · cases h
  · cases h
    rfl

lemma insertPhase_snapshot (r : Except CreateError Columns) : (insertPhase r).snapshot = none := by
  cases r <;> rfl

lemma commitUpdate_moves {c : ι} {call : Call} {w : RouteWrite}
    (hc : calls c = .update routeID call) (hp : s.phase c = .toUpdate cur w) :
    Moves calls s (.commit c newID) (s.commitUpdate c routeID call cur w) := by
  unfold State.commitUpdate
  split
  · next row changed hok =>
    obtain ⟨hlock, row, hrow, rfl⟩ := commit_eq_ok hok
    exact .update c newID routeID call cur row w hc hp hlock hrow
  · exact .call _ c _ (by simp [Phase.snapshot])

lemma moves_of_step (h : step calls s e = some s') : Moves calls s e s' := by
  cases e with
  | read c =>
    simp only [step] at h
    split at h
    · next routeID call hc hp =>
      split at h
      · next cur hcur =>
        cases h
        refine .call _ c _ fun cur' hcur' => .inr ⟨routeID, call, hc, ?_⟩
        cases hcur'
        exact hcur
      · cases h
        exact .call _ c _ (by simp [Phase.snapshot])
    · cases h
  | check c queryFails =>
    simp only [step] at h
    split at h
    · next routeID call cur hc hp =>
      cases h
      refine .call _ c _ fun cur' hcur' => .inl ?_
      rw [updatePhase_snapshot hcur', hp]
      rfl
    · cases h
      exact .call _ c _ fun cur hcur => nomatch (insertPhase_snapshot _).symm.trans hcur
    · cases h
  | commit c newID =>
    simp only [step] at h
    split at h
    · next routeID call cur w hc hp =>
      cases h
      exact commitUpdate_moves hc hp
    · next clientID i env row hc hp =>
      split_ifs at h with hid
      cases h
      unfold State.commitInsert
      split
      · next hok => exact .insert c newID clientID i env row hc hp hid (commitCreate_eq_ok hok)
      · exact .call _ c _ (by simp [Phase.snapshot])
    · cases h
  | delete routeID =>
    cases h
    exact .delete routeID
  | resize range =>
    simp only [step] at h
    split_ifs at h with hout
    cases h
    exact .resize range hout

/-! ### The ports stay in the range -/

/-- The port of every row that dials lies in the range of the service. -/
def InRange (s : State ι) : Prop :=
  ∀ id row, s.rows.lookup id = some row → dials row →
    s.range.1 ≤ row.upstreamPort ∧ row.upstreamPort ≤ s.range.2

/-- No two rows that dial have the same port. -/
def Distinct (rows : Table Nat Columns) : Prop :=
  ∀ id id' row row', rows.lookup id = some row → rows.lookup id' = some row' →
    dials row → dials row' = true → row.upstreamPort = row'.upstreamPort → id = id'

lemma inRange_of_checkLockedPort {st : RouteState} (h : checkLockedPort (some range) st = .ok ()) (hd : st.dials) :
    range.1 ≤ st.upstreamPort ∧ st.upstreamPort ≤ range.2 := by
  simp only [checkLockedPort, hd, if_true, Bool.or_eq_true, decide_eq_true_eq] at h
  split_ifs at h with hout
  omega

lemma lookup_of_lookup_erase (h : (rows.erase id').lookup id = some row) : rows.lookup id = some row := by
  by_cases hid : id = id'
  · rw [hid, AList.lookup_erase] at h
    cases h
  · rwa [AList.lookup_erase_ne hid] at h

/-- A row of the table after a write is the row written or one from before. -/
lemma lookup_of_lookup_insert (h : (rows.insert id' row').lookup id = some row) :
    (id = id' ∧ row = row') ∨ (id ≠ id' ∧ rows.lookup id = some row) := by
  by_cases hid : id = id'
  · rw [hid, AList.lookup_insert] at h
    exact .inl ⟨hid, (Option.some.inj h).symm⟩
  · rw [AList.lookup_insert_ne hid] at h
    exact .inr ⟨hid, h⟩

/-- What every step keeps: ids have been given out, ports lie in the range, and an update has read
the row as it was created, in what decides whether it dials. -/
structure Sound (calls : ι → Request) (s : State ι) : Prop where
  below : ∀ id row, s.rows.lookup id = some row → id < s.nextID
  inRange : InRange s
  snapshot : ∀ c routeID call cur, calls c = .update routeID call →
    (s.phase c).snapshot = some cur →
      routeID < s.nextID ∧ ∀ row, s.rows.lookup routeID = some row → dials row = dials cur

lemma Sound.setPhase (hs : Sound calls s) {c : ι} {p : Phase}
    (hp : ∀ cur, p.snapshot = some cur → (s.phase c).snapshot = some cur ∨
      ∃ routeID call, calls c = .update routeID call ∧ s.rows.lookup routeID = some cur) :
    Sound calls (s.setPhase c p) where
  below := hs.below
  inRange := hs.inRange
  snapshot := by
    intro c' routeID call cur hc hcur
    by_cases h : c' = c
    · subst h
      simp only [State.setPhase, Function.update_self] at hcur
      rcases hp cur hcur with hold | ⟨routeID', call', hc', hrow⟩
      · exact hs.snapshot c' routeID call cur hc hold
      cases hc'.symm.trans hc
      refine ⟨hs.below routeID cur hrow, fun row hrow' => ?_⟩
      cases hrow.symm.trans hrow'
      rfl
    · simp only [State.setPhase, Function.update_of_ne h] at hcur
      exact hs.snapshot c' routeID call cur hc hcur

/-- A call that ends keeps what the others have read. -/
lemma Sound.end_call (hs : Sound calls s) (c : ι) (r : Except CreateError Unit) :
    Sound calls (s.setPhase c (.ended r)) :=
  hs.setPhase (by simp [Phase.snapshot])

omit [DecidableEq ι] in
lemma Sound.erase (hs : Sound calls s) (id : Nat) : Sound calls { s with rows := s.rows.erase id } where
  below := fun id row h => hs.below id row (lookup_of_lookup_erase h)
  inRange := fun id row h => hs.inRange id row (lookup_of_lookup_erase h)
  snapshot := fun c routeID call cur hc hcur =>
    ⟨(hs.snapshot c routeID call cur hc hcur).1, fun row h =>
      (hs.snapshot c routeID call cur hc hcur).2 row (lookup_of_lookup_erase h)⟩

omit [DecidableEq ι] in
lemma Sound.withoutEvicted (hs : Sound calls s) (env : CreateEnv) :
    Sound calls { s with rows := withoutEvicted env s.rows } := by
  unfold Ports.withoutEvicted
  split
  · exact hs.erase _
  · exact hs

omit [DecidableEq ι] in
/-- A write of a row that dials as before and whose port the lock has admitted. -/
lemma Sound.store (hs : Sound calls s) (hrow : s.rows.lookup id = some row) (hd : dials row' = dials row)
    (hin : dials row' = true → s.range.1 ≤ row'.upstreamPort ∧ row'.upstreamPort ≤ s.range.2) :
    Sound calls { s with rows := s.rows.insert id row' } where
  below := by
    intro id' row'' h
    rcases lookup_of_lookup_insert h with ⟨rfl, -⟩ | ⟨-, h⟩
    · exact hs.below id' row hrow
    · exact hs.below id' row'' h
  inRange := by
    intro id' row'' h
    rcases lookup_of_lookup_insert h with ⟨-, rfl⟩ | ⟨-, h⟩
    · exact hin
    · exact hs.inRange id' row'' h
  snapshot := by
    intro c routeID call cur hc hcur
    obtain ⟨hlt, hsame⟩ := hs.snapshot c routeID call cur hc hcur
    refine ⟨hlt, fun row'' h => ?_⟩
    rcases lookup_of_lookup_insert h with ⟨rfl, rfl⟩ | ⟨-, h⟩
    · rw [hd]
      exact hsame row hrow
    · exact hsame row'' h

omit [DecidableEq ι] in
/-- A new row under an id that no call has seen. -/
lemma Sound.insert (hs : Sound calls s) (hid : s.nextID ≤ id)
    (hin : dials row → s.range.1 ≤ row.upstreamPort ∧ row.upstreamPort ≤ s.range.2) :
    Sound calls { s with rows := s.rows.insert id row, nextID := id + 1 } where
  below := by
    intro id' row' h
    rcases lookup_of_lookup_insert h with ⟨rfl, -⟩ | ⟨-, h⟩
    · exact Nat.lt_succ_self id'
    · exact (hs.below id' row' h).trans_le (hid.trans (Nat.le_succ id))
  inRange := by
    intro id' row' h
    rcases lookup_of_lookup_insert h with ⟨-, rfl⟩ | ⟨-, h⟩
    · exact hin
    · exact hs.inRange id' row' h
  snapshot := by
    intro c routeID call cur hc hcur
    obtain ⟨hlt, hsame⟩ := hs.snapshot c routeID call cur hc hcur
    refine ⟨hlt.trans_le (hid.trans (Nat.le_succ id)), fun row' h => ?_⟩
    rcases lookup_of_lookup_insert h with ⟨rfl, -⟩ | ⟨-, h⟩
    · exact absurd hid (not_le.mpr hlt)
    · exact hsame row' h

lemma Sound.step (hs : Sound calls s) (h : step calls s e = some s') : Sound calls s' := by
  cases moves_of_step h with
  | call e c p hp => exact hs.setPhase hp
  | update c newID routeID call cur row w hc hp hlock hrow =>
    have hd : dials row = dials cur :=
      (hs.snapshot c routeID call cur hc (by rw [hp]; rfl)).2 row hrow
    have hstore : dials (w.store row) = dials row := rfl
    refine (hs.store hrow hstore fun hdials => ?_).end_call c _
    exact inRange_of_checkLockedPort hlock (hd.symm.trans hdials)
  | insert c newID clientID i env row hc hp hid hlock =>
    exact ((hs.withoutEvicted env).insert hid (inRange_of_checkLockedPort hlock)).end_call c _
  | delete routeID => exact hs.erase routeID
  | resize range hout =>
    refine ⟨hs.below, fun id row hrow hd => ?_, hs.snapshot⟩
    have hno := List.countP_eq_zero.mp hout _ (AList.mem_lookup_iff.mp (Option.mem_def.mpr hrow))
    simp only [hd, Bool.true_and, Bool.or_eq_true, decide_eq_true_eq] at hno ⊢
    omega

/-! ### No two rows get one port -/

/-- Another row that dials has the port. -/
def held (rows : Table Nat Columns) (port : Int) (routeID : Nat) : Bool :=
  rows.entries.any fun e => e.1 ≠ routeID && dials e.2 && e.2.upstreamPort = port

/-- A transaction that writes a row that dials finds its port free. -/
def FindsPortFree (calls : ι → Request) (s : State ι) : Event ι → Prop
  | .commit c newID =>
    match calls c, s.phase c with
    | .update routeID _, .toUpdate cur w =>
      dials cur → held s.rows w.upstreamPort routeID = false
    | .create _ _ env, .toInsert row =>
      dials row → held (withoutEvicted env s.rows) row.upstreamPort newID = false
    | _, _ => True
  | _ => True

lemma Distinct.erase (h : Distinct rows) (id : Nat) : Distinct (rows.erase id) :=
  fun id₁ id₂ row₁ row₂ h₁ h₂ =>
    h id₁ id₂ row₁ row₂ (lookup_of_lookup_erase h₁) (lookup_of_lookup_erase h₂)

lemma Distinct.withoutEvicted (h : Distinct rows) (env : CreateEnv) : Distinct (withoutEvicted env rows) := by
  unfold Ports.withoutEvicted
  split
  · exact h.erase _
  · exact h

lemma port_ne_of_held {port : Int} (h : held rows port id = false) (hrow : rows.lookup id' = some row) (hid : id' ≠ id)
    (hd : dials row) : row.upstreamPort ≠ port := by
  have hmem := AList.mem_lookup_iff.mp (Option.mem_def.mpr hrow)
  have hno := List.any_eq_false.mp h _ hmem
  simpa [hid, hd] using hno

lemma Distinct.insert (h : Distinct rows) (hfree : dials row → held rows row.upstreamPort id = false) :
    Distinct (rows.insert id row) := by
  intro id₁ id₂ row₁ row₂ h₁ h₂ hd₁ hd₂ hport
  rcases lookup_of_lookup_insert h₁ with ⟨hid₁, hrow₁⟩ | ⟨hne₁, hold₁⟩ <;>
    rcases lookup_of_lookup_insert h₂ with ⟨hid₂, hrow₂⟩ | ⟨hne₂, hold₂⟩
  · rw [hid₁, hid₂]
  · subst hrow₁
    exact absurd hport.symm (port_ne_of_held (hfree hd₁) hold₂ hne₂ hd₂)
  · subst hrow₂
    exact absurd hport (port_ne_of_held (hfree hd₂) hold₁ hne₁ hd₁)
  · exact h id₁ id₂ row₁ row₂ hold₁ hold₂ hd₁ hd₂ hport

lemma Distinct.step (hs : Sound calls s) (hdist : Distinct s.rows) (hfree : FindsPortFree calls s e)
    (h : step calls s e = some s') : Distinct s'.rows := by
  cases moves_of_step h with
  | call e c p hp => exact hdist
  | update c newID routeID call cur row w hc hp hlock hrow =>
    simp only [FindsPortFree, hc, hp] at hfree
    have hd : dials row = dials cur :=
      (hs.snapshot c routeID call cur hc (by rw [hp]; rfl)).2 row hrow
    have hstore : dials (w.store row) = dials row := rfl
    exact hdist.insert fun hdials => hfree (hd.symm.trans (hstore.symm.trans hdials))
  | insert c newID clientID i env row hc hp hid hlock =>
    simp only [FindsPortFree, hc, hp] at hfree
    exact (hdist.withoutEvicted env).insert hfree
  | delete routeID => exact hdist.erase routeID
  | resize range hout => exact hdist

/-- The service before any call. -/
def start (range : Int × Int) (rows : Table Nat Columns) (nextID : Nat) : State ι where
  range := range
  rows := rows
  nextID := nextID
  phase := fun _ => .idle

omit [DecidableEq ι] in
lemma sound_start (hbelow : ∀ id row, rows.lookup id = some row → id < nextID)
    (hrange : InRange (start range rows nextID : State ι)) : Sound calls (start range rows nextID) where
  below := hbelow
  inRange := hrange
  snapshot := fun _ _ _ _ _ hcur => nomatch hcur

/-- The ports of the rows that dial stay in the range whatever runs at once, and stay distinct when
every transaction finds the port that it is about to write free. -/
theorem ports_in_range_and_distinct {range : Int × Int} {rows : Table Nat Columns} {nextID : Nat}
    (hbelow : ∀ id row, rows.lookup id = some row → id < nextID)
    (hrange : InRange (start range rows nextID : State ι)) (hdist : Distinct rows) {events : List (Event ι)}
    (hrun : Runs.run (step calls) (start range rows nextID) events = some s) :
    InRange s ∧
      (Runs.Meets (step calls) (FindsPortFree calls) (start range rows nextID) events → Distinct s.rows) := by
  have hstart : Sound calls (start range rows nextID) := sound_start hbelow hrange
  refine ⟨(run_invariant (fun _ _ _ hs h => hs.step h) hstart hrun).inRange, fun hfree => ?_⟩
  refine (run_invariant_of_meets (I := fun s => Sound calls s ∧ Distinct s.rows)
    (fun t e t' ht hfree h => ?_) ⟨hstart, hdist⟩ hfree hrun).2
  exact ⟨ht.1.step h, ht.2.step ht.1 hfree h⟩

end Step

/-! ### Two creates with one port -/

/-- Two calls of a client for the same port of an empty service. -/
def twoCreates : Bool → Request := fun _ =>
  .create 7 { upstreamPort := 8080 } { ownerClient := 7, plan := ⟨8000, 8999, true, true, true⟩ }

/-- The same for two ports. -/
def twoPorts : Bool → Request := fun c =>
  .create 7 { upstreamPort := if c then 8080 else 8081 } { ownerClient := 7, plan := ⟨8000, 8999, true, true, true⟩ }

theorem ports_in_range_and_distinct_twoPorts :
    ∃ s, Runs.run (step twoPorts) (start (8000, 8999) ∅ 1)
        [.check true false, .check false false, .commit true 1, .commit false 2] = some s ∧
      (s.rows.lookup 1).isSome ∧ (s.rows.lookup 2).isSome ∧ InRange s ∧ Distinct s.rows := by
  have hrow : ∀ id (row : Columns), (∅ : Table Nat Columns).lookup id = some row → False :=
    fun id row h => nomatch h
  have hall := @ports_in_range_and_distinct Bool _ twoPorts _ (8000, 8999) ∅ 1
    (fun id row h => (hrow id row h).elim) (fun id row h => (hrow id row h).elim)
    (fun id _ row _ h => (hrow id row h).elim)
    [.check true false, .check false false, .commit true 1, .commit false 2] rfl
  exact ⟨_, rfl, rfl, rfl, hall.1, hall.2 ⟨trivial, trivial, fun _ => by decide, fun _ => by decide, trivial⟩⟩

/-- Both creates find the port free before either transaction, and both succeed. -/
theorem two_creates_take_one_port : ∃ s, Runs.run (step twoCreates) (start (8000, 8999) ∅ 1)
        [.check true false, .check false false, .commit true 1, .commit false 2] = some s ∧
      (∀ c, s.phase c = .ended (.ok ())) ∧ ¬ Distinct s.rows := by
  refine ⟨_, rfl, ?_, fun h => ?_⟩
  · rintro (_ | _)
    · rfl
    · rfl
  · have hids := h 1 2 _ _ rfl rfl rfl rfl rfl
    cases hids

end Routes.Ports
