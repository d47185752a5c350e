import CaddyPanel.Lib.Runs
import CaddyPanel.Lib.Text

/-!
# Requests with an idempotency key

The requests of one user with one key, running at the same time. Each one inserts a reservation, inspects the one that
is there already, or reclaims an expired one; who holds the reservation runs the handler and records the outcome or
drops the reservation. Every statement is a step, and its caller may get an error before or after it took effect. The
operation id of a request is the number it has here.
-/

namespace Idempotency

open Option Runs Text

/-- In seconds. -/
def idempotencyTTL : Nat := 24 * 60 * 60

def idemLease : Nat := 2 * 60

/-- What a handler answers; `headers` is `Header.Get`. -/
structure Response where
  status : Nat
  headers : Str → Str
  body : Str

/-- What is kept of it. -/
structure Stored where
  status : Nat
  headers : List (Str × Str)
  body : Str

def replayHeaders : List Str :=
  ["Content-Type", "Location", "X-Operation-Id"]

def captureHeaders (headers : Str → Str) : List (Str × Str) :=
  replayHeaders.filterMap fun k => if headers k ≠ [] then some (k, headers k) else none

def capture (r : Response) : Stored :=
  ⟨r.status, captureHeaders r.headers, r.body⟩

/-- Only a success or a conflict is cached. -/
def cacheable (r : Response) : Bool :=
  !(r.status < 200 || 300 ≤ r.status && r.status ≠ 409)

inductive RowState where
  | pending
  | done (outcome : Stored)
  | unresolved

@[ext]
structure Req (Body : Type) where
  method : Str
  path : Str
  body : Body

structure Row (Hash : Type) where
  method : Str
  path : Str
  bodyHash : Hash
  state : RowState
  operationID : Nat
  leaseUntil : Option Nat
  expiresAt : Nat

inductive Answer where
  | unavailable
  | reusedForDifferent
  | inProgress
  | unresolved (operationID : Nat)
  | replayed (outcome : Stored)
  | handled (r : Response)

/-- What a request does next. -/
inductive Phase where
  | insert
  | inspect
  | reclaim
  | handle
  | release (r : Response)
  | finalize (attempt : Nat) (r : Response)
  | markUnresolved (r : Response)
  | answered (a : Answer)

structure Call (Body : Type) where
  req : Req Body
  phase : Phase

/-- An execution whose outcome was cached. -/
structure Entry (Body : Type) where
  operationID : Nat
  req : Req Body
  response : Response

structure State (Body Hash : Type) where
  now : Nat
  row : Option (Row Hash)
  calls : Nat → Option (Call Body)
  cached : List (Entry Body)

/-- What the caller of a statement gets. -/
inductive Fault where
  | none
  | before
  | after
  deriving DecidableEq

inductive Action (Body : Type) where
  | submit (id : Nat) (req : Req Body)
  | insert (id : Nat) (fault : Fault)
  | inspect (id : Nat) (fails : Bool)
  | reclaim (id : Nat) (fault : Fault)
  | handle (id : Nat) (r : Response)
  | release (id : Nat) (fault : Fault)
  | finalize (id : Nat) (fault : Fault)
  | markUnresolved (id : Nat) (fault : Fault)
  /-- the panel goes down in the middle of a request -/
  | crash (id : Nat)
  | wait (time : Nat)
  | purgeExpired

section

variable {Body Hash : Type} (hash : Body → Hash)

def reserve (now id : Nat) (req : Req Body) : Row Hash :=
  { method := req.method, path := req.path, bodyHash := hash req.body, state := .pending, operationID := id,
    leaseUntil := some (now + idemLease), expiresAt := now + idempotencyTTL }

def Row.isPending (row : Row Hash) : Bool :=
  match row.state with
  | .pending => true
  | _ => false

/-- The statement of `markIdemUnresolved`. -/
def Row.unresolve (row : Row Hash) : Row Hash :=
  if row.isPending then { row with state := .unresolved, leaseUntil := none } else row

/-- The answer to a request that finds a row. -/
def inspect [DecidableEq Hash] (now : Nat) (req : Req Body) (row : Row Hash) : Answer :=
  if row.method ≠ req.method ∨ row.path ≠ req.path ∨ row.bodyHash ≠ hash req.body then .reusedForDifferent
  else
    match row.state with
    | .pending => if row.leaseUntil.any (now < ·) then .inProgress else .unresolved row.operationID
    | .unresolved => .unresolved row.operationID
    | .done outcome => .replayed outcome

def State.goto (s : State Body Hash) (id : Nat) (c : Call Body) (phase : Phase) : State Body Hash :=
  { s with calls := Function.update s.calls id (some { c with phase }) }

/-- The next phase after an attempt to finalize that failed. -/
def retry (attempt : Nat) (r : Response) : Phase :=
  if attempt = 0 then .finalize 1 r else .markUnresolved r

def stepCall [DecidableEq Hash] (s : State Body Hash) (id : Nat) (c : Call Body) : Action Body → Option (State Body Hash)
  | .insert _ fault =>
    match c.phase, s.row with
    | .insert, some _ => some (s.goto id c (if fault = .none then .inspect else .answered .unavailable))
    | .insert, none =>
      match fault with
      | .before => some (s.goto id c (.answered .unavailable))
      | .after => some ({ s with row := some (reserve hash s.now id c.req) }.goto id c (.answered .unavailable))
      | .none => some ({ s with row := some (reserve hash s.now id c.req) }.goto id c .handle)
    | _, _ => none
  | .inspect _ fails =>
    match c.phase with
    | .inspect =>
      if fails then some (s.goto id c (.answered .unavailable))
      else
        match s.row.filter fun row => s.now < row.expiresAt with
        | some row => some (s.goto id c (.answered (inspect hash s.now c.req row)))
        | none => some (s.goto id c .reclaim)
    | _ => none
  | .reclaim _ fault =>
    match c.phase with
    | .reclaim =>
      match s.row.filter fun row => row.expiresAt ≤ s.now with
      | none => some (s.goto id c (.answered (if fault = .none then .inProgress else .unavailable)))
      | some _ =>
        match fault with
        | .before => some (s.goto id c (.answered .unavailable))
        | .after => some ({ s with row := some (reserve hash s.now id c.req) }.goto id c (.answered .unavailable))
        | .none => some ({ s with row := some (reserve hash s.now id c.req) }.goto id c .handle)
    | _ => none
  | .handle _ r =>
    match c.phase with
    | .handle => some (s.goto id c (if cacheable r then .finalize 0 r else .release r))
    | _ => none
  | .release _ fault =>
    match c.phase with
    | .release r =>
      let row := if fault = .before then s.row else s.row.filter fun row => !row.isPending
      some ({ s with row }.goto id c (.answered (.handled r)))
    | _ => none
  | .finalize _ fault =>
    match c.phase with
    | .finalize attempt r =>
      if fault = .before then some (s.goto id c (retry attempt r))
      else
        match s.row.filter Row.isPending with
        | some row =>
          let row := { row with state := .done (capture r), leaseUntil := none, expiresAt := s.now + idempotencyTTL }
          let s := { s with row := some row, cached := ⟨id, c.req, r⟩ :: s.cached }
          some (s.goto id c (if fault = .none then .answered (.handled r) else retry attempt r))
        | none => some (s.goto id c (if fault = .none then .markUnresolved r else retry attempt r))
    | _ => none
  | .markUnresolved _ fault =>
    match c.phase with
    | .markUnresolved _ =>
      let row := if fault = .before then s.row else s.row.map Row.unresolve
      some ({ s with row }.goto id c (.answered (.unresolved id)))
    | _ => none
  | .crash _ => some { s with calls := Function.update s.calls id none }
  | _ => none

def Action.call : Action Body → Nat
  | .submit id _ | .insert id _ | .inspect id _ | .reclaim id _ | .handle id _ | .release id _ | .finalize id _
  | .markUnresolved id _ | .crash id => id
  | .wait _ | .purgeExpired => 0

def step [DecidableEq Hash] (s : State Body Hash) (a : Action Body) : Option (State Body Hash) :=
  match a with
  | .submit id req =>
    if (s.calls id).isSome then none else some { s with calls := Function.update s.calls id (some ⟨req, .insert⟩) }
  | .wait time => some { s with now := s.now + time }
  | .purgeExpired => some { s with row := s.row.filter fun row => s.now ≤ row.expiresAt }
  | a => (s.calls a.call).bind fun c => stepCall hash s a.call c a

def start : State Body Hash := ⟨0, none, fun _ => none, []⟩

/-! ### The reservation and its holder -/

/-- The request has taken the reservation and has not given it back. -/
def Phase.holds : Phase → Bool
  | .handle | .release _ | .finalize _ _ | .markUnresolved _ => true
  | _ => false

def Matches (row : Row Hash) (req : Req Body) : Prop :=
  row.method = req.method ∧ row.path = req.path ∧ row.bodyHash = hash req.body

/-- The two requests are not told apart. -/
def Same (req req' : Req Body) : Prop :=
  req.method = req'.method ∧ req.path = req'.path ∧ hash req.body = hash req'.body

/-- A cached outcome is the one of the row, and the row is for the request that was executed. -/
def Recorded (s : State Body Hash) : Prop :=
  (∃ e row, s.cached = [e] ∧ s.row = some row ∧ row.state = .done (capture e.response) ∧ Matches hash row e.req) ∨
    s.cached = [] ∧ ∀ row outcome, s.row = some row → row.state ≠ .done outcome

/-- Every request that is served or was executed has been submitted: `P` holds of it. -/
structure Inv (P : Req Body → Prop) (s : State Body Hash) : Prop where
  holder : ∀ id c, s.calls id = some c → c.phase.holds →
    ∃ row, s.row = some row ∧ row.operationID = id ∧ Matches hash row c.req
  recorded : Recorded hash s
  replayed : ∀ id c outcome, s.calls id = some c → c.phase = .answered (.replayed outcome) →
    ∃ e, s.cached = [e] ∧ outcome = capture e.response ∧ Same hash c.req e.req
  submitted : ∀ id c, s.calls id = some c → P c.req
  executed : ∀ e ∈ s.cached, P e.req

variable {hash} {P : Req Body → Prop} {s s' : State Body Hash} {id : Nat} {c : Call Body} {a : Action Body}

variable {phase : Phase} {row' row : Option (Row Hash)}

lemma calls_goto {id' : Nat} {c' : Call Body} (h : (s.goto id c phase).calls id' = some c') :
    (id' = id ∧ c' = { c with phase }) ∨ (id' ≠ id ∧ s.calls id' = some c') :=
  (update_eq_some h).imp_left fun ⟨hid, hc⟩ => ⟨hid, (Option.some.inj hc).symm⟩

lemma Inv.submitted_goto (h : Inv hash P s) (hc : P c.req) {id' : Nat} {c' : Call Body}
    (hc' : (s.goto id c phase).calls id' = some c') : P c'.req := by
  rcases calls_goto hc' with ⟨rfl, rfl⟩ | ⟨-, hc'⟩
  · exact hc
  · exact h.submitted id' c' hc'

/-- A request goes on and leaves the row as it is. -/
lemma Inv.move (h : Inv hash P s) (hc : P c.req)
    (hholds : phase.holds → ∃ row, s.row = some row ∧ row.operationID = id ∧ Matches hash row c.req)
    (hreplayed : ∀ outcome, phase = .answered (.replayed outcome) →
      ∃ e, s.cached = [e] ∧ outcome = capture e.response ∧ Same hash c.req e.req) : Inv hash P (s.goto id c phase) := by
  refine ⟨fun id' c' hc' hp => ?_, h.recorded, fun id' c' outcome hc' hp => ?_, fun _ _ => h.submitted_goto hc,
    h.executed⟩
  · rcases calls_goto hc' with ⟨rfl, rfl⟩ | ⟨-, hc'⟩
    · exact hholds hp
    · exact h.holder id' c' hc' hp
  · rcases calls_goto hc' with ⟨rfl, rfl⟩ | ⟨-, hc'⟩
    · exact hreplayed outcome hp
    · exact h.replayed id' c' outcome hc' hp

lemma Inv.goto (h : Inv hash P s) (hc : s.calls id = some c) (hholds : phase.holds → c.phase.holds)
    (hreplayed : ∀ outcome, phase = .answered (.replayed outcome) →
      ∃ e, s.cached = [e] ∧ outcome = capture e.response ∧ Same hash c.req e.req) : Inv hash P (s.goto id c phase) :=
  h.move (h.submitted id c hc) (fun hp => h.holder id c hc (hholds hp)) hreplayed

/-- A request takes the reservation where there is none. -/
lemma Inv.claim (h : Inv hash P s) (hc : s.calls id = some c) (hrow : s.row = none)
    (hphase : ∀ outcome, phase ≠ .answered (.replayed outcome)) :
    Inv hash P ({ s with row := some (reserve hash s.now id c.req) }.goto id c phase) := by
  have hcached : s.cached = [] := by
    rcases h.recorded with ⟨e, row, -, hsome, -⟩ | ⟨hcached, -⟩
    · rw [hrow] at hsome
      cases hsome
    · exact hcached
  refine ⟨fun id' c' hc' hp => ?_, .inr ⟨hcached, ?_⟩, fun id' c' outcome hc' hp => ?_,
    fun _ _ => h.submitted_goto (h.submitted id c hc), h.executed⟩
  · rcases calls_goto hc' with ⟨rfl, rfl⟩ | ⟨-, hc'⟩
    · exact ⟨_, rfl, rfl, rfl, rfl, rfl⟩
    obtain ⟨row, hsome, -⟩ := h.holder id' c' hc' hp
    rw [hrow] at hsome
    cases hsome
  · rintro row outcome ⟨⟩ ⟨⟩
  · rcases calls_goto hc' with ⟨rfl, rfl⟩ | ⟨-, hc'⟩
    · exact absurd hp (hphase outcome)
    · exact h.replayed id' c' outcome hc' hp

/-- Requests may go away at any time. -/
lemma Inv.of_calls (h : Inv hash P s) {calls : Nat → Option (Call Body)}
    (hcalls : ∀ id c, calls id = some c → s.calls id = some c) : Inv hash P { s with calls } :=
  ⟨fun id c hc => h.holder id c (hcalls id c hc), h.recorded, fun id c outcome hc =>
    h.replayed id c outcome (hcalls id c hc), fun id c hc => h.submitted id c (hcalls id c hc), h.executed⟩

/-- What a request is answered from the row is the outcome that was cached for it. -/
lemma Inv.replay (h : Inv hash P s) {row : Row Hash} {outcome : Stored} {req : Req Body} (hrow : s.row = some row)
    (hstate : row.state = .done outcome) (hmatch : Matches hash row req) :
    ∃ e, s.cached = [e] ∧ outcome = capture e.response ∧ Same hash req e.req := by
  rcases h.recorded with ⟨e, row₀, hcached, hrow₀, hstate₀, hm, hp, hb⟩ | ⟨-, hnone⟩
  · rw [hrow] at hrow₀
    cases hrow₀
    rw [hstate] at hstate₀
    cases hstate₀
    obtain ⟨hm', hp', hb'⟩ := hmatch
    exact ⟨e, hcached, rfl, hm'.symm.trans hm, hp'.symm.trans hp, hb'.symm.trans hb⟩
  · exact absurd hstate (hnone row outcome hrow)

/-- The holder of the reservation changes the row; nobody else holds it. -/
lemma Inv.write (h : Inv hash P s) (hc : s.calls id = some c) (hheld : c.phase.holds)
    {cached' : List (Entry Body)} (hrecorded : Recorded hash { s with row := row', cached := cached' })
    (hcached : ∀ e, s.cached = [e] → cached' = [e]) (hexecuted : ∀ e ∈ cached', e ∈ s.cached ∨ e.req = c.req)
    (hphase : ∀ outcome, phase ≠ .answered (.replayed outcome))
    (hholds : phase.holds → ∃ row, row' = some row ∧ row.operationID = id ∧ Matches hash row c.req) :
    Inv hash P ({ s with row := row', cached := cached' }.goto id c phase) := by
  obtain ⟨row, hrow, hid, -⟩ := h.holder id c hc hheld
  have hreq := h.submitted id c hc
  refine ⟨fun id' c' hc' hp => ?_, hrecorded, fun id' c' outcome hc' hp => ?_, fun _ _ => h.submitted_goto hreq,
    fun e he => (hexecuted e he).elim (h.executed e) fun heq => heq ▸ hreq⟩
  · rcases calls_goto hc' with ⟨rfl, rfl⟩ | ⟨hne, hc'⟩
    · exact hholds hp
    obtain ⟨row₂, hrow₂, hid₂, -⟩ := h.holder id' c' hc' hp
    rw [hrow] at hrow₂
    cases hrow₂
    exact absurd (hid₂.symm.trans hid) hne
  · rcases calls_goto hc' with ⟨rfl, rfl⟩ | ⟨-, hc'⟩
    · exact absurd hp (hphase outcome)
    · obtain ⟨e, he, hout, hsame⟩ := h.replayed id' c' outcome hc' hp
      exact ⟨e, hcached e he, hout, hsame⟩

lemma isPending_iff {row : Row Hash} : row.isPending ↔ row.state = .pending := by
  simp only [Row.isPending]
  split <;> simp_all

/-- What is recorded does not depend on a reservation that is not done. -/
lemma Recorded.of_undone (h : Recorded hash s)
    (hkeep : ∀ row, s.row = some row → row.isPending = false → row' = some row)
    (hundone : ∀ row outcome, row' = some row → row.state = .done outcome → s.row = some row) :
    Recorded hash { s with row := row' } := by
  rcases h with ⟨e, row, hcached, hrow, hstate, hmatch⟩ | ⟨hcached, hnone⟩
  · refine .inl ⟨e, row, hcached, hkeep row hrow ?_, hstate, hmatch⟩
    simp [Row.isPending, hstate]
  · exact .inr ⟨hcached, fun row outcome hrow hstate => hnone row outcome (hundone row outcome hrow hstate) hstate⟩

lemma Inv.release (h : Inv hash P s) (hc : s.calls id = some c) (hheld : c.phase.holds) (r : Response) :
    Inv hash P ({ s with row := s.row.filter fun row => !row.isPending }.goto id c (.answered (.handled r))) := by
  refine h.write hc hheld (h.recorded.of_undone (fun row hrow hpending => ?_) fun row outcome hrow _ => ?_)
    (fun e he => he) (fun e he => .inl he) nofun nofun
  · simp [hrow, hpending]
  · exact (filter_eq_some_iff.mp hrow).1

lemma Inv.markUnresolved (h : Inv hash P s) (hc : s.calls id = some c) (hheld : c.phase.holds) (opID : Nat) :
    Inv hash P ({ s with row := s.row.map Row.unresolve }.goto id c (.answered (.unresolved opID))) := by
  refine h.write hc hheld (h.recorded.of_undone (fun row hrow hpending => ?_) fun row outcome hrow hstate => ?_)
    (fun e he => he) (fun e he => .inl he) nofun nofun
  · simp [hrow, Row.unresolve, hpending]
  obtain ⟨row₀, hrow₀, rfl⟩ := map_eq_some_iff.mp hrow
  simp only [Row.unresolve] at hstate ⊢
  split at hstate
  · cases hstate
  · next hpending => rw [if_neg hpending, hrow₀]

/-- The first outcome is recorded, with the request that it is for. -/
lemma Inv.finalize (h : Inv hash P s) (hc : s.calls id = some c) (hheld : c.phase.holds) {row : Row Hash}
    (hrow : s.row = some row) (hpending : row.isPending) (r : Response)
    (hphase : ∀ outcome, phase ≠ .answered (.replayed outcome)) (expiresAt : Nat) :
    Inv hash P ({ s with
      row := some { row with state := .done (capture r), leaseUntil := none, expiresAt }
      cached := ⟨id, c.req, r⟩ :: s.cached }.goto id c phase) := by
  have hcached : s.cached = [] := by
    rcases h.recorded with ⟨e, row₀, -, hrow₀, hstate, -⟩ | ⟨hcached, -⟩
    · rw [hrow] at hrow₀
      cases hrow₀
      rw [isPending_iff.mp hpending] at hstate
      cases hstate
    · exact hcached
  obtain ⟨row₀, hrow₀, hid, hmatch⟩ := h.holder id c hc hheld
  rw [hrow] at hrow₀
  cases hrow₀
  refine h.write hc hheld (.inl ⟨⟨id, c.req, r⟩, _, by rw [hcached], rfl, rfl, hmatch⟩) (fun e he => ?_)
    (fun e he => (List.mem_cons.mp he).elim (fun heq => .inr (by rw [heq])) .inl) hphase fun _ => ⟨_, rfl, hid, hmatch⟩
  rw [hcached] at he
  cases he

/-! ### Every step, within the lifetime of the key -/

/-- No row expires. -/
def Alive (s : State Body Hash) : Prop :=
  ∀ row, s.row = some row → s.now < row.expiresAt

lemma retry_ne (attempt : Nat) (r : Response) (a : Answer) : retry attempt r ≠ .answered a := by
  rw [retry]
  split <;> nofun

variable [DecidableEq Hash]

lemma inspect_replayed {now : Nat} {req : Req Body} {row : Row Hash} {outcome : Stored}
    (h : inspect hash now req row = .replayed outcome) : row.state = .done outcome ∧ Matches hash row req := by
  simp only [inspect] at h
  split at h
  · cases h
  rename_i hsame
  simp only [not_or, not_not] at hsame
  split at h
  · split at h <;> cases h
  · cases h
  rename_i o ho
  cases h
  exact ⟨ho, hsame⟩

lemma Inv.stepCall (h : Inv hash P s) (halive : Alive s) (hc : s.calls id = some c)
    (hstep : stepCall hash s id c a = some s') : Inv hash P s' := by
  cases a with
  | submit id' req => cases hstep
  | insert id' fault =>
    simp only [Idempotency.stepCall] at hstep
    split at hstep
    · cases hstep
      refine h.goto hc ?_ ?_ <;> split <;> nofun
    · next hrow =>
      cases fault <;> cases hstep
      · exact h.claim hc hrow nofun
      · exact h.goto hc nofun nofun
      · exact h.claim hc hrow nofun
    · cases hstep
  | inspect id' fails =>
    simp only [Idempotency.stepCall] at hstep
    split at hstep
    · split at hstep
      · cases hstep
        exact h.goto hc nofun nofun
      split at hstep
      · next row hrow =>
        cases hstep
        refine h.goto hc nofun fun outcome hout => ?_
        simp only [Phase.answered.injEq] at hout
        obtain ⟨hstate, hmatch⟩ := inspect_replayed hout
        exact h.replay (filter_eq_some_iff.mp hrow).1 hstate hmatch
      · cases hstep
        exact h.goto hc nofun nofun
    · cases hstep
  | reclaim id' fault =>
    -- a row that has not expired is not taken over
    have hnone : (s.row.filter fun row => decide (row.expiresAt ≤ s.now)) = none := by
      refine filter_eq_none_iff.mpr fun row hrow => ?_
      simpa using halive row hrow
    simp only [Idempotency.stepCall] at hstep
    split at hstep
    · rw [hnone] at hstep
      cases hstep
      refine h.goto hc nofun ?_
      split <;> nofun
    · cases hstep
  | handle id' r =>
    simp only [Idempotency.stepCall] at hstep
    split at hstep
    · next hphase =>
      cases hstep
      refine h.goto hc (fun _ => by rw [hphase]; rfl) ?_
      split <;> nofun
    · cases hstep
  | release id' fault =>
    simp only [Idempotency.stepCall] at hstep
    split at hstep
    · next r hphase =>
      cases hstep
      split
      · exact h.goto hc nofun nofun
      · exact h.release hc (by rw [hphase]; rfl) r
    · cases hstep
  | finalize id' fault =>
    simp only [Idempotency.stepCall] at hstep
    split at hstep
    · next attempt r hphase =>
      have hheld : c.phase.holds := by rw [hphase]; rfl
      split at hstep
      · cases hstep
        exact h.goto hc (fun _ => hheld) fun outcome hout => absurd hout (retry_ne attempt r _)
      split at hstep
      · next row hrow =>
        cases hstep
        obtain ⟨hrow, hpending⟩ := filter_eq_some_iff.mp hrow
        refine h.finalize hc hheld hrow hpending r (fun outcome => ?_) _
        split
        · nofun
        · exact retry_ne attempt r _
      · cases hstep
        refine h.goto hc (fun _ => hheld) fun outcome hout => ?_
        split at hout
        · cases hout
        · exact absurd hout (retry_ne attempt r _)
    · cases hstep
  | markUnresolved id' fault =>
    simp only [Idempotency.stepCall] at hstep
    split at hstep
    · next r hphase =>
      cases hstep
      split
      · exact h.goto hc nofun nofun
      · exact h.markUnresolved hc (by rw [hphase]; rfl) id
    · cases hstep
  | crash id' =>
    cases hstep
    exact h.of_calls fun _ _ hc => ((update_eq_some hc).resolve_left nofun).2
  | wait time => cases hstep
  | purgeExpired => cases hstep

theorem Inv.step (h : Inv hash P s) (halive : Alive s) (hsubmit : ∀ id req, a = .submit id req → P req)
    (hstep : step hash s a = some s') : Inv hash P s' := by
  have hother : (s.calls a.call).bind (fun c => Idempotency.stepCall hash s a.call c a) = some s' → Inv hash P s' := by
    intro hstep
    obtain ⟨c, hc, hstep⟩ := bind_eq_some_iff.mp hstep
    exact h.stepCall halive hc hstep
  cases a with
  | submit id req =>
    simp only [Idempotency.step] at hstep
    split at hstep
    · cases hstep
    rename_i hfresh
    cases hstep
    have hmove : Inv hash P (s.goto id ⟨req, .insert⟩ .insert) := h.move (hsubmit id req rfl) nofun nofun
    exact hmove
  | wait time =>
    cases hstep
    exact ⟨h.holder, h.recorded, h.replayed, h.submitted, h.executed⟩
  | purgeExpired =>
    have hrow : (s.row.filter fun row => decide (s.now ≤ row.expiresAt)) = s.row := by
      cases hs : s.row with
      | none => rfl
      | some row => simp [Nat.le_of_lt (halive row hs)]
    cases hstep
    rw [hrow]
    exact h
  | insert _ _ | inspect _ _ | reclaim _ _ | handle _ _ | release _ _ | finalize _ _ | markUnresolved _ _ | crash _ =>
    exact hother hstep

/-- Within the lifetime of the key at most one outcome is cached, and a replayed answer is that outcome, given to the
request it is for. The hash is assumed to tell the submitted bodies apart. -/
theorem replayed_of_cached (hash : Body → Hash) (as : List (Action Body)) (s : State Body Hash)
    (hhash : ∀ id req id' req', Action.submit id req ∈ as → Action.submit id' req' ∈ as →
      hash req.body = hash req'.body → req.body = req'.body)
    (halive : Runs.Meets (Idempotency.step hash) (fun s _ => Alive s) start as)
    (h : Runs.run (Idempotency.step hash) start as = some s) :
    s.cached.length ≤ 1 ∧
      ∀ id c outcome, s.calls id = some c → c.phase = .answered (.replayed outcome) →
        ∃ e ∈ s.cached, outcome = capture e.response ∧ c.req = e.req := by
  have hinv : Inv hash (fun req => ∃ id, Action.submit id req ∈ as) s := by
    refine run_invariant_of_meets (fun s a s' hs ha => hs.step ha.1 fun id req hreq => ⟨id, hreq ▸ ha.2⟩) ?_
      (halive.and (meets_of_forall_mem (C := fun a => a ∈ as) fun a ha => ha)) h
    exact ⟨fun id c hc => (nomatch hc), .inr ⟨rfl, nofun⟩, fun id c outcome hc => (nomatch hc),
      fun id c hc => (nomatch hc), fun e he => (nomatch he)⟩
  constructor
  · rcases hinv.recorded with ⟨e, row, hcached, -⟩ | ⟨hcached, -⟩ <;> simp [hcached]
  intro id c outcome hc hphase
  obtain ⟨e, hcached, hout, hmethod, hpath, hbody⟩ := hinv.replayed id c outcome hc hphase
  have he : e ∈ s.cached := hcached ▸ List.mem_singleton_self e
  obtain ⟨id₁, h₁⟩ := hinv.submitted id c hc
  obtain ⟨id₂, h₂⟩ := hinv.executed e he
  refine ⟨e, he, hout, ?_⟩
  exact Req.ext hmethod hpath (hhash id₁ c.req id₂ e.req h₁ h₂ hbody)

end

/-- A create whose answer is lost, and its retry. -/
def retried : List (Action Str) :=
  [.submit 1 ⟨"POST", "/api/v1/services", "a"⟩, .insert 1 .none,
    .handle 1 ⟨201, fun _ => [], "created"⟩, .finalize 1 .after, .finalize 1 .none, .markUnresolved 1 .none,
    .submit 2 ⟨"POST", "/api/v1/services", "a"⟩, .insert 2 .none, .inspect 2 false]

instance {Body Hash : Type} (s : State Body Hash) : Decidable (Alive s) :=
  match h : s.row with
  | none => .isTrue (by simp [Alive, h])
  | some row => decidable_of_iff (s.now < row.expiresAt) (by simp [Alive, h])

theorem replayed_of_cached_retried :
    ∃ s, Runs.run (step (fun b : Str => b)) start retried = some s ∧ s.cached.length ≤ 1 ∧
      ∀ id c outcome, s.calls id = some c → c.phase = .answered (.replayed outcome) →
        ∃ e ∈ s.cached, outcome = capture e.response ∧ c.req = e.req :=
  ⟨_, rfl, replayed_of_cached (fun b : Str => b) retried _ (fun _ _ _ _ _ _ h => h) (by decide +kernel) rfl⟩

end Idempotency
