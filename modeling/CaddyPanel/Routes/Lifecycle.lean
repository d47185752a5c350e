import CaddyPanel.Lib.Runs

/-!
# Route status (`advanceRoute`, `setServiceState`, `HostsToggle`, `HostsBulk`)

Four flows write `routes.status`: the DNS check that walks a route towards serving, the suspension
of the service that owns it, and the operator's toggle and bulk action. `disabled_reason` tells who
switched a route off. Each event below is one statement or one transaction of one flow, so a run is
an interleaving of any number of calls.
-/

namespace Lifecycle

open Function (update)

abbrev RouteId := Nat
abbrev ServiceId := Nat
abbrev CallId := Nat

inductive Status where
  | pendingDns
  | dnsOk
  | pendingSsl
  | active
  | failed
  | disabled
  deriving DecidableEq

/-- `servingStatuses`: what reaches, or is about to reach, a node's config. -/
def Status.serving : Status → Bool
  | .active | .dnsOk | .pendingSsl => true
  | _ => false

/-- What `Reconcile` picks up again. -/
def Status.stuck : Status → Bool
  | .pendingDns | .dnsOk | .pendingSsl | .failed => true
  | _ => false

inductive Reason where
  | serviceSuspended
  | serviceTerminated
  deriving DecidableEq

inductive ServiceStatus where
  | active
  | suspended
  | terminated
  deriving DecidableEq

structure Row where
  service : ServiceId
  status : Status
  disabledReason : Option Reason
  verified : Bool
  /-- an operator disabled the route and none has enabled it since -/
  operatorOff : Bool
  deriving DecidableEq

/-- Where a call stands between two of its statements. -/
inductive Call where
  /-- `advanceRoute` is about to run, for `VerifyDNS` or out of a `Reconcile` list -/
  | advance (id : RouteId)
  | looked (id : RouteId) (verified : Bool)
  /-- the service is not active, or could not be read -/
  | hold (id : RouteId)
  | servable (id : RouteId) (verified : Bool)
  | pushing (id : RouteId)
  /-- `HostsToggle` has read the status and picked the next one -/
  | toggle (id : RouteId) (next : Status)
  deriving DecidableEq

structure State where
  routes : RouteId → Option Row
  services : ServiceId → Option ServiceStatus
  calls : CallId → Option Call

/-- A panel starts on any tables, with no call in flight. -/
def State.load (routes : RouteId → Option Row) (services : ServiceId → Option ServiceStatus) :
    State where
  routes := fun id => (routes id).map fun row => { row with operatorOff := false }
  services := services
  calls := fun _ => none

inductive Event where
  | verifyDNS (c : CallId) (id : RouteId)
  | reconcile (c : CallId) (id : RouteId)
  | look (c : CallId)
  | gate (c : CallId) (readOk : Bool)
  | check (c : CallId) (dnsOk : Bool)
  | endPush (c : CallId) (pushOk : Bool)
  | proveDomain (id : RouteId)
  | setServiceState (sv : ServiceId) (target : ServiceStatus)
  | bulkDisable (id : RouteId)
  | bulkEnable (id : RouteId)
  | startToggle (c : CallId) (id : RouteId)
  | endToggle (c : CallId)

/-! ### The statements -/

/-- `UPDATE routes SET status = ?` by `advanceRoute`. -/
def Row.setStatus (st : Status) (row : Row) : Row :=
  { row with status := st }

/-- `advanceRoute` finds the service not active. -/
def Row.holdDisabled (row : Row) : Row :=
  if row.status ≠ .disabled then
    { row with status := .disabled, disabledReason := some .serviceSuspended }
  else row

/-- The operator's update: neither flow touches `disabled_reason`. -/
def Row.operatorSet (st : Status) (row : Row) : Row :=
  { row with status := st, operatorOff := st = .disabled }

def ServiceStatus.reason : ServiceStatus → Reason
  | .terminated => .serviceTerminated
  | _ => .serviceSuspended

/-- What `setServiceState` does to a route of the service. -/
def Row.serviceSet (target : ServiceStatus) (row : Row) : Row :=
  if target = .active then
    if row.status = .disabled ∧ row.disabledReason = some .serviceSuspended then
      { row with status := .active, disabledReason := none }
    else row
  else if row.status.serving then
    { row with status := .disabled, disabledReason := some target.reason }
  else row

def State.mapRow (s : State) (id : RouteId) (f : Row → Row) : State :=
  { s with routes := update s.routes id ((s.routes id).map f) }

def State.setCall (s : State) (c : CallId) (call : Option Call) : State :=
  { s with calls := update s.calls c call }

/-- The service of the route is there and active. -/
def State.serviceServing (s : State) (id : RouteId) : Bool :=
  (s.routes id).any fun row => s.services row.service = some .active

def step (s : State) : Event → Option State
  | .verifyDNS c id =>
    if s.calls c = none ∧ (s.routes id).isSome then some (s.setCall c (some (.advance id))) else none
  | .reconcile c id =>
    if s.calls c = none ∧ (s.routes id).any fun row => row.status.stuck then
      some (s.setCall c (some (.advance id)))
    else none
  | .look c =>
    match s.calls c with
    | some (.advance id) => some (s.setCall c ((s.routes id).map fun row => .looked id row.verified))
    | _ => none
  | .gate c readOk =>
    match s.calls c with
    | some (.looked id verified) =>
      if readOk ∧ s.serviceServing id then some (s.setCall c (some (.servable id verified)))
      else some (s.setCall c (some (.hold id)))
    | _ => none
  | .check c dnsOk =>
    match s.calls c with
    | some (.hold id) => some ((s.mapRow id Row.holdDisabled).setCall c none)
    | some (.servable id verified) =>
      if verified ∧ dnsOk then
        some ((s.mapRow id (Row.setStatus .dnsOk)).setCall c (some (.pushing id)))
      else some ((s.mapRow id (Row.setStatus .pendingDns)).setCall c none)
    | _ => none
  | .endPush c pushOk =>
    match s.calls c with
    | some (.pushing id) =>
      some ((s.mapRow id (Row.setStatus (if pushOk then .active else .failed))).setCall c none)
    | _ => none
  | .proveDomain id => some (s.mapRow id fun row => { row with verified := true })
  | .setServiceState sv target =>
    match s.services sv with
    | none => none
    | some cur =>
      if cur = .terminated ∨ (target = .active ∧ cur ≠ .suspended) then none
      else
        some { s with
          services := update s.services sv (some target)
          routes := fun id => (s.routes id).map fun row =>
            if row.service = sv then row.serviceSet target else row }
  | .bulkDisable id => some (s.mapRow id (Row.operatorSet .disabled))
  | .bulkEnable id => some (s.mapRow id (Row.operatorSet .pendingDns))
  | .startToggle c id =>
    match s.calls c, s.routes id with
    | none, some row => some (s.setCall c (some (.toggle id
        (if row.status = .disabled then .pendingDns else .disabled))))
    | _, _ => none
  | .endToggle c =>
    match s.calls c with
    | some (.toggle id next) => some ((s.mapRow id (Row.operatorSet next)).setCall c none)
    | _ => none

/-! ### The property and the condition -/

/-- No route an operator has switched off is in a serving status. -/
def OperatorOffHolds (s : State) : Prop :=
  ∀ id row, s.routes id = some row → row.operatorOff → row.status.serving = false

/-- The route the call is about to write is not disabled, where `advanceRoute` writes it, and does
not carry the reason of an earlier suspension, where the toggle disables it. -/
def Call.Clear (s : State) : Call → Prop
  | .servable id _ => ∀ row ∈ s.routes id, row.status ≠ .disabled
  | .pushing id => ∀ row ∈ s.routes id, row.status ≠ .disabled
  | .toggle id next => next = .disabled →
      ∀ row ∈ s.routes id, row.disabledReason ≠ some .serviceSuspended
  | _ => True

def WritesClear (s : State) : Event → Prop
  | .check c _ => ∀ call ∈ s.calls c, call.Clear s
  | .endPush c _ => ∀ call ∈ s.calls c, call.Clear s
  | .endToggle c => ∀ call ∈ s.calls c, call.Clear s
  | .bulkDisable id => ∀ row ∈ s.routes id, row.disabledReason ≠ some .serviceSuspended
  | _ => True

instance (s : State) : ∀ call : Call, Decidable (call.Clear s)
  | .servable id _ => inferInstanceAs (Decidable (∀ row ∈ s.routes id, _))
  | .pushing id => inferInstanceAs (Decidable (∀ row ∈ s.routes id, _))
  | .toggle id next => inferInstanceAs (Decidable (next = .disabled → ∀ row ∈ s.routes id, _))
  | .advance _ | .looked _ _ | .hold _ => .isTrue trivial

instance (s : State) : ∀ e : Event, Decidable (WritesClear s e)
  | .check c _ => inferInstanceAs (Decidable (∀ call ∈ s.calls c, call.Clear s))
  | .endPush c _ => inferInstanceAs (Decidable (∀ call ∈ s.calls c, call.Clear s))
  | .endToggle c => inferInstanceAs (Decidable (∀ call ∈ s.calls c, call.Clear s))
  | .bulkDisable id => inferInstanceAs (Decidable (∀ row ∈ s.routes id, _))
  | .verifyDNS .. | .reconcile .. | .look .. | .gate .. | .proveDomain .. | .setServiceState ..
  | .bulkEnable .. | .startToggle .. => .isTrue trivial

/-- A route an operator switched off is disabled, and not on account of a suspension. -/
def Row.Off (row : Row) : Prop :=
  row.operatorOff → row.status = .disabled ∧ row.disabledReason ≠ some .serviceSuspended

def Inv (s : State) : Prop :=
  ∀ id row, s.routes id = some row → row.Off

/-! ### What each statement does to a row -/

lemma Row.Off.holdDisabled {row : Row} (h : row.Off) : row.holdDisabled.Off := by
  unfold Row.holdDisabled
  split_ifs with hst
  · intro hoff
    exact absurd (h hoff).1 hst
  · exact h

lemma Row.Off.serviceSet {row : Row} (h : row.Off) (target : ServiceStatus) : (row.serviceSet target).Off := by
  unfold Row.serviceSet
  split_ifs with htarget hres hserv
  · intro hoff
    exact absurd hres.2 (h hoff).2
  · exact h
  · intro hoff
    rw [(h hoff).1] at hserv
    cases hserv
  · exact h

lemma Row.Off.setStatus {row : Row} (h : row.Off) (hst : row.status ≠ .disabled) (st : Status) :
    (row.setStatus st).Off := fun hoff => absurd (h hoff).1 hst

lemma Row.off_operatorSet {row : Row} {st : Status}
    (h : st = .disabled → row.disabledReason ≠ some .serviceSuspended) : (row.operatorSet st).Off := by
  intro hoff
  have hst : st = .disabled := of_decide_eq_true hoff
  exact ⟨hst, h hst⟩

/-! ### Each step keeps the invariant -/

lemma inv_load (routes : RouteId → Option Row) (services : ServiceId → Option ServiceStatus) :
    Inv (State.load routes services) := by
  intro id row hrow
  obtain ⟨row', -, rfl⟩ := Option.map_eq_some_iff.mp hrow
  intro hoff
  cases hoff

lemma Inv.mapRow {s : State} (hs : Inv s) {id : RouteId} {f : Row → Row}
    (hf : ∀ row, s.routes id = some row → row.Off → (f row).Off) : Inv (s.mapRow id f) := by
  intro id' row hrow
  obtain ⟨-, hrow⟩ | ⟨-, hrow⟩ := Runs.update_eq_some hrow
  · obtain ⟨row', hrow', rfl⟩ := Option.map_eq_some_iff.mp hrow
    exact hf row' hrow' (hs id row' hrow')
  · exact hs id' row hrow

lemma Inv.setCall {s : State} (hs : Inv s) (c : CallId) (call : Option Call) :
    Inv (s.setCall c call) := hs

theorem inv_step {s s' : State} {e : Event} (hs : Inv s) (hC : WritesClear s e) (h : step s e = some s') : Inv s' := by
  cases e with
  | verifyDNS c id | reconcile c id =>
    simp only [step] at h
    split_ifs at h
    cases h
    exact hs
  | look c | startToggle c id =>
    simp only [step] at h
    split at h
    · cases h
      exact hs
    · cases h
  | gate c readOk =>
    simp only [step] at h
    split at h
    · split_ifs at h
      · cases h
        exact hs
      · cases h
        exact hs
    · cases h
  | check c dnsOk =>
    simp only [step] at h
    split at h
    · cases h
      exact (hs.mapRow fun row _ hoff => hoff.holdDisabled).setCall _ _
    · next id verified hc =>
      have hclear := hC _ hc
      split_ifs at h
      · cases h
        exact (hs.mapRow fun row hrow hoff => hoff.setStatus (hclear row hrow) _).setCall _ _
      · cases h
        exact (hs.mapRow fun row hrow hoff => hoff.setStatus (hclear row hrow) _).setCall _ _
    · cases h
  | endPush c pushOk =>
    simp only [step] at h
    split at h
    · next id hc =>
      have hclear := hC _ hc
      cases h
      exact (hs.mapRow fun row hrow hoff => hoff.setStatus (hclear row hrow) _).setCall _ _
    · cases h
  | proveDomain id =>
    cases h
    exact hs.mapRow fun row _ hoff => hoff
  | setServiceState sv target =>
    simp only [step] at h
    split at h
    · cases h
    split_ifs at h
    cases h
    intro id row hrow
    obtain ⟨row', hrow', rfl⟩ := Option.map_eq_some_iff.mp hrow
    split_ifs
    · exact (hs id row' hrow').serviceSet target
    · exact hs id row' hrow'
  | bulkDisable id =>
    cases h
    exact hs.mapRow fun row hrow _ => Row.off_operatorSet fun _ => hC row hrow
  | bulkEnable id =>
    cases h
    exact hs.mapRow fun row _ _ => Row.off_operatorSet fun hst => by cases hst
  | endToggle c =>
    simp only [step] at h
    split at h
    · next id next hc =>
      have hclear := hC _ hc
      cases h
      exact (hs.mapRow fun row hrow _ =>
        Row.off_operatorSet fun hst => hclear hst row hrow).setCall _ _
    · cases h

/-- In every run in which `advanceRoute` writes no disabled route and an operator disables no route
that still carries the reason of a suspension, a route an operator switched off does not serve
before an operator switches it on. -/
theorem operator_off_holds {routes : RouteId → Option Row}
    {services : ServiceId → Option ServiceStatus} {s : State} {es : List Event}
    (hC : Runs.Meets step WritesClear (State.load routes services) es)
    (h : Runs.run step (State.load routes services) es = some s) : OperatorOffHolds s := by
  have hinv : Inv s :=
    Runs.run_invariant_of_meets (fun _ _ _ => inv_step) (inv_load routes services) hC h
  intro id row hrow hoff
  rw [(hinv id row hrow hoff).1]
  rfl

/-- One verified, active route of service 7. -/
def oneRoute (id : RouteId) : Option Row :=
  if id = 1 then some ⟨7, .active, none, true, false⟩ else none

/-- A suspension comes and goes, and the route an operator disabled before it stays off. -/
theorem operator_off_holds_run : ∃ s, Runs.run step (State.load oneRoute fun _ => some .active)
      [.startToggle 0 1, .endToggle 0, .setServiceState 7 .suspended, .setServiceState 7 .active] =
        some s ∧ s.routes 1 = some ⟨7, .disabled, none, true, true⟩ ∧ OperatorOffHolds s := by
  refine ⟨_, rfl, by decide, ?_⟩
  exact @operator_off_holds oneRoute (fun _ => some .active) _ [.startToggle 0 1, .endToggle 0,
    .setServiceState 7 .suspended, .setServiceState 7 .active] (by decide) rfl

/-- An operator disables a verified route and the client asks for a DNS check: `advanceRoute` never
looks at the status and walks the route back into serving. -/
theorem operator_off_undone_by_verify : ∃ s, Runs.run step (State.load oneRoute fun _ => some .active)
      [.bulkDisable 1, .verifyDNS 0 1, .look 0, .gate 0 true, .check 0 true, .endPush 0 true] =
        some s ∧ ¬OperatorOffHolds s := by
  refine ⟨_, rfl, fun h => ?_⟩
  exact absurd (h 1 _ rfl rfl) (by decide)

example : ∃ s, Runs.run step (State.load oneRoute fun _ => some .active)
      [.setServiceState 7 .suspended, .bulkDisable 1, .setServiceState 7 .active] = some s ∧
    s.routes 1 = some ⟨7, .active, none, true, true⟩ := ⟨_, rfl, by decide⟩

end Lifecycle
