import CaddyPanel.Lib.Rows
import CaddyPanel.Lib.Runs
import CaddyPanel.Lib.Text

/-!
# Reseller packages (`internal/quota/quota.go`)

A reseller's package limits the services and the routes of its clients. Without overselling the capacity
of a package is given out with the plans of the services, and a route is then bounded by its service's
plan; services on plans of kind `npm` are not given capacity, their routes are counted. Any query of a
check can fail.
-/

namespace Quota

open Text (Str)

inductive PlanKind where
  | restricted
  | npm
  deriving DecidableEq

structure Plan where
  id : ℕ
  name : Str
  kind : PlanKind
  maxDomains : ℕ
  nodeGroupID : ℕ

/-- A row of `reseller_plans`; a limit of 0 is no limit. -/
structure ResellerPlan where
  id : ℕ
  maxServicesTotal : ℕ
  maxDomainsTotal : ℕ

structure Reseller where
  id : ℕ
  planID : Option ℕ
  oversellingAllowed : Bool

structure Client where
  id : ℕ
  resellerID : Option ℕ

structure Service where
  id : ℕ
  clientID : ℕ
  planID : ℕ
  deriving DecidableEq

structure Route where
  id : ℕ
  serviceID : ℕ
  deriving DecidableEq

/-- The tables that the creations read and do not write. -/
structure Tenants where
  resellers : Rows Reseller.id
  resellerPlans : Rows ResellerPlan.id
  clients : Rows Client.id
  plans : Rows Plan.id

/-- The services and their routes; each route has its service. -/
structure State where
  services : Rows Service.id
  routes : Rows Route.id
  hasService : ∀ r ∈ routes, ∃ sv ∈ services, sv.id = r.serviceID

/-! ### Queries -/

inductive Query where
  | clientReseller
  | reseller
  | resellerPlan
  | serviceCount
  | planAlloc
  | allocationSum
  | movingCount
  | servicePlanKind
  | routeCount
  | planRouteCount
  | lockService
  | lockReseller
  | serviceLookup
  | planLookup
  | beginTx
  | write
  deriving DecidableEq

inductive QuotaError where
  /-- `ErrServiceQuota` -/
  | service
  /-- `ErrDomainQuota` -/
  | domain
  | lookup (q : Query)
  deriving DecidableEq

/-- Which queries fail. -/
abbrev Failures := Query → Bool

def noFailures : Failures := fun _ => false

def query {α : Type} (fails : Failures) (q : Query) (answer : α) : Except QuotaError α :=
  if fails q then .error (.lookup q) else .ok answer

/-- A query for one row, which is an error where there is none. -/
def queryRow {α : Type} (fails : Failures) (q : Query) (answer : Option α) : Except QuotaError α :=
  match answer with
  | some a => query fails q a
  | none => .error (.lookup q)

section Checks

variable (fails : Failures) (t : Tenants) (s : State)

def Tenants.resellerOf (t : Tenants) (clientID : ℕ) : Option ℕ :=
  (t.clients.lookup clientID).bind (·.resellerID)

/-- Whether the service is one of the reseller's. -/
def owned (t : Tenants) (resellerID : ℕ) (sv : Service) : Bool :=
  t.resellerOf sv.clientID = some resellerID

def resellerServices (resellerID : ℕ) : List Service :=
  s.services.rows.filter (owned t resellerID)

/-- The capacity a service was given. -/
def alloc (t : Tenants) (sv : Service) : ℕ :=
  match t.plans.lookup sv.planID with
  | some p => if p.kind = .npm then 0 else p.maxDomains
  | none => 0

def allocated (resellerID : ℕ) : ℕ :=
  ((resellerServices t s resellerID).map (alloc t)).sum

def routesOf (serviceID : ℕ) : ℕ :=
  s.routes.rows.countP fun r => r.serviceID = serviceID

/-- All routes under one reseller. -/
def resellerRoutes (resellerID : ℕ) : ℕ :=
  s.routes.rows.countP fun r => (s.services.lookup r.serviceID).any (owned t resellerID)

structure Limits where
  maxServices : ℕ
  maxDomains : ℕ
  overselling : Bool

/-- The package of a reseller; `none` is "not limited". -/
def Tenants.limits (t : Tenants) (resellerID : ℕ) : Option Limits :=
  if resellerID = 0 then none
  else do
    let r ← t.resellers.lookup resellerID
    let planID ← r.planID
    let p ← t.resellerPlans.lookup planID
    return ⟨p.maxServicesTotal, p.maxDomainsTotal, r.oversellingAllowed⟩

/-- `limitsOn`, with its queries. -/
def limitsOn (resellerID : ℕ) : Except QuotaError (Option Limits) :=
  if resellerID = 0 then .ok none
  else do
    match ← query fails .reseller (t.resellers.lookup resellerID) with
    | none => return none
    | some r =>
      match r.planID with
      | none => return none
      | some planID =>
        let p ← query fails .resellerPlan (t.resellerPlans.lookup planID)
        return p.map fun p => ⟨p.maxServicesTotal, p.maxDomainsTotal, r.oversellingAllowed⟩

def checkServiceCount (l : Limits) (resellerID : ℕ) : Except QuotaError Unit :=
  if l.maxServices = 0 then .ok ()
  else do
    let n ← query fails .serviceCount (resellerServices t s resellerID).length
    if l.maxServices ≤ n then .error .service else .ok ()

/-- Whether the capacity of the plan is left. -/
def checkAllocation (l : Limits) (resellerID planID : ℕ) : Except QuotaError Unit :=
  if l.overselling ∨ l.maxDomains = 0 then .ok ()
  else do
    let p ← queryRow fails .planAlloc (t.plans.lookup planID)
    if p.kind = .npm then .ok ()
    else if p.maxDomains = 0 then .error .domain
    else
      let sum ← query fails .allocationSum (allocated t s resellerID)
      if l.maxDomains < sum + p.maxDomains then .error .domain else .ok ()

def canCreateService (resellerID planID : ℕ) : Except QuotaError Unit := do
  match ← limitsOn fails t resellerID with
  | none => return ()
  | some l =>
    checkServiceCount fails t s l resellerID
    checkAllocation fails t s l resellerID planID

/-- What the reseller's other clients were given. -/
def allocatedToOthers (resellerID clientID : ℕ) : ℕ :=
  (((resellerServices t s resellerID).filter fun sv => sv.clientID ≠ clientID).map (alloc t)).sum

def canChangeClientPlan (resellerID clientID newPlanID : ℕ) : Except QuotaError Unit := do
  match ← limitsOn fails t resellerID with
  | none => return ()
  | some l =>
    if l.overselling ∨ l.maxDomains = 0 then return ()
    else
      let p ← queryRow fails .planAlloc (t.plans.lookup newPlanID)
      if p.kind = .npm then return ()
      else
        let moving ← query fails .movingCount (s.services.rows.countP fun sv => sv.clientID = clientID)
        if moving = 0 then return ()
        else if p.maxDomains = 0 then .error .domain
        else
          let others ← query fails .allocationSum (allocatedToOthers t s resellerID clientID)
          if l.maxDomains < others + moving * p.maxDomains then .error .domain else .ok ()

def checkRouteCount (l : Limits) (resellerID : ℕ) : Except QuotaError Unit := do
  let n ← query fails .routeCount (resellerRoutes t s resellerID)
  if l.maxDomains ≤ n then .error .domain else .ok ()

/-- A route is counted where overselling is allowed and on plans of kind `npm`. -/
def canCreateRoute (resellerID serviceID : ℕ) : Except QuotaError Unit := do
  match ← limitsOn fails t resellerID with
  | none => return ()
  | some l =>
    if l.maxDomains = 0 then return ()
    else if l.overselling then checkRouteCount fails t s l resellerID
    else
      let p ← queryRow fails .servicePlanKind ((s.services.lookup serviceID).bind fun sv => t.plans.lookup sv.planID)
      if p.kind = .npm then checkRouteCount fails t s l resellerID else .ok ()

/-- `ResellerOfClient`. The scanned value is invalid after a failure too, and that is looked at first. -/
def resellerOfClient (clientID : ℕ) : Except QuotaError ℕ :=
  let rid := if fails .clientReseller then none else t.resellerOf clientID
  match rid with
  | none => .ok 0
  | some r => query fails .clientReseller r

/-- How the callers use it: without the error. -/
def ownerID (clientID : ℕ) : ℕ :=
  match resellerOfClient fails t clientID with
  | .ok r => r
  | .error _ => 0

end Checks

end Quota
