import CaddyPanel.Adminscope.Service
import CaddyPanel.Lib.Text

/-!
# Which plan a service may get

The handlers that create a service or change its plan: `ServicesCreate`, `ServicesUpdate`, `ClientChangePlan`,
`HostsCreate`, `StreamsCreate` and the NPM import of the panel, `ServiceCreate` of the REST API and
`ProvisionService` of the billing API; and `PlansCreate`. A request that is refused leaves the database as it is. A
session is taken to say what the row of its user says (`Accounts/SessionClaims`), and the checks of a form that
have nothing to do with clients and plans are one answer.
-/

namespace PlanScope

open List Option Rows
open Accounts (Role User Session)
open Adminscope
open Text (Str)

structure Plan where
  id : ℕ
  name : Str
  nodeGroupID : ℕ
  /-- a plan of nobody is for everybody -/
  resellerID : Option ℕ

structure Service where
  id : ℕ
  clientID : ℕ
  planID : ℕ
  nodeGroupID : ℕ
  backendIP : Str
  portStart : ℕ
  portEnd : ℕ
  deriving DecidableEq

structure DB where
  dir : Directory
  plans : Rows Plan.id
  services : Rows Service.id

/-! ### Scope checks of the panel -/

section Scope

variable (db : DB) (sess : Session)

def scopeExempt : Bool :=
  sess.claims.role = .superAdmin

def adminClientScope : Option (List ℕ × Bool) :=
  if scopeExempt sess then some ([], true) else scopeFilter db.dir sess.userID

/-- The scope is known, and it is everything. -/
def scopeAll : Bool :=
  (adminClientScope db sess).any (·.2)

def scopeCheckClient (clientID : ℕ) : Bool :=
  scopeExempt sess || canAccessClient db.dir sess.userID clientID

def scopeCheckService (id : ℕ) : Bool :=
  scopeExempt sess || (db.services.lookup id).any fun sv => scopeCheckClient db sess sv.clientID

/-- The reseller that a limited administrator acts for: its own, or the one of the client. -/
def planOwner (clientID : ℕ) : Option ℕ :=
  if sess.claims.resellerID ≠ 0 then some sess.claims.resellerID
  else (db.dir.clients.lookup clientID).map fun c => c.resellerID.getD 0

def authorizePlanForClient (clientID planID : ℕ) : Bool :=
  if planID = 0 then false
  else
    match db.plans.lookup planID with
    | none => false
    | some p =>
      if scopeAll db sess then true
      else
        match planOwner db sess clientID with
        | none => false
        | some owner => p.resellerID.all fun rid => owner ≠ 0 && rid = owner

/-- Whether the object belongs to a tenant, and whether it may be created at all. -/
def selfProvisionScope : Bool × Bool :=
  if scopeAll db sess then (false, true)
  else if sess.claims.resellerID > 0 then (true, true)
  else (false, false)

def checkPlacement (nodeGroupID : ℕ) : Bool :=
  match selfProvisionScope db sess with
  | (false, true) => true
  | (true, true) => (db.dir.resellers.lookup sess.claims.resellerID).any fun r => nodeGroupID ∈ r.nodeGroups
  | (_, false) => false

/-- `RequireRole` and `ReadOnlyRoleAllowList`: who may write in the panel. -/
def entersPanel : Bool :=
  sess.claims.role = .superAdmin || sess.claims.role = .admin || sess.claims.role = .reseller

/-- Whom `ResellerAdminBoundary` keeps to its list of paths. -/
def bounded : Bool :=
  sess.claims.role ≠ .superAdmin &&
    (sess.claims.resellerID ≠ 0 || sess.claims.restricted || sess.claims.role = .reseller)

end Scope

/-! ### The panel -/

structure ServiceForm where
  clientID : ℕ
  planID : ℕ
  backendIP : Str
  portStart : ℕ
  portEnd : ℕ
  /-- all the other checks: fields, addresses, overlaps, the reseller's package -/
  valid : Bool

/-- `INSERT INTO services`, which needs the client. -/
def insertService (db : DB) (f : ServiceForm) (nodeGroupID : ℕ) : DB :=
  if (db.dir.clients.lookup f.clientID).isSome then
    { db with services := db.services.insertNext fun id =>
        ⟨id, f.clientID, f.planID, nodeGroupID, f.backendIP, f.portStart, f.portEnd⟩ }
  else db

def servicesCreate (db : DB) (sess : Session) (f : ServiceForm) : DB :=
  if f.valid && scopeCheckClient db sess f.clientID && authorizePlanForClient db sess f.clientID f.planID then
    match db.plans.lookup f.planID with
    | some p => insertService db f p.nodeGroupID
    | none => db
  else db

def servicesUpdate (db : DB) (sess : Session) (id : ℕ) (f : ServiceForm) : DB :=
  if f.valid && scopeCheckService db sess id && scopeCheckClient db sess f.clientID &&
      authorizePlanForClient db sess f.clientID f.planID then
    match db.plans.lookup f.planID with
    | some p =>
      { db with services := db.services.update (fun sv => sv.id = id) fun sv =>
          ⟨sv.id, f.clientID, f.planID, p.nodeGroupID, f.backendIP, f.portStart, f.portEnd⟩ }
    | none => db
  else db

def clientChangePlan (db : DB) (sess : Session) (id newPlanID : ℕ) (valid : Bool) : DB :=
  if scopeCheckClient db sess id && authorizePlanForClient db sess id newPlanID && valid then
    { db with services := db.services.update (fun sv => sv.clientID = id) fun sv => { sv with planID := newPlanID } }
  else db

/-! ### Hosts and streams -/

def internalAdminPlanName : Str := "_admin-self"

def selfClient (d : Directory) (userID : ℕ) : Option Client :=
  d.clients.rows.find? fun c => c.userID = userID

def selfClientID (d : Directory) (userID : ℕ) : ℕ :=
  (selfClient d userID).elim d.clients.next Client.id

def ensureAdminClient (d : Directory) (userID resellerID : ℕ) : Directory :=
  match selfClient d userID with
  | some c =>
    if resellerID > 0 && c.resellerID ≠ some resellerID then
      { d with clients := d.clients.update (fun c' => c'.id = c.id) fun c' => { c' with resellerID := some resellerID } }
    else d
  | none =>
    { d with clients := d.clients.insertNext fun id =>
        ⟨id, userID, if resellerID > 0 then some resellerID else none⟩ }

def internalPlan (plans : Rows Plan.id) (nodeGroupID : ℕ) : Option Plan :=
  plans.rows.find? fun p => p.name = internalAdminPlanName ∧ p.nodeGroupID = nodeGroupID

/-- The plan of the node group under the internal name, which is created if need be; the name of a plan is unique. -/
def ensureAdminPlan (plans : Rows Plan.id) (nodeGroupID : ℕ) : Option (Rows Plan.id × ℕ) :=
  match internalPlan plans nodeGroupID with
  | some p => some (plans, p.id)
  | none =>
    if plans.rows.any fun p => p.name = internalAdminPlanName then none
    else some (plans.insertNext fun id => ⟨id, internalAdminPlanName, nodeGroupID, none⟩, plans.next)

/-- Port `0` stands for every port. -/
def Service.serves (sv : Service) (clientID : ℕ) (backendIP : Str) (port : ℕ) : Bool :=
  sv.clientID = clientID && sv.backendIP = backendIP && (port = 0 || (sv.portStart ≤ port && port ≤ sv.portEnd))

def ensureAdminService (services : Rows Service.id) (clientID : ℕ) (backendIP : Str) (port planID nodeGroupID : ℕ) :
    Rows Service.id :=
  if services.rows.any fun sv => sv.serves clientID backendIP port then services
  else services.insertNext fun id => ⟨id, clientID, planID, nodeGroupID, backendIP, 1, 65535⟩

structure HostForm where
  nodeGroupID : ℕ
  /-- absent where a tunnel was chosen that cannot be found -/
  backendIP : Option Str
  port : ℕ
  /-- the checks of the form, the addresses and the nodes -/
  valid : Bool

/-- What `HostsCreate` and `StreamsCreate` do before the route; each row is written on its own. -/
def selfProvision (db : DB) (sess : Session) (f : HostForm) : DB :=
  if f.valid && (selfProvisionScope db sess).2 && checkPlacement db sess f.nodeGroupID then
    let dir := ensureAdminClient db.dir sess.userID sess.claims.resellerID
    match ensureAdminPlan db.plans f.nodeGroupID with
    | none => { db with dir }
    | some (plans, planID) =>
      match f.backendIP with
      | none => { db with dir, plans }
      | some backendIP =>
        { dir, plans
          services := ensureAdminService db.services (selfClientID db.dir sess.userID) backendIP f.port planID
            f.nodeGroupID }
  else db

def hostsCreate (db : DB) (sess : Session) (f : HostForm) : DB :=
  selfProvision db sess f

def streamsCreate (db : DB) (sess : Session) (f : HostForm) : DB :=
  selfProvision db sess f

/-- The hosts of a backup go to the first node; the path is not on the list of `ResellerAdminBoundary`. -/
def runNpmImport (db : DB) (sess : Session) (nodeGroupID : ℕ) (hosts : List (Str × ℕ)) : DB :=
  if bounded sess then db
  else
    let dir := ensureAdminClient db.dir sess.userID sess.claims.resellerID
    match ensureAdminPlan db.plans nodeGroupID with
    | none => { db with dir }
    | some (plans, planID) =>
      { dir, plans
        services := hosts.foldl (fun services (backendIP, port) =>
          ensureAdminService services (selfClientID db.dir sess.userID) backendIP port planID nodeGroupID) db.services }

/-- `PlansCreate`: an administrator of a reseller creates plans of the reseller. -/
def plansCreate (db : DB) (sess : Session) (name : Str) (nodeGroupID : ℕ) (valid : Bool) : DB :=
  if valid && (sess.claims.resellerID > 0 || scopeAll db sess) && !db.plans.rows.any fun p => p.name = name then
    { db with plans := db.plans.insertNext fun id =>
        ⟨id, name, nodeGroupID, if sess.claims.resellerID > 0 then some sess.claims.resellerID else none⟩ }
  else db

/-! ### The REST API and the billing API -/

section API

variable (db : DB) (c : User)

def requireAdmin : Bool :=
  c.role = .admin || c.role = .superAdmin || c.role = .reseller

def apiScope : Option (List ℕ × Bool) :=
  if c.role = .superAdmin ∨ c.role = .api then some ([], true) else scopeFilter db.dir c.id

def apiAllowClient (clientID : ℕ) : Bool :=
  (apiScope db c).any fun (ids, all) => all || clientID ∈ ids

def apiPlanAccessible (planID : ℕ) : Bool :=
  (apiScope db c).any fun (_, all) =>
    all || (db.plans.lookup planID).any fun p =>
      p.resellerID.all fun rid => (db.dir.users.lookup c.id).any fun u => u.resellerID = some rid

def serviceCreate (f : ServiceForm) : DB :=
  if requireAdmin c && f.valid && apiAllowClient db c f.clientID && apiPlanAccessible db c f.planID then
    match db.plans.lookup f.planID with
    | some p => insertService db f p.nodeGroupID
    | none => db
  else db

/-- `RequireUnrestrictedAPIOwner` -/
def unrestrictedOwner : Bool :=
  c.role = .superAdmin || c.role = .api ||
    (db.dir.users.lookup c.id).any fun u => !u.restricted && u.resellerID.getD 0 = 0

def fbAllowClient (clientID : ℕ) : Bool :=
  c.role = .superAdmin || c.role = .api || canAccessClient db.dir c.id clientID

def provisionService (f : ServiceForm) : DB :=
  if unrestrictedOwner db c && requireAdmin c && f.valid && fbAllowClient db c f.clientID then
    match db.plans.lookup f.planID with
    | some p => insertService db f p.nodeGroupID
    | none => db
  else db

end API

/-! ### Requests -/

inductive Request where
  | servicesCreate (f : ServiceForm)
  | servicesUpdate (id : ℕ) (f : ServiceForm)
  | clientChangePlan (id newPlanID : ℕ) (valid : Bool)
  | hostsCreate (f : HostForm)
  | streamsCreate (f : HostForm)
  | npmImport (nodeGroupID : ℕ) (hosts : List (Str × ℕ))
  | plansCreate (name : Str) (nodeGroupID : ℕ) (valid : Bool)
  | serviceCreate (f : ServiceForm)
  | provisionService (f : ServiceForm)

def sessionOf (u : User) : Session :=
  { userID := u.id, claims := u.claims, epoch := u.epoch }

/-- A request of the panel, with the session of the user. -/
def panel (db : DB) (u : User) (handler : Session → DB) : DB :=
  if entersPanel (sessionOf u) then handler (sessionOf u) else db

def serve (db : DB) (u : User) : Request → DB
  | .servicesCreate f => panel db u fun sess => servicesCreate db sess f
  | .servicesUpdate id f => panel db u fun sess => servicesUpdate db sess id f
  | .clientChangePlan id newPlanID valid => panel db u fun sess => clientChangePlan db sess id newPlanID valid
  | .hostsCreate f => panel db u fun sess => hostsCreate db sess f
  | .streamsCreate f => panel db u fun sess => streamsCreate db sess f
  | .npmImport nodeGroupID hosts => panel db u fun sess => runNpmImport db sess nodeGroupID hosts
  | .plansCreate name nodeGroupID valid => panel db u fun sess => plansCreate db sess name nodeGroupID valid
  | .serviceCreate f => serviceCreate db u f
  | .provisionService f => provisionService db u f

/-! ### What a service may be on -/

/-- The plan is for everybody, or belongs to the reseller of the client. -/
def Fits (db : DB) (clientID planID : ℕ) : Prop :=
  ∃ p, db.plans.lookup planID = some p ∧ (p.resellerID = none ∨ p.resellerID = db.dir.resellerOf clientID)

/-- The service is new, or it has another client or plan than before. -/
def Touched (db : DB) (sv : Service) : Prop :=
  ∀ sv₀ ∈ db.services, ¬ (sv₀.id = sv.id ∧ sv₀.clientID = sv.clientID ∧ sv₀.planID = sv.planID)

/-- Every service that came to its client and plan on the way from `db` to `db'` fits. -/
def Attached (db db' : DB) : Prop :=
  ∀ sv ∈ db'.services, Touched db sv → Fits db' sv.clientID sv.planID

/-- The request makes a new service on the plan of another reseller that has the internal name. -/
def takesForeignPlan (db : DB) (u : User) (f : HostForm) : Bool :=
  let sess := sessionOf u
  entersPanel sess && f.valid && (selfProvisionScope db sess).2 && checkPlacement db sess f.nodeGroupID &&
    (f.backendIP.any fun backendIP =>
      !db.services.rows.any fun sv => sv.serves (selfClientID db.dir u.id) backendIP f.port) &&
    (internalPlan db.plans f.nodeGroupID).any fun p => p.resellerID.any fun rid => u.resellerID ≠ some rid

def Request.takesForeignPlan (db : DB) (u : User) : Request → Bool
  | .hostsCreate f => PlanScope.takesForeignPlan db u f
  | .streamsCreate f => PlanScope.takesForeignPlan db u f
  | _ => false

variable {db db' : DB} {u : User}

/-! ### Writes -/

lemma attached_of_services_eq (h : db'.services = db.services) : Attached db db' := by
  intro sv hsv htouched
  rw [h] at hsv
  exact absurd ⟨rfl, rfl, rfl⟩ (htouched sv hsv)

lemma attached_refl (db : DB) : Attached db db :=
  attached_of_services_eq rfl

/-- A new service is the only one that is touched. -/
lemma attached_insertNext_iff (dir : Directory) (plans : Rows Plan.id) (row : ℕ → Service)
    (hrow : ∀ n, (row n).id = n) :
    Attached db ⟨dir, plans, db.services.insertNext row hrow⟩ ↔
      Fits ⟨dir, plans, db.services.insertNext row hrow⟩ (row db.services.next).clientID
        (row db.services.next).planID := by
  constructor
  · intro hattached
    have hmem : row db.services.next ∈ db.services.insertNext row hrow := mem_insertNext.mpr (.inr rfl)
    refine hattached _ hmem ?_
    rintro sv₀ hsv₀ ⟨hid, -, -⟩
    rw [hrow] at hid
    exact absurd hid (Nat.ne_of_lt (lt_next hsv₀))
  · intro hfits sv hsv htouched
    have hmem : sv ∈ db.services.insertNext row hrow := hsv
    obtain hold | rfl := mem_insertNext.mp hmem
    · exact absurd ⟨rfl, rfl, rfl⟩ (htouched sv hold)
    · exact hfits

variable {nodeGroupID rid planID userID : ℕ} {plans plans' : Rows Plan.id}

lemma attached_insertService {f : ServiceForm} (hfits : Fits db f.clientID f.planID) :
    Attached db (insertService db f nodeGroupID) := by
  unfold insertService
  split
  · exact (attached_insertNext_iff _ _ _ _).mpr hfits
  · exact attached_refl db

/-- An update that puts every row it writes on a plan that fits. -/
lemma attached_update {q : Service → Bool} {g : Service → Service} {hg : ∀ sv, (g sv).id = sv.id}
    (hfits : ∀ sv ∈ db.services, q sv → Fits db (g sv).clientID (g sv).planID) :
    Attached db { db with services := db.services.update q g hg } := by
  intro sv hsv htouched
  have hmem : sv ∈ db.services.update q g hg := hsv
  obtain ⟨sv₀, hsv₀, rfl⟩ := mem_update.mp hmem
  cases hq : q sv₀ with
  | true =>
    exact hfits sv₀ hsv₀ hq
  | false =>
    rw [hq] at htouched
    exact absurd ⟨rfl, rfl, rfl⟩ (htouched sv₀ hsv₀)

/-! ### Checks -/

lemma role_ne_superAdmin (hlimited : platform u = false) : u.role ≠ .superAdmin := by
  intro heq
  simp [platform, heq] at hlimited

lemma role_of_entersPanel (hlimited : platform u = false) (h : entersPanel (sessionOf u)) :
    u.role = .admin ∨ u.role = .reseller := by
  have h : (u.role = .superAdmin || u.role = .admin || u.role = .reseller) := h
  simpa [role_ne_superAdmin hlimited] using h

lemma role_of_requireAdmin (hlimited : platform u = false) (h : requireAdmin u) :
    u.role = .admin ∨ u.role = .reseller := by
  simpa [requireAdmin, role_ne_superAdmin hlimited] using h

lemma scopeExempt_eq_false (hlimited : platform u = false) : scopeExempt (sessionOf u) = false :=
  decide_eq_false (role_ne_superAdmin hlimited)

section Limited

variable (hu : u ∈ db.dir.users) (hlimited : platform u = false) (hrole : u.role = .admin ∨ u.role = .reseller)
include hu hlimited hrole

lemma scopeAll_eq_false : scopeAll db (sessionOf u) = false := by
  obtain ⟨ids, hids, -⟩ := scopeFilter_of_limited hu hrole hlimited
  have hfilter : scopeFilter db.dir (sessionOf u).userID = some (ids, false) := hids
  simp [scopeAll, adminClientScope, scopeExempt_eq_false hlimited, hfilter]

variable {clientID rid planID : ℕ}

/-- Where the user is bound to a reseller, so is the client. -/
lemma resellerOf_of_scopeCheckClient (hrid : u.resellerID = some rid)
    (h : scopeCheckClient db (sessionOf u) clientID) : db.dir.resellerOf clientID = some rid := by
  rw [scopeCheckClient, scopeExempt_eq_false hlimited] at h
  exact resellerOf_of_canAccessClient hu hrole hlimited hrid h

/-- The plan check of the panel. -/
lemma fits_of_authorizePlanForClient (hscope : scopeCheckClient db (sessionOf u) clientID)
    (h : authorizePlanForClient db (sessionOf u) clientID planID) : Fits db clientID planID := by
  simp only [authorizePlanForClient, scopeAll_eq_false hu hlimited hrole, Bool.false_eq_true, if_false] at h
  split at h
  · cases h
  split at h
  · cases h
  next p hp =>
  refine ⟨p, hp, ?_⟩
  split at h
  · cases h
  next owner howner =>
  cases hplan : p.resellerID with
  | none => exact .inl rfl
  | some rid =>
    obtain ⟨hne, rfl⟩ : owner ≠ 0 ∧ rid = owner := by simpa [hplan] using h
    refine .inr ?_
    have howner : (if u.resellerID.getD 0 ≠ 0 then some (u.resellerID.getD 0)
        else (db.dir.clients.lookup clientID).map fun c => c.resellerID.getD 0) = some rid := howner
    split at howner
    · next hbound =>
      cases hrid : u.resellerID with
      | none => simp [hrid] at hbound
      | some r =>
        obtain rfl : r = rid := by simpa [hrid] using howner
        exact (resellerOf_of_scopeCheckClient hu hlimited hrole hrid hscope).symm
    · obtain ⟨c, hc, hreseller⟩ := map_eq_some_iff.mp howner
      rw [Directory.resellerOf, hc]
      cases hr : c.resellerID with
      | none => simp [hr] at hreseller; exact absurd hreseller.symm hne
      | some r => simpa [hr] using hreseller.symm

/-- The plan check of the REST API. -/
lemma fits_of_apiPlanAccessible (hscope : apiAllowClient db u clientID)
    (h : apiPlanAccessible db u planID) : Fits db clientID planID := by
  obtain ⟨ids, hids, hmem⟩ := scopeFilter_of_limited hu hrole hlimited
  have hapi : u.role ≠ .api := by
    obtain hrole | hrole := hrole <;> simp [hrole]
  have hscope' : apiScope db u = some (ids, false) := by
    simp [apiScope, role_ne_superAdmin hlimited, hapi, hids]
  simp only [apiAllowClient, hscope', any_some, Bool.false_or, decide_eq_true_eq] at hscope
  simp only [apiPlanAccessible, hscope', any_some] at h
  obtain ⟨p, hp, hplan⟩ := (any_eq_true _ _).mp h
  refine ⟨p, hp, ?_⟩
  cases hreseller : p.resellerID with
  | none => exact .inl rfl
  | some rid =>
    have hrid : u.resellerID = some rid := by
      simpa [hreseller, lookup_key hu] using hplan
    exact .inr (hmem clientID hscope rid hrid).symm

/-- The billing API turns limited administrators away: the owner check those with a restriction or a reseller, the
client check a reseller that lost its own. -/
lemma not_fbAllowClient (howner : unrestrictedOwner db u) (clientID : ℕ) : fbAllowClient db u clientID = false := by
  have hsuper := role_ne_superAdmin hlimited
  have hapi : u.role ≠ .api := by
    obtain hrole | hrole := hrole <;> simp [hrole]
  have hfree : u.restricted = false ∧ u.resellerID.getD 0 = 0 := by
    simpa [unrestrictedOwner, hsuper, hapi, lookup_key hu] using howner
  have hnone : u.resellerID = none := by
    cases hrid : u.resellerID with
    | none => rfl
    | some rid =>
      have hbound := db.dir.bound_ne u hu
      rw [hrid, getD_some] at hfree
      rw [hrid, hfree.2] at hbound
      exact absurd rfl hbound
  have hreseller : u.role = .reseller := by
    obtain hrole | hrole := hrole
    · simp [platform, hrole, hfree.1, hnone] at hlimited
    · exact hrole
  simp [fbAllowClient, canAccessClient, resolveMode, lookup_key hu, hreseller, userReseller, hnone]

end Limited

/-! ### Hosts and streams -/

/-- The own client ends up with the reseller of its user. -/
lemma resellerOf_ensureAdminClient (d : Directory) (userID : ℕ) (hrid : rid > 0) :
    (ensureAdminClient d userID rid).resellerOf (selfClientID d userID) = some rid := by
  unfold ensureAdminClient selfClientID
  cases hself : selfClient d userID with
  | none =>
    have hlookup := lookup_next d.clients
      (fun id => (⟨id, userID, if rid > 0 then some rid else none⟩ : Client)) fun _ => rfl
    refine (congrArg (Option.bind · Client.resellerID) hlookup).trans ?_
    rw [bind_some, if_pos hrid]
  | some c =>
    have hc : d.clients.lookup c.id = some c := lookup_key (mem_of_find?_eq_some hself)
    simp only [elim_some]
    split
    · simp [Directory.resellerOf, lookup_update, hc]
    rename_i hsame
    have hsame : c.resellerID = some rid := by simpa [hrid] using hsame
    rw [Directory.resellerOf, hc, bind_some, hsame]

/-- The plan was there, or it is new and belongs to nobody. -/
lemma ensureAdminPlan_eq_some (h : ensureAdminPlan plans nodeGroupID = some (plans', planID)) :
    ∃ p, plans'.lookup planID = some p ∧
      (internalPlan plans nodeGroupID = some p ∨ internalPlan plans nodeGroupID = none ∧ p.resellerID = none) := by
  unfold ensureAdminPlan at h
  split at h
  · next p hp =>
    cases h
    exact ⟨p, lookup_key (mem_of_find?_eq_some hp), .inl hp⟩
  · next hp =>
    split at h
    · cases h
    · cases h
      exact ⟨_, lookup_next _ _ _, .inr ⟨hp, rfl⟩⟩

lemma internalPlan_of_ensureAdminPlan
    (h : ensureAdminPlan plans nodeGroupID = none) : internalPlan plans nodeGroupID = none := by
  unfold ensureAdminPlan at h
  split at h
  · cases h
  · next hp => exact hp

/-- A limited administrator provisions as the administrator of a reseller only. -/
lemma bound_of_selfProvisionScope (hall : scopeAll db (sessionOf u) = false)
    (h : (selfProvisionScope db (sessionOf u)).2) : ∃ rid, u.resellerID = some rid ∧ rid > 0 := by
  rw [selfProvisionScope, hall, if_neg Bool.false_ne_true] at h
  split at h
  · next hpos =>
    have hpos : u.resellerID.getD 0 > 0 := hpos
    cases hrid : u.resellerID with
    | none => simp [hrid] at hpos
    | some rid => exact ⟨rid, rfl, by simpa [hrid] using hpos⟩
  · cases h

/-- The plan that is found or made fits the own client, unless it is another reseller's. -/
lemma fits_selfProvision_iff {services : Rows Service.id}
    (hplans : ensureAdminPlan db.plans nodeGroupID = some (plans', planID)) (hpos : rid > 0) :
    Fits ⟨ensureAdminClient db.dir userID rid, plans', services⟩ (selfClientID db.dir userID) planID ↔
      (internalPlan db.plans nodeGroupID).any (fun p => p.resellerID.any fun r => some rid ≠ some r) = false := by
  obtain ⟨p, hp, hfound | ⟨hnew, hnone⟩⟩ := ensureAdminPlan_eq_some hplans
  · have hfits : Fits ⟨ensureAdminClient db.dir userID rid, plans', services⟩ (selfClientID db.dir userID) planID ↔
        p.resellerID = none ∨ p.resellerID = some rid := by
      simp only [Fits, hp, resellerOf_ensureAdminClient db.dir userID hpos, Option.some.injEq]
      exact exists_eq_left'
    rw [hfits, hfound, any_some]
    cases p.resellerID with
    | none => simp
    | some r => simpa using eq_comm
  · rw [hnew]
    exact iff_of_true ⟨p, hp, .inl hnone⟩ rfl

lemma attached_selfProvision_iff (hu : u ∈ db.dir.users) (hlimited : platform u = false)
    (henters : entersPanel (sessionOf u)) (f : HostForm) :
    Attached db (selfProvision db (sessionOf u) f) ↔ takesForeignPlan db u f = false := by
  have hall := scopeAll_eq_false hu hlimited (role_of_entersPanel hlimited henters)
  simp only [takesForeignPlan, henters, Bool.true_and]
  unfold selfProvision
  split
  · next hguard =>
    rw [hguard]
    simp only [Bool.and_eq_true] at hguard
    obtain ⟨rid, hrid, hpos⟩ := bound_of_selfProvisionScope hall hguard.1.2
    have hclaim : (sessionOf u).claims.resellerID = rid := congrArg (Option.getD · 0) hrid
    split
    · next hnone =>
      simp [internalPlan_of_ensureAdminPlan hnone, attached_of_services_eq]
    rename_i plans planID hplans
    split
    · next hbackend => simp [hbackend, attached_of_services_eq]
    rename_i backendIP hbackend
    rw [hbackend, any_some, ensureAdminService]
    split
    · next hserves =>
      have hserves : (db.services.rows.any fun sv => sv.serves (selfClientID db.dir u.id) backendIP f.port) :=
        hserves
      simp [hserves, attached_of_services_eq]
    · next hserves =>
      have hserves : (db.services.rows.any fun sv => sv.serves (selfClientID db.dir u.id) backendIP f.port) = false :=
        eq_false_of_ne_true hserves
      rw [hserves, Bool.not_false, hrid, hclaim, attached_insertNext_iff]
      exact fits_selfProvision_iff hplans hpos
  · next hguard =>
    rw [eq_false_of_ne_true hguard]
    simp [attached_refl]

/-! ### Every request -/

lemma attached_panel {handler : Session → DB}
    (h : entersPanel (sessionOf u) → Attached db (handler (sessionOf u))) : Attached db (panel db u handler) := by
  unfold panel
  split
  · next henters => exact h henters
  · exact attached_refl db

section

variable (hu : u ∈ db.dir.users) (hlimited : platform u = false)

include hu hlimited

lemma attached_panel_selfProvision_iff (f : HostForm) :
    Attached db (panel db u fun sess => selfProvision db sess f) ↔ takesForeignPlan db u f = false := by
  unfold panel
  split
  · next henters => exact attached_selfProvision_iff hu hlimited henters f
  rename_i henters
  have hnone : takesForeignPlan db u f = false := by
    simp [takesForeignPlan, eq_false_of_ne_true henters]
  exact iff_of_true (attached_refl db) hnone

section

variable (henters : entersPanel (sessionOf u))

include henters

lemma attached_servicesCreate (f : ServiceForm) : Attached db (servicesCreate db (sessionOf u) f) := by
  unfold servicesCreate
  split
  · next hchecks =>
    simp only [Bool.and_eq_true] at hchecks
    have hfits := fits_of_authorizePlanForClient hu hlimited (role_of_entersPanel hlimited henters) hchecks.1.2 hchecks.2
    split
    · exact attached_insertService hfits
    · exact attached_refl db
  · exact attached_refl db

lemma attached_servicesUpdate (id : ℕ) (f : ServiceForm) : Attached db (servicesUpdate db (sessionOf u) id f) := by
  unfold servicesUpdate
  split
  · next hchecks =>
    simp only [Bool.and_eq_true] at hchecks
    have hfits := fits_of_authorizePlanForClient hu hlimited (role_of_entersPanel hlimited henters) hchecks.1.2 hchecks.2
    split
    · exact attached_update fun _ _ _ => hfits
    · exact attached_refl db
  · exact attached_refl db

lemma attached_clientChangePlan (id newPlanID : ℕ) (valid : Bool) :
    Attached db (clientChangePlan db (sessionOf u) id newPlanID valid) := by
  unfold clientChangePlan
  split
  · next hchecks =>
    simp only [Bool.and_eq_true] at hchecks
    have hfits := fits_of_authorizePlanForClient hu hlimited (role_of_entersPanel hlimited henters) hchecks.1.1
      hchecks.1.2
    refine attached_update fun sv _ hclient => ?_
    have hclient : sv.clientID = id := of_decide_eq_true hclient
    rw [hclient]
    exact hfits
  · exact attached_refl db

end

lemma attached_serviceCreate (f : ServiceForm) : Attached db (serviceCreate db u f) := by
  unfold serviceCreate
  split
  · next hchecks =>
    simp only [Bool.and_eq_true] at hchecks
    obtain ⟨⟨⟨hadmin, -⟩, hscope⟩, hplan⟩ := hchecks
    have hfits := fits_of_apiPlanAccessible hu hlimited (role_of_requireAdmin hlimited hadmin) hscope hplan
    split
    · exact attached_insertService hfits
    · exact attached_refl db
  · exact attached_refl db

lemma attached_provisionService (f : ServiceForm) : Attached db (provisionService db u f) := by
  unfold provisionService
  split
  · next hchecks =>
    simp only [Bool.and_eq_true] at hchecks
    obtain ⟨⟨⟨howner, hadmin⟩, -⟩, hallow⟩ := hchecks
    rw [not_fbAllowClient hu hlimited (role_of_requireAdmin hlimited hadmin) howner] at hallow
    cases hallow
  · exact attached_refl db

/-- The import is not on a limited administrator's list of paths. -/
lemma bounded_of_limited (henters : entersPanel (sessionOf u)) : bounded (sessionOf u) := by
  obtain hrole | hrole := role_of_entersPanel hlimited henters
  · cases hrid : u.resellerID with
    | some rid =>
      have hne : rid ≠ 0 := by
        have hbound := db.dir.bound_ne u hu
        simpa [hrid] using hbound
      simp [bounded, sessionOf, User.claims, hrole, hrid, hne]
    | none =>
      have hrestricted : u.restricted := by
        simpa [platform, hrole, hrid] using hlimited
      simp [bounded, sessionOf, User.claims, hrole, hrestricted]
  · simp [bounded, sessionOf, User.claims, hrole]

end

theorem attached_iff (db : DB) (u : User) (hu : u ∈ db.dir.users) (hlimited : platform u = false) (req : Request) :
    Attached db (serve db u req) ↔ req.takesForeignPlan db u = false := by
  cases req with
  | hostsCreate f => exact attached_panel_selfProvision_iff hu hlimited f
  | streamsCreate f => exact attached_panel_selfProvision_iff hu hlimited f
  | servicesCreate f =>
    exact iff_of_true (attached_panel fun henters => attached_servicesCreate hu hlimited henters f) rfl
  | servicesUpdate id f =>
    exact iff_of_true (attached_panel fun henters => attached_servicesUpdate hu hlimited henters id f) rfl
  | clientChangePlan id newPlanID valid =>
    exact iff_of_true
      (attached_panel fun henters => attached_clientChangePlan hu hlimited henters id newPlanID valid) rfl
  | npmImport nodeGroupID hosts =>
    refine iff_of_true (attached_panel fun henters => ?_) rfl
    rw [runNpmImport, bounded_of_limited hu hlimited henters]
    exact attached_refl db
  | plansCreate name nodeGroupID valid =>
    refine iff_of_true (attached_panel fun _ => attached_of_services_eq ?_) rfl
    unfold plansCreate
    split <;> rfl
  | serviceCreate f => exact iff_of_true (attached_serviceCreate hu hlimited f) rfl
  | provisionService f => exact iff_of_true (attached_provisionService hu hlimited f) rfl

/-! ### Two resellers -/

def firstAdmin : User := { id := 1, role := .reseller, isActive := true, resellerID := some 1 }

def secondAdmin : User := { id := 2, role := .reseller, isActive := true, resellerID := some 2 }

/-- Two resellers with a node group in common, and nothing else. -/
def twoResellers : DB where
  dir :=
    { users := ⟨[firstAdmin, secondAdmin], by decide⟩
      resellers := ⟨[⟨1, true, [5]⟩, ⟨2, true, [5]⟩], by decide⟩
      clients := ⟨[], nodup_nil⟩
      user_ne := by
        intro u hu
        obtain rfl | rfl : u = firstAdmin ∨ u = secondAdmin := by simpa using mem_cons.mp hu
        · decide
        · decide
      bound_ne := by
        intro u hu
        obtain rfl | rfl : u = firstAdmin ∨ u = secondAdmin := by simpa using mem_cons.mp hu
        · decide
        · decide }
  plans := ⟨[], nodup_nil⟩
  services := ⟨[], nodup_nil⟩

def newHost : Request :=
  .hostsCreate ⟨5, some "10.0.0.9", 80, true⟩

/-- Without such a plan the second reseller's host gets a service on a plan that belongs to nobody. -/
theorem attached_iff_newHost : (serve twoResellers secondAdmin newHost).services.rows.length = 1 ∧
    Attached twoResellers (serve twoResellers secondAdmin newHost) := by
  refine ⟨by decide +kernel, ?_⟩
  have hmem : secondAdmin ∈ twoResellers.dir.users := mem_cons_of_mem _ mem_cons_self
  exact (attached_iff twoResellers secondAdmin hmem (by decide) newHost).mpr (by decide +kernel)

/-- The first reseller gives the internal name to a plan of its own; the next host of the second reseller is on that
plan. -/
theorem internal_name_taken :
    let db := serve twoResellers firstAdmin (.plansCreate internalAdminPlanName 5 true)
    let db' := serve db secondAdmin newHost
    platform secondAdmin = false ∧ db.services.rows = [] ∧
    db'.services.rows = [⟨1, 1, 1, 5, "10.0.0.9", 1, 65535⟩] ∧
    (db'.plans.lookup 1).map (·.resellerID) = some (some 1) ∧ db'.dir.resellerOf 1 = some 2 := by
  decide +kernel

end PlanScope
