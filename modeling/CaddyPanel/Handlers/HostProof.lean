import CaddyPanel.Accounts.Credentials
import CaddyPanel.Handlers.CertAsk
import CaddyPanel.Handlers.PlanScope

/-!
# Whose word a hostname is served on

Every operation that creates a route or changes what it has proven, with the credentials it may come with: the
panel, the pages of a client, the REST API, the billing API, the NPM import, and the TXT checks that anybody may
ask for. An operation runs alone (what happens where a check and an edit overlap is in `Routes/Ownership`). The
route service takes a client id of zero for the word of the platform, so that each caller has to be followed to
the row of the user who sent the request.
-/

namespace HostProof

open List
open Text (Str toLower)
open Caddyapi (Idna)
open HostEdit (HostRow HostForm EditEnv validDomain)
open Ownership (recordName txtContains matcherChangedForUpdate)
open Portal (splitHosts)
open Accounts (Session User Users ApiKey Desk Vouched Credited)
open Adminscope (platform Reseller Client)
open PlanScope (DB Plan Service entersPanel bounded scopeAll scopeCheckService selfProvisionScope selfClient
  selfClientID apiScope fbAllowClient unrestrictedOwner requireAdmin)
open WildcardHosts (NewRoute ClientForm clientEdited clientEdited_id apiUpdated_base)

/-! ### Tables -/

/-- The columns of a route that say whose it is. -/
structure Owned where
  serviceID : ℕ
  verifyToken : Str

structure State where
  db : DB
  sessions : List Session
  keys : List ApiKey
  table : WildcardHosts.State
  /-- by the id of the route -/
  owned : ℕ → Owned
  client_ne : ∀ c ∈ db.dir.clients.rows, c.id ≠ 0
  service_ne : ∀ sv ∈ db.services.rows, sv.clientID ≠ 0

namespace State

def desk (s : State) : Desk where
  users := s.db.dir.users
  sessions := s.sessions
  keys := s.keys

/-- The keys of the tables begin at one. -/
def withDesk (s : State) (d : Desk) : Option State :=
  if h : (∀ u ∈ d.users.rows, u.id ≠ 0) ∧ ∀ u ∈ d.users.rows, u.resellerID ≠ some 0 then
    some { s with
        db := { s.db with dir := { s.db.dir with users := d.users, user_ne := h.1, bound_ne := h.2 } }
        sessions := d.sessions
        keys := d.keys }
  else none

def withDb (s : State) (db : DB) : State :=
  if h : (∀ c ∈ db.dir.clients.rows, c.id ≠ 0) ∧ ∀ sv ∈ db.services.rows, sv.clientID ≠ 0 then
    { s with db, client_ne := h.1, service_ne := h.2 }
  else s

def row (s : State) (id : ℕ) : Option HostRow :=
  s.table.rows.find? fun h => h.base.id = id

def modify (s : State) (id : ℕ) (f : HostRow → HostRow) (hf : ∀ h, (f h).base.id = h.base.id) : State :=
  { s with table := s.table.modify id f hf }

def setVerified (s : State) (id : ℕ) (verified : Str) : State :=
  s.modify id (fun h => { h with base := { h.base with aliasesVerified := verified } }) (WildcardHosts.verified_id verified)

def setToken (s : State) (id : ℕ) (token : Str) : State :=
  { s with owned := Function.update s.owned id { s.owned id with verifyToken := token } }

def removeAll (s : State) (p : HostRow → Bool) : State :=
  { s with
    table := {
      rows := s.table.rows.filter fun h => !p h
      sorted := s.table.sorted.filter _
      positive := fun h hh => s.table.positive h (mem_of_mem_filter hh) } }

/-- A new row, under a new id. -/
def append (s : State) (h : HostRow) (o : Owned) : State :=
  if hnew : (∀ h' ∈ s.table.rows, h'.base.id < h.base.id) ∧ 0 < h.base.id then
    { s with
      table := {
        rows := s.table.rows ++ [h]
        sorted := pairwise_append.mpr ⟨s.table.sorted, pairwise_singleton _ _, by
          intro a ha b hb
          rw [mem_singleton.mp hb]
          exact hnew.1 a ha⟩
        positive := by
          intro h' hh'
          obtain hh' | hh' := mem_append.mp hh'
          · exact s.table.positive h' hh'
          · rw [mem_singleton.mp hh']
            exact hnew.2 }
      owned := Function.update s.owned h.base.id o }
  else s

end State

/-! ### The route service -/

structure CreateInput where
  route : NewRoute
  serviceID : ℕ
  /-- of `newVerifyToken` -/
  token : Str
  /-- the checks that have nothing to do with the name and its owner -/
  allowed : Bool

/-- The row that `Create` inserts: verified on the word of the caller, or with a token. -/
def CreateInput.host (n : CreateInput) (clientID : ℕ) : HostRow :=
  { n.route with domainVerified := clientID = 0 }.host

def CreateInput.owned (n : CreateInput) (clientID : ℕ) : Owned where
  serviceID := n.serviceID
  verifyToken := if clientID = 0 then [] else n.token

section Service

variable (idna : Idna) (isIP : Str → Bool)

def create (s : State) (clientID : ℕ) (n : CreateInput) : State :=
  match s.db.services.lookup n.serviceID with
  | none => s
  | some sv =>
    let h := n.host clientID
    if n.allowed && (clientID = 0 || sv.clientID = clientID) && validDomain isIP h.base.domain then
      match s.table.rows.find? fun h' =>
          h'.base.domain = h.base.domain && h'.columns.pathPrefix = h.columns.pathPrefix with
      | some old =>
        if old.base.domainVerified then s
        else (s.removeAll fun h' => h'.base.id = old.base.id).append h (n.owned clientID)
      | none => s.append h (n.owned clientID)
    else s

/-- `verifyAliases`; `answers` has the TXT records by name. -/
def checkAliases (answers : Str → List Str) (s : State) (h : HostRow) : State :=
  let token := (s.owned h.base.id).verifyToken
  if token = [] then s
  else
    match CertAsk.verifyAliases (fun a => txtContains (answers (recordName a)) token) h.base.aliases
        h.base.aliasesVerified with
    | some verified => s.setVerified h.base.id verified
    | none => s

/-- The unverified rows of the same name and path that a proof displaces. -/
def stale (h h' : HostRow) : Bool :=
  h'.base.domain = h.base.domain && h'.columns.pathPrefix = h.columns.pathPrefix &&
    h'.base.id ≠ h.base.id && !h'.base.domainVerified

def setDomainVerified (h : HostRow) : HostRow :=
  { h with base := { h.base with domainVerified := true } }

def verifyDomainToken (answers : Str → List Str) (s : State) (id : ℕ) : State :=
  match s.row id with
  | none => s
  | some h =>
    let token := (s.owned id).verifyToken
    -- the aliases are proven on their own, also where the domain already is
    let s := checkAliases answers s h
    if h.base.domainVerified || token = [] || !txtContains (answers (recordName h.base.domain)) token then s
    else (s.removeAll (stale h)).modify id setDomainVerified fun _ => rfl

/-- `RecheckPendingAliases` for one route. -/
def recheckAliases (answers : Str → List Str) (s : State) (id : ℕ) : State :=
  match s.row id with
  | none => s
  | some h => if h.base.status = .disabled then s else checkAliases answers s h

/-! ### The panel -/

inductive PanelRequest where
  | hostsCreate (f : PlanScope.HostForm) (n : CreateInput)
  | npmImport (nodeGroupID : ℕ) (hosts : List (Str × ℕ)) (inputs : List CreateInput)
  | hostsClone (id newID : ℕ) (nodes : List ℕ)
  | hostsUpdate (id : ℕ) (env : EditEnv) (form : HostForm) (token : Str)
  | approveLegacyAliases (id : ℕ) (claimed : Str)

def hostsCreate (s : State) (sess : Session) (f : PlanScope.HostForm) (n : CreateInput) : State :=
  let scope := selfProvisionScope s.db sess
  let ownerScope := if scope.1 then selfClientID s.db.dir sess.userID else 0
  let s := s.withDb (PlanScope.hostsCreate s.db sess f)
  if scope.2 then create isIP s ownerScope n else s

/-- The path is not on the list of `ResellerAdminBoundary`. -/
def npmImport (s : State) (sess : Session) (nodeGroupID : ℕ) (hosts : List (Str × ℕ))
    (inputs : List CreateInput) : State :=
  if bounded sess then s
  else inputs.foldl (fun s n => create isIP s 0 n) (s.withDb (PlanScope.runNpmImport s.db sess nodeGroupID hosts))

def scopeCheckRoute (s : State) (sess : Session) (id : ℕ) : Bool :=
  scopeCheckService s.db sess (s.owned id).serviceID

/-- All columns but `cloneSkipColumns`; the status is one that nothing serves. -/
def cloned (newID : ℕ) (nodes : List ℕ) (h : HostRow) : HostRow :=
  { h with
    base :=
      { h.base with
        id := newID
        domain := "clone-of-" ++ h.base.domain
        aliases := []
        aliasesVerified := []
        domainVerified := false
        status := .disabled
        nodes := nodes } }

def hostsClone (s : State) (sess : Session) (id newID : ℕ) (nodes : List ℕ) : State :=
  if scopeCheckRoute s sess id then
    match s.row id with
    | none => s
    | some h => s.append (cloned newID nodes h) ⟨(s.owned id).serviceID, []⟩
  else s

/-- Whether the edit takes the proof of the domain away. -/
def resets (platformAdmin : Bool) (old new : HostRow) : Bool :=
  !platformAdmin && matcherChangedForUpdate (toLower old.base.domain) old.columns.pathPrefix old.base.aliases
    new.base.domain new.columns.pathPrefix new.base.aliases

/-- `verificationResetRequired`, turned round. -/
def trusted (s : State) (sess : Session) : Bool :=
  let scope := selfProvisionScope s.db sess
  scope.2 && !scope.1

def hostsUpdate (s : State) (sess : Session) (id : ℕ) (env : EditEnv) (form : HostForm) (token : Str) : State :=
  if scopeCheckRoute s sess id then
    match s.row id with
    | none => s
    | some h =>
      let env := { env with platformAdmin := trusted s sess }
      match HostEdit.hostsUpdate idna isIP env form h with
      | .error _ => s
      | .ok new =>
        let s := s.modify id (CertAsk.commitEdit env.platformAdmin h new) fun _ => rfl
        if resets env.platformAdmin h new then s.setToken id token else s
  else s

/-- `guardSuperAdmin` -/
def approveLegacyAliases (s : State) (sess : Session) (id : ℕ) (claimed : Str) : State :=
  if sess.claims.role = .superAdmin then
    match s.row id with
    | none => s
    | some h => s.setVerified id (CertAsk.mergeClaim claimed h.base.aliases h.base.aliasesVerified)
  else s

def servePanel (s : State) (sess : Session) : PanelRequest → State
  | .hostsCreate f n => hostsCreate isIP s sess f n
  | .npmImport nodeGroupID hosts inputs => npmImport isIP s sess nodeGroupID hosts inputs
  | .hostsClone id newID nodes => hostsClone s sess id newID nodes
  | .hostsUpdate id env form token => hostsUpdate idna isIP s sess id env form token
  | .approveLegacyAliases id claimed => approveLegacyAliases s sess id claimed

/-! ### The pages of a client and the APIs -/

inductive PortalRequest where
  | routeCreate (n : CreateInput)
  | routeEditSave (id : ℕ) (form : ClientForm) (token : Str)

def routeEditSave (s : State) (id : ℕ) (form : ClientForm) (token : Str) : State :=
  match s.row id with
  | none => s
  | some h =>
    let new := clientEdited isIP form h
    let s := s.modify id (clientEdited isIP form) (clientEdited_id form)
    if new.base.domain ≠ toLower h.base.domain ∨ new.columns.pathPrefix ≠ h.columns.pathPrefix then
      s.setToken id token
    else s

/-- A route of the client that the user is. -/
def createOwn (s : State) (userID : ℕ) (n : CreateInput) : State :=
  match selfClient s.db.dir userID with
  | none => s
  | some c => create isIP s c.id n

def servePortal (s : State) (sess : Session) : PortalRequest → State
  | .routeCreate n => createOwn isIP s sess.userID n
  | .routeEditSave id form token => routeEditSave isIP s id form token

inductive ApiRequest where
  | routeCreate (n : CreateInput)
  | updateRoute (id : ℕ) (call : Routes.RouteUpdate.Call)
  | provisionRoute (n : CreateInput)

/-- The role is not asked for `requireAdmin`. -/
def apiRouteCreate (s : State) (c : User) (n : CreateInput) : State :=
  if c.role = .client then createOwn isIP s c.id n
  else
    match apiScope s.db c with
    | none => s
    | some (ids, all) =>
      if all then create isIP s 0 n
      else
        match s.db.services.lookup n.serviceID with
        | none => s
        | some sv => if sv.clientID ∈ ids then create isIP s sv.clientID n else s

def provisionRoute (s : State) (c : User) (n : CreateInput) : State :=
  if unrestrictedOwner s.db c && requireAdmin c &&
      (s.db.services.lookup n.serviceID).any fun sv => fbAllowClient s.db c sv.clientID then
    create isIP s 0 n
  else s

def serveApi (s : State) (c : User) : ApiRequest → State
  | .routeCreate n => apiRouteCreate isIP s c n
  | .updateRoute id call =>
    s.modify id (WildcardHosts.apiUpdated call) (WildcardHosts.apiUpdated_id call)
  | .provisionRoute n => provisionRoute isIP s c n

/-! ### Steps -/

inductive Action where
  /-- users, sessions and keys -/
  | desk (a : Desk.Action)
  /-- resellers, clients, plans and services -/
  | tenants (resellers : Rows Reseller.id) (clients : Rows Client.id) (plans : Rows Plan.id)
      (services : Rows Service.id)
  | panel (sess : Session) (req : PanelRequest)
  | portal (sess : Session) (req : PortalRequest)
  | api (key : ApiKey) (req : ApiRequest)
  | verify (id : ℕ) (answers : Str → List Str)
  | recheck (id : ℕ) (answers : Str → List Str)
  /-- the lifecycle and the placement -/
  | progress (id : ℕ) (status : Lifecycle.Status) (nodes : List ℕ) (withheld : Bool)
  | delete (id : ℕ)

def progressed (status : Lifecycle.Status) (nodes : List ℕ) (withheld : Bool) (h : HostRow) : HostRow :=
  WildcardHosts.progressed ⟨h.base.aliasesVerified, h.base.domainVerified, status, nodes, withheld⟩ h

def step (s : State) : Action → Option State
  | .desk a => (s.desk.step a).bind s.withDesk
  | .tenants resellers clients plans services =>
    some (s.withDb { dir := { s.db.dir with resellers, clients }, plans, services })
  | .panel sess req =>
    some (if s.desk.admits sess && entersPanel sess then servePanel idna isIP s sess req else s)
  | .portal sess req =>
    some (if s.desk.admits sess && sess.claims.role = .client then servePortal isIP s sess req else s)
  | .api key req =>
    match s.desk.owner key with
    | none => some s
    | some c => some (serveApi isIP s c req)
  | .verify id answers => some (verifyDomainToken answers s id)
  | .recheck id answers => some (recheckAliases answers s id)
  | .progress id status nodes withheld => some (s.modify id (progressed status nodes withheld) fun _ => rfl)
  | .delete id => some (s.removeAll fun h => h.base.id = id)

/-- The row of the user who sent the request. -/
def performer (s : State) : Action → Option User
  | .panel sess _ => if s.desk.admits sess then s.db.dir.users.lookup sess.userID else none
  | .portal sess _ => if s.desk.admits sess then s.db.dir.users.lookup sess.userID else none
  | .api key _ => s.desk.owner key
  | _ => none

end Service

/-! ### What counts -/

/-- The host is the proven domain of the row or one of its proven aliases. -/
def Proven (h : HostRow) (host : Str) : Prop :=
  (h.base.domainVerified ∧ host = h.base.domain) ∨ host ∈ splitHosts h.base.aliasesVerified

/-- The host counts as proven for the route. -/
def Counts (s : State) (id : ℕ) (host : Str) : Prop :=
  ∃ h ∈ s.table.rows, h.base.id = id ∧ Proven h host

/-- The step was made by an administrator of the platform, or a TXT answer for the host has the token of the route. -/
def Justified (s : State) (a : Action) (id : ℕ) (host : Str) : Prop :=
  (∃ u, performer s a = some u ∧ platform u) ∨
    ∃ answers, (a = .verify id answers ∨ a = .recheck id answers) ∧
      txtContains (answers (recordName host)) (s.owned id).verifyToken

/-- Whatever counts after a step did so before. -/
def NoneNew (s s' : State) : Prop :=
  ∀ id host, Counts s' id host → Counts s id host

/-- The domains are kept in lower case. -/
def Lower (s : State) : Prop :=
  ∀ h ∈ s.table.rows, toLower h.base.domain = h.base.domain

/-- A step that leaves the credentials alone and keeps domains in lower case. -/
structure Kept (s s' : State) : Prop where
  desk : s'.desk = s.desk
  lower : Lower s → Lower s'

variable {idna : Idna} {isIP : Str → Bool} {s s' s'' : State}

lemma NoneNew.refl (s : State) : NoneNew s s :=
  fun _ _ h => h

lemma NoneNew.trans (h : NoneNew s s') (h' : NoneNew s' s'') : NoneNew s s'' :=
  fun id host hc => h id host (h' id host hc)

lemma noneNew_of_table_eq (h : s'.table = s.table) : NoneNew s s' := by
  intro id host hc
  rwa [Counts, h] at hc

/-- A step of this kind that, where `Q` holds, lets nothing new count. -/
structure Served (Q : Prop) (s s' : State) : Prop extends Kept s s' where
  quiet : Q → NoneNew s s'

section Writes

variable {P Q : Prop} {id : ℕ} {f : HostRow → HostRow} {hf : ∀ h, (f h).base.id = h.base.id}

lemma Served.refl (s : State) : Served Q s s :=
  ⟨⟨rfl, fun h => h⟩, fun _ => .refl s⟩

lemma Served.trans (h : Served Q s s') (h' : Served Q s' s'') : Served Q s s'' :=
  ⟨⟨h'.desk.trans h.desk, fun hl => h'.lower (h.lower hl)⟩, fun hq => (h.quiet hq).trans (h'.quiet hq)⟩

lemma Served.imp (h : Served P s s') (hq : Q → P) : Served Q s s' :=
  ⟨h.toKept, fun h' => h.quiet (hq h')⟩

lemma served_of_table_eq (hdesk : s'.desk = s.desk) (htable : s'.table = s.table) : Served Q s s' := by
  refine ⟨⟨hdesk, fun hl => ?_⟩, fun _ => noneNew_of_table_eq htable⟩
  rwa [Lower, htable]

/-! ### Writes of the table -/

lemma served_modify (hlower : ∀ h, toLower h.base.domain = h.base.domain → toLower (f h).base.domain = (f h).base.domain)
    (hquiet : Q → ∀ h ∈ s.table.rows, h.base.id = id → ∀ host, Proven (f h) host → Proven h host) :
    Served Q s (s.modify id f hf) := by
  refine ⟨⟨rfl, fun hl h' hh' => ?_⟩, ?_⟩
  · obtain ⟨h₀, hh₀, rfl⟩ := mem_map.mp hh'
    split
    · exact hlower h₀ (hl h₀ hh₀)
    · exact hl h₀ hh₀
  rintro hq id' host ⟨h', hh', hid, hproven⟩
  obtain ⟨h₀, hh₀, rfl⟩ := mem_map.mp hh'
  by_cases hid₀ : h₀.base.id = id
  · rw [if_pos hid₀] at hid hproven
    exact ⟨h₀, hh₀, (hf h₀).symm.trans hid, hquiet hq h₀ hh₀ hid₀ host hproven⟩
  · rw [if_neg hid₀] at hid hproven
    exact ⟨h₀, hh₀, hid, hproven⟩

lemma served_removeAll (p : HostRow → Bool) : Served Q s (s.removeAll p) := by
  refine ⟨⟨rfl, fun hl h hh => hl h (mem_of_mem_filter hh)⟩, ?_⟩
  rintro - id host ⟨h, hh, hproven⟩
  exact ⟨h, mem_of_mem_filter hh, hproven⟩

lemma served_append {h : HostRow} {o : Owned} (hlower : Lower s → toLower h.base.domain = h.base.domain)
    (hnone : Q → ∀ host, ¬ Proven h host) : Served Q s (s.append h o) := by
  unfold State.append
  split
  · refine ⟨⟨rfl, fun hl h' hh' => ?_⟩, ?_⟩
    · obtain hh' | hh' := mem_append.mp hh'
      · exact hl h' hh'
      · rw [mem_singleton.mp hh']
        exact hlower hl
    · rintro hq id host ⟨h', hh', hid, hproven⟩
      obtain hh' | hh' := mem_append.mp hh'
      · exact ⟨h', hh', hid, hproven⟩
      · rw [mem_singleton.mp hh'] at hproven
        exact absurd hproven (hnone hq host)
  · exact .refl s

lemma served_withDb {db : DB} (husers : db.dir.users = s.db.dir.users) : Served Q s (s.withDb db) := by
  unfold State.withDb
  split
  · exact served_of_table_eq (by simp [State.desk, husers]) rfl
  · exact .refl s

lemma served_setToken (token : Str) : Served Q s (s.setToken id token) :=
  served_of_table_eq rfl rfl

lemma served_setVerified (verified : Str) : Served False s (s.setVerified id verified) :=
  served_modify (fun _ h => h) False.elim

end Writes

/-! ### The route service -/

section Service

/-- A route that is created for a client has proven nothing. -/
lemma served_create (s : State) (clientID : ℕ) (n : CreateInput) :
    Served (clientID ≠ 0) s (create isIP s clientID n) := by
  have happend : ∀ t : State, Served (clientID ≠ 0) t (t.append (n.host clientID) (n.owned clientID)) := by
    refine fun t => served_append (fun _ => Text.toLower_toLower _) fun hne host hproven => ?_
    obtain ⟨hverified, -⟩ | hmem := hproven
    · exact hne (of_decide_eq_true hverified)
    · cases hmem
  unfold create
  split
  · exact .refl s
  dsimp only
  split
  · split
    · split
      · exact .refl s
      · exact (served_removeAll _).trans (happend _)
    · exact happend s
  · exact .refl s

variable {id id' : ℕ} {h h' : HostRow} {host : Str}

lemma served_checkAliases (answers : Str → List Str) (h : HostRow) : Served False s (checkAliases answers s h) := by
  unfold checkAliases
  dsimp only
  split
  · exact .refl s
  split
  · exact served_setVerified _
  · exact .refl s

lemma served_verifyDomainToken (answers : Str → List Str) (id : ℕ) :
    Served False s (verifyDomainToken answers s id) := by
  unfold verifyDomainToken
  split
  · exact .refl s
  dsimp only
  split
  · exact served_checkAliases answers _
  · exact ((served_checkAliases answers _).trans (served_removeAll _)).trans (served_modify (fun _ h => h) False.elim)

lemma row_eq_some (hrow : s.row id = some h) : h ∈ s.table.rows ∧ h.base.id = id :=
  ⟨mem_of_find?_eq_some hrow, by simpa using find?_some hrow⟩

lemma eq_of_id_eq (hh : h ∈ s.table.rows) (hh' : h' ∈ s.table.rows) (hid : h.base.id = h'.base.id) : h = h' :=
  inj_on_of_nodup_map (pairwise_map.mpr (s.table.sorted.imp fun hlt => Nat.ne_of_lt hlt)) hh hh' hid

/-! ### TXT checks -/

variable {answers : Str → List Str}

/-- A check of the aliases adds those whose TXT record has the token. -/
lemma counts_checkAliases (hh : h ∈ s.table.rows)
    (hc : Counts (checkAliases answers s h) id host) : Counts s id host ∨ (id = h.base.id ∧
      txtContains (answers (recordName host)) (s.owned id).verifyToken) := by
  unfold checkAliases at hc
  dsimp only at hc
  split at hc
  · exact .inl hc
  split at hc
  · next verified hverified =>
    obtain ⟨h', hh', hid, hproven⟩ := hc
    obtain ⟨h₀, hh₀, rfl⟩ := mem_map.mp hh'
    by_cases hid₀ : h₀.base.id = h.base.id
    · obtain rfl := eq_of_id_eq hh₀ hh hid₀
      rw [if_pos rfl] at hid hproven
      have hid : h₀.base.id = id := hid
      subst hid
      obtain hdomain | hmem := hproven
      · exact .inl ⟨h₀, hh₀, rfl, .inl hdomain⟩
      obtain hold | htxt := CertAsk.mem_of_verifyAliases hverified hmem
      · exact .inl ⟨h₀, hh₀, rfl, .inr hold⟩
      · exact .inr ⟨rfl, htxt⟩
    · rw [if_neg hid₀] at hid hproven
      exact .inl ⟨h₀, hh₀, hid, hproven⟩
  · exact .inl hc

/-- It leaves the domains. -/
lemma domain_checkAliases (hh' : h' ∈ (checkAliases answers s h).table.rows) :
    ∃ h₀ ∈ s.table.rows, h₀.base.id = h'.base.id ∧ h₀.base.domain = h'.base.domain := by
  unfold checkAliases at hh'
  dsimp only at hh'
  split at hh'
  · exact ⟨h', hh', rfl, rfl⟩
  split at hh'
  · obtain ⟨h₀, hh₀, rfl⟩ := mem_map.mp hh'
    refine ⟨h₀, hh₀, ?_⟩
    split <;> exact ⟨rfl, rfl⟩
  · exact ⟨h', hh', rfl, rfl⟩

lemma counts_verifyDomainToken (hc : Counts (verifyDomainToken answers s id) id' host) : Counts s id' host ∨ (id' = id ∧
      txtContains (answers (recordName host)) (s.owned id').verifyToken) := by
  unfold verifyDomainToken at hc
  split at hc
  · exact .inl hc
  next h hrow =>
  obtain ⟨hh, rfl⟩ := row_eq_some hrow
  dsimp only at hc
  split at hc
  · exact counts_checkAliases hh hc
  next hguard =>
  simp only [Bool.or_eq_true, not_or, Bool.not_eq_true', Bool.not_eq_false] at hguard
  obtain ⟨h', hh', hid, hproven⟩ := hc
  obtain ⟨h₁, hh₁, rfl⟩ := mem_map.mp hh'
  have hh₁ := mem_of_mem_filter hh₁
  by_cases hid₁ : h₁.base.id = h.base.id
  · rw [if_pos hid₁] at hid hproven
    have hid : h₁.base.id = id' := hid
    obtain ⟨-, hdomain⟩ | hmem := hproven
    · -- the domain of the row is the one that the records were asked for
      obtain ⟨h₀, hh₀, hid₀, hd₀⟩ := domain_checkAliases hh₁
      obtain rfl := eq_of_id_eq hh₀ hh (hid₀.trans hid₁)
      have hhost : host = h₀.base.domain := hdomain.trans hd₀.symm
      rw [hhost, ← hid, hid₁]
      exact .inr ⟨rfl, hguard.2⟩
    · exact counts_checkAliases hh ⟨h₁, hh₁, hid, .inr hmem⟩
  · rw [if_neg hid₁] at hid hproven
    exact counts_checkAliases hh ⟨h₁, hh₁, hid, hproven⟩

lemma counts_recheckAliases (hc : Counts (recheckAliases answers s id) id' host) :
    Counts s id' host ∨ (id' = id ∧ txtContains (answers (recordName host)) (s.owned id').verifyToken) := by
  unfold recheckAliases at hc
  split at hc
  · exact .inl hc
  next h hrow =>
  obtain ⟨hh, rfl⟩ := row_eq_some hrow
  split at hc
  · exact .inl hc
  · exact counts_checkAliases hh hc

lemma served_recheckAliases (answers : Str → List Str) (id : ℕ) : Served False s (recheckAliases answers s id) := by
  unfold recheckAliases
  split
  · exact .refl s
  split
  · exact .refl s
  · exact served_checkAliases answers _

end Service

/-! ### Edits -/

/-- An edit that is not trusted proves nothing. -/
lemma proven_of_commitEdit {env : EditEnv} {form : HostForm} {h new : HostRow} (htrusted : env.platformAdmin = false)
    (hlower : toLower h.base.domain = h.base.domain) (hok : HostEdit.hostsUpdate idna isIP env form h = .ok new)
    {host : Str} (hproven : Proven (CertAsk.commitEdit env.platformAdmin h new h) host) : Proven h host := by
  obtain ⟨hverified, hhost⟩ | hmem := hproven
  · have hverified : (h.base.domainVerified && !resets env.platformAdmin h new) := hverified
    rw [Bool.and_eq_true, Bool.not_eq_true'] at hverified
    have hsame : new.base.domain = toLower h.base.domain := by
      by_contra hne
      have hreset : resets env.platformAdmin h new := by
        simp [resets, htrusted, matcherChangedForUpdate, hne]
      rw [hverified.2] at hreset
      cases hreset
    have hhost : host = new.base.domain := hhost
    exact .inl ⟨hverified.1, by rw [hhost, hsame, hlower]⟩
  · obtain ⟨domain, path, zone, aliases, hacc⟩ := HostEdit.accepted_of_hostsUpdate hok
    have hmem : host ∈ splitHosts new.base.aliasesVerified := hmem
    rw [hacc.applied] at hmem
    simp only [HostForm.apply, htrusted, Bool.false_eq_true, if_false, HostEdit.keepProvenHosts,
      CertAsk.splitHostCSV_eq_splitHosts] at hmem
    have hkept : splitHosts (NameLists.join ((splitHosts aliases).filter fun v =>
        (splitHosts h.base.aliasesVerified).contains v)) = _ :=
      CertAsk.splitHosts_join fun d hd => CertAsk.isName_of_mem_splitHosts (mem_of_mem_filter hd)
    rw [NameLists.join] at hkept
    rw [hkept] at hmem
    exact .inr (contains_iff_mem.mp (mem_filter.mp hmem).2)

lemma proven_of_clientEdited {form : ClientForm} {h : HostRow} (hlower : toLower h.base.domain = h.base.domain)
    {host : Str} (hproven : Proven (clientEdited isIP form h) host) : Proven h host := by
  unfold clientEdited at hproven
  dsimp only at hproven
  split at hproven
  · split at hproven
    · obtain ⟨hverified, hhost⟩ | hmem := hproven
      · simp only [Bool.and_eq_true, decide_eq_true_eq] at hverified
        exact .inl ⟨hverified.1.1, by rw [hhost, hverified.1.2, hlower]⟩
      · exact .inr hmem
    · exact hproven
  · exact hproven

lemma lower_clientEdited {form : ClientForm} {h : HostRow} (hlower : toLower h.base.domain = h.base.domain) :
    toLower (clientEdited isIP form h).base.domain = (clientEdited isIP form h).base.domain := by
  unfold clientEdited
  dsimp only
  split
  · split
    · exact Text.toLower_toLower _
    · exact hlower
  · exact hlower

/-! ### The authority of a credential -/

section Authority

variable {u : User} {sess : Session}

lemma role_of_superAdmin (hv : Vouched sess.claims u) (hrole : sess.claims.role = .superAdmin) :
    u.role = .superAdmin := by
  cases hv with
  | exact h => rw [← hrole, h]; rfl
  | role hr _ => rw [← hr, hrole]
  | orphaned _ hr _ _ =>
    rw [hrole] at hr
    obtain h | h | h := hr <;> cases h

/-- The session of an administrator who is not of the platform. -/
structure Limited (s : State) (sess : Session) (u : User) : Prop where
  mem : u ∈ s.db.dir.users
  id : u.id = sess.userID
  vouched : Vouched sess.claims u
  enters : entersPanel sess
  limited : platform u = false

variable (h : Limited s sess u)

include h

lemma Limited.ne_superAdmin : sess.claims.role ≠ .superAdmin :=
  fun hrole => PlanScope.role_ne_superAdmin h.limited (role_of_superAdmin h.vouched hrole)

/-- Who enters the panel and is not of the platform is an administrator or a reseller. -/
lemma Limited.role : u.role = .admin ∨ u.role = .reseller := by
  obtain heq | heq := h.vouched.role_eq
  · have henters := h.enters
    simp only [entersPanel, Bool.or_eq_true, decide_eq_true_eq, ← heq] at henters
    obtain (hsuper | hadmin) | hreseller := henters
    · exact absurd hsuper (PlanScope.role_ne_superAdmin h.limited)
    · exact .inl hadmin
    · exact .inr hreseller
  · exact .inl heq

/-- The scope of a limited administrator is never everything, whatever the session says. -/
lemma Limited.scopeAll : scopeAll s.db sess = false := by
  obtain ⟨ids, hids, -⟩ := Adminscope.scopeFilter_of_limited h.mem h.role h.limited
  have hexempt : PlanScope.scopeExempt sess = false := decide_eq_false h.ne_superAdmin
  rw [h.id] at hids
  simp [PlanScope.scopeAll, PlanScope.adminClientScope, hexempt, hids]

lemma Limited.trusted : trusted s sess = false := by
  simp only [HostProof.trusted, selfProvisionScope, h.scopeAll, Bool.false_eq_true, if_false]
  split <;> rfl

lemma Limited.bounded : bounded sess := by
  have henters := h.enters
  simp only [PlanScope.bounded, Bool.and_eq_true, Bool.or_eq_true, decide_eq_true_eq]
  refine ⟨h.ne_superAdmin, ?_⟩
  cases h.vouched with
  | orphaned hbound _ _ _ => exact .inl (.inl hbound)
  | role hr hfree =>
    obtain hrole | hrole | hrole := hfree
    · exact absurd (hr.trans hrole) h.ne_superAdmin
    · simp [entersPanel, hr, hrole] at henters
    · simp [entersPanel, hr, hrole] at henters
  | exact heq =>
    rw [heq]
    simp only [Accounts.User.claims, Bool.or_eq_true]
    cases hrid : u.resellerID with
    | some rid => exact .inl (.inl (by simpa [hrid] using s.db.dir.bound_ne u h.mem))
    | none =>
      obtain hrole | hrole := h.role
      · refine .inl (.inr (.inl ?_))
        simpa [platform, hrole, hrid] using h.limited
      · exact .inr hrole

end Authority

/-! ### Requests leave the credentials alone -/

lemma users_ensureAdminClient (d : Adminscope.Directory) (userID resellerID : ℕ) :
    (PlanScope.ensureAdminClient d userID resellerID).users = d.users := by
  unfold PlanScope.ensureAdminClient
  split
  · split <;> rfl
  · rfl

lemma users_hostsCreate (db : DB) (sess : Session) (f : PlanScope.HostForm) :
    (PlanScope.hostsCreate db sess f).dir.users = db.dir.users := by
  unfold PlanScope.hostsCreate PlanScope.selfProvision
  split
  · dsimp only
    split
    · exact users_ensureAdminClient _ _ _
    · split <;> exact users_ensureAdminClient _ _ _
  · rfl

lemma users_runNpmImport (db : DB) (sess : Session) (nodeGroupID : ℕ) (hosts : List (Str × ℕ)) :
    (PlanScope.runNpmImport db sess nodeGroupID hosts).dir.users = db.dir.users := by
  unfold PlanScope.runNpmImport
  split
  · rfl
  · dsimp only
    split <;> exact users_ensureAdminClient _ _ _

lemma served_creates (inputs : List CreateInput) (s : State) :
    Served False s (inputs.foldl (fun s n => create isIP s 0 n) s) := by
  induction inputs generalizing s with
  | nil => exact .refl s
  | cons n inputs ih => exact ((served_create s 0 n).imp False.elim).trans (ih _)

lemma served_hostsUpdate (sess : Session) (id : ℕ) (env : EditEnv) (form : HostForm) (token : Str) :
    Served (Lower s ∧ trusted s sess = false) s (hostsUpdate idna isIP s sess id env form token) := by
  unfold hostsUpdate
  split
  · split
    · exact .refl s
    next h hrow =>
    obtain ⟨hh, rfl⟩ := row_eq_some hrow
    dsimp only
    split
    · exact .refl s
    rename_i new hok
    have hmodify : Served (Lower s ∧ trusted s sess = false) s
        (s.modify h.base.id (CertAsk.commitEdit (trusted s sess) h new) fun _ => rfl) := by
      refine served_modify (fun h _ => (CertAsk.WellKept.commitEdit hok h).lower) ?_
      rintro ⟨hl, htrusted⟩ h₀ hh₀ hid host hproven
      obtain rfl := eq_of_id_eq hh₀ hh hid
      exact proven_of_commitEdit htrusted (hl h₀ hh) hok hproven
    split
    · exact hmodify.trans (served_setToken token)
    · exact hmodify
  · exact .refl s

/-- Nothing new counts after a request of a limited administrator, with whatever session it has. -/
lemma served_servePanel (sess : Session) (req : PanelRequest) :
    Served (Lower s ∧ ∃ u, Limited s sess u) s (servePanel idna isIP s sess req) := by
  cases req with
  | hostsCreate f n =>
    have hdb := served_withDb (Q := Lower s ∧ ∃ u, Limited s sess u) (users_hostsCreate s.db sess f)
    simp only [servePanel, hostsCreate]
    split
    · next hscope =>
      refine hdb.trans ((served_create _ _ n).imp ?_)
      rintro ⟨-, u, hu⟩
      have htrusted := hu.trusted
      simp only [trusted, hscope, Bool.true_and, Bool.not_eq_false'] at htrusted
      rw [htrusted, selfClientID]
      cases hself : selfClient s.db.dir sess.userID with
      | none => exact Nat.succ_ne_zero _
      | some c => exact s.client_ne c (mem_of_find?_eq_some hself)
    · exact hdb
  | npmImport nodeGroupID hosts inputs =>
    simp only [servePanel, npmImport]
    split
    · exact .refl s
    rename_i hfree
    have hdb := served_withDb (Q := False) (users_runNpmImport s.db sess nodeGroupID hosts)
    exact (hdb.trans (served_creates inputs _)).imp fun ⟨_, u, hu⟩ => hfree hu.bounded
  | hostsClone id newID nodes =>
    simp only [servePanel, hostsClone]
    split
    · split
      · exact .refl s
      rename_i h hrow
      refine served_append (fun hl => ?_) ?_
      · have hlower := hl h (row_eq_some hrow).1
        simp only [cloned, toLower, map_append] at hlower ⊢
        rw [hlower]
        rfl
      · rintro - host (⟨hverified, -⟩ | hmem)
        · cases hverified
        · cases hmem
    · exact .refl s
  | hostsUpdate id env form token =>
    exact (served_hostsUpdate sess id env form token).imp fun ⟨hl, u, hu⟩ => ⟨hl, hu.trusted⟩
  | approveLegacyAliases id claimed =>
    simp only [servePanel, approveLegacyAliases]
    split
    · next hrole =>
      split
      · exact .refl s
      · exact (served_setVerified _).imp fun ⟨_, u, hu⟩ => hu.ne_superAdmin hrole
    · exact .refl s

lemma served_createOwn {Q : Prop} (userID : ℕ) (n : CreateInput) : Served Q s (createOwn isIP s userID n) := by
  unfold createOwn
  split
  · exact .refl s
  · next c hc => exact (served_create s _ n).imp fun _ => s.client_ne c (mem_of_find?_eq_some hc)

lemma served_servePortal (sess : Session) (req : PortalRequest) : Served (Lower s) s (servePortal isIP s sess req) := by
  cases req with
  | routeCreate n => exact served_createOwn sess.userID n
  | routeEditSave id form token =>
    have hmodify : Served (Lower s) s (s.modify id (clientEdited isIP form) (clientEdited_id form)) :=
      served_modify (fun _ => lower_clientEdited) fun hl h hh _ _ hproven => proven_of_clientEdited (hl h hh) hproven
    simp only [servePortal, routeEditSave]
    split
    · exact .refl s
    split
    · exact hmodify.trans (served_setToken token)
    · exact hmodify

/-- Nothing new counts after a request with the key of a client or a limited administrator. -/
lemma served_serveApi (u : User) (req : ApiRequest) :
    Served (u ∈ s.db.dir.users ∧ u.role ≠ .support ∧ platform u = false) s (serveApi isIP s u req) := by
  cases req with
  | routeCreate n =>
    simp only [serveApi, apiRouteCreate]
    split
    · exact served_createOwn u.id n
    next hclient =>
    split
    · exact .refl s
    next ids all hscope =>
    split
    · next hall =>
      -- the scope of a limited administrator is not everything
      refine (served_create s 0 n).imp ?_
      rintro ⟨hu, hsupport, hlimited⟩
      have hsuper := PlanScope.role_ne_superAdmin hlimited
      have hapi : u.role ≠ .api := by
        intro h
        simp [platform, h] at hlimited
      have hrole : u.role = .admin ∨ u.role = .reseller := by
        cases hr : u.role <;> simp_all
      obtain ⟨ids', hids, -⟩ := Adminscope.scopeFilter_of_limited hu hrole hlimited
      simp [apiScope, hsuper, hapi, hids, hall] at hscope
    split
    · exact .refl s
    next sv hsv =>
    split
    · exact (served_create s _ n).imp fun _ => s.service_ne sv (Rows.lookup_eq_some.mp hsv).1
    · exact .refl s
  | updateRoute id call =>
    refine served_modify (fun h hl => by rw [apiUpdated_base, hl]) fun _ h _ _ host hproven => ?_
    rwa [Proven, apiUpdated_base] at hproven
  | provisionRoute n =>
    simp only [serveApi, provisionRoute]
    split
    · next hguard =>
      refine (served_create s 0 n).imp ?_
      rintro ⟨hu, -, hlimited⟩
      simp only [Bool.and_eq_true] at hguard
      obtain ⟨⟨howner, hadmin⟩, hallow⟩ := hguard
      obtain ⟨sv, -, hallow⟩ := (Option.any_eq_true _ _).mp hallow
      rw [PlanScope.not_fbAllowClient hu hlimited (PlanScope.role_of_requireAdmin hlimited hadmin) howner] at hallow
      cases hallow
    · exact .refl s

/-! ### Every run -/

structure Invariant (s : State) : Prop where
  lower : Lower s
  credited : Credited s.desk

lemma desk_withDesk {d : Desk} (h : s.withDesk d = some s') : s'.desk = d ∧ s'.table = s.table := by
  unfold State.withDesk at h
  split at h
  · cases h
    exact ⟨rfl, rfl⟩
  · cases h

/-- Nothing new counts but by a check of TXT records or for an administrator of the platform. -/
lemma served_step {a : Action} (hstep : step idna isIP s a = some s') : (∃ d, a = .desk d) ∨
    Served (Invariant s ∧ (∀ id answers, a ≠ .verify id answers ∧ a ≠ .recheck id answers) ∧
      ∀ u, performer s a = some u → platform u = false) s s' := by
  by_cases hdesk : ∃ d, a = .desk d
  · exact .inl hdesk
  right
  cases a with
  | desk a => exact absurd ⟨a, rfl⟩ hdesk
  | tenants resellers clients plans services =>
    cases hstep
    exact served_withDb rfl
  | panel sess req =>
    cases hstep
    split
    · next hguard =>
      obtain ⟨hadmits, henters⟩ := Bool.and_eq_true_iff.mp hguard
      refine (served_servePanel sess req).imp ?_
      rintro ⟨h, -, hlimited⟩
      obtain ⟨u, hlookup, hv⟩ := h.credited.vouched hadmits
      obtain ⟨hu, hid⟩ := Rows.lookup_eq_some.mp hlookup
      exact ⟨h.lower, u, hu, hid, hv, henters, hlimited u (by simp only [performer, hadmits, if_true]; exact hlookup)⟩
    · exact .refl s
  | portal sess req =>
    cases hstep
    split
    · exact (served_servePortal sess req).imp fun h => h.1.lower
    · exact .refl s
  | api key req =>
    simp only [HostProof.step] at hstep
    split at hstep
    · cases hstep
      exact .refl s
    rename_i c howner
    cases hstep
    obtain ⟨hkey, hu, hid, hepoch⟩ := Accounts.owner_eq_some howner
    exact (served_serveApi c req).imp fun h =>
      ⟨hu, (h.1.credited.key key hkey).of_accepted hu hid hepoch, h.2.2 c howner⟩
  | verify id answers =>
    cases hstep
    exact (served_verifyDomainToken answers id).imp fun h => (h.2.1 id answers).1 rfl
  | recheck id answers =>
    cases hstep
    exact (served_recheckAliases answers id).imp fun h => (h.2.1 id answers).2 rfl
  | progress id status nodes withheld =>
    cases hstep
    exact served_modify (fun _ hl => hl) fun _ _ _ _ _ hproven => hproven
  | delete id =>
    cases hstep
    exact served_removeAll _

theorem Invariant.step {a : Action} (h : Invariant s) (hstep : step idna isIP s a = some s') : Invariant s' := by
  obtain ⟨d, rfl⟩ | hserved := served_step hstep
  · obtain ⟨d, hd, hs'⟩ := Option.bind_eq_some_iff.mp hstep
    obtain ⟨hdesk, htable⟩ := desk_withDesk hs'
    refine ⟨?_, hdesk ▸ h.credited.step s.db.dir.bound_ne hd⟩
    unfold Lower
    rw [htable]
    exact h.lower
  · exact ⟨hserved.lower h.lower, hserved.desk ▸ h.credited⟩

/-- A host that begins to count does so on a TXT answer or on the word of the platform. -/
lemma justified_of_step {a : Action} {id : ℕ} {host : Str} (h : Invariant s)
    (hstep : step idna isIP s a = some s') (hbefore : ¬ Counts s id host) (hafter : Counts s' id host) :
    Justified s a id host := by
  by_contra hnot
  obtain ⟨d, rfl⟩ | hserved := served_step hstep
  · obtain ⟨d, -, hs'⟩ := Option.bind_eq_some_iff.mp hstep
    exact hbefore (noneNew_of_table_eq (desk_withDesk hs').2 id host hafter)
  refine hbefore (hserved.quiet ⟨h, fun id' answers => ⟨?_, ?_⟩, fun u hu => ?_⟩ id host hafter)
  · rintro rfl
    cases hstep
    obtain hold | ⟨rfl, htoken⟩ := counts_verifyDomainToken hafter
    · exact hbefore hold
    · exact hnot (.inr ⟨answers, .inl rfl, htoken⟩)
  · rintro rfl
    cases hstep
    obtain hold | ⟨rfl, htoken⟩ := counts_recheckAliases hafter
    · exact hbefore hold
    · exact hnot (.inr ⟨answers, .inr rfl, htoken⟩)
  · by_contra hp
    exact hnot (.inl ⟨u, hu, Bool.not_eq_false _ ▸ hp⟩)

/-- A node serves only hosts that count. -/
lemma counts_of_mem_nodeRoutes {hp : Caddyapi.Helpers} {portalDial : Str} {zones : List Str}
    {grants members : List (ℕ × ℕ)} {node : ℕ} {r : Caddyapi.Route}
    (hr : r ∈ Portal.nodeRoutes idna hp portalDial zones (s.table.db grants members) node) :
    ∃ h ∈ s.table.rows, r.id = Caddyapi.itoa h.base.id ∧ ∀ host ∈ r.hosts, Counts s h.base.id host := by
  obtain ⟨row, hrow, hon, rfl⟩ := Portal.mem_nodeRoutes.mp hr
  obtain ⟨h, hh, rfl⟩ := mem_map.mp hrow
  refine ⟨h, hh, (Portal.served_fields _).1, fun host hhost => ⟨h, hh, rfl, ?_⟩⟩
  have hverified : h.base.domainVerified := by
    simp only [Portal.onNode, Bool.and_eq_true] at hon
    exact hon.1.2
  obtain hmem | ⟨rfl, hne, -⟩ := Caddyapi.mem_withWildcardHost hhost
  · obtain hdomain | ⟨-, hproven⟩ := CertAsk.mem_routeHosts hmem
    · exact .inl ⟨hverified, hdomain⟩
    · exact .inr hproven
  · exact .inr (WildcardHosts.wildcardHost_proven hne)

/-- Before the first login and the first route. -/
structure Fresh (s : State) : Prop where
  sessions : s.sessions = []
  keys : s.keys = []
  table : s.table.rows = []

lemma Fresh.invariant (h : Fresh s) : Invariant s := by
  constructor
  · intro h' hh'
    rw [h.table] at hh'
    cases hh'
  constructor
  · intro sess hsess
    have hsess : sess ∈ s.sessions := hsess
    rw [h.sessions] at hsess
    cases hsess
  · intro k hk
    have hk : k ∈ s.keys := hk
    rw [h.keys] at hk
    cases hk

/-- Whatever counts as proven began to count on a TXT answer with the token of the route or by an operation of the
platform, and no node serves anything else. -/
theorem served_on_proof_or_platform (hs : Fresh s) (as : List Action)
    (hrun : Runs.run (step idna isIP) s as = some s') :
    (∀ id host, Counts s' id host →
      ∃ r : Runs.Rise (step idna isIP) (fun t => Counts t id host) s as s', Justified r.start r.label id host) ∧
    ∀ (hp : Caddyapi.Helpers) (portalDial : Str) (zones : List Str) (grants members : List (ℕ × ℕ)) (node : ℕ),
      ∀ r ∈ Portal.nodeRoutes idna hp portalDial zones (s'.table.db grants members) node,
        ∃ h ∈ s'.table.rows, r.id = Caddyapi.itoa h.base.id ∧ ∀ host ∈ r.hosts, Counts s' h.base.id host := by
  refine ⟨fun id host hcounts => ?_, fun hp portalDial zones grants members node r hr =>
    counts_of_mem_nodeRoutes hr⟩
  have hnone : ¬ Counts s id host := by
    rintro ⟨h, hh, -⟩
    rw [hs.table] at hh
    cases hh
  obtain ⟨r⟩ := Runs.exists_rise (P := fun t => Counts t id host) hnone hrun hcounts
  refine ⟨r, ?_⟩
  have hinv : Invariant r.start :=
    Runs.run_invariant (fun _ _ _ h hstep => Invariant.step h hstep) hs.invariant r.reached
  exact justified_of_step hinv r.taken r.absent r.begun

/-! ### A client proves a domain -/

def shopOwner : User where
  id := 1
  role := .client
  isActive := true

def shopPanel : State where
  db :=
    { dir :=
        { users := ⟨[shopOwner], by decide⟩
          resellers := ⟨[], nodup_nil⟩
          clients := ⟨[⟨1, 1, none⟩], by decide⟩
          user_ne := forall_mem_singleton.mpr (by decide)
          bound_ne := forall_mem_singleton.mpr (by decide) }
      plans := ⟨[], nodup_nil⟩
      services := ⟨[⟨1, 1, 1, 1, "10.0.0.1", 1, 65535⟩], by decide⟩ }
  sessions := []
  keys := []
  table := .empty
  owned := fun _ => ⟨0, []⟩
  client_ne := forall_mem_singleton.mpr (by decide)
  service_ne := forall_mem_singleton.mpr (by decide)

/-- The client creates a route, publishes the token and asks for the check. -/
def proofOfShop : List Action :=
  [.desk (.login 1), .portal ⟨1, shopOwner.claims, 0, none⟩ (.routeCreate
      { route := { id := 1, domain := "Shop.io", columns := Routes.RouteUpdate.plainRow }
        serviceID := 1, token := "t1", allowed := true }),
    .verify 1 fun name => if name = recordName "shop.io" then ["t1"] else []]

theorem served_on_proof_or_platform_shop :
    ∃ s', Runs.run (step Caddyapi.asciiIdna fun _ => false) shopPanel proofOfShop = some s' ∧
      ∃ r : Runs.Rise (step Caddyapi.asciiIdna fun _ => false) (fun t => Counts t 1 "shop.io") shopPanel
        proofOfShop s', Justified r.start r.label 1 "shop.io" := by
  have hsome : (Runs.run (step Caddyapi.asciiIdna fun _ => false) shopPanel proofOfShop).any (fun s' =>
      s'.table.rows.any fun h => h.base.id = 1 && h.base.domainVerified && h.base.domain = "shop.io") := by
    decide +kernel
  obtain ⟨s', hrun, hany⟩ := (Option.any_eq_true _ _).mp hsome
  obtain ⟨h, hh, hrow⟩ := any_eq_true.mp hany
  simp only [Bool.and_eq_true, decide_eq_true_eq] at hrow
  refine ⟨s', hrun, ?_⟩
  exact (served_on_proof_or_platform ⟨rfl, rfl, rfl⟩ proofOfShop hrun).1 1 _
    ⟨h, hh, hrow.1.1, .inl ⟨hrow.1.2, hrow.2.symm⟩⟩

end HostProof
