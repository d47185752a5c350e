import Mathlib.Data.List.Permutation
import CaddyPanel.Caddyapi.Route
import CaddyPanel.Lib.Runs

/-!
# Partial updates of a route (`UpdateRoute`)

A call reads the row, merges the fields it was given into what it read, checks the result against the
plan, and then writes all columns of the merged state in one transaction. Between the read and the
transaction other calls may run.
-/

namespace Routes.RouteUpdate

open List Option
open Text (Str trimSpace toLower)
open Caddyapi (Kind)
open Function (update update_self update_of_ne)
open Runs (bind_eq_ok run run_cons_eq_some)

/-! ### Rows and inputs -/

/-- The scheme, the firewall and the rate limit of a row. -/
structure RoutePolicy where
  scheme : Str
  waf : Bool
  wafBlock : Bool
  rate : Bool
  rateWindow : Str
  rateMaxEvents : Int
  rateKey : Str
  deriving DecidableEq

/-- The columns that an update reads. -/
structure Columns where
  ownerClient : Nat
  kind : Kind
  external : Bool
  requireClientCert : Bool
  upstreamPort : Int
  pathPrefix : Str
  ssl : Bool
  webSocket : Bool
  forceHTTPS : Bool
  policy : RoutePolicy
  deriving DecidableEq

/-- `UpdateInput`: a field that is not given stays as it is. -/
structure UpdateInput where
  upstreamPort : Option Int := none
  pathPrefix : Option Str := none
  ssl : Option Bool := none
  webSocket : Option Bool := none
  forceHTTPS : Option Bool := none
  upstreamScheme : Option Str := none
  wafEnabled : Option Bool := none
  wafBlocking : Option Bool := none
  rateEnabled : Option Bool := none
  rateWindow : Option Str := none
  rateMaxEvents : Option Int := none
  rateKey : Option Str := none

inductive UpdateError where
  | routeNotFound
  | serviceNotFound
  | serviceNotYours
  | invalidDomain
  | mtlsNeedsTLS
  | portOutOfRange
  | portInUse
  | pathNotInPlan
  | sslNotInPlan
  | webSocketNotInPlan
  /-- with the placeholder that the screen names -/
  | unsafePlaceholder (placeholder : Str)
  /-- with the text behind `ErrInvalidRouteField` -/
  | invalidField (msg : Str)
  deriving DecidableEq

/-! ### Checks against the plan -/

/-- `RouteState`: what the plan and the port range of the service constrain. -/
structure RouteState where
  kind : Kind
  external : Bool
  upstreamPort : Int
  pathPrefix : Str
  ssl : Bool
  webSocket : Bool
  redirectURL : Str := []

structure RoutePlan where
  portStart : Int
  portEnd : Int
  ssl : Bool
  webSocket : Bool
  path : Bool

/-- A route that dials a port of the service. -/
def RouteState.dials (st : RouteState) : Bool :=
  st.kind ≠ .redirect && !st.external

/-- `checkRouteState`; `portUsed` is the answer of the query for another row with the port. -/
def checkRouteState (plan : RoutePlan) (portUsed : Bool) (st : RouteState) : Except UpdateError Unit :=
  if st.dials && (st.upstreamPort < plan.portStart || plan.portEnd < st.upstreamPort) then
    .error .portOutOfRange
  else if st.dials && portUsed then .error .portInUse
  else if trimSpace st.pathPrefix ≠ [] && !plan.path then .error .pathNotInPlan
  else if st.ssl && !plan.ssl && !st.external then .error .sslNotInPlan
  else if st.webSocket && !plan.webSocket then .error .webSocketNotInPlan
  else if st.redirectURL = [] then .ok ()
  else (TenantTemplate.ScreenTenantTemplate st.redirectURL).mapError .unsafePlaceholder

/-- `CheckLockedPort`, with the range that the locked service row has. -/
def checkLockedPort (range : Option (Int × Int)) (st : RouteState) : Except UpdateError Unit :=
  if st.dials then
    match range with
    | none => .error .serviceNotFound
    | some (portStart, portEnd) =>
      if st.upstreamPort < portStart || portEnd < st.upstreamPort then .error .portOutOfRange
      else .ok ()
  else .ok ()

/-- A prefix starts with a slash and does not lead upwards. -/
def normalizePath (raw : Str) : Except UpdateError Str :=
  let p := trimSpace raw
  if p = [] then .ok []
  else
    let p := if "/".toList.isPrefixOf p then p else '/' :: p
    if ".." <:+: p then .error .invalidDomain else .ok p

/-! ### The policy -/

def rateWindowOf (window : Str) : Str :=
  if window = [] then "1m" else window

def rateMaxEventsOf (events : Int) : Int :=
  if events ≤ 0 then 100 else events

def rateKeyOf (key : Str) : Str :=
  if key = [] then "\x7bhttp.request.remote.host\x7d" else key

def RoutePolicy.withDefaults (p : RoutePolicy) : RoutePolicy :=
  { p with
    rateWindow := rateWindowOf p.rateWindow
    rateMaxEvents := rateMaxEventsOf p.rateMaxEvents
    rateKey := rateKeyOf p.rateKey }

/-- The fields of the input over those of the row. -/
def RoutePolicy.overlay (p : RoutePolicy) (i : UpdateInput) : RoutePolicy where
  scheme := (i.upstreamScheme.map fun v => toLower (trimSpace v)).getD p.scheme
  waf := i.wafEnabled.getD p.waf
  wafBlock := i.wafBlocking.getD p.wafBlock
  rate := i.rateEnabled.getD p.rate
  rateWindow := (i.rateWindow.map trimSpace).getD p.rateWindow
  rateMaxEvents := i.rateMaxEvents.getD p.rateMaxEvents
  rateKey := (i.rateKey.map trimSpace).getD p.rateKey

/-- What the call learns from other tables and packages. -/
structure UpdateEnv where
  /-- the plan of the service, read before the transaction -/
  plan : Option RoutePlan
  /-- another row of the service has the port, read before the transaction -/
  portUsed : Bool := false
  /-- the port range when the transaction holds the lock -/
  lockedRange : Option (Int × Int)
  wafAvailable : Bool := true
  rateAvailable : Bool := true
  /-- `time.ParseDuration` answers a duration -/
  parseDuration : Str → Bool

/-- No feature is enabled that the node's build of Caddy lacks. -/
def checkModules (env : UpdateEnv) (next : RoutePolicy) (i : UpdateInput) : Except UpdateError Unit :=
  if i.wafEnabled.isSome && next.waf && !env.wafAvailable then
    .error (.invalidField "WAF needs the coraza-caddy module on the node")
  else if i.rateEnabled.isSome && next.rate && !env.rateAvailable then
    .error (.invalidField "rate limiting needs the caddy-ratelimit module on the node")
  else .ok ()

/-- `applyPolicy` without its result, which is the overlay with its defaults. -/
def checkPolicy (env : UpdateEnv) (external : Bool) (p : RoutePolicy) (i : UpdateInput) :
    Except UpdateError Unit :=
  let next := (p.overlay i).withDefaults
  if i.upstreamScheme.isSome && next.scheme ≠ "http" && next.scheme ≠ "https" then
    .error (.invalidField "upstream_scheme must be http or https")
  else if i.upstreamScheme.isSome && external && next.scheme ≠ "https" then
    .error (.invalidField "external routes are always https")
  else if 1000000 < next.rateMaxEvents then
    .error (.invalidField "rate_max_events must be 1-1000000")
  else if !env.parseDuration next.rateWindow then
    .error (.invalidField "invalid rate_window (e.g. 1m, 30s)")
  else
    match TenantTemplate.ScreenTenantRateKey next.rateKey with
    | .error msg => .error (.invalidField ("rate_key: " ++ msg))
    | .ok () => checkModules env next i

/-- The defaults of the rate limit alone are no change. -/
def policyChanged (p : RoutePolicy) (i : UpdateInput) : Bool :=
  let next := (p.overlay i).withDefaults
  next.scheme ≠ p.scheme || next.waf ≠ p.waf || next.wafBlock ≠ p.wafBlock || next.rate ≠ p.rate ||
    (i.rateWindow.isSome && next.rateWindow ≠ p.rateWindow) ||
    (i.rateMaxEvents.isSome && next.rateMaxEvents ≠ p.rateMaxEvents) ||
    (i.rateKey.isSome && next.rateKey ≠ p.rateKey)

def nextPolicy (p : RoutePolicy) (i : UpdateInput) : RoutePolicy :=
  if policyChanged p i then (p.overlay i).withDefaults
  else
    { (p.overlay i).withDefaults with
      rateWindow := p.rateWindow
      rateMaxEvents := p.rateMaxEvents
      rateKey := p.rateKey }

/-! ### One call -/

/-- The columns that the transaction writes. -/
structure RouteWrite where
  upstreamPort : Int
  pathPrefix : Str
  ssl : Bool
  webSocket : Bool
  forceHTTPS : Bool
  policy : RoutePolicy

def nextPath (cur : Str) (i : UpdateInput) : Except UpdateError Str :=
  match i.pathPrefix with
  | none => .ok cur
  | some raw => normalizePath raw

/-- The fields of the input over those of the row that was read. -/
def merge (cur : Columns) (i : UpdateInput) (path : Str) : RouteWrite where
  upstreamPort := i.upstreamPort.getD cur.upstreamPort
  pathPrefix := path
  ssl := i.ssl.getD cur.ssl
  webSocket := i.webSocket.getD cur.webSocket
  forceHTTPS := i.forceHTTPS.getD cur.forceHTTPS || cur.requireClientCert
  policy := nextPolicy cur.policy i

def RouteWrite.state (w : RouteWrite) (cur : Columns) : RouteState where
  kind := cur.kind
  external := cur.external
  upstreamPort := w.upstreamPort
  pathPrefix := w.pathPrefix
  ssl := w.ssl
  webSocket := w.webSocket

/-- The test for a request that writes nothing new. -/
def RouteWrite.unchanged (w : RouteWrite) (cur : Columns) (i : UpdateInput) : Bool :=
  w.upstreamPort = cur.upstreamPort && w.pathPrefix = cur.pathPrefix && w.ssl = cur.ssl &&
    w.webSocket = cur.webSocket && w.forceHTTPS = cur.forceHTTPS && !policyChanged cur.policy i

def failIf (b : Bool) (e : UpdateError) : Except UpdateError Unit :=
  if b then .error e else .ok ()

/-- A call: who makes it, with which input, and what it learns on the way. -/
structure Call where
  /-- 0 for an administrator -/
  clientID : Nat := 0
  input : UpdateInput
  env : UpdateEnv

/-- `UpdateRoute` up to the transaction: what it is going to write, if anything. -/
def Call.prepare (call : Call) (cur : Columns) : Except UpdateError (Option RouteWrite) := do
  failIf (call.clientID ≠ 0 && cur.ownerClient ≠ call.clientID) .serviceNotYours
  let path ← nextPath cur.pathPrefix call.input
  let w := merge cur call.input path
  failIf (cur.requireClientCert && !w.ssl) .mtlsNeedsTLS
  let plan ← call.env.plan.elim (.error .serviceNotFound) .ok
  checkRouteState plan call.env.portUsed (w.state cur)
  checkPolicy call.env cur.external cur.policy call.input
  return if w.unchanged cur call.input then none else some w

/-- The `SET` clause of the `UPDATE`. -/
def RouteWrite.store (w : RouteWrite) (row : Columns) : Columns :=
  { row with
    upstreamPort := w.upstreamPort
    pathPrefix := w.pathPrefix
    ssl := w.ssl
    webSocket := w.webSocket
    forceHTTPS := w.forceHTTPS || row.requireClientCert
    policy := w.policy }

/-- The transaction on the row as it is then: the row it leaves and whether that is a change. -/
def Call.commit (call : Call) (cur : Columns) (w : RouteWrite) (live : Option Columns) :
    Except UpdateError (Columns × Bool) := do
  checkLockedPort call.env.lockedRange (w.state cur)
  match live with
  | none => throw .routeNotFound
  | some row =>
    failIf (!w.ssl && row.requireClientCert) .mtlsNeedsTLS
    return (w.store row, w.store row ≠ row)

/-- `UpdateRoute` from the row `cur` it has read on, on the row `row` that its transaction finds. -/
def Call.finish (call : Call) (cur row : Columns) : Except UpdateError (Columns × Bool) := do
  match ← call.prepare cur with
  | none => return (row, false)
  | some w => call.commit cur w (some row)

/-! ### What a call leaves -/

/-- The input asks for nothing that the row does not have. -/
def idle (cur : Columns) (i : UpdateInput) : Bool :=
  match nextPath cur.pathPrefix i with
  | .ok path => (merge cur i path).unchanged cur i
  | .error _ => false

variable {cur row row' row₁ row₂ : Columns} {changed bx b : Bool} {i j : UpdateInput} {p q : RoutePolicy}

/-- A call that ends well had a path to write, and wrote the merged columns or nothing. -/
lemma Call.finish_eq_ok {call : Call} (h : call.finish cur row = .ok (row', changed)) :
    ∃ path, nextPath cur.pathPrefix call.input = .ok path ∧
      row' = if (merge cur call.input path).unchanged cur call.input then row
        else (merge cur call.input path).store row := by
  obtain ⟨w, hw, h⟩ := bind_eq_ok.mp h
  obtain ⟨-, -, hw⟩ := bind_eq_ok.mp hw
  obtain ⟨path, hpath, hw⟩ := bind_eq_ok.mp hw
  obtain ⟨-, -, hw⟩ := bind_eq_ok.mp hw
  obtain ⟨plan, -, hw⟩ := bind_eq_ok.mp hw
  obtain ⟨-, -, hw⟩ := bind_eq_ok.mp hw
  obtain ⟨-, -, hw⟩ := bind_eq_ok.mp hw
  refine ⟨path, hpath, ?_⟩
  cases hw
  by_cases hu : (merge cur call.input path).unchanged cur call.input
  · rw [if_pos hu] at h ⊢
    cases h
    rfl
  · rw [if_neg hu] at h ⊢
    obtain ⟨-, -, h⟩ := bind_eq_ok.mp h
    obtain ⟨-, -, h⟩ := bind_eq_ok.mp h
    cases h
    rfl

/-- The policy has every value that the input sets, in the form in which a row keeps it. -/
@[mk_iff]
structure RoutePolicy.Carries (p : RoutePolicy) (i : UpdateInput) : Prop where
  scheme : ∀ v ∈ i.upstreamScheme, p.scheme = toLower (trimSpace v)
  waf : ∀ v ∈ i.wafEnabled, p.waf = v
  wafBlock : ∀ v ∈ i.wafBlocking, p.wafBlock = v
  rate : ∀ v ∈ i.rateEnabled, p.rate = v
  rateWindow : ∀ v ∈ i.rateWindow, p.rateWindow = rateWindowOf (trimSpace v)
  rateMaxEvents : ∀ v ∈ i.rateMaxEvents, p.rateMaxEvents = rateMaxEventsOf v
  rateKey : ∀ v ∈ i.rateKey, p.rateKey = rateKeyOf (trimSpace v)

/-- The row has every value that the input sets, in the form in which a row keeps it. -/
@[mk_iff]
structure Carries (row : Columns) (i : UpdateInput) : Prop where
  upstreamPort : ∀ v ∈ i.upstreamPort, row.upstreamPort = v
  pathPrefix : ∀ v ∈ i.pathPrefix, normalizePath v = .ok row.pathPrefix
  ssl : ∀ v ∈ i.ssl, row.ssl = v
  webSocket : ∀ v ∈ i.webSocket, row.webSocket = v
  -- a row that requires client certificates keeps its redirect to HTTPS
  forceHTTPS : ∀ v ∈ i.forceHTTPS, row.forceHTTPS = (v || row.requireClientCert)
  policy : row.policy.Carries i

/-- No field is set by both inputs. -/
structure Apart (i j : UpdateInput) : Prop where
  upstreamPort : i.upstreamPort = none ∨ j.upstreamPort = none
  pathPrefix : i.pathPrefix = none ∨ j.pathPrefix = none
  ssl : i.ssl = none ∨ j.ssl = none
  webSocket : i.webSocket = none ∨ j.webSocket = none
  forceHTTPS : i.forceHTTPS = none ∨ j.forceHTTPS = none
  upstreamScheme : i.upstreamScheme = none ∨ j.upstreamScheme = none
  wafEnabled : i.wafEnabled = none ∨ j.wafEnabled = none
  wafBlocking : i.wafBlocking = none ∨ j.wafBlocking = none
  rateEnabled : i.rateEnabled = none ∨ j.rateEnabled = none
  rateWindow : i.rateWindow = none ∨ j.rateWindow = none
  rateMaxEvents : i.rateMaxEvents = none ∨ j.rateMaxEvents = none
  rateKey : i.rateKey = none ∨ j.rateKey = none

lemma Apart.symm (h : Apart i j) : Apart j i where
  upstreamPort := h.upstreamPort.symm
  pathPrefix := h.pathPrefix.symm
  ssl := h.ssl.symm
  webSocket := h.webSocket.symm
  forceHTTPS := h.forceHTTPS.symm
  upstreamScheme := h.upstreamScheme.symm
  wafEnabled := h.wafEnabled.symm
  wafBlocking := h.wafBlocking.symm
  rateEnabled := h.rateEnabled.symm
  rateWindow := h.rateWindow.symm
  rateMaxEvents := h.rateMaxEvents.symm
  rateKey := h.rateKey.symm

/-! ### The policy that a call leaves -/

/-- The policies agree where the input sets a field. -/
structure RoutePolicy.SameOn (i : UpdateInput) (p q : RoutePolicy) : Prop where
  scheme : i.upstreamScheme = none ∨ p.scheme = q.scheme
  waf : i.wafEnabled = none ∨ p.waf = q.waf
  wafBlock : i.wafBlocking = none ∨ p.wafBlock = q.wafBlock
  rate : i.rateEnabled = none ∨ p.rate = q.rate
  rateWindow : i.rateWindow = none ∨ p.rateWindow = q.rateWindow
  rateMaxEvents : i.rateMaxEvents = none ∨ p.rateMaxEvents = q.rateMaxEvents
  rateKey : i.rateKey = none ∨ p.rateKey = q.rateKey

/-- A fact about each value an option holds moves along an equation that holds where it has one. -/
lemma forall_mem_congr {α β : Type} {o : Option α} {x y : β} {f : α → β} (h : o = none ∨ x = y) :
    (∀ v ∈ o, x = f v) ↔ ∀ v ∈ o, y = f v := by
  rcases h with rfl | rfl
  · simp
  · rfl

lemma RoutePolicy.SameOn.carries_iff (h : p.SameOn i q) : p.Carries i ↔ q.Carries i := by
  rw [RoutePolicy.carries_iff, RoutePolicy.carries_iff, forall_mem_congr h.scheme, forall_mem_congr h.waf,
    forall_mem_congr h.wafBlock, forall_mem_congr h.rate, forall_mem_congr h.rateWindow,
    forall_mem_congr h.rateMaxEvents, forall_mem_congr h.rateKey]

lemma rateWindowOf_rateWindowOf (v : Str) : rateWindowOf (rateWindowOf v) = rateWindowOf v := by
  unfold rateWindowOf
  split_ifs with h <;> simp_all

lemma rateMaxEventsOf_rateMaxEventsOf (v : Int) : rateMaxEventsOf (rateMaxEventsOf v) = rateMaxEventsOf v := by
  unfold rateMaxEventsOf
  split_ifs with h <;> simp_all

lemma rateKeyOf_rateKeyOf (v : Str) : rateKeyOf (rateKeyOf v) = rateKeyOf v := by
  unfold rateKeyOf
  split_ifs with h <;> simp_all

/-- Blank columns are no input's values, so filling them loses none. -/
lemma RoutePolicy.Carries.withDefaults (h : p.Carries i) : p.withDefaults.Carries i where
  scheme := h.scheme
  waf := h.waf
  wafBlock := h.wafBlock
  rate := h.rate
  rateWindow := fun v hv => by
    simp only [RoutePolicy.withDefaults, h.rateWindow v hv, rateWindowOf_rateWindowOf]
  rateMaxEvents := fun v hv => by
    simp only [RoutePolicy.withDefaults, h.rateMaxEvents v hv, rateMaxEventsOf_rateMaxEventsOf]
  rateKey := fun v hv => by
    simp only [RoutePolicy.withDefaults, h.rateKey v hv, rateKeyOf_rateKeyOf]

lemma RoutePolicy.carries_overlay (p : RoutePolicy) (i : UpdateInput) : (p.overlay i).withDefaults.Carries i := by
  constructor <;> rintro v hv <;> rw [mem_def] at hv <;>
    simp only [RoutePolicy.withDefaults, RoutePolicy.overlay, hv, map_some, getD_some]

/-- The columns that are compared before the policy counts as unchanged. -/
lemma not_policyChanged (h : policyChanged p i = false) : (p.overlay i).withDefaults.SameOn i p := by
  simp only [policyChanged, Bool.or_eq_false_iff, Bool.and_eq_false_iff, decide_eq_false_iff_not,
    ne_eq, not_not, isSome_eq_false_iff, isNone_iff_eq_none] at h
  obtain ⟨⟨⟨⟨⟨⟨hscheme, hwaf⟩, hblock⟩, hrate⟩, hwindow⟩, hevents⟩, hkey⟩ := h
  exact ⟨.inr hscheme, .inr hwaf, .inr hblock, .inr hrate, hwindow, hevents, hkey⟩

lemma nextPolicy_carries (p : RoutePolicy) (i : UpdateInput) : (nextPolicy p i).Carries i := by
  unfold nextPolicy
  split_ifs with h
  · exact p.carries_overlay i
  have hs := not_policyChanged (Bool.not_eq_true _ ▸ h)
  have hrest : (p.overlay i).withDefaults.SameOn i { (p.overlay i).withDefaults with
      rateWindow := p.rateWindow, rateMaxEvents := p.rateMaxEvents, rateKey := p.rateKey } :=
    ⟨.inr rfl, .inr rfl, .inr rfl, .inr rfl, hs.rateWindow, hs.rateMaxEvents, hs.rateKey⟩
  exact hrest.carries_iff.mp (p.carries_overlay i)

/-- What a write with input `i` leaves of the policy where `i` sets nothing: a change fills the
blank columns of the rate limit. -/
def settledPolicy (p : RoutePolicy) (i : UpdateInput) : RoutePolicy :=
  if policyChanged p i then p.withDefaults else p

lemma RoutePolicy.Carries.settledPolicy (h : p.Carries i) (j : UpdateInput) : (settledPolicy p j).Carries i := by
  unfold RouteUpdate.settledPolicy
  split_ifs
  · exact h.withDefaults
  · exact h

open RoutePolicy in
lemma overlay_sameOn (h : Apart i j) (p : RoutePolicy) : (p.overlay j).withDefaults.SameOn i p.withDefaults where
  scheme := h.upstreamScheme.imp_right fun hj => by simp [overlay, withDefaults, hj]
  waf := h.wafEnabled.imp_right fun hj => by simp [overlay, withDefaults, hj]
  wafBlock := h.wafBlocking.imp_right fun hj => by simp [overlay, withDefaults, hj]
  rate := h.rateEnabled.imp_right fun hj => by simp [overlay, withDefaults, hj]
  rateWindow := h.rateWindow.imp_right fun hj => by simp [overlay, withDefaults, hj]
  rateMaxEvents := h.rateMaxEvents.imp_right fun hj => by simp [overlay, withDefaults, hj]
  rateKey := h.rateKey.imp_right fun hj => by simp [overlay, withDefaults, hj]

lemma nextPolicy_sameOn (h : Apart i j) (p : RoutePolicy) : (nextPolicy p j).SameOn i (settledPolicy p j) := by
  have hs := overlay_sameOn h p
  unfold nextPolicy settledPolicy
  split_ifs
  · exact hs
  · exact ⟨hs.scheme, hs.waf, hs.wafBlock, hs.rate, .inr rfl, .inr rfl, .inr rfl⟩

/-! ### The row that a call leaves -/

/-- What a write with input `i` leaves in the columns that `i` does not set. -/
def settled (cur : Columns) (i : UpdateInput) : Columns :=
  { cur with
    forceHTTPS := cur.forceHTTPS || cur.requireClientCert
    policy := settledPolicy cur.policy i }

lemma Carries.settled (h : Carries row i) (j : UpdateInput) : Carries (settled row j) i where
  upstreamPort := h.upstreamPort
  pathPrefix := h.pathPrefix
  ssl := h.ssl
  webSocket := h.webSocket
  forceHTTPS := fun v hv => by simp [RouteUpdate.settled, h.forceHTTPS v hv]
  policy := h.policy.settledPolicy j

/-- The rows agree where the input sets a field. -/
structure SameOn (i : UpdateInput) (row row' : Columns) : Prop where
  upstreamPort : i.upstreamPort = none ∨ row.upstreamPort = row'.upstreamPort
  pathPrefix : i.pathPrefix = none ∨ row.pathPrefix = row'.pathPrefix
  ssl : i.ssl = none ∨ row.ssl = row'.ssl
  webSocket : i.webSocket = none ∨ row.webSocket = row'.webSocket
  forceHTTPS : i.forceHTTPS = none ∨ row.forceHTTPS = row'.forceHTTPS
  requireClientCert : row.requireClientCert = row'.requireClientCert
  policy : row.policy.SameOn i row'.policy

lemma SameOn.carries_iff (h : SameOn i row row') : Carries row i ↔ Carries row' i := by
  have hpath : (∀ v ∈ i.pathPrefix, normalizePath v = .ok row.pathPrefix) ↔
      ∀ v ∈ i.pathPrefix, normalizePath v = .ok row'.pathPrefix := by
    rcases h.pathPrefix with hnone | heq
    · simp [hnone]
    · rw [heq]
  rw [RouteUpdate.carries_iff, RouteUpdate.carries_iff, h.requireClientCert, forall_mem_congr h.upstreamPort, hpath,
    forall_mem_congr h.ssl, forall_mem_congr h.webSocket, forall_mem_congr h.forceHTTPS, h.policy.carries_iff]

section Write

variable {cur row : Columns} {i j : UpdateInput} {path : Str}

/-- A write carries the values of its own input. -/
lemma carries_store (hpath : nextPath cur.pathPrefix i = .ok path)
    (hcert : row.requireClientCert = cur.requireClientCert) : Carries ((merge cur i path).store row) i where
  upstreamPort := fun v hv => by simp [RouteWrite.store, merge, mem_def.mp hv]
  pathPrefix := fun v hv => by
    rw [nextPath, mem_def.mp hv] at hpath
    exact hpath
  ssl := fun v hv => by simp [RouteWrite.store, merge, mem_def.mp hv]
  webSocket := fun v hv => by simp [RouteWrite.store, merge, mem_def.mp hv]
  forceHTTPS := fun v hv => by simp [RouteWrite.store, merge, mem_def.mp hv, hcert]
  policy := nextPolicy_carries cur.policy i

/-- A call that finds nothing new to write has read its values. -/
lemma carries_of_unchanged (hpath : nextPath cur.pathPrefix i = .ok path)
    (h : (merge cur i path).unchanged cur i) : Carries cur i := by
  simp only [RouteWrite.unchanged, Bool.and_eq_true, decide_eq_true_eq, Bool.not_eq_true'] at h
  obtain ⟨⟨⟨⟨⟨hport, hpre⟩, hssl⟩, hws⟩, hforce⟩, hpol⟩ := h
  have hstore := carries_store hpath (rfl : cur.requireClientCert = cur.requireClientCert)
  exact
    { upstreamPort := fun v hv => hport ▸ hstore.upstreamPort v hv
      pathPrefix := fun v hv => hpre ▸ hstore.pathPrefix v hv
      ssl := fun v hv => hssl ▸ hstore.ssl v hv
      webSocket := fun v hv => hws ▸ hstore.webSocket v hv
      forceHTTPS := fun v hv => by
        rw [← hforce]
        simp [merge, mem_def.mp hv]
      policy := (not_policyChanged hpol).carries_iff.mp (cur.policy.carries_overlay i) }

/-- In the columns of another input a write puts back what its call has read. -/
lemma store_sameOn (hij : Apart i j) (hpath : nextPath cur.pathPrefix j = .ok path)
    (hcert : row.requireClientCert = cur.requireClientCert) :
    SameOn i ((merge cur j path).store row) (settled cur j) where
  upstreamPort := hij.upstreamPort.imp_right fun hj => by
    simp [RouteWrite.store, merge, settled, hj]
  pathPrefix := hij.pathPrefix.imp_right fun hj => by
    rw [nextPath, hj] at hpath
    cases hpath
    rfl
  ssl := hij.ssl.imp_right fun hj => by simp [RouteWrite.store, merge, settled, hj]
  webSocket := hij.webSocket.imp_right fun hj => by simp [RouteWrite.store, merge, settled, hj]
  forceHTTPS := hij.forceHTTPS.imp_right fun hj => by
    simp [RouteWrite.store, merge, settled, hj, hcert]
  requireClientCert := hcert
  policy := nextPolicy_sameOn hij cur.policy

variable {call : Call} {row' : Columns} {changed : Bool}

lemma Call.finish_requireClientCert (h : call.finish cur row = .ok (row', changed)) :
    row'.requireClientCert = row.requireClientCert := by
  obtain ⟨path, -, rfl⟩ := Call.finish_eq_ok h
  split_ifs <;> rfl

/-- A call that ends well leaves its own values, if a row that it need not change has kept them. -/
lemma Call.finish_carries (h : call.finish cur row = .ok (row', changed))
    (hcert : row.requireClientCert = cur.requireClientCert)
    (hkeep : Carries cur call.input → Carries row call.input) : Carries row' call.input := by
  obtain ⟨path, hpath, rfl⟩ := Call.finish_eq_ok h
  split_ifs with hu
  · exact hkeep (carries_of_unchanged hpath hu)
  · exact carries_store hpath hcert

/-- The values of another input survive a call that writes nothing or that has read them. -/
lemma Call.finish_carries_iff (h : call.finish cur row = .ok (row', changed))
    (hcert : row.requireClientCert = cur.requireClientCert) (hij : Apart i call.input) (hi : Carries row i) :
    Carries row' i ↔ idle cur call.input ∨ Carries (settled cur call.input) i := by
  obtain ⟨path, hpath, rfl⟩ := Call.finish_eq_ok h
  simp only [idle, hpath]
  split_ifs with hu
  · simp [hu, hi]
  · simp [hu, (store_sameOn hij hpath hcert).carries_iff]

end Write

/-! ### Two concurrent calls -/

inductive Caller where
  | first
  | second
  deriving DecidableEq

def Caller.other : Caller → Caller
  | .first => .second
  | .second => .first

/-- A call takes effect at two points: where it reads the row and where its transaction runs. -/
inductive Event where
  | read (c : Caller)
  | write (c : Caller)
  deriving DecidableEq

/-- The row, what each call has read, and how each call has ended. -/
structure State where
  row : Columns
  read : Caller → Option Columns
  result : Caller → Option (Except UpdateError Bool)

def start (row : Columns) : State where
  row := row
  read := fun _ => none
  result := fun _ => none

/-- The row after a transaction; one that fails is rolled back. -/
def rowAfter (row : Columns) : Except UpdateError (Columns × Bool) → Columns
  | .ok (row', _) => row'
  | .error _ => row

def step (calls : Caller → Call) (s : State) : Event → Option State
  | .read c =>
    match s.read c with
    | some _ => none
    | none => some { s with read := update s.read c (some s.row) }
  | .write c =>
    match s.read c, s.result c with
    | some cur, none =>
      let answer := (calls c).finish cur s.row
      some { s with
          row := rowAfter s.row answer
          result := update s.result c (some (answer.map Prod.snd)) }
    | _, _ => none

variable {calls : Caller → Call} {s s' t : State} {c x y : Caller} {events : List Event}

lemma step_read : step calls s (.read c) = some s' ↔
    s.read c = none ∧ s' = { s with read := update s.read c (some s.row) } := by
  simp only [step]
  cases s.read c <;> simp [eq_comm]

lemma step_write : step calls s (.write c) = some s' ↔
    ∃ cur, s.read c = some cur ∧ s.result c = none ∧ s' = { s with
        row := rowAfter s.row ((calls c).finish cur s.row)
        result := update s.result c (some (((calls c).finish cur s.row).map Prod.snd)) } := by
  simp only [step]
  cases s.read c <;> cases s.result c <;> simp [eq_comm]

lemma Caller.eq_or_eq_other (c x : Caller) : c = x ∨ c = x.other := by
  cases c <;> cases x <;> simp [Caller.other]

@[simp] lemma Caller.other_ne (x : Caller) : x.other ≠ x := by
  cases x <;> simp [Caller.other]

@[simp] lemma Caller.ne_other (x : Caller) : x ≠ x.other :=
  (Caller.other_ne x).symm

/-- The other call has read before `c` writes and writes after it. -/
def WritesOver (events : List Event) (c : Caller) : Prop :=
  List.Sublist [.read c.other, .write c, .write c.other] events

instance (events : List Event) (c : Caller) : Decidable (WritesOver events c) :=
  inferInstanceAs (Decidable (List.Sublist _ _))

/-! ### The orders of two calls -/

def Event.caller : Event → Caller
  | .read c | .write c => c

/-- What a call has still to do. -/
def State.pending (s : State) (c : Caller) : List Event :=
  match s.read c, s.result c with
  | none, _ => [.read c, .write c]
  | some _, none => [.write c]
  | some _, some _ => []

/-- Calls that have all ended have done what they had to do, in its order. -/
lemma filter_events (hrun : run (step calls) s events = some t) (ht : ∀ c, (t.result c).isSome)
    (hread : ∀ c, (s.result c).isSome → (s.read c).isSome) (c : Caller) :
    events.filter (fun e => e.caller = c) = s.pending c := by
  induction events generalizing s with
  | nil =>
    cases hrun
    obtain ⟨answer, hanswer⟩ := isSome_iff_exists.mp (ht c)
    obtain ⟨cur, hcur⟩ := isSome_iff_exists.mp (hread c (ht c))
    simp [State.pending, hanswer, hcur]
  | cons e events ih =>
    obtain ⟨s', hs', hrun⟩ := run_cons_eq_some.mp hrun
    cases e with
    | read x =>
      obtain ⟨hnone, rfl⟩ := step_read.mp hs'
      have hresult : s.result x = none := by
        by_contra hsome
        simpa [hnone] using hread x (isSome_iff_ne_none.mpr hsome)
      rw [filter_cons, ih hrun fun y hy => by
        by_cases hyx : y = x
        · simp [hyx]
        · simpa [update_of_ne hyx] using hread y hy]
      by_cases hxc : x = c
      · subst hxc
        simp [Event.caller, State.pending, hnone, hresult]
      · simp [Event.caller, hxc, State.pending, update_of_ne (Ne.symm hxc)]
    | write x =>
      obtain ⟨cur, hcur, hnone, rfl⟩ := step_write.mp hs'
      rw [filter_cons, ih hrun fun y hy => by
        by_cases hyx : y = x
        · simp [hyx, hcur]
        · exact hread y (by simpa [update_of_ne hyx] using hy)]
      by_cases hxc : x = c
      · subst hxc
        simp [Event.caller, State.pending, hcur, hnone]
      · simp [Event.caller, hxc, State.pending, update_of_ne (Ne.symm hxc)]

/-- Two calls that end have run one after the other, or both have read before either wrote. -/
lemma events_of_ended (hrun : run (step calls) (start row) events = some s) (hs : ∀ c, (s.result c).isSome) :
    ∃ x y : Caller, events = [.read x, .write x, .read x.other, .write x.other] ∨
      events = [.read y, .read y.other, .write x, .write x.other] := by
  have hfilter : ∀ c, events.filter (fun e => e.caller = c) = [.read c, .write c] :=
    filter_events hrun hs fun _ h => (nomatch h)
  have hother : events.filter (fun e => !decide (e.caller = .first)) = [.read .second, .write .second] := by
    rw [← hfilter .second]
    refine filter_congr fun e _ => ?_
    cases e.caller <;> rfl
  have hperm := filter_append_perm (fun e : Event => decide (e.caller = .first)) events
  rw [hfilter .first, hother] at hperm
  have horders : ∀ l ∈ [Event.read .first, .write .first, .read .second, .write .second].permutations',
      (∀ c ∈ [Caller.first, .second], l.filter (fun e => e.caller = c) = [.read c, .write c]) →
      ∃ x ∈ [Caller.first, .second], ∃ y ∈ [Caller.first, .second],
        l = [.read x, .write x, .read x.other, .write x.other] ∨
          l = [.read y, .read y.other, .write x, .write x.other] := by
    decide
  obtain ⟨x, -, y, -, h⟩ := horders events (mem_permutations'.mpr hperm.symm) fun c _ => hfilter c
  exact ⟨x, y, h⟩

/-! ### What two calls leave -/

/-- A write that ends well leaves what `finish` has made of the row. -/
lemma write_ok (h : step calls s (.write c) = some s') (hok : s'.result c = some (.ok changed)) :
    ∃ cur, s.read c = some cur ∧ (calls c).finish cur s.row = .ok (s'.row, changed) := by
  obtain ⟨cur, hcur, -, rfl⟩ := step_write.mp h
  simp only [update_self] at hok
  refine ⟨cur, hcur, ?_⟩
  generalize (calls c).finish cur s.row = answer at hok ⊢
  cases answer with
  | error e => cases hok
  | ok p =>
    cases hok
    rfl

lemma result_write_other (h : step calls s (.write x.other) = some s') : s'.result x = s.result x := by
  obtain ⟨cur, -, -, rfl⟩ := step_write.mp h
  exact update_of_ne (Caller.ne_other x) _ _

/-- Both calls have read the same row: the second writes over what the first has written. -/
lemma overlapping_carries_iff {x y : Call} (hxy : Apart x.input y.input) (hx : x.finish row row = .ok (row₁, bx))
    (hy : y.finish row row₁ = .ok (row₂, b)) :
    (Carries row₂ x.input ∧ Carries row₂ y.input) ↔ idle row y.input ∨ Carries (settled row y.input) x.input := by
  have hcert := Call.finish_requireClientCert hx
  have hown : Carries row₂ y.input := Call.finish_carries hy hcert fun h =>
    (Call.finish_carries_iff hx rfl hxy.symm h).mpr (.inr (h.settled x.input))
  rw [← Call.finish_carries_iff hy hcert hxy (Call.finish_carries hx rfl id)]
  exact and_iff_left hown

lemma run_sequential (hrun : run (step calls) (start row) [.read x, .write x, .read x.other, .write x.other] = some s)
    (hok : ∀ c, ∃ changed, s.result c = some (.ok changed)) :
    ∃ row₁ b₁ b₂, (calls x).finish row row = .ok (row₁, b₁) ∧ (calls x.other).finish row₁ row₁ = .ok (s.row, b₂) := by
  obtain ⟨s₁, h₁, hrun⟩ := run_cons_eq_some.mp hrun
  obtain ⟨-, rfl⟩ := step_read.mp h₁
  obtain ⟨s₂, h₂, hrun⟩ := run_cons_eq_some.mp hrun
  obtain ⟨s₃, h₃, hrun⟩ := run_cons_eq_some.mp hrun
  obtain ⟨-, rfl⟩ := step_read.mp h₃
  obtain ⟨s₄, h₄, hrun⟩ := run_cons_eq_some.mp hrun
  cases hrun
  obtain ⟨b₁, hb₁⟩ := hok x
  obtain ⟨b₂, hb₂⟩ := hok x.other
  obtain ⟨cur, hcur, hfirst⟩ := write_ok h₂ ((result_write_other h₄).symm.trans hb₁)
  obtain ⟨cur', hcur', hsecond⟩ := write_ok h₄ hb₂
  simp only [update_self, Option.some.injEq] at hcur hcur'
  subst hcur hcur'
  exact ⟨_, b₁, b₂, hfirst, hsecond⟩

lemma run_overlapping (hrun : run (step calls) (start row) [.read y, .read y.other, .write x, .write x.other] = some s)
    (hok : ∀ c, ∃ changed, s.result c = some (.ok changed)) :
    ∃ row₁ b₁ b₂, (calls x).finish row row = .ok (row₁, b₁) ∧ (calls x.other).finish row row₁ = .ok (s.row, b₂) := by
  obtain ⟨s₁, h₁, hrun⟩ := run_cons_eq_some.mp hrun
  obtain ⟨-, rfl⟩ := step_read.mp h₁
  obtain ⟨s₂, h₂, hrun⟩ := run_cons_eq_some.mp hrun
  obtain ⟨-, rfl⟩ := step_read.mp h₂
  -- whichever call read first, both have read the row of the start
  have hread : ∀ c, update (update (start row).read y (some row)) y.other (some row) c = some row := by
    intro c
    rcases c.eq_or_eq_other y with rfl | rfl <;> simp
  obtain ⟨s₃, h₃, hrun⟩ := run_cons_eq_some.mp hrun
  obtain ⟨s₄, h₄, hrun⟩ := run_cons_eq_some.mp hrun
  cases hrun
  obtain ⟨b₁, hb₁⟩ := hok x
  obtain ⟨b₂, hb₂⟩ := hok x.other
  obtain ⟨cur, hcur, hfirst⟩ := write_ok h₃ ((result_write_other h₄).symm.trans hb₁)
  obtain ⟨cur', hcur', hsecond⟩ := write_ok h₄ hb₂
  obtain ⟨cur₀, -, -, rfl⟩ := step_write.mp h₃
  cases (hread x).symm.trans hcur
  cases (hread x.other).symm.trans hcur'
  exact ⟨_, b₁, b₂, hfirst, hsecond⟩

lemma Apart.of_caller (h : Apart (calls .first).input (calls .second).input) (x : Caller) :
    Apart (calls x).input (calls x.other).input := by
  cases x with
  | first => exact h
  | second => exact h.symm

lemma Caller.forall_iff {p : Caller → Prop} (x : Caller) : (∀ c, p c) ↔ p x ∧ p x.other := by
  refine ⟨fun h => ⟨h x, h x.other⟩, fun h c => ?_⟩
  rcases c.eq_or_eq_other x with rfl | rfl
  · exact h.1
  · exact h.2

/-- The values of two successful calls with separate fields are both in the row exactly when no call
writes over the other: a call that read before the other's write and writes after it must have
nothing new to write, or the row that both have read must have had the other's values already. -/
theorem both_inputs_carried_iff (hapart : Apart (calls .first).input (calls .second).input)
    {row : Columns} {events : List Event} (hrun : Runs.run (step calls) (start row) events = some s)
    (hok : ∀ c, ∃ changed, s.result c = some (.ok changed)) :
    (∀ c, Carries s.row (calls c).input) ↔ ∀ c, WritesOver events c →
        idle row (calls c.other).input ∨ Carries (settled row (calls c.other).input) (calls c).input := by
  have hend : ∀ c, (s.result c).isSome := by
    intro c
    obtain ⟨changed, hc⟩ := hok c
    rw [hc]
    rfl
  obtain ⟨x, y, rfl | rfl⟩ := events_of_ended hrun hend
  · obtain ⟨row₁, b₁, b₂, hx, hy⟩ := run_sequential hrun hok
    have hnone : ∀ c, ¬ WritesOver [.read x, .write x, .read x.other, .write x.other] c := by
      cases x <;> rintro (_ | _) <;> decide
    rw [Caller.forall_iff x]
    -- each call finds what the other has left
    have hx₁ := Call.finish_carries hx rfl id
    exact iff_of_true ⟨(Call.finish_carries_iff hy rfl (hapart.of_caller x) hx₁).mpr (.inr (hx₁.settled _)),
      Call.finish_carries hy rfl id⟩ fun c hc => absurd hc (hnone c)
  · obtain ⟨row₁, b₁, b₂, hx, hy⟩ := run_overlapping hrun hok
    have hover : WritesOver [.read y, .read y.other, .write x, .write x.other] x := by
      cases x <;> cases y <;> decide
    have hnone : ¬ WritesOver [.read y, .read y.other, .write x, .write x.other] x.other := by
      cases x <;> cases y <;> decide
    rw [Caller.forall_iff x, Caller.forall_iff x,
      overlapping_carries_iff (hapart.of_caller x) hx hy]
    exact ⟨fun h => ⟨fun _ => h, fun hc => absurd hc hnone⟩, fun h => h.1 hover⟩

/-- A row with a blank rate limit. -/
def plainRow : Columns where
  ownerClient := 7
  kind := .proxy
  external := false
  requireClientCert := false
  upstreamPort := 8080
  pathPrefix := []
  ssl := true
  webSocket := false
  forceHTTPS := false
  policy := ⟨"http", false, false, false, [], 0, []⟩

/-- One call moves the port, the other sets the prefix. -/
def portAndPath : Caller → Call
  | .first => { clientID := 7, input := { upstreamPort := some 8081 }, env := env }
  | .second => { clientID := 7, input := { pathPrefix := some "app" }, env := env }
where
  env : UpdateEnv :=
    { plan := some ⟨8000, 8999, true, true, true⟩
      lockedRange := some (8000, 8999)
      parseDuration := fun window => window = "1m" }

lemma portAndPath_apart : Apart (portAndPath .first).input (portAndPath .second).input := by
  constructor <;> simp [portAndPath]

theorem both_inputs_carried_iff_sequential : ∃ s, Runs.run (step portAndPath) (start plainRow)
        [.read .second, .write .second, .read .first, .write .first] = some s ∧
      (∀ c, ∃ changed, s.result c = some (.ok changed)) ∧ ∀ c, Carries s.row (portAndPath c).input := by
  have hok : ∀ c, ∃ changed, ((Runs.run (step portAndPath) (start plainRow)
      [.read .second, .write .second, .read .first, .write .first]).get rfl).result c =
        some (.ok changed) := by
    rintro (_ | _)
    · exact ⟨true, by decide +kernel⟩
    · exact ⟨true, by decide +kernel⟩
  refine ⟨_, eq_some_iff_get_eq.mpr ⟨rfl, rfl⟩, hok, ?_⟩
  refine (both_inputs_carried_iff portAndPath_apart
    (eq_some_iff_get_eq.mpr ⟨rfl, rfl⟩) hok).mpr fun c hc => ?_
  exact absurd hc (by revert c; rintro (_ | _) <;> decide)

theorem concurrent_update_loses_port :
    Apart (portAndPath .first).input (portAndPath .second).input ∧
    ∃ s, Runs.run (step portAndPath) (start plainRow)
        [.read .first, .read .second, .write .first, .write .second] = some s ∧
      (∀ c, s.result c = some (.ok true)) ∧ ¬ ∀ c, Carries s.row (portAndPath c).input := by
  refine ⟨portAndPath_apart, _, rfl, ?_, fun h => ?_⟩
  · rintro (_ | _)
    · rfl
    · rfl
  · have hport := (h .first).upstreamPort 8081 rfl
    revert hport
    decide +kernel

/-! ### Client certificates and TLS -/

/-- What the form of an external route cannot change. -/
def externalShape (f : Columns) : Columns :=
  if f.external then
    { f with
      ssl := true
      upstreamPort := if f.upstreamPort = 0 then 443 else f.upstreamPort
      policy := { f.policy with scheme := "https" } }
  else f

/-- `Create` up to its INSERT, with the plan of the service and whether the CA can be used. -/
def createRow (plan : RoutePlan) (caUsable : Bool) (form : Columns) : Except Str Columns :=
  let f := externalShape form
  let kind := if f.external then .proxy else f.kind
  let ssl := f.ssl && (plan.ssl || f.external)
  if f.requireClientCert && !ssl then .error "mTLS requires SSL enabled on the host"
  else if f.requireClientCert && !caUsable then .error "mTLS requires an active CA with an uploaded certificate"
  else
    .ok { f with
      kind, ssl
      upstreamPort := if kind = .redirect then 0 else f.upstreamPort
      webSocket := f.webSocket && plan.webSocket
      forceHTTPS := f.forceHTTPS || f.requireClientCert }

/-- `HostsUpdate` up to its UPDATE, which writes both columns from the form. -/
def editRow (caID : Int) (caActive : Bool) (form row : Columns) : Except Str Columns :=
  let f := externalShape form
  if f.requireClientCert && caID ≤ 0 then .error "require_client_cert needs an mTLS CA assigned"
  else if f.requireClientCert && !caActive then
    .error "selected mTLS CA is not active - upload a certificate first"
  else if f.requireClientCert && !f.ssl then
    .error "client certificates require SSL - enable SSL for this host or turn mTLS off"
  else .ok { f with ownerClient := row.ownerClient, forceHTTPS := f.forceHTTPS || f.requireClientCert }

/-- The table of routes, and the API calls between their read and their transaction. -/
structure Store where
  rows : ℕ → Option Columns := fun _ => none
  calls : ℕ → Option (ℕ × Call × Columns × RouteWrite) := fun _ => none

/-- The steps of the writers; `fails` has every other check and every error of the database. -/
inductive Write where
  | create (id : ℕ) (plan : RoutePlan) (caUsable : Bool) (form : Columns) (fails : Bool)
  | edit (id : ℕ) (caID : Int) (caActive : Bool) (form : Columns) (fails : Bool)
  | read (c id : ℕ) (call : Call)
  | commit (c : ℕ) (fails : Bool)

def Store.set (s : Store) (id : ℕ) (row : Option Columns) (fails : Bool) : Store :=
  if fails || row.isNone then s else { s with rows := update s.rows id row }

def Store.step (s : Store) : Write → Option Store
  | .create id plan caUsable form fails =>
    if (s.rows id).isSome then none else some (s.set id (createRow plan caUsable form).toOption fails)
  | .edit id caID caActive form fails =>
    (s.rows id).map fun row => s.set id (editRow caID caActive form row).toOption fails
  | .read c id call =>
    match s.rows id with
    | some cur =>
      match call.prepare cur with
      | .ok (some w) => some { s with calls := update s.calls c (some (id, call, cur, w)) }
      | .ok none | .error _ => some s
    | none => some s
  | .commit c fails =>
    (s.calls c).map fun (id, call, cur, w) =>
      { s with calls := update s.calls c none }.set id
        ((call.commit cur w (s.rows id)).toOption.map Prod.fst) fails

lemma eq_ok_of_toOption {ε α : Type} {x : Except ε α} {a : α} (h : x.toOption = some a) : x = .ok a := by
  cases x with
  | error e => cases h
  | ok b => exact congrArg _ (Option.some.inj h)

def CertNeedsTLS (row : Columns) : Prop :=
  row.requireClientCert → row.ssl

def Store.Sound (s : Store) : Prop :=
  ∀ id row, s.rows id = some row → CertNeedsTLS row

lemma Store.Sound.set {s : Store} {id : ℕ} {o : Option Columns} {fails : Bool} (hs : s.Sound)
    (h : ∀ row, o = some row → CertNeedsTLS row) : (s.set id o fails).Sound := by
  unfold Store.set
  split
  · exact hs
  intro k row hrow
  obtain ⟨-, hrow⟩ | ⟨-, hrow⟩ := Runs.update_eq_some (f := s.rows) hrow
  · exact h row hrow
  · exact hs k row hrow

/-- The check of both forms. -/
lemma ssl_of_check {cert ssl : Bool} (h : ¬(cert && !ssl)) (hcert : cert) : ssl := by
  simpa [hcert] using h

lemma certNeedsTLS_createRow {plan : RoutePlan} {caUsable : Bool} {form : Columns}
    (h : createRow plan caUsable form = .ok row) : CertNeedsTLS row := by
  unfold createRow at h
  dsimp only at h
  split at h
  · cases h
  rename_i htls
  split at h <;> cases h
  exact ssl_of_check htls

lemma certNeedsTLS_editRow {caID : Int} {caActive : Bool} {form : Columns}
    (h : editRow caID caActive form cur = .ok row) : CertNeedsTLS row := by
  unfold editRow at h
  dsimp only at h
  split_ifs at h with hid hactive htls
  all_goals cases h
  exact ssl_of_check htls

/-- The condition of the UPDATE looks at the row as it then is. -/
lemma certNeedsTLS_commit {call : Call} {w : RouteWrite} {live : Option Columns}
    (h : call.commit cur w live = .ok (row, changed)) : CertNeedsTLS row := by
  obtain ⟨-, -, h⟩ := bind_eq_ok.mp h
  cases live with
  | none => cases h
  | some old =>
    obtain ⟨_, hguard, h⟩ := bind_eq_ok.mp h
    cases h
    intro (hcert : old.requireClientCert)
    unfold failIf at hguard
    split_ifs at hguard with htls
    simpa [RouteWrite.store, hcert] using htls

lemma Store.Sound.step (s : Store) (a : Write) (s' : Store) (hs : s.Sound) (h : s.step a = some s') : s'.Sound := by
  cases a with
  | create id plan caUsable form fails =>
    obtain ⟨-, h⟩ := ite_none_left_eq_some.mp h
    cases h
    exact hs.set fun _ hrow => certNeedsTLS_createRow (eq_ok_of_toOption hrow)
  | edit id caID caActive form fails =>
    obtain ⟨row, -, rfl⟩ := map_eq_some_iff.mp h
    exact hs.set fun _ hrow => certNeedsTLS_editRow (eq_ok_of_toOption hrow)
  | read c id call =>
    simp only [Store.step] at h
    split at h
    · split at h <;> cases h <;> exact hs
    · cases h
      exact hs
  | commit c fails =>
    obtain ⟨⟨id, call, cur, w⟩, -, rfl⟩ := map_eq_some_iff.mp h
    refine Store.Sound.set (s := { s with calls := _ }) hs fun row hrow => ?_
    obtain ⟨result, hresult, rfl⟩ := map_eq_some_iff.mp hrow
    exact certNeedsTLS_commit (eq_ok_of_toOption hresult)

/-- However creations, API updates and edits interleave, a stored route that requires client certificates has TLS. -/
theorem clientCert_needs_tls {as : List Write} {s : Store} (h : run Store.step {} as = some s) : s.Sound :=
  Runs.run_invariant Store.Sound.step (fun _ _ hrow => by cases hrow) h

/-- TLS is turned off by the API and client certificates are required by an edit in between: the edit stands. -/
def racingWrites : List Write :=
  [.create 1 ⟨8000, 8999, true, true, true⟩ true plainRow false,
    .read 0 1 { input := { ssl := some false }, env := portAndPath.env },
    .edit 1 1 true { plainRow with requireClientCert := true } false, .commit 0 false]

theorem clientCert_needs_tls_racing : ∃ s, run Store.step {} racingWrites = some s ∧ s.Sound ∧
      (s.rows 1).map (fun row => (row.requireClientCert, row.ssl)) = some (true, true) :=
  ⟨_, rfl, @clientCert_needs_tls racingWrites _ rfl, by decide +kernel⟩

end Routes.RouteUpdate
