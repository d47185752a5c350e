import CaddyPanel.Lib.Runs
import CaddyPanel.Lib.Text

/-!
# Domain ownership (`VerifyDomainToken`, `RouteEditSave`, `HostsUpdate`)

A self-service route serves only once its owner has published the route's token in a TXT record
under the domain. The proof is read, asked for over DNS and recorded in separate steps, and both
editors read the stored domain before the transaction that writes the new one; any of these calls
may be interleaved.

The admin edits modelled here are those of callers that have to prove ownership again
(`verificationResetRequired`); a platform admin's edit is trusted with any hostname.
-/

namespace Ownership

open List Text
open Function (update)

abbrev RouteId := Nat
abbrev CallId := Nat

structure Row where
  domain : Str
  path : Str
  aliases : Str
  verified : Bool
  token : Str
  /-- created by a client, not by an admin -/
  selfService : Bool
  deriving DecidableEq

/-- What the name servers answered when they were asked for the TXT records of `name`. -/
structure Answer where
  name : Str
  records : List Str
  deriving DecidableEq

def recordName (domain : Str) : Str :=
  "_hpg-verify." ++ domain

/-- `dns.TXTContains` on the records of all servers. -/
def txtContains (records : List Str) (want : Str) : Bool :=
  trimSpace want ≠ [] && records.any fun rec => trimSpace rec = trimSpace want

/-! ### The hostnames an edit claims -/

def isHostSeparator (c : Char) : Bool :=
  c ∈ [',', ' ', '\t', '\n', '\r', ';']

/-- `splitHostCSV`. -/
def splitHostCSV (raw : Str) : List Str :=
  ((raw.splitOnP isHostSeparator).map fun p => toLower (trimSpace p)).filter (· ≠ [])

def addedHosts (prev next : Str) : List Str :=
  (splitHostCSV next).filter (· ∉ splitHostCSV prev)

def matcherChangedForUpdate (oldDomain oldPath oldAliases domain path aliases : Str) : Bool :=
  domain ≠ oldDomain ∨ path ≠ oldPath ∨ addedHosts oldAliases aliases ≠ []

/-! ### Calls in flight -/

/-- A `VerifyDomainToken` that has read the route; `proven` once a TXT answer held the token. -/
structure Verification where
  route : RouteId
  domain : Str
  path : Str
  token : Str
  proven : Bool

/-- An edit that has read the route and decided whether the proof has to be made again. The client
editor leaves the aliases alone. -/
structure Edit where
  route : RouteId
  domain : Str
  path : Str
  aliases : Option Str
  reset : Bool

inductive Call where
  | verify (v : Verification)
  | edit (e : Edit)

structure State where
  rows : RouteId → Option Row
  calls : CallId → Option Call
  answers : List Answer

def State.init : State where
  rows := fun _ => none
  calls := fun _ => none
  answers := []

inductive Event where
  | create (id : RouteId) (clientID : Nat) (domain path token : Str)
  | startVerify (c : CallId) (id : RouteId)
  | txtAnswer (c : CallId) (records : List Str)
  /-- the anti-squat takeover removes another route's row that is still unverified -/
  | evict (c : CallId) (id : RouteId)
  | writeVerified (c : CallId)
  | startClientEdit (c : CallId) (id : RouteId) (domain path : Str)
  | startAdminEdit (c : CallId) (id : RouteId) (domain path aliases : Str)
  | commitEdit (c : CallId) (token : Str)

/-- A domain as the forms and `Create` take it in. -/
def formDomain (raw : Str) : Str :=
  toLower (trimSpace raw)

/-- A path prefix as the forms and `Create` take it in. -/
def formPath (raw : Str) : Str :=
  let p := trimSpace raw
  if p ≠ [] ∧ ¬"/".toList.isPrefixOf p then '/' :: p else p

/-- The columns of a new row that matter here. -/
def newRow (clientID : Nat) (domain path token : Str) : Row where
  domain := formDomain domain
  path := formPath path
  aliases := []
  verified := clientID = 0
  token := if clientID = 0 then [] else token
  selfService := clientID ≠ 0

/-- The update of an edit's transaction. -/
def Edit.apply (e : Edit) (token : Str) (row : Row) : Row :=
  let row := { row with domain := e.domain, path := e.path, aliases := e.aliases.getD row.aliases }
  if e.reset then { row with verified := false, token := token } else row

/-- `RouteEditSave` reads the stored domain and path and compares. -/
def startClientEdit (id : RouteId) (domain path : Str) (row : Row) : Edit where
  route := id
  domain := formDomain domain
  path := formPath path
  aliases := none
  reset := formDomain domain ≠ toLower row.domain ∨ formPath path ≠ row.path

/-- `HostsUpdate` compares the whole matcher, aliases included. -/
def startAdminEdit (id : RouteId) (domain path aliases : Str) (row : Row) : Edit where
  route := id
  domain := formDomain domain
  path := formPath path
  aliases := some aliases
  reset := matcherChangedForUpdate (toLower row.domain) row.path row.aliases (formDomain domain)
    (formPath path) aliases

def State.setCall (s : State) (c : CallId) (call : Option Call) : State :=
  { s with calls := update s.calls c call }

/-- A call starts on a route that is there, under an unused id. -/
def State.start (s : State) (c : CallId) (id : RouteId) (call : Row → Option Call) : Option State :=
  match s.calls c, s.rows id with
  | none, some row => some (s.setCall c (call row))
  | _, _ => none

/-- A verified route and a route without a token end the call at once. -/
def startVerify (id : RouteId) (row : Row) : Option Call :=
  if row.verified ∨ row.token = [] then none
  else some (.verify ⟨id, row.domain, row.path, row.token, false⟩)

def step (s : State) : Event → Option State
  | .create id clientID domain path token =>
    if s.rows id = none then
      some { s with rows := update s.rows id (some (newRow clientID domain path token)) }
    else none
  | .startVerify c id => s.start c id (startVerify id)
  | .txtAnswer c records =>
    match s.calls c with
    | some (.verify v) =>
      if v.proven then none
      else
        let s := { s with answers := ⟨recordName v.domain, records⟩ :: s.answers }
        if txtContains records v.token then some (s.setCall c (some (.verify { v with proven := true })))
        else some (s.setCall c none)
    | _ => none
  | .evict c id =>
    match s.calls c, s.rows id with
    | some (.verify v), some row =>
      if v.proven ∧ id ≠ v.route ∧ row.verified = false then
        some { s with rows := update s.rows id none }
      else none
    | _, _ => none
  | .writeVerified c =>
    match s.calls c with
    | some (.verify v) =>
      if v.proven then
        some { s.setCall c none with
          rows := update s.rows v.route ((s.rows v.route).map fun row => { row with verified := true }) }
      else none
    | _ => none
  | .startClientEdit c id domain path =>
    s.start c id fun row => some (.edit (startClientEdit id domain path row))
  | .startAdminEdit c id domain path aliases =>
    s.start c id fun row => some (.edit (startAdminEdit id domain path aliases row))
  | .commitEdit c token =>
    match s.calls c with
    | some (.edit e) =>
      some { s.setCall c none with
        rows := update s.rows e.route ((s.rows e.route).map (e.apply token)) }
    | _ => none

/-! ### The property and the condition -/

/-- Some TXT answer for the domain held the token. -/
def Proven (answers : List Answer) (domain token : Str) : Prop :=
  ∃ a ∈ answers, toLower a.name = toLower (recordName domain) ∧ txtContains a.records token

/-- Every verified self-service route was proven under the domain and with the token it stores. -/
def OwnershipProven (s : State) : Prop :=
  ∀ id row, s.rows id = some row → row.selfService → row.verified →
    Proven s.answers row.domain row.token

/-- What the call read is still there: the domain and token of a verification; for an edit that found
no change, a route that is not verified for another domain. -/
def Call.ReadHolds (s : State) : Call → Prop
  | .verify v => ∀ row ∈ s.rows v.route, row.domain = v.domain ∧ row.token = v.token
  | .edit e => e.reset = false → ∀ row ∈ s.rows e.route, row.verified →
      toLower row.domain = toLower e.domain

/-- The calls that write in this step act on what they read. -/
def ReadStillHolds (s : State) : Event → Prop
  | .writeVerified c => ∀ call ∈ s.calls c, call.ReadHolds s
  | .commitEdit c _ => ∀ call ∈ s.calls c, call.ReadHolds s
  | _ => True

instance (s : State) : ∀ call : Call, Decidable (call.ReadHolds s)
  | .verify v => inferInstanceAs (Decidable (∀ row ∈ s.rows v.route, _))
  | .edit e => inferInstanceAs (Decidable (e.reset = false → ∀ row ∈ s.rows e.route, _ → _))

instance (s : State) : ∀ e : Event, Decidable (ReadStillHolds s e)
  | .writeVerified c => inferInstanceAs (Decidable (∀ call ∈ s.calls c, call.ReadHolds s))
  | .commitEdit c _ => inferInstanceAs (Decidable (∀ call ∈ s.calls c, call.ReadHolds s))
  | .create .. | .startVerify .. | .txtAnswer .. | .evict .. | .startClientEdit ..
  | .startAdminEdit .. => .isTrue trivial

structure Inv (s : State) : Prop where
  rows : OwnershipProven s
  calls : ∀ c v, s.calls c = some (.verify v) → v.proven → Proven s.answers v.domain v.token

variable {domain token d d' : Str} {s s' : State}

lemma Proven.cons {answers : List Answer} (h : Proven answers domain token)
    (a : Answer) : Proven (a :: answers) domain token := by
  obtain ⟨b, hb, hname, htoken⟩ := h
  exact ⟨b, mem_cons_of_mem a hb, hname, htoken⟩

lemma Proven.of_toLower {answers : List Answer} (h : Proven answers d token)
    (hd : toLower d = toLower d') : Proven answers d' token := by
  obtain ⟨a, ha, hname, htoken⟩ := h
  refine ⟨a, ha, hname.trans ?_, htoken⟩
  unfold toLower recordName at *
  rw [map_append]
  exact congrArg (_ ++ ·) hd

lemma inv_init : Inv State.init :=
  ⟨by simp [OwnershipProven, State.init], by simp [State.init]⟩

/-! ### Each step keeps the invariant -/

lemma Inv.setCall (hs : Inv s) {c : CallId} {call : Option Call}
    (h : ∀ v, call = some (.verify v) → v.proven → Proven s.answers v.domain v.token) : Inv (s.setCall c call) := by
  refine ⟨hs.rows, fun c' v hv hp => ?_⟩
  obtain ⟨-, hv⟩ | ⟨-, hv⟩ := Runs.update_eq_some hv
  · exact h v hv hp
  · exact hs.calls c' v hv hp

/-- One row changes; the new one has to be proven if it is verified. -/
lemma Inv.setRow (hs : Inv s) {id : RouteId} {row : Option Row} (h : ∀ r, row = some r → r.selfService → r.verified →
      Proven s.answers r.domain r.token) : Inv { s with rows := update s.rows id row } := by
  refine ⟨fun id' r hr hself hver => ?_, hs.calls⟩
  obtain ⟨-, hr⟩ | ⟨-, hr⟩ := Runs.update_eq_some hr
  · exact h r hr hself hver
  · exact hs.rows id' r hr hself hver

lemma Inv.addAnswer (hs : Inv s) (a : Answer) : Inv { s with answers := a :: s.answers } :=
  ⟨fun id row hrow hself hver => (hs.rows id row hrow hself hver).cons a,
    fun c v hv hp => (hs.calls c v hv hp).cons a⟩

lemma Inv.start (hs : Inv s) {c : CallId} {id : RouteId} {call : Row → Option Call}
    (hcall : ∀ row v, call row = some (.verify v) → v.proven = false) (h : s.start c id call = some s') : Inv s' := by
  unfold State.start at h
  split at h
  · cases h
    refine hs.setCall fun v hv hp => ?_
    rw [hcall _ v hv] at hp
    cases hp
  · cases h

theorem inv_step {e : Event} (hs : Inv s) (hC : ReadStillHolds s e) (h : step s e = some s') : Inv s' := by
  cases e with
  | create id clientID domain path token =>
    simp only [step] at h
    split_ifs at h
    cases h
    refine hs.setRow fun r hr hself hver => ?_
    cases hr
    simp only [newRow, ne_eq, decide_not, Bool.not_eq_true', decide_eq_false_iff_not,
      decide_eq_true_eq] at hself hver
    exact absurd hver hself
  | startVerify c id =>
    refine hs.start (fun row v hv => ?_) h
    unfold startVerify at hv
    split_ifs at hv
    cases hv
    rfl
  | startClientEdit c id domain path | startAdminEdit c id domain path aliases =>
    refine hs.start (fun row v hv => ?_) h
    cases hv
  | txtAnswer c records =>
    simp only [step] at h
    split at h
    · next v hv =>
      split_ifs at h with hp htxt
      · cases h
        refine (hs.addAnswer _).setCall fun v' hv' _ => ?_
        cases hv'
        exact ⟨⟨recordName v.domain, records⟩, by simp, rfl, htxt⟩
      · cases h
        refine (hs.addAnswer _).setCall fun v' hv' _ => ?_
        cases hv'
    · cases h
  | evict c id =>
    simp only [step] at h
    split at h
    · split_ifs at h
      cases h
      refine hs.setRow fun r hr => ?_
      cases hr
    · cases h
  | writeVerified c =>
    simp only [step] at h
    split at h
    · next v hv =>
      split_ifs at h with hp
      cases h
      have hs₁ : Inv (s.setCall c none) := hs.setCall fun v' hv' => by cases hv'
      refine hs₁.setRow fun r hr hself _ => ?_
      -- the row still stores what the proof was about
      obtain ⟨row, hrow, rfl⟩ := Option.map_eq_some_iff.mp hr
      obtain ⟨hdomain, htoken⟩ := hC (.verify v) hv row hrow
      show Proven s.answers row.domain row.token
      rw [hdomain, htoken]
      exact hs.calls c v hv hp
    · cases h
  | commitEdit c token =>
    simp only [step] at h
    split at h
    · next e he =>
      cases h
      have hs₁ : Inv (s.setCall c none) := hs.setCall fun v' hv' => by cases hv'
      refine hs₁.setRow fun r hr hself hver => ?_
      obtain ⟨row, hrow, rfl⟩ := Option.map_eq_some_iff.mp hr
      cases hreset : e.reset with
      | true => simp [Edit.apply, hreset] at hver
      | false =>
        simp only [Edit.apply, hreset, Bool.false_eq_true] at hself hver ⊢
        have hproven : Proven s.answers row.domain row.token := hs.rows _ row hrow hself hver
        exact hproven.of_toLower (hC (.edit e) he hreset row hrow hver)
    · cases h

/-- In every interleaving of creations, verifications and edits whose writes act on what they read,
a self-service route is verified only for a domain and token that a TXT answer has shown. -/
theorem verified_domain_is_proven {s : State} {es : List Event} (hC : Runs.Meets step ReadStillHolds State.init es)
    (h : Runs.run step State.init es = some s) : OwnershipProven s :=
  (Runs.run_invariant_of_meets (fun _ _ _ => inv_step) inv_init hC h).rows

/-- A route is created, proven and verified, and an edit of its aliases keeps the domain. -/
theorem verified_domain_is_proven_run : ∃ s, Runs.run step State.init
      [.create 1 5 "Shop.example" [] "t1", .startVerify 0 1,
       .txtAnswer 0 ["v=spf1", "t1"], .writeVerified 0,
       .startClientEdit 1 1 "shop.example" [], .commitEdit 1 "t2"] = some s ∧
    s.rows 1 = some ⟨"shop.example", [], [], true, "t1", true⟩ ∧ Proven s.answers "shop.example" "t1" := by
  refine ⟨_, rfl, by decide, ?_⟩
  exact @verified_domain_is_proven _ [.create 1 5 "Shop.example" [] "t1",
    .startVerify 0 1, .txtAnswer 0 ["v=spf1", "t1"], .writeVerified 0,
    .startClientEdit 1 1 "shop.example" [], .commitEdit 1 "t2"]
    (by decide) rfl 1 _ rfl rfl rfl

/-- The owner of `shop.example` moves the route to another domain between the TXT answer and the
write: the flag lands on the new domain, for which nothing was ever asked. -/
theorem verified_domain_unproven_after_edit : ∃ s, Runs.run step State.init
      [.create 1 5 "shop.example" [] "t1", .startVerify 0 1,
       .txtAnswer 0 ["t1"], .startClientEdit 1 1 "victim.example" [],
       .commitEdit 1 "t2", .writeVerified 0] = some s ∧ ¬OwnershipProven s := by
  refine ⟨_, rfl, fun h => ?_⟩
  obtain ⟨a, ha, -, htoken⟩ := h 1 _ rfl rfl rfl
  obtain rfl : a = ⟨recordName "shop.example", ["t1"]⟩ := mem_singleton.mp ha
  exact absurd htoken (by decide)

end Ownership
