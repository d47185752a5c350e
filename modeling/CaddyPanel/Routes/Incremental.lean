import CaddyPanel.Caddyapi.Gates
import CaddyPanel.Lib.Utf8
import CaddyPanel.Routes.NodePush

/-!
# Incremental pushes (`pushRouteIncremental`)

A change of one route is applied to a node by replacing, appending or deleting one object of its
configuration, where a full push rebuilds the configuration from the database. The node is compared
with one that got the full push: the routes it finds, what it asks of connections, and whether the
cache is mounted.
-/

namespace Routes.Incremental

open List
open Text (Str)
open Utf8 (Bytes byte encode)
open Caddyapi (Idna Helpers Route NodeSettings NodeConfig Emitted buildRoute withModules
  withWildcardHost preludeRoutes hostSetsOverlap EmitLe emitKey connPolicy wantsCache asksFor asksCert routeMatch
  asciiIdna plainHelpers)
open NodePush

def caddyID (id : Str) : Str :=
  "route_" ++ id

/-! ### Requests for one object -/

/-- An answer of the node's API: the code, the rest of the status line, and the body. -/
structure Answer where
  code : ℕ
  phrase : Bytes
  body : Bytes
  code_lt : code < 1000
  phrase_eq : phrase = [] ∨ ∃ reason, phrase = byte ' ' :: reason

/-- What comes back to `do`: an answer, an error of the transport, or one from before the request was sent. -/
inductive Reply where
  | answer (a : Answer)
  | lost (err : Bytes)
  | unsent (err : Bytes)

def Reply.code : Reply → Option ℕ
  | .answer a => some a.code
  | .lost _ | .unsent _ => none

inductive Asked where
  | delete
  | replace

def Asked.method : Asked → Str
  | .delete => "DELETE"
  | .replace => "PATCH"

def errorHead (asked : Asked) (id : ℕ) : Bytes :=
  encode ("caddy " ++ asked.method ++ " /id/" ++ caddyID (Nat.toDigits 10 id) ++ ": ")

/-- The first 64 KiB of the body. -/
def Answer.message (a : Answer) : Bytes :=
  a.body.take (64 * 1024)

/-- The error of `do`. -/
def doError (asked : Asked) (id : ℕ) : Reply → Option Bytes
  | .unsent err => some err
  | .lost err => some (errorHead asked id ++ err)
  | .answer a =>
    if 400 ≤ a.code then
      some (errorHead asked id ++ (encode (Nat.toDigits 10 a.code) ++ a.phrase ++ encode ": " ++ a.message))
    else none

def Says404 (b : Bytes) : Prop :=
  encode "404" <:+: b

instance : DecidablePred Says404 := fun b => inferInstanceAs (Decidable (encode "404" <:+: b))

def isNotFound (err : Bytes) : Bool :=
  Says404 err

/-- What the push does next: it is done, it takes the object for gone, or it falls back to a full push. -/
inductive Verdict where
  | done
  | gone
  | resync
  deriving DecidableEq

def verdict (asked : Asked) (id : ℕ) (reply : Reply) : Verdict :=
  match doError asked id reply, asked with
  | none, _ => .done
  | some err, .delete => if isNotFound err then .gone else .resync
  | some _, .replace => .resync

/-- A delete that failed in another way, with the digits somewhere in its error; and a replace of an object that the
node does not have. -/
def Misread : Asked → ℕ → Reply → Prop
  | .delete, _, .unsent err => Says404 err
  | .delete, id, .lost err => Says404 (encode (Nat.toDigits 10 id)) ∨ Says404 err
  | .delete, id, .answer a => 400 ≤ a.code ∧ a.code ≠ 404 ∧
      (Says404 (encode (Nat.toDigits 10 id)) ∨ Says404 a.phrase ∨ Says404 a.message)
  | .replace, _, reply => reply.code = some 404

lemma says404_append_cons {l r : Bytes} {x : UInt8} (hx : x ∉ encode "404") :
    Says404 (l ++ x :: r) ↔ Says404 l ∨ Says404 r :=
  Text.isInfix_append_cons hx

lemma says404_cons {r : Bytes} {x : UInt8} (hx : x ∉ encode "404") : Says404 (x :: r) ↔ Says404 r := by
  have hnil : ¬ Says404 [] := by decide
  rw [← nil_append (x :: r), says404_append_cons hx, or_iff_right hnil]

lemma says404_errorHead (id : ℕ) (b : Bytes) :
    Says404 (errorHead .delete id ++ b) ↔ Says404 (encode (Nat.toDigits 10 id)) ∨ Says404 b := by
  have hsplit : errorHead .delete id ++ b = encode "caddy DELETE /id/route" ++
      byte '_' :: (encode (Nat.toDigits 10 id) ++ byte ':' :: byte ' ' :: b) := by
    simp only [errorHead, Utf8.encode_append, append_assoc]
    rfl
  have hhead : ¬ Says404 (encode "caddy DELETE /id/route") := by decide
  rw [hsplit, says404_append_cons (by decide), says404_append_cons (by decide), says404_cons (by decide),
    or_iff_right hhead]

lemma says404_code : ∀ code < 1000, Says404 (encode (Nat.toDigits 10 code)) ↔ code = 404 := by
  decide +kernel

lemma says404_status (a : Answer) : Says404 (encode (Nat.toDigits 10 a.code) ++ a.phrase) ↔
    a.code = 404 ∨ Says404 a.phrase := by
  have hcode := says404_code a.code a.code_lt
  obtain hnil | ⟨reason, hreason⟩ := a.phrase_eq
  · have hnone : ¬ Says404 [] := by decide
    rw [hnil, append_nil, hcode, or_iff_left hnone]
  · rw [hreason, says404_append_cons (by decide), says404_cons (by decide), hcode]

lemma says404_answer (id : ℕ) (a : Answer) :
    Says404 (errorHead .delete id ++ (encode (Nat.toDigits 10 a.code) ++ a.phrase ++ encode ": " ++ a.message)) ↔
      Says404 (encode (Nat.toDigits 10 id)) ∨ (a.code = 404 ∨ Says404 a.phrase) ∨ Says404 a.message := by
  have hsplit : encode (Nat.toDigits 10 a.code) ++ a.phrase ++ encode ": " ++ a.message =
      (encode (Nat.toDigits 10 a.code) ++ a.phrase) ++ byte ':' :: byte ' ' :: a.message := by
    rw [append_assoc]
    rfl
  rw [says404_errorHead, hsplit, says404_append_cons (by decide), says404_cons (by decide), says404_status]

lemma verdict_delete_eq_gone {id : ℕ} {reply : Reply} :
    verdict .delete id reply = .gone ↔ ∃ err, doError .delete id reply = some err ∧ Says404 err := by
  unfold verdict
  cases doError .delete id reply with
  | none => simp
  | some err => simp [isNotFound]

/-- A failed request is taken for one of an object that is gone exactly when the node answered with 404, but for
the deletes whose error has the digits from somewhere else and the replaces that a node answers with 404. -/
theorem gone_iff_notFound_iff (asked : Asked) (id : ℕ) (reply : Reply) :
    (verdict asked id reply = .gone ↔ reply.code = some 404) ↔ ¬ Misread asked id reply := by
  cases asked with
  | replace =>
    have hgone : verdict .replace id reply ≠ .gone := by
      unfold verdict
      split <;> simp_all
    simp [hgone, Misread]
  | delete =>
    rw [verdict_delete_eq_gone]
    cases reply with
    | unsent err => simp [doError, Misread, Reply.code]
    | lost err => simp [doError, Misread, Reply.code, says404_errorHead]
    | answer a =>
      by_cases hfails : 400 ≤ a.code
      · simp only [doError, hfails, if_true, Option.some.injEq, exists_eq_left', says404_answer, Reply.code, Misread]
        tauto
      · have hcode : a.code ≠ 404 := by omega
        simp [doError, hfails, Misread, Reply.code, hcode]

/-- The node could not do it. -/
def failed : Answer where
  code := 500
  phrase := encode " Internal Server Error"
  body := encode "\x7b\"error\":\"timeout\"\x7d"
  code_lt := by decide
  phrase_eq := .inr ⟨_, rfl⟩

/-- The route with the id 404 stays on the node, and its delete counts as done. -/
theorem failed_delete_taken_for_gone :
    failed.code = 500 ∧ verdict .delete 404 (.answer failed) = .gone ∧
      verdict .delete 403 (.answer failed) = .resync := by
  decide +kernel

/-! ### The push -/

/-- `buildOneRoute`: the row as stored, with the branding and the modules of the node. -/
def buildOneRoute (N : Node) (db : NodeDb) (id : Str) : Option Route :=
  ((buildRoutesForNode N.idna N.hp db).find? fun r => r.id = id).map fun r =>
    withModules N.settings (withBranding N.settings r)

/-- The hosts in the matchers of a live route. -/
def routeMatchHosts (e : Emitted) : List Str :=
  match e.route with
  | .mk sets _ _ => sets.flatten.flatMap fun c =>
    match c with
    | .host hosts => hosts
    | _ => []

def accepted : Answer where
  code := 200
  phrase := encode " OK"
  body := []
  code_lt := by decide
  phrase_eq := .inr ⟨_, rfl⟩

/-- The requests to the node's API, and the read of the database, that fail, and what comes back for a delete. -/
structure Faults where
  build : Bool := false
  probe : Bool := false
  replace : Bool := false
  add : Bool := false
  delete : Reply := .answer accepted
  /-- the node did the delete whose answer was lost -/
  carriedOut : Bool := false
  load : Bool := false

/-- A full push; `none` where it reports an error. -/
def pushNodeConfig (N : Node) (db : NodeDb) (faults : Faults) : Option NodeConfig :=
  if faults.load then none else some (N.fullConfig db)

inductive RouteOp where
  | upsert
  | remove

def withoutRoute (live : NodeConfig) (id : Str) : NodeConfig :=
  { live with routes := live.routes.filter fun e => e.id ≠ caddyID id }

/-- The node has done the delete. -/
def Faults.deleted (faults : Faults) : Bool :=
  match faults.delete with
  | .answer a => a.code < 400
  | .lost _ => faults.carriedOut
  | .unsent _ => false

/-- The node after `DeleteRoute`. -/
def deleteRoute (faults : Faults) (live : NodeConfig) (id : Str) : NodeConfig :=
  if faults.deleted then withoutRoute live id else live

/-- The configuration of the node after a push that reports success. -/
def pushRouteIncremental (N : Node) (db : NodeDb) (incrementalPush : Bool) (faults : Faults) (live : NodeConfig)
    (route : ℕ) (op : RouteOp) : Option NodeConfig :=
  let id := Nat.toDigits 10 route
  let full := pushNodeConfig N db faults
  -- an error that reads as not found counts as success
  let delete := if verdict .delete route faults.delete = .resync then full else some (deleteRoute faults live id)
  if !incrementalPush || db.wildcardEnabled id then full
  else
    match op with
    | .remove => delete
    | .upsert =>
      if faults.build then full
      else
        match buildOneRoute N db id with
        | none => delete
        | some built =>
          let obj := buildRoute N.hp built
          let present := live.routes.any fun e => e.id = caddyID id
          let sharesHost := live.routes.any fun e =>
            e.id ≠ caddyID id && hostSetsOverlap N.idna built.hosts (routeMatchHosts e)
          if faults.probe then full
          else if present then
            if faults.replace then full
            else some { live with
              routes := live.routes.map fun e => if e.id = caddyID id then obj else e }
          else if sharesHost then full
          else if faults.add then full
          else some { live with routes := live.routes ++ [obj] }

/-! ### A change of one route -/

/-- One row is changed, added or taken away; the others stay as they are. -/
structure Change (db₀ db₁ : NodeDb) (id : Str) where
  before : List Route
  after : List Route
  old : Option Route
  new : Option Route
  rows₀ : db₀.rows = before ++ old.toList ++ after
  rows₁ : db₁.rows = before ++ new.toList ++ after
  old_id : ∀ r ∈ old, r.id = id
  new_id : ∀ r ∈ new, r.id = id
  others_id : ∀ q ∈ before ++ after, q.id ≠ id

/-- What of a route reaches the connection policies: nothing, or its hosts, what it asks for, and the
keys of its place. -/
def tlsPart (N : Node) (r : Route) : Option (List Str × Caddyapi.HostConnPolicy × Nat × Nat × Nat) :=
  let p := connPolicy N.caUsable N.settings.pqCurveAvailable r
  if p.none then none else some (r.hosts, p, emitKey N.hp r)

/-- The one stands to `q` as the other does. -/
def KeepsPlace (hp : Helpers) (o n q : Route) : Prop :=
  (EmitLe hp o q ↔ EmitLe hp n q) ∧ (EmitLe hp q o ↔ EmitLe hp q n)

/-- The new route stands among those it shares a host with as the old one did. -/
def Stays (N : Node) (db : NodeDb) (o n q : Route) : Prop :=
  N.overlap o (N.widened db q) ∧ KeepsPlace N.hp o n q ∧ KeepsPlace N.hp o n (N.widened db q)

/-- Changes that one object of the configuration can carry. -/
structure Harmless (N : Node) {db₀ db₁ : NodeDb} {id : Str} (c : Change db₀ db₁ id) : Prop where
  faithful₀ : N.FaithfulDb db₀
  faithful₁ : N.FaithfulDb db₁
  zones₀ : N.ZonesApart db₀
  zones₁ : N.ZonesApart db₁
  /-- the other rows keep their zones, and the changed one takes none -/
  others : ∀ q ∈ c.before ++ c.after, N.widened db₀ q = N.widened db₁ q
  plain₀ : ∀ o ∈ c.old, withWildcardHost db₀.zones o = o
  plain₁ : ∀ n ∈ c.new, withWildcardHost db₁.zones n = n
  quarantine : ∀ n ∈ c.new, applyWAFQuarantine N.wafFingerprint db₁ n = n
  order : ∀ o ∈ c.old, ∀ n ∈ c.new, ∀ q ∈ c.before ++ c.after, N.overlap n (N.widened db₁ q) → Stays N db₁ o n q
  tls : c.old.bind (tlsPart N) = c.new.bind (tlsPart N)
  cache : N.settings.cacheModuleAvailable → (∀ q ∈ c.before ++ c.after, wantsCache N.hp q = false) →
    c.old.any (wantsCache N.hp) = c.new.any (wantsCache N.hp)

/-! ### The routes before and after a change -/

section

variable {N : Node} {db₀ db₁ : NodeDb} {id : Str} {c : Change db₀ db₁ id}

namespace Change

variable (c)

lemma mem_rows₀ {r : Route} : r ∈ db₀.rows ↔ r ∈ c.before ++ c.after ∨ r ∈ c.old := by
  rw [c.rows₀]
  simp only [mem_append, Option.mem_toList]
  tauto

lemma mem_rows₁ {r : Route} : r ∈ db₁.rows ↔ r ∈ c.before ++ c.after ∨ r ∈ c.new := by
  rw [c.rows₁]
  simp only [mem_append, Option.mem_toList]
  tauto

end Change

/-- The route of that id is replaced where it stands. -/
def replaceRow (id : Str) (n r : Route) : Route :=
  if r.id = id then n else r

lemma Change.map_replaceRow {o n : Route} (ho : c.old = some o) (hn : c.new = some n) :
    db₀.rows.map (replaceRow id n) = db₁.rows := by
  have hothers : ∀ l : List Route, l ⊆ c.before ++ c.after → l.map (replaceRow id n) = l := by
    intro l hl
    conv_rhs => rw [← map_id l]
    exact map_congr_left fun q hq => if_neg (c.others_id q (hl hq))
  have hold : replaceRow id n o = n := if_pos (c.old_id o ho)
  rw [c.rows₀, c.rows₁, ho, hn]
  simp only [map_append, Option.toList_some, map_cons, map_nil]
  rw [hothers c.before (subset_append_left _ _), hothers c.after (subset_append_right _ _), hold]

namespace Harmless

variable (h : Harmless N c)

include h

/-- Where the change is not seen, neither is a difference. -/
lemma filter_skip {m : Route → Bool} (hm : N.Together db₁ db₁.rows m)
    (hold : ∀ o ∈ c.old, m (N.widened db₀ o) = false) (hnew : ∀ n ∈ c.new, m (N.widened db₁ n) = false) :
    (N.fullRoutes db₀).filter m = (N.fullRoutes db₁).filter m := by
  have hseen : ∀ a ∈ db₀.rows, m (N.widened db₀ a) → a ∈ c.before ++ c.after := fun a ha hma =>
    (c.mem_rows₀.mp ha).resolve_right fun ho => by simp [hold a ho] at hma
  have hsame : ∀ a ∈ db₀.rows, m (N.widened db₀ a) → N.widened db₀ a = N.widened db₁ a := fun a ha hma =>
    h.others a (hseen a ha hma)
  have hm₀ : N.Together db₀ db₀.rows m := by
    intro a ha b hb hma hmb
    have hwa := hsame a ha hma
    have hwb := hsame b hb hmb
    have ha' := c.mem_rows₁.mpr (.inl (hseen a ha hma))
    have hb' := c.mem_rows₁.mpr (.inl (hseen b hb hmb))
    rw [hwa] at hma ⊢
    rw [hwb] at hmb ⊢
    exact hm a ha' b hb' hma hmb
  have hrows : db₀.rows.filter (m ∘ N.widened db₀) = db₁.rows.filter (m ∘ N.widened db₁) := by
    have hothers : ∀ l : List Route, l ⊆ c.before ++ c.after →
        l.filter (m ∘ N.widened db₀) = l.filter (m ∘ N.widened db₁) := fun l hl =>
      filter_congr fun r hr => congrArg m (h.others r (hl hr))
    have hnone₀ : c.old.toList.filter (m ∘ N.widened db₀) = [] :=
      filter_eq_nil_iff.mpr fun r hr => by simp [hold r (Option.mem_toList.mp hr)]
    have hnone₁ : c.new.toList.filter (m ∘ N.widened db₁) = [] :=
      filter_eq_nil_iff.mpr fun r hr => by simp [hnew r (Option.mem_toList.mp hr)]
    rw [c.rows₀, c.rows₁]
    simp only [List.filter_append, hnone₀, hnone₁]
    rw [hothers c.before (subset_append_left _ _), hothers c.after (subset_append_right _ _)]
  have hcongr := Node.filter_fullRoutes_congr (f := fun r => r) (g := fun r => r) h.faithful₀ h.faithful₁ h.zones₀
    h.zones₁
    hm₀ hm hsame (by rw [map_id']; exact hrows) fun _ _ _ _ _ _ => ⟨Iff.rfl, Iff.rfl⟩
  rwa [map_id'] at hcongr

lemma widened_replaceRow {n a : Route} (ha : a ∈ db₀.rows) :
    replaceRow id (N.widened db₁ n) (N.widened db₀ a) = N.widened db₁ (replaceRow id n a) := by
  unfold replaceRow
  rw [Node.widened_id]
  rcases c.mem_rows₀.mp ha with ha | ha
  · rw [if_neg (c.others_id a ha), if_neg (c.others_id a ha), h.others a ha]
  · rw [if_pos (c.old_id a ha), if_pos (c.old_id a ha)]

/-- Two rows before the change, and what stands in their place. -/
lemma pair_of_replaceRow {m : Route → Bool} {o n : Route} (ho : c.old = some o) (hn : c.new = some n)
    (hm : N.Together db₁ db₁.rows m)
    (horder : m (N.widened db₁ n) → ∀ q ∈ c.before ++ c.after, m (N.widened db₁ q) → Stays N db₁ o n q)
    {a b : Route} (ha : a ∈ db₀.rows) (hb : b ∈ db₀.rows) (hma : m (N.widened db₁ (replaceRow id n a)))
    (hmb : m (N.widened db₁ (replaceRow id n b))) :
    N.overlap (N.widened db₀ a) (N.widened db₀ b) ∧
      (EmitLe N.hp a b ↔ EmitLe N.hp (replaceRow id n a) (replaceRow id n b)) ∧
      (EmitLe N.hp (N.widened db₀ a) (N.widened db₀ b) ↔
        EmitLe N.hp (N.widened db₁ (replaceRow id n a)) (N.widened db₁ (replaceRow id n b))) := by
  have hother : ∀ {q}, q ∈ c.before ++ c.after → replaceRow id n q = q := fun hq => if_neg (c.others_id _ hq)
  have hold : replaceRow id n o = n := if_pos (c.old_id o ho)
  obtain ⟨hhosts, hkey⟩ := Node.plain_widened (h.plain₀ o ho)
  obtain ⟨-, hkey'⟩ := Node.plain_widened (h.plain₁ n hn)
  rcases c.mem_rows₀.mp ha with ha | ha <;> rcases c.mem_rows₀.mp hb with hb | hb
  · rw [hother ha] at hma ⊢
    rw [hother hb] at hmb ⊢
    rw [h.others a ha, h.others b hb]
    exact ⟨hm a (c.mem_rows₁.mpr (.inl ha)) b (c.mem_rows₁.mpr (.inl hb)) hma hmb, Iff.rfl, Iff.rfl⟩
  · obtain rfl : o = b := Option.some.inj (ho.symm.trans hb)
    rw [hother ha] at hma ⊢
    rw [hold] at hmb ⊢
    obtain ⟨hover, hplace, hplace'⟩ := horder hmb a ha hma
    rw [h.others a ha, Node.overlap, hhosts, Caddyapi.hostSetsOverlap_comm, Caddyapi.emitLe_congr rfl hkey,
      Caddyapi.emitLe_congr rfl hkey']
    exact ⟨hover, hplace.2, hplace'.2⟩
  · obtain rfl : o = a := Option.some.inj (ho.symm.trans ha)
    rw [hother hb] at hmb ⊢
    rw [hold] at hma ⊢
    obtain ⟨hover, hplace, hplace'⟩ := horder hma b hb hmb
    rw [h.others b hb, Node.overlap, hhosts, Caddyapi.emitLe_congr hkey rfl, Caddyapi.emitLe_congr hkey' rfl]
    exact ⟨hover, hplace.1, hplace'.1⟩
  · obtain rfl : o = a := Option.some.inj (ho.symm.trans ha)
    obtain rfl : o = b := Option.some.inj (ho.symm.trans hb)
    have hrefl : ∀ r, EmitLe N.hp r r := refl_of (EmitLe N.hp)
    exact ⟨Caddyapi.hostSetsOverlap_self _, iff_of_true (hrefl _) (hrefl _), iff_of_true (hrefl _) (hrefl _)⟩

/-- Where the route keeps its place, replacing it gives the routes of a full push. -/
lemma filter_replace {m : Route → Bool} {o n : Route} (ho : c.old = some o) (hn : c.new = some n)
    (hm : N.Together db₁ db₁.rows m)
    (horder : m (N.widened db₁ n) → ∀ q ∈ c.before ++ c.after, m (N.widened db₁ q) → Stays N db₁ o n q) :
    ((N.fullRoutes db₀).map (replaceRow id (N.widened db₁ n))).filter m = (N.fullRoutes db₁).filter m := by
  have hpair : ∀ a ∈ db₀.rows, ∀ b ∈ db₀.rows, m (replaceRow id (N.widened db₁ n) (N.widened db₀ a)) →
      m (replaceRow id (N.widened db₁ n) (N.widened db₀ b)) → _ ∧ _ ∧ _ := fun a ha b hb hma hmb =>
    h.pair_of_replaceRow ho hn hm horder ha hb (h.widened_replaceRow ha ▸ hma) (h.widened_replaceRow hb ▸ hmb)
  refine Node.filter_fullRoutes_congr (g := replaceRow id n) h.faithful₀ h.faithful₁ h.zones₀ h.zones₁
    (fun a ha b hb hma hmb => (hpair a ha b hb hma hmb).1) hm (fun a ha _ => h.widened_replaceRow ha) ?_ ?_
  · rw [← c.map_replaceRow ho hn, filter_map]
    refine congrArg (map (replaceRow id n)) (filter_congr fun a ha => ?_)
    simp only [Function.comp_apply, h.widened_replaceRow ha]
  · intro a ha b hb hma hmb
    rw [h.widened_replaceRow ha, h.widened_replaceRow hb]
    exact (hpair a ha b hb hma hmb).2

end Harmless

/-! ### Connection policies and the cache -/

lemma Change.any_rows {p : Route → Bool} (h : (∀ q ∈ c.before ++ c.after, p q = false) → c.old.any p = c.new.any p) :
    db₀.rows.any p = db₁.rows.any p := by
  by_cases hothers : (c.before ++ c.after).any p
  · obtain ⟨q, hq, hpq⟩ := any_eq_true.mp hothers
    rw [any_eq_true.mpr ⟨q, c.mem_rows₀.mpr (.inl hq), hpq⟩,
      any_eq_true.mpr ⟨q, c.mem_rows₁.mpr (.inl hq), hpq⟩]
  have hnone : ∀ q ∈ c.before ++ c.after, p q = false := by
    intro q hq
    rw [Bool.eq_false_iff]
    exact fun hpq => hothers (any_eq_true.mpr ⟨q, hq, hpq⟩)
  have hmid : ∀ mid : Option Route, mid.any p = mid.toList.any p := by
    intro mid
    cases mid <;> simp
  have heq := h hnone
  rw [hmid, hmid] at heq
  rw [c.rows₀, c.rows₁]
  simp only [any_append, heq]

lemma none_of_tlsPart {r : Route} (h : tlsPart N r = none) :
    (connPolicy N.caUsable N.settings.pqCurveAvailable r).none := by
  unfold tlsPart at h
  dsimp only at h
  split at h
  · assumption
  · cases h

lemma asksFor_of_none {r : Route} {sni : Str} (h : tlsPart N r = none) : asksFor N.idna sni (N.ask r) = false := by
  unfold asksFor Node.ask
  rw [none_of_tlsPart h]
  rfl

lemma asksCert_of_none {r : Route} (h : tlsPart N r = none) : asksCert (N.ask r) = false := by
  have hnone := none_of_tlsPart h
  simp only [Caddyapi.HostConnPolicy.none, Bool.and_eq_true, decide_eq_true_eq] at hnone
  simp [asksCert, Node.ask, hnone.1]

lemma ask_of_tlsPart {o n : Route} {x} (ho : tlsPart N o = some x) (hn : tlsPart N n = some x) :
    N.ask o = N.ask n ∧ emitKey N.hp o = emitKey N.hp n := by
  unfold tlsPart at ho hn
  dsimp only at ho hn
  split at ho
  · cases ho
  split at hn
  · cases hn
  obtain ⟨hhosts, hpolicy, hkey⟩ : _ ∧ _ ∧ _ := by
    simpa using (Option.some.inj ho).trans (Option.some.inj hn).symm
  refine ⟨Prod.ext hhosts hpolicy, ?_⟩
  simpa using hkey

/-- Before and after the change there is nothing to ask, or the same. -/
lemma Harmless.tls_cases (h : Harmless N c) :
    ((∀ o ∈ c.old, tlsPart N o = none) ∧ ∀ n ∈ c.new, tlsPart N n = none) ∨
      ∃ o n, c.old = some o ∧ c.new = some n ∧ N.ask o = N.ask n ∧ emitKey N.hp o = emitKey N.hp n := by
  have htls := h.tls
  cases hpart : c.old.bind (tlsPart N) with
  | none =>
    rw [hpart] at htls
    exact .inl ⟨Option.bind_eq_none_iff.mp hpart, Option.bind_eq_none_iff.mp htls.symm⟩
  | some x =>
    rw [hpart] at htls
    obtain ⟨o, ho, hox⟩ := Option.bind_eq_some_iff.mp hpart
    obtain ⟨n, hn, hnx⟩ := Option.bind_eq_some_iff.mp htls.symm
    exact .inr ⟨o, n, ho, hn, ask_of_tlsPart hox hnx⟩

namespace Harmless

variable (h : Harmless N c)

include h

/-- The routes that ask something of a server name are the same, in the same order. -/
lemma filter_asks (sni : Str) : ((N.fullRoutes db₀).map N.ask).filter (asksFor N.idna sni) =
      ((N.fullRoutes db₁).map N.ask).filter (asksFor N.idna sni) := by
  have hask₀ : ∀ o ∈ c.old, N.ask (N.widened db₀ o) = N.ask o := fun o ho =>
    Prod.ext (Node.plain_widened (h.plain₀ o ho)).1 (Node.widened_asks o)
  have hask₁ : ∀ n ∈ c.new, N.ask (N.widened db₁ n) = N.ask n := fun n hn =>
    Prod.ext (Node.plain_widened (h.plain₁ n hn)).1 (Node.widened_asks n)
  have htogether := h.faithful₁.asks_together sni
  rcases h.tls_cases with ⟨hold, hnew⟩ | ⟨o, n, ho, hn, hask, hkey⟩
  · rw [filter_map, filter_map]
    congr 1
    refine h.filter_skip htogether (fun o ho => ?_) fun n hn => ?_
    · rw [Function.comp_apply, hask₀ o ho]
      exact asksFor_of_none (hold o ho)
    · rw [Function.comp_apply, hask₁ n hn]
      exact asksFor_of_none (hnew n hn)
  · have hreplace := h.filter_replace ho hn htogether (by
      intro hmn q hq hmq
      have hover := htogether n (c.mem_rows₁.mpr (.inr hn)) q (c.mem_rows₁.mpr (.inl hq)) hmn hmq
      have hhosts : (N.widened db₁ n).hosts = o.hosts :=
        (Node.plain_widened (h.plain₁ n hn)).1.trans (congrArg Prod.fst hask).symm
      rw [Node.overlap, hhosts] at hover
      exact ⟨hover, ⟨Caddyapi.emitLe_congr hkey rfl, Caddyapi.emitLe_congr rfl hkey⟩,
        Caddyapi.emitLe_congr hkey rfl, Caddyapi.emitLe_congr rfl hkey⟩)
    rw [filter_map (l := N.fullRoutes db₁), ← hreplace, ← filter_map, map_map]
    congr 1
    apply map_congr_left
    intro r hr
    obtain ⟨q, hq, rfl⟩ := Node.mem_fullRoutes.mp hr
    rw [Function.comp_apply, h.widened_replaceRow hq]
    rcases c.mem_rows₀.mp hq with hq | hq
    · rw [replaceRow, if_neg (c.others_id q hq), h.others q hq]
    · obtain rfl : o = q := Option.some.inj (ho.symm.trans hq)
      rw [replaceRow, if_pos (c.old_id o hq), hask₀ o hq, hask₁ n hn, hask]

lemma any_asksCert : db₀.rows.any (fun r => asksCert (N.ask r)) = db₁.rows.any fun r => asksCert (N.ask r) := by
  refine c.any_rows fun _ => ?_
  rcases h.tls_cases with ⟨hold, hnew⟩ | ⟨o, n, ho, hn, hask, -⟩
  · have hfalse : ∀ mid : Option Route, (∀ r ∈ mid, tlsPart N r = none) →
        mid.any (fun r => asksCert (N.ask r)) = false := by
      intro mid hmid
      cases mid with
      | none => rfl
      | some r => exact asksCert_of_none (hmid r rfl)
    rw [hfalse _ hold, hfalse _ hnew]
  · rw [ho, hn, Option.any_some, Option.any_some, hask]

/-- Whatever is left of the old configuration is what a full push has. -/
lemma policies : (∀ sni, (N.fullConfig db₀).policyFor N.idna sni = (N.fullConfig db₁).policyFor N.idna sni) ∧
      (N.fullConfig db₀).strictSNIHost = (N.fullConfig db₁).strictSNIHost ∧
      (N.fullConfig db₀).cacheApp = (N.fullConfig db₁).cacheApp := by
  refine ⟨fun sni => ?_, ?_, ?_⟩
  · rw [Node.policyFor_fullConfig, Node.policyFor_fullConfig]
    exact Caddyapi.hostPolicyFor_congr (h.filter_asks sni)
  · rw [Node.strictSNIHost_fullConfig, Node.strictSNIHost_fullConfig, h.any_asksCert]
  · rw [Node.cacheApp_fullConfig, Node.cacheApp_fullConfig]
    cases hcache : N.settings.cacheModuleAvailable with
    | false => rfl
    | true => rw [c.any_rows (h.cache hcache)]

end Harmless

/-! ### Requests -/

lemma prelude_id (hid : id.all Char.isDigit) {e : Emitted} (he : e ∈ preludeRoutes N.hp N.settings) :
    e.id ≠ caddyID id := by
  intro heq
  rcases mem_append.mp he with he | he
  · split at he
    · rename_i pr hpr
      obtain rfl := mem_singleton.mp he
      unfold Caddyapi.panelRoute at hpr
      split at hpr
      · cases hpr
      obtain rfl := Option.some.inj hpr
      obtain rfl : "panel_self" = id := append_cancel_left heq
      exact absurd hid (by decide)
    · cases he
  · split at he
    · split at he
      · obtain rfl := mem_singleton.mp he
        exact absurd (head_eq_of_cons_eq heq) (by decide)
      · cases he
    · cases he

lemma emitted_id {r : Route} : (N.emitted r).id = caddyID id ↔ r.id = id :=
  ⟨fun h => append_cancel_left h, fun h => congrArg caddyID h⟩

lemma routes_fullConfig {db : NodeDb} :
    (N.fullConfig db).routes = preludeRoutes N.hp N.settings ++ (N.fullRoutes db).map N.emitted := by
  rw [Node.fullConfig_eq]

/-- The incremental build finds the changed row. -/
lemma Change.buildOneRoute_eq (c : Change db₀ db₁ id) :
    buildOneRoute N db₁ id = c.new.map fun n => withModules N.settings (withBranding N.settings n) := by
  have hfind : (buildRoutesForNode N.idna N.hp db₁).find? (fun r => r.id = id) = c.new := by
    cases hnew : c.new with
    | none =>
      rw [find?_eq_none]
      intro r hr hid
      rcases c.mem_rows₁.mp (Caddyapi.mem_sortRoutesForEmission.mp hr) with hr | hr
      · exact c.others_id r hr (of_decide_eq_true hid)
      · rw [hnew] at hr
        cases hr
    | some n =>
      have hn : n ∈ buildRoutesForNode N.idna N.hp db₁ :=
        Caddyapi.mem_sortRoutesForEmission.mpr (c.mem_rows₁.mpr (.inr hnew))
      have hsome : ((buildRoutesForNode N.idna N.hp db₁).find? fun r => r.id = id).isSome :=
        find?_isSome.mpr ⟨n, hn, decide_eq_true (c.new_id n hnew)⟩
      obtain ⟨r, hr⟩ := Option.isSome_iff_exists.mp hsome
      have hid : decide (r.id = id) := find?_some (p := fun r : Route => r.id = id) hr
      rcases c.mem_rows₁.mp (Caddyapi.mem_sortRoutesForEmission.mp (mem_of_find?_eq_some hr))
        with hmem | hmem
      · exact absurd (of_decide_eq_true hid) (c.others_id r hmem)
      · rw [hr, ← hmem, hnew]
  unfold buildOneRoute
  rw [hfind]

namespace Harmless

variable (h : Harmless N c)

include h

/-- An unchanged rest and a list of routes that answers as the new one. -/
lemma sameAnswers {cfg : NodeConfig} {routes : List Route}
    (hcfg : cfg = { N.fullConfig db₀ with routes := preludeRoutes N.hp N.settings ++ routes.map N.emitted })
    (hroutes : ∀ env req, routes.filter (N.takes env req) = (N.fullRoutes db₁).filter (N.takes env req)) :
    SameAnswers N.idna cfg (N.fullConfig db₁) := by
  obtain ⟨hpolicy, hstrict, hcache⟩ := h.policies
  subst hcfg
  refine ⟨fun env req => ?_, hpolicy, hstrict, hcache⟩
  rw [Node.firstMatch_eq rfl, Node.firstMatch_eq routes_fullConfig, hroutes]

/-- The route is gone: deleting its object is enough. -/
lemma filter_delete (hnew : c.new = none) (env : Caddy.Env) (req : Caddy.Request) :
    ((N.fullRoutes db₀).filter fun r => r.id ≠ id).filter (N.takes env req) =
      (N.fullRoutes db₁).filter (N.takes env req) := by
  have hothers : (N.fullRoutes db₁).filter (fun r => r.id ≠ id) = N.fullRoutes db₁ := by
    rw [filter_eq_self]
    intro r hr
    obtain ⟨q, hq, rfl⟩ := Node.mem_fullRoutes.mp hr
    rw [Node.widened_id]
    rcases c.mem_rows₁.mp hq with hq | hq
    · exact decide_eq_true (c.others_id q hq)
    · rw [hnew] at hq
      cases hq
  rw [← hothers, filter_filter, filter_filter]
  refine h.filter_skip (fun a ha b hb hma hmb => ?_) (fun o ho => ?_) fun n hn => ?_
  · exact h.faithful₁.takes_together env req a ha b hb (Bool.and_eq_true_iff.mp hma).1 (Bool.and_eq_true_iff.mp hmb).1
  · rw [Node.widened_id, c.old_id o ho]
    simp
  · rw [hnew] at hn
    cases hn

/-- The node never had the route. -/
lemma filter_absent (hold : c.old = none) (env : Caddy.Env) (req : Caddy.Request)
    (hnew : ∀ n ∈ c.new, N.takes env req (N.widened db₁ n) = false) :
    (N.fullRoutes db₀).filter (N.takes env req) = (N.fullRoutes db₁).filter (N.takes env req) := by
  refine h.filter_skip (h.faithful₁.takes_together env req) (fun o ho => ?_) hnew
  rw [hold] at ho
  cases ho

/-- The route is new and shares no host with another: it may stand at the end. -/
lemma filter_append {n : Route} (hold : c.old = none) (hnew : c.new = some n)
    (hclash : ∀ q ∈ c.before ++ c.after, hostSetsOverlap N.idna n.hosts (N.widened db₁ q).hosts = false)
    (env : Caddy.Env) (req : Caddy.Request) :
    (N.fullRoutes db₀ ++ [N.widened db₁ n]).filter (N.takes env req) = (N.fullRoutes db₁).filter (N.takes env req) := by
  by_cases htakes : N.takes env req (N.widened db₁ n)
  · -- it is the only route that takes the request
    have hother : ∀ q ∈ c.before ++ c.after, N.takes env req (N.widened db₁ q) = false := by
      intro q hq
      rw [Bool.eq_false_iff]
      intro hq'
      have hover := h.faithful₁.takes_together env req n (c.mem_rows₁.mpr (.inr hnew)) q (c.mem_rows₁.mpr (.inl hq))
        htakes hq'
      rw [Node.overlap, (Node.plain_widened (h.plain₁ n hnew)).1, hclash q hq] at hover
      cases hover
    have hnil₀ : (N.fullRoutes db₀).filter (N.takes env req) = [] := by
      rw [filter_eq_nil_iff]
      intro r hr
      obtain ⟨q, hq, rfl⟩ := Node.mem_fullRoutes.mp hr
      rcases c.mem_rows₀.mp hq with hq | hq
      · rw [h.others q hq, hother q hq]
        exact Bool.false_ne_true
      · rw [hold] at hq
        cases hq
    have hrows : db₁.rows.filter (N.takes env req ∘ N.widened db₁) = [n] := by
      have hnil : ∀ l : List Route, l ⊆ c.before ++ c.after →
          l.filter (N.takes env req ∘ N.widened db₁) = [] := fun l hl =>
        filter_eq_nil_iff.mpr fun q hq => by simp [hother q (hl hq)]
      rw [c.rows₁, hnew]
      simp [hnil c.before (subset_append_left _ _), hnil c.after (subset_append_right _ _), htakes]
    have honly := (@Node.fullRoutes_perm N db₁).filter (N.takes env req)
    rw [filter_map, hrows, map_singleton, perm_singleton] at honly
    rw [List.filter_append, hnil₀, filter_cons_of_pos htakes, filter_nil, nil_append, honly]
  · rw [List.filter_append, filter_cons_of_neg htakes, filter_nil, append_nil]
    refine h.filter_absent hold env req fun n' hn' => ?_
    obtain rfl : n = n' := Option.some.inj (hnew.symm.trans hn')
    exact Bool.eq_false_iff.mpr htakes

end Harmless

/-- The node has an object of the route exactly if the route was served before. -/
lemma Change.present_eq (c : Change db₀ db₁ id) (hid : id.all Char.isDigit) :
    ((preludeRoutes N.hp N.settings ++ (N.fullRoutes db₀).map N.emitted).any fun e => e.id = caddyID id) =
      c.old.isSome := by
  rw [Bool.eq_iff_iff, any_eq_true]
  constructor
  · rintro ⟨e, he, heid⟩
    rcases mem_append.mp he with he | he
    · exact absurd (of_decide_eq_true heid) (prelude_id hid he)
    obtain ⟨r, hr, rfl⟩ := mem_map.mp he
    obtain ⟨q, hq, rfl⟩ := Node.mem_fullRoutes.mp hr
    have hqid := emitted_id.mp (of_decide_eq_true heid)
    rw [Node.widened_id] at hqid
    rcases c.mem_rows₀.mp hq with hq | hq
    · exact absurd hqid (c.others_id q hq)
    · exact Option.isSome_iff_exists.mpr ⟨q, hq⟩
  · intro hsome
    obtain ⟨o, ho⟩ := Option.isSome_iff_exists.mp hsome
    refine ⟨N.emitted (N.widened db₀ o), mem_append_right _
      (mem_map_of_mem (Node.mem_fullRoutes.mpr ⟨o, c.mem_rows₀.mpr (.inr ho), rfl⟩)), ?_⟩
    exact decide_eq_true (emitted_id.mpr ((Node.widened_id o).trans (c.old_id o ho)))

lemma filter_routes (hid : id.all Char.isDigit) (routes : List Route) :
    (preludeRoutes N.hp N.settings ++ routes.map N.emitted).filter (fun e => e.id ≠ caddyID id) =
      preludeRoutes N.hp N.settings ++ (routes.filter fun r => r.id ≠ id).map N.emitted := by
  rw [List.filter_append, filter_map]
  congr 1
  · rw [filter_eq_self]
    exact fun e he => decide_eq_true (prelude_id hid he)
  congr 1
  apply filter_congr
  intro r _
  exact decide_eq_decide.mpr (not_congr emitted_id)

lemma map_routes (hid : id.all Char.isDigit) (n : Route) (routes : List Route) :
    (preludeRoutes N.hp N.settings ++ routes.map N.emitted).map
        (fun e => if e.id = caddyID id then N.emitted n else e) =
      preludeRoutes N.hp N.settings ++ (routes.map (replaceRow id n)).map N.emitted := by
  rw [map_append, map_map, map_map]
  congr 1
  · conv_rhs => rw [← map_id (preludeRoutes N.hp N.settings)]
    exact map_congr_left fun e he => if_neg (prelude_id hid he)
  apply map_congr_left
  intro r _
  unfold replaceRow
  simp only [Function.comp_apply]
  by_cases hr : r.id = id
  · rw [if_pos hr, if_pos (emitted_id.mpr hr)]
  · rw [if_neg hr, if_neg (mt emitted_id.mp hr)]

lemma routeMatchHosts_emitted (r : Route) : routeMatchHosts (N.emitted r) = r.hosts := by
  show ([routeMatch (withModules N.settings r)].flatten.flatMap _) = r.hosts
  unfold routeMatch
  split <;> simp [withModules]

lemma sameAnswers_of_full {faults : Faults} {db : NodeDb} {cfg : NodeConfig}
    (h : pushNodeConfig N db faults = some cfg) : SameAnswers N.idna cfg (N.fullConfig db) := by
  unfold pushNodeConfig at h
  split at h
  · cases h
  · obtain rfl := Option.some.inj h
    exact ⟨fun _ _ => rfl, fun _ => rfl, rfl, rfl⟩

/-- A row that is gone: the delete did it, or the node had nothing to delete. -/
lemma Harmless.sameAnswers_deleted (h : Harmless N c) (hid : id.all Char.isDigit) (hnew : c.new = none)
    {cfg : NodeConfig} (hcfg : cfg = withoutRoute (N.fullConfig db₀) id ∨ c.old = none ∧ cfg = N.fullConfig db₀) :
    SameAnswers N.idna cfg (N.fullConfig db₁) := by
  rcases hcfg with rfl | ⟨hold, rfl⟩
  · refine h.sameAnswers ?_ (h.filter_delete hnew)
    unfold withoutRoute
    rw [routes_fullConfig, filter_routes hid]
  · refine h.sameAnswers ?_ fun env req => h.filter_absent hold env req fun n hn => ?_
    · rw [← routes_fullConfig]
    · rw [hnew] at hn
      cases hn

lemma deleted_of_done {faults : Faults} {route : ℕ} (h : verdict .delete route faults.delete = .done) :
    faults.deleted := by
  have herr : doError .delete route faults.delete = none := by
    unfold verdict at h
    cases herr : doError .delete route faults.delete with
    | none => rfl
    | some err =>
      rw [herr] at h
      dsimp only at h
      split_ifs at h
  unfold Faults.deleted
  cases hreply : faults.delete with
  | answer a =>
    rw [hreply, doError] at herr
    split_ifs at herr with hcode
    exact decide_eq_true (Nat.lt_of_not_le hcode)
  | lost err | unsent err =>
    rw [hreply] at herr
    cases herr

end

/-! ### A shop and a blog on one node -/

def shop : Route where
  id := "1"
  hosts := ["shop.example"]
  upstreamIP := "10.0.0.5"
  upstreamPort := 8080

/-- It takes its whole zone. -/
def blog : Route where
  id := "2"
  hosts := ["blog.example"]
  wildcardZone := "blog.example"
  upstreamIP := "10.0.0.6"
  upstreamPort := 8080

/-- The node with the blog, and with the shop where there is one. -/
def withShop (r : Option Route) : NodeDb where
  rows := r.toList ++ [blog]
  zones := ["blog.example"]
  wildcardEnabled := fun id => id = "2"
  parked := fun _ => none

/-- A node with the default settings. -/
def plainNode : Node :=
  ⟨asciiIdna, plainHelpers, fun _ => true, fun t => t, {}⟩

def fullPush (r : Option Route) : NodeConfig :=
  plainNode.fullConfig (withShop r)

/-- The shop changes from `old` to `new`. -/
def shopPush (old new : Option Route) : Option NodeConfig :=
  pushRouteIncremental plainNode (withShop new) true {} (fullPush old) 1 .upsert

def shopChange (old new : Option Route) (hold : ∀ r ∈ old, r.id = "1")
    (hnew : ∀ r ∈ new, r.id = "1") :
    Change (withShop old) (withShop new) (Nat.toDigits 10 1) where
  before := []
  after := [blog]
  old := old
  new := new
  rows₀ := rfl
  rows₁ := rfl
  old_id := hold
  new_id := hnew
  others_id := by
    intro q hq
    obtain rfl : q = blog := mem_singleton.mp hq
    decide

/-- The shop is moved to another port. -/
def movedShop : Route :=
  { shop with upstreamPort := 9090 }

def shopMoves : Change (withShop (some shop)) (withShop (some movedShop)) (Nat.toDigits 10 1) :=
  shopChange (some shop) (some movedShop) (by decide) (by decide)

lemma shopMoves_harmless : Harmless plainNode shopMoves where
  faithful₀ := by
    unfold Node.FaithfulDb Caddyapi.FaithfulHosts
    decide +kernel
  faithful₁ := by
    unfold Node.FaithfulDb Caddyapi.FaithfulHosts
    decide +kernel
  zones₀ := by
    unfold Node.ZonesApart
    decide +kernel
  zones₁ := by
    unfold Node.ZonesApart
    decide +kernel
  others := fun _ _ => rfl
  plain₀ := by
    intro o ho
    obtain rfl : shop = o := Option.some.inj ho
    rfl
  plain₁ := by
    intro n hn
    obtain rfl : movedShop = n := Option.some.inj hn
    rfl
  quarantine := by
    intro n hn
    obtain rfl : movedShop = n := Option.some.inj hn
    rfl
  order := by
    intro o _ n hn q hq hover
    obtain rfl : movedShop = n := Option.some.inj hn
    obtain rfl : q = blog := mem_singleton.mp hq
    exact absurd hover (by decide +kernel)
  tls := rfl
  cache := fun h => absurd h Bool.false_ne_true

/-- The shop asks for client certificates. -/
def guardedShop : Route :=
  { shop with requireClientCert := true, mtlsCACertPEM := "PEM" }

end Routes.Incremental
