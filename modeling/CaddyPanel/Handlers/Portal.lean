import CaddyPanel.Caddyapi.Gates
import CaddyPanel.Caddyapi.NodeConfig
import CaddyPanel.Lib.Url
import CaddyPanel.Routes.Lifecycle

/-!
# The access portal

A protected route asks the panel about each request (`Verify`). The panel finds the route again from
the host and the forwarded URI, over the table of all routes (`RouteForRequest`), and lets the
request through when the route it finds is not protected. The node had chosen the route from the
cleaned path and from its own routes, so the two can differ.
-/

namespace Portal

open List
open Text (Str trimSpace toLower byteLength)
open Caddyapi (Route Helpers Idna hostsOverlap)

/-! ### Tables -/

/-- The columns of a route that the portal and the node's matchers read; `route` has the others as
they are compiled. -/
structure Row where
  id : Nat
  domain : Str
  aliases : Str := []
  aliasesVerified : Str := []
  pathPrefix : Str := []
  domainVerified : Bool := true
  status : Lifecycle.Status := .active
  portalProtect : Bool := false
  /-- the anchor node and the assigned ones -/
  nodes : List Nat := []
  wildcardEnabled : Bool := false
  wildcardZone : Str := []
  /-- expired, of a suspended service, behind a revoked tunnel or with a refused target -/
  withheld : Bool := false
  route : Route := { id := [], hosts := [] }

structure Db where
  rows : List Row
  /-- route and group -/
  grants : List (Nat × Nat)
  /-- group and user -/
  members : List (Nat × Nat)
  sorted : rows.Pairwise fun a b => a.id < b.id
  positive : ∀ r ∈ rows, 0 < r.id

lemma Db.nodup (db : Db) : db.rows.Nodup :=
  db.sorted.imp fun hlt heq => absurd (heq ▸ hlt) (Nat.lt_irrefl _)

lemma Db.eq_of_id_eq (db : Db) {a b : Row} (ha : a ∈ db.rows) (hb : b ∈ db.rows) (h : a.id = b.id) : a = b :=
  inj_on_of_nodup_map (pairwise_map.mpr (db.sorted.imp fun hlt => Nat.ne_of_lt hlt)) ha hb h

/-- `IsAllowed`. -/
def isAllowed (db : Db) (routeID userID : Nat) : Bool :=
  db.grants.any fun g => g.1 = routeID && db.members.any fun m => m.1 = g.2 && m.2 = userID

def hasGrants (db : Db) (routeID : Nat) : Bool :=
  db.grants.any fun g => g.1 = routeID

/-! ### The route of a request (`RouteForRequest`) -/

def splitHosts (raw : Str) : List Str :=
  ((raw.splitOnP fun c => [',', ' ', '\t', '\n', '\r', ';'].contains c).map
    fun p => toLower (trimSpace p)).filter (· ≠ [])

/-- `LIKE`: a percent sign takes any text, an underscore any character. -/
def like : Str → Str → Bool
  | [], s => s = []
  | '%' :: p, s => s.tails.any (like p)
  | '_' :: p, s => match s with
    | [] => false
    | _ :: s => like p s
  | c :: p, s => match s with
    | [] => false
    | d :: s => c = d && like p s

/-- The condition of the query. -/
def prefiltered (host : Str) (q : Row) : Bool :=
  q.domainVerified && q.status.serving && (toLower q.domain = host || q.domain.contains '*' ||
      like ("%" ++ host ++ "%") (toLower q.aliases) || q.aliases.contains '*')

def hostServedBy (idna : Idna) (host : Str) (q : Row) : Bool :=
  hostsOverlap idna q.domain host || (splitHosts q.aliases).any fun a =>
      (splitHosts q.aliasesVerified).contains a && hostsOverlap idna a host

def hostExact (host : Str) (q : Row) : Bool :=
  toLower q.domain = toLower host || (splitHosts q.aliasesVerified).contains host

/-- The prefix that is compared; the host's catch-all has none. -/
def Row.prefixOf (q : Row) : Str :=
  let p := trimSpace q.pathPrefix
  if p = "/" then [] else p

def candidate (idna : Idna) (host path : Str) (q : Row) : Bool :=
  prefiltered host q && hostServedBy idna host q &&
    (q.prefixOf = [] || (q.prefixOf.map idna.lower).isPrefixOf (path.map idna.lower))

def exact (host : Str) (q : Row) : Bool :=
  !(q.domain ++ q.aliasesVerified).contains '*' || hostExact host q

/-- The longer prefix wins, then an exact host. -/
def outranks (host : Str) (a b : Row) : Bool :=
  byteLength b.prefixOf < byteLength a.prefixOf ||
    (byteLength a.prefixOf = byteLength b.prefixOf && exact host a && !exact host b)

/-- The best row so far, and whether another one is as good. -/
structure Best where
  row : Row
  ambiguous : Bool

def consider (idna : Idna) (host path : Str) (best : Option Best) (q : Row) : Option Best :=
  if !candidate idna host path q then best
  else
    match best with
    | none => some ⟨q, false⟩
    | some b =>
      if outranks host q b.row then some ⟨q, false⟩
      else if byteLength q.prefixOf = byteLength b.row.prefixOf && exact host q = exact host b.row then
        some { b with ambiguous := true }
      else some b

inductive RouteError where
  | noRoute
  | ambiguousRoute
  deriving DecidableEq

def routeForRequest (idna : Idna) (db : Db) (host path : Str) : Except RouteError (Nat × Bool) :=
  let host := (trimSpace host).map idna.lower
  if host = [] || !"/".toList.isPrefixOf path then .error .noRoute
  else
    match db.rows.foldl (consider idna host path) none with
    | none => .error .noRoute
    | some b =>
      if b.ambiguous then .error .ambiguousRoute else .ok (b.row.id, b.row.portalProtect)

/-! ### The request of the gate -/

structure VerifyRequest where
  forwardedHost : Str
  host : Str
  forwardedURI : Str
  cookie : Option Str

/-- `portalRequestHost`. -/
def portalRequestHost (idna : Idna) (req : VerifyRequest) : Str :=
  let host := if req.forwardedHost = [] then req.host else req.forwardedHost
  (trimSpace (Text.before ':' host)).map idna.lower

/-- An authority without a host; `url.Parse` takes one with user information only. -/
def hostlessAuthority (authority : Str) : Bool :=
  match Caddyapi.splitLast '@' authority with
  | none => authority = []
  | some (userinfo, host) =>
    host = [] && userinfo.all (fun c => c.isAlphanum || "-._:~!$&'()*+,;=%@".toList.contains c) &&
      (Url.pathUnescape userinfo).isSome

/-- `url.Parse` of a text that starts with a slash: its path where it names no host. -/
def parsePath (raw : Str) : Option Str :=
  if Url.containsCTLByte raw then none
  else
    let fragment := (raw.dropWhile (· ≠ '#')).tail
    let rest := Text.before '?' (Text.before '#' raw)
    if (Url.pathUnescape fragment).isNone then none
    else if "//".toList.isPrefixOf rest && !"///".toList.isPrefixOf rest then
      if hostlessAuthority (Text.before '/' (rest.drop 2)) then
        Url.pathUnescape ((rest.drop 2).dropWhile (· ≠ '/'))
      else none
    else Url.pathUnescape rest

/-- `portalRequestPath`. -/
def portalRequestPath (req : VerifyRequest) : Option Str :=
  if !"/".toList.isPrefixOf req.forwardedURI then none
  else (parsePath req.forwardedURI).filter fun path => "/".toList.isPrefixOf path

/-! ### Sessions -/

structure Session where
  userID : Nat
  email : Str := []
  username : Str := []
  ver : Nat := 1
  epoch : Nat := 0
  expiresAt : Nat

structure Account where
  isActive : Bool
  authEpoch : Nat

/-- The session store, the accounts and the time. -/
structure Sessions where
  get : Str → Option Session
  accounts : Nat → Option Account
  now : Nat

def portalSessionVer : Nat := 1

/-- `IdentityStillValid`. -/
def identityStillValid (st : Sessions) (userID epoch : Nat) : Bool :=
  (st.accounts userID).any fun a => a.isActive && a.authEpoch = epoch

def loadPortalSession (st : Sessions) (cookie : Option Str) : Option Session :=
  match cookie with
  | none => none
  | some c =>
    if c = [] then none
    else
      match st.get c with
      | none => none
      | some s =>
        if s.ver < portalSessionVer || s.expiresAt < st.now then none
        else if identityStillValid st s.userID s.epoch then some s
        else none

/-! ### The verifier -/

inductive DenyReason where
  | noRouteIdentity
  | unknownRoute
  | noSession
  | notMember
  deriving DecidableEq

/-- A 200, maybe with the name and address of the user, or the redirect to the login page. -/
inductive Answer where
  | ok (identity : Option (Str × Str))
  | deny (reason : DenyReason)
  deriving DecidableEq

def Answer.isOk : Answer → Bool
  | .ok _ => true
  | .deny _ => false

/-- `Verify`. -/
def verify (idna : Idna) (db : Db) (st : Sessions) (req : VerifyRequest) : Answer :=
  match portalRequestPath req with
  | none => .deny .noRouteIdentity
  | some path =>
    match routeForRequest idna db (portalRequestHost idna req) path with
    | .error _ => .deny .unknownRoute
    | .ok (routeID, protect) =>
      if routeID = 0 then .deny .unknownRoute
      else if !protect then .ok none
      else
        match loadPortalSession st req.cookie with
        | none => .deny .noSession
        | some sess =>
          if isAllowed db routeID sess.userID then
            .ok (some (if sess.username = [] then sess.email else sess.username, sess.email))
          else .deny .notMember

/-! ### The row that the verifier finds -/

/-- The order of the rows as one number. -/
def rank (host : Str) (q : Row) : Nat :=
  2 * byteLength q.prefixOf + (exact host q).toNat

lemma outranks_iff {host : Str} {a b : Row} : outranks host a b ↔ rank host b < rank host a := by
  unfold outranks rank
  cases exact host a <;> cases exact host b <;>
    simp only [Bool.or_eq_true, Bool.and_eq_true, decide_eq_true_eq, Bool.toNat_true,
      Bool.toNat_false, Bool.not_true, Bool.not_false, Bool.false_eq_true, and_true, and_false,
      or_false] <;> omega

lemma ties_iff {host : Str} {a b : Row} :
    (byteLength a.prefixOf = byteLength b.prefixOf && exact host a = exact host b) ↔ rank host a = rank host b := by
  unfold rank
  cases exact host a <;> cases exact host b <;> simp <;> omega

section

variable {idna : Idna} {host path : Str}

/-- What the loop knows after some rows. -/
def BestOf (idna : Idna) (host path : Str) (done : List Row) : Option Best → Prop
  | none => ∀ q ∈ done, candidate idna host path q = false
  | some b => (b.row ∈ done ∧ candidate idna host path b.row) ∧
      (∀ q ∈ done, candidate idna host path q → rank host q ≤ rank host b.row) ∧
      (b.ambiguous ↔ ∃ q ∈ done, candidate idna host path q ∧ q ≠ b.row ∧
        rank host b.row ≤ rank host q)

lemma BestOf.consider {done : List Row} {best : Option Best} {q : Row} (hq : q ∉ done)
    (h : BestOf idna host path done best) : BestOf idna host path (q :: done) (consider idna host path best q) := by
  unfold Portal.consider
  cases hcand : candidate idna host path q with
  | false =>
    cases best with
    | none => exact forall_mem_cons.mpr ⟨hcand, h⟩
    | some b =>
      obtain ⟨hrow, hmax, hamb⟩ := h
      refine ⟨⟨mem_cons_of_mem _ hrow.1, hrow.2⟩, ?_, ?_⟩
      · simpa [hcand] using hmax
      · simpa [hcand] using hamb
  | true =>
    cases best with
    | none =>
      have hnone : ∀ q' ∈ done, candidate idna host path q' = false := h
      refine ⟨⟨mem_cons_self, hcand⟩, ?_, ?_⟩ <;> simp +contextual [hnone]
    | some b =>
      obtain ⟨hrow, hmax, hamb⟩ := h
      have hne : q ≠ b.row := fun heq => hq (heq ▸ hrow.1)
      simp only [Bool.not_true, Bool.false_eq_true, if_false]
      split
      · -- the new row is strictly better than everything before it
        next hout =>
        rw [outranks_iff] at hout
        refine ⟨⟨mem_cons_self, hcand⟩, ?_, ?_⟩
        · grind
        · grind
      rename_i hout
      rw [outranks_iff, not_lt] at hout
      split
      · next htie =>
        rw [ties_iff] at htie
        refine ⟨⟨mem_cons_of_mem _ hrow.1, hrow.2⟩, ?_, ?_⟩
        · grind
        · exact iff_of_true rfl ⟨q, mem_cons_self, hcand, hne, htie.ge⟩
      · next htie =>
        rw [ties_iff] at htie
        refine ⟨⟨mem_cons_of_mem _ hrow.1, hrow.2⟩, ?_, ?_⟩
        · grind
        · grind

lemma bestOf_foldl {rows done : List Row} {best : Option Best} (hrows : rows.Nodup)
    (hdone : ∀ q ∈ rows, q ∉ done) (h : BestOf idna host path done best) :
    BestOf idna host path (rows.reverse ++ done) (rows.foldl (consider idna host path) best) := by
  induction rows generalizing done best with
  | nil => exact h
  | cons q rows ih =>
    obtain ⟨hq, hrows⟩ := nodup_cons.mp hrows
    rw [reverse_cons, append_assoc]
    refine ih hrows ?_ (h.consider (hdone q mem_cons_self))
    intro q' hq' hmem
    rcases mem_cons.mp hmem with rfl | hmem
    · exact hq hq'
    · exact hdone q' (mem_cons_of_mem _ hq') hmem

/-- `q` is the one candidate that outranks all others. -/
structure Chosen (idna : Idna) (db : Db) (host path : Str) (q : Row) : Prop where
  mem : q ∈ db.rows
  candidate : candidate idna host path q
  outranks : ∀ q' ∈ db.rows, Portal.candidate idna host path q' = true → q' ≠ q →
    outranks host q q' = true

lemma chosen_iff {db : Db} {b : Best} {q : Row} (h : BestOf idna host path db.rows.reverse (some b)) :
    Chosen idna db host path q ↔ q = b.row ∧ b.ambiguous = false := by
  obtain ⟨⟨hmem, hcand⟩, hmax, hamb⟩ := h
  simp only [mem_reverse] at hmem hmax hamb
  constructor
  · intro hq
    obtain rfl : q = b.row := by
      by_contra hne
      have hout := outranks_iff.mp (hq.outranks b.row hmem hcand (Ne.symm hne))
      exact absurd (hmax q hq.mem hq.candidate) (not_le.mpr hout)
    refine ⟨rfl, Bool.eq_false_iff.mpr fun hambiguous => ?_⟩
    obtain ⟨q', hq', hcand', hne, hle⟩ := hamb.mp hambiguous
    exact absurd hle (not_le.mpr (outranks_iff.mp (hq.outranks q' hq' hcand' hne)))
  · rintro ⟨rfl, hunique⟩
    refine ⟨hmem, hcand, fun q' hq' hcand' hne => outranks_iff.mpr (not_le.mp fun hle => ?_)⟩
    rw [hamb.mpr ⟨q', hq', hcand', hne, hle⟩] at hunique
    cases hunique

/-- Whatever order the rows come in, the loop finds the chosen row or none. -/
theorem routeForRequest_eq_ok {db : Db} {raw : Str} {id : Nat} {protect : Bool}
    (hhost : (trimSpace raw).map idna.lower = host) (hne : host ≠ []) (hpath : "/".toList.isPrefixOf path) :
    routeForRequest idna db raw path = .ok (id, protect) ↔
      ∃ q, Chosen idna db host path q ∧ q.id = id ∧ q.portalProtect = protect := by
  have hbest : BestOf idna host path (db.rows.reverse ++ [])
      (db.rows.foldl (consider idna host path) none) :=
    bestOf_foldl db.nodup (fun q _ => not_mem_nil) (fun q hq => absurd hq not_mem_nil)
  rw [append_nil] at hbest
  unfold routeForRequest
  simp only [hhost, hne, hpath, decide_false, Bool.not_true, Bool.or_self, Bool.false_eq_true,
    if_false]
  cases hfold : db.rows.foldl (consider idna host path) none with
  | none =>
    rw [hfold] at hbest
    refine iff_of_false nofun ?_
    rintro ⟨q, hq, -⟩
    have hcand := hq.candidate
    rw [hbest q (mem_reverse.mpr hq.mem)] at hcand
    cases hcand
  | some b =>
    rw [hfold] at hbest
    cases hunique : b.ambiguous <;> simp [chosen_iff hbest, hunique]

end

/-- The host under which the verifier looks a request up. -/
def lookupHost (idna : Idna) (req : VerifyRequest) : Str :=
  (trimSpace (portalRequestHost idna req)).map idna.lower

/-- The row that the verifier takes for the route of the request. -/
def ChosenFor (idna : Idna) (db : Db) (req : VerifyRequest) (q : Row) : Prop :=
  lookupHost idna req ≠ [] ∧ ∃ path, portalRequestPath req = some path ∧
    Chosen idna db (lookupHost idna req) path q

lemma portalRequestPath_rooted {req : VerifyRequest} {path : Str}
    (h : portalRequestPath req = some path) : "/".toList.isPrefixOf path := by
  unfold portalRequestPath at h
  split at h
  · cases h
  · exact (Option.filter_eq_some_iff.mp h).2

section

variable {idna : Idna} {db : Db} {st : Sessions} {req : VerifyRequest}

/-- No request gets through without a row. -/
lemma exists_chosenFor (h : (verify idna db st req).isOk) : ∃ q, ChosenFor idna db req q := by
  unfold verify at h
  split at h
  · cases h
  rename_i path hpath
  split at h
  · cases h
  rename_i id protect hroute
  by_cases hne : lookupHost idna req = []
  · have hblank : (trimSpace (portalRequestHost idna req)).map idna.lower = [] := hne
    unfold routeForRequest at hroute
    dsimp only at hroute
    rw [hblank] at hroute
    cases hroute
  · obtain ⟨q, hq, -⟩ :=
      (routeForRequest_eq_ok rfl hne (portalRequestPath_rooted hpath)).mp hroute
    exact ⟨q, hne, path, hpath, hq⟩

/-- What the verifier answers for its row. -/
lemma verify_isOk_of_chosenFor {q : Row} (hq : ChosenFor idna db req q) :
    (verify idna db st req).isOk ↔ q.portalProtect = false ∨
      ∃ sess, loadPortalSession st req.cookie = some sess ∧ isAllowed db q.id sess.userID := by
  obtain ⟨hne, path, hpath, hchosen⟩ := hq
  have hid : q.id ≠ 0 := Nat.ne_of_gt (db.positive q hchosen.mem)
  unfold verify
  simp only [hpath, hid, if_false,
    (routeForRequest_eq_ok rfl hne (portalRequestPath_rooted hpath)).mpr ⟨q, hchosen, rfl, rfl⟩]
  cases q.portalProtect with
  | false => exact iff_of_true rfl (.inl rfl)
  | true =>
    cases loadPortalSession st req.cookie with
    | none => simp [Answer.isOk]
    | some sess =>
      cases hallowed : isAllowed db q.id sess.userID with
      | false => simp [Answer.isOk, hallowed]
      | true => simp [Answer.isOk, hallowed]

/-- The row is open to somebody who is not allowed for `R`. -/
def Weaker (db : Db) (R q : Row) : Prop :=
  q.portalProtect = false ∨ ∃ user, isAllowed db q.id user ∧ isAllowed db R.id user = false

/-- Who gets through is allowed for `R`, where the verifier finds no weaker row. -/
lemma allowed_of_verify {R : Row} (hok : (verify idna db st req).isOk)
    (hrow : ∀ q, ChosenFor idna db req q → ¬ Weaker db R q) :
    ∃ sess, loadPortalSession st req.cookie = some sess ∧ isAllowed db R.id sess.userID := by
  obtain ⟨q, hq⟩ := exists_chosenFor hok
  have hnot := hrow q hq
  rcases (verify_isOk_of_chosenFor hq).mp hok with hopen | ⟨sess, hsess, hallowed⟩
  · exact absurd (.inl hopen) hnot
  · refine ⟨sess, hsess, ?_⟩
    by_contra hdenied
    exact hnot (.inr ⟨sess.userID, hallowed, by simpa using hdenied⟩)

end

/-! ### The routes of a node -/

/-- The host matchers of a row, and the zone that it takes as a whole. Only proven aliases count. -/
def routeHosts (row : Row) : List Str × Str :=
  (splitHosts row.aliases).foldl (fun out a =>
    let proven := (splitHosts row.aliasesVerified).contains a
    if row.wildcardEnabled && row.wildcardZone ≠ [] && a = Caddyapi.wildcardHost row.wildcardZone &&
        proven && (row.pathPrefix = [] || row.pathPrefix = "/") then
      (out.1, row.wildcardZone)
    else if a ≠ row.domain && proven then (out.1 ++ [a], out.2)
    else out) ([row.domain], [])

/-- What holds of the hosts of a row, by its aliases one after the other. -/
lemma routeHosts_induction {row : Row} {I : List Str × Str → Prop} (hstart : I ([row.domain], []))
    (hzone : ∀ out, Caddyapi.wildcardHost row.wildcardZone ∈ splitHosts row.aliasesVerified →
      (row.pathPrefix = [] ∨ row.pathPrefix = "/") → I out → I (out.1, row.wildcardZone))
    (hplain : ∀ out, ∀ a ∈ splitHosts row.aliases, a ∈ splitHosts row.aliasesVerified →
      ¬ (row.wildcardEnabled ∧ row.wildcardZone ≠ [] ∧ a = Caddyapi.wildcardHost row.wildcardZone ∧
        (row.pathPrefix = [] ∨ row.pathPrefix = "/")) → I out → I (out.1 ++ [a], out.2)) : I (routeHosts row) := by
  refine List.foldlRecOn _ _ hstart fun out hout a ha => ?_
  dsimp only
  split
  · next hcond =>
    simp only [Bool.and_eq_true, Bool.or_eq_true, decide_eq_true_eq, contains_iff_mem] at hcond
    obtain ⟨⟨⟨-, rfl⟩, hproven⟩, hroot⟩ := hcond
    exact hzone out hproven hroot hout
  rename_i hcond
  split
  · next hother =>
    rw [Bool.and_eq_true, contains_iff_mem] at hother
    refine hplain out a ha hother.2 (fun hall => hcond ?_) hout
    simpa [and_assoc, hother.2] using hall
  · exact hout

/-- The compiled row. A gate that cannot be emitted becomes a refusal. -/
def compile (portalDial : Str) (db : Db) (row : Row) : Route :=
  { row.route with
    id := Caddyapi.itoa row.id
    hosts := (routeHosts row).1
    wildcardZone := (routeHosts row).2
    pathPrefix := row.pathPrefix
    portalProtect := row.portalProtect && portalDial ≠ [] && hasGrants db row.id
    portalDial := portalDial
    portalDenyOnMisconfig := row.portalProtect && (portalDial = [] || !hasGrants db row.id)
    portalNoGrants := row.portalProtect && portalDial ≠ [] && !hasGrants db row.id }

/-- The rows that a node serves. -/
def onNode (node : Nat) (row : Row) : Bool :=
  row.nodes.contains node && row.status.serving && row.domainVerified && !row.withheld

def buildRoutesForNode (idna : Idna) (hp : Helpers) (portalDial : Str) (db : Db) (node : Nat) :
    List Route :=
  Caddyapi.sortRoutesForEmission idna hp
    ((db.rows.filter (onNode node)).map (compile portalDial db))

/-- The routes as the node tries them. -/
def nodeRoutes (idna : Idna) (hp : Helpers) (portalDial : Str) (zones : List Str) (db : Db)
    (node : Nat) : List Route :=
  Caddyapi.sortRoutesForEmission idna hp
    (Caddyapi.withWildcardHosts (buildRoutesForNode idna hp portalDial db node) zones)

/-- The route of a row on a node with these zones. -/
def served (portalDial : Str) (zones : List Str) (db : Db) (row : Row) : Route :=
  Caddyapi.withWildcardHost zones (compile portalDial db row)

lemma served_fields {portalDial : Str} {zones : List Str} {db : Db} (q : Row) :
    (served portalDial zones db q).id = Caddyapi.itoa q.id ∧
    (served portalDial zones db q).pathPrefix = q.pathPrefix ∧
    (served portalDial zones db q).external = q.route.external ∧
    (served portalDial zones db q).stripPathPrefix = q.route.stripPathPrefix := by
  unfold served Caddyapi.withWildcardHost
  split_ifs <;> exact ⟨rfl, rfl, rfl, rfl⟩

lemma mem_nodeRoutes {idna : Idna} {hp : Helpers} {portalDial : Str} {zones : List Str} {db : Db} {node : Nat}
    {r : Route} : r ∈ nodeRoutes idna hp portalDial zones db node ↔
      ∃ row ∈ db.rows, onNode node row ∧ served portalDial zones db row = r := by
  unfold nodeRoutes
  rw [Caddyapi.mem_sortRoutesForEmission, Caddyapi.withWildcardHosts_eq_map, mem_map]
  constructor
  · rintro ⟨r', hr', rfl⟩
    obtain ⟨row, hrow, rfl⟩ := mem_map.mp (Caddyapi.mem_sortRoutesForEmission.mp hr')
    obtain ⟨hmem, hon⟩ := mem_filter.mp hrow
    exact ⟨row, hmem, hon, rfl⟩
  · rintro ⟨row, hmem, hon, rfl⟩
    exact ⟨_, Caddyapi.mem_sortRoutesForEmission.mpr
      (mem_map_of_mem (mem_filter.mpr ⟨hmem, hon⟩)), rfl⟩

end Portal
