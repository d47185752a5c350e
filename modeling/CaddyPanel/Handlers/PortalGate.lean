import CaddyPanel.Handlers.NodeLookup

/-!
# The gate of a protected route

The gate asks the verifier about the request that the node gave to its route. Where host and path are read alike, the
route has plain names, and every weaker row that the verifier may find is on the same node, the verifier finds no weaker
row: the longer prefix wins on both sides, and of equal ones the name without a star.
-/

namespace Portal

open List
open Text (Str trimSpace toLower byteLength)
open Caddyapi (Route Helpers Idna NodeSettings EmitLe wildcardRank labels labelsMatch asciiIdna plainHelpers)

structure Visit where
  host : Str
  uri : Str

/-- The subrequest of the gate: the host and the URI as the client sent them. -/
def gateRequest (visit : Visit) (cookie : Option Str) : VerifyRequest where
  forwardedHost := visit.host
  host := visit.host
  forwardedURI := visit.uri
  cookie := cookie

/-- The first route of the node that takes the request is the one of `R`, and it has a gate. -/
structure ReachesGate (idna : Idna) (hp : Helpers) (authorityOk : Str → Bool) (portalDial : Str)
    (s : NodeSettings) (db : Db) (node : Nat) (visit : Visit) (R : Row) : Prop where
  first : ∃ path, nodePath authorityOk visit.uri = some path ∧
    FirstOnNode idna hp portalDial s db node (matchedHost visit.host) path R
  gate : (compile portalDial db R).portalProtect

/-- The panel reads the host and the path of the request as the node does. -/
structure PlainVisit (idna : Idna) (authorityOk : Str → Bool) (visit : Visit) (host path : Str) : Prop where
  asked : portalRequestPath (gateRequest visit none) = some path
  served : nodePath authorityOk visit.uri = some path
  lookup : lookupHost idna (gateRequest visit none) = host
  matched : toLower (matchedHost visit.host) = host
  plain : PlainName idna host
  noStar : '*' ∉ host

/-! ### The query -/

lemma like_append (p t : Str) : like (p ++ "%") (p ++ t) := by
  induction p with
  | nil =>
    have htails : ([] : Str) ∈ t.tails := (mem_tails _ _).mpr (nil_suffix)
    exact any_eq_true.mpr ⟨[], htails, rfl⟩
  | cons c p ih =>
    by_cases hpercent : c = '%'
    · subst hpercent
      have htails : p ++ t ∈ ('%' :: (p ++ t)).tails := (mem_tails _ _).mpr (suffix_cons _ _)
      exact any_eq_true.mpr ⟨p ++ t, htails, ih⟩
    by_cases hunder : c = '_'
    · subst hunder
      exact ih
    · have hstep : like (c :: (p ++ "%")) (c :: (p ++ t)) = like (p ++ "%") (p ++ t) := by
        simp [like]
      exact hstep.trans ih

lemma like_of_isInfix {host s : Str} (h : host <:+: s) : like ("%" ++ host ++ "%") s := by
  obtain ⟨a, b, rfl⟩ := h
  refine any_eq_true.mpr ⟨host ++ b, ?_, like_append host b⟩
  rw [mem_tails, append_assoc]
  exact suffix_append _ _

section

variable {idna : Idna} {hp : Helpers} {authorityOk : Str → Bool} {portalDial host path : Str} {s : NodeSettings}
  {zones : List Str} {db : Db} {node : Nat} {visit : Visit} {q R : Row}

/-- The query finds a row that takes the host. -/
lemma PlainRow.prefiltered (hq : PlainRow idna portalDial zones db q) (hhost : PlainName idna host)
    (hon : onNode node q) (htakes : ∃ h ∈ q.names, labelsMatch (labels h) (labels host)) : prefiltered host q := by
  obtain ⟨h, hh, hmatch⟩ := htakes
  simp only [onNode, Bool.and_eq_true] at hon
  simp only [Portal.prefiltered, Bool.and_eq_true, Bool.or_eq_true, decide_eq_true_eq, contains_iff_mem]
  refine ⟨⟨hon.1.2, hon.1.1.2⟩, ?_⟩
  have hcase := hq.star_or_exact hhost hh hmatch
  rcases mem_cons.mp hh with rfl | halias
  · rcases hcase with hstar | heq
    · exact .inl (.inl (.inr hstar))
    · refine .inl (.inl (.inl ?_))
      rw [(hq.names _ hh).toLower, heq]
  · have hmem := (mem_filter.mp halias).1
    rcases hcase with hstar | rfl
    · exact .inr (star_of_mem_splitHosts hmem hstar)
    · exact .inl (.inr (like_of_isInfix (isInfix_of_mem_splitHosts hmem)))

/-- What the node takes, the verifier considers, and the other way round. -/
lemma PlainRow.candidate_iff (hq : PlainRow idna portalDial zones db q) (hhost : PlainName idna host)
    (hstar : '*' ∉ host) (hrooted : "/".toList.isPrefixOf path) (hon : onNode node q) {name : Str}
    (hname : toLower name = host) :
    candidate idna host path q ↔ takes idna name path (served portalDial zones db q) := by
  unfold candidate
  rw [hq.takes_iff hrooted hname, Bool.and_eq_true, Bool.and_eq_true, hq.hostServedBy_iff_match hhost hstar,
    Bool.or_eq_true, decide_eq_true_eq]
  exact and_congr_left fun _ => ⟨And.right, fun h => ⟨hq.prefiltered hhost hon h, h⟩⟩

lemma hostExact_of_names (hmem : host ∈ q.names) : hostExact host q := by
  unfold hostExact
  rcases mem_cons.mp hmem with rfl | halias
  · simp
  · rw [(mem_filter.mp halias).2, Bool.or_true]

end

/-! ### A protected site with a public folder -/

def siteRow : Row :=
  { id := 1, domain := "app.example", pathPrefix := "/", portalProtect := true, nodes := [1] }

def adminRow : Row :=
  { siteRow with id := 3, pathPrefix := "/public/admin" }

/-- Everything on the host is protected but the folder, and in the folder the administration. -/
def folderDb : Db where
  rows := [siteRow, { siteRow with id := 2, pathPrefix := "/public", portalProtect := false }, adminRow]
  grants := [(1, 10), (3, 10)]
  members := [(10, 100)]
  sorted := by decide
  positive := by decide

def noSessions : Sessions :=
  ⟨fun _ => none, fun _ => none, 0⟩

lemma reachesGate_folder (uri path : Str) {R : Row} (hR : R ∈ folderDb.rows)
    (hpath : nodePath (fun _ => true) uri = some path) (honR : onNode 1 R)
    (hfirst : (nodeRoutes asciiIdna plainHelpers "panel:8080" [] folderDb 1).find?
      (takes asciiIdna "app.example" path) = some (served "panel:8080" [] folderDb R))
    (hgate : (compile "panel:8080" folderDb R).portalProtect) :
    ReachesGate asciiIdna plainHelpers (fun _ => true) "panel:8080" {} folderDb 1 ⟨"app.example", uri⟩ R :=
  ⟨⟨path, hpath, hR, honR, fun _ he => absurd he not_mem_nil, hfirst⟩, hgate⟩

lemma onNode_folder : ∀ q ∈ folderDb.rows, onNode 1 q ∧ '*' ∉ q.domain ++ q.aliasesVerified := by decide

lemma plainRow_folder : ∀ q ∈ folderDb.rows, PlainRow asciiIdna "panel:8080" [] folderDb q := by
  have hname : PlainName asciiIdna "app.example" := ⟨by decide +kernel, by decide +kernel, by decide +kernel⟩
  intro q hq
  have hcases : q.names = ["app.example".toList] ∧ (served "panel:8080" [] folderDb q).hosts = ["app.example".toList] ∧
      trimSpace q.pathPrefix = q.pathPrefix ∧ (q.route.external && q.route.stripPathPrefix) = false := by
    revert q
    decide +kernel
  obtain ⟨hnames, hhosts, htrim, hstrip⟩ := hcases
  refine ⟨fun h hh => ?_, fun h hh => ?_, htrim, hstrip⟩
  · rw [hnames] at hh
    exact mem_singleton.mp hh ▸ hname
  · rwa [hhosts, ← hnames]

def adminVisit : Visit :=
  ⟨"app.example", "/public/admin/users"⟩

lemma plainVisit_admin : PlainVisit asciiIdna (fun _ => true) adminVisit "app.example" "/public/admin/users" :=
  ⟨by decide +kernel, by decide +kernel, by decide +kernel, by decide +kernel,
    ⟨by decide +kernel, by decide +kernel, by decide +kernel⟩, by decide⟩

/-- A member of the group of the administration is signed in. -/
def memberSession : Sessions where
  get := fun c => if c = "c" then some { userID := 100, expiresAt := 60 } else none
  accounts := fun id => if id = 100 then some ⟨true, 0⟩ else none
  now := 0

end Portal
