import CaddyPanel.Lib.UrlEscape

/-!
# The admin proxy of the node agent

The agent stands before the admin API of the node's Caddy. It tests the decoded path of a request against an
allow-list, joins that path to the address of the API and parses the result, so that what was decoded once is decoded
again.
-/

namespace AdminProxy

open List Text Url

inductive Method where
  | get
  | post
  | patch
  | delete
  | other
  deriving DecidableEq

structure AdminProxyConfig where
  key : Str
  adminURL : Str
  adminSocket : Str

structure Request where
  method : Method
  authorization : Str
  /-- the target of the request line -/
  uri : Str

def socketBase : Str := "http://caddy-admin.invalid"

def adminProxyAllowed (method : Method) (path : Str) : Bool :=
  if ".." <:+: path then false
  else
    match method with
    | .get => path = "/config" || "/config/".toList.isPrefixOf path || "/id/".toList.isPrefixOf path
    | .post =>
      path = "/load" || "/config/".toList.isPrefixOf path || "/souin-api/".toList.isPrefixOf path
    | .patch | .delete => "/config/".toList.isPrefixOf path || "/id/".toList.isPrefixOf path
    | .other => false

def trimPrefix (p s : Str) : Str :=
  if p.isPrefixOf s then s.drop p.length else s

def trimSlash (s : Str) : Str :=
  if s.getLast? = some '/' then s.dropLast else s

inductive Answer where
  | unauthorized
  | forbidden
  | badRequest
  /-- the path that the allow-list accepted, and the URL of the request to Caddy -/
  | forwarded (path : Str) (target : Location)
  deriving DecidableEq

/-- `socketLive` is whether Caddy listens on the socket. -/
def base (cfg : AdminProxyConfig) (socketLive : Bool) : Str :=
  if cfg.adminSocket ≠ [] && socketLive then socketBase else trimSlash cfg.adminURL

def target (base path rawQuery : Str) : Str :=
  base ++ (path ++ if rawQuery ≠ [] then '?' :: rawQuery else [])

/-- `authorityOk` says which authorities parse. -/
def adminProxyHandler (authorityOk : Str → Bool) (cfg : AdminProxyConfig) (socketLive : Bool) (r : Request) : Answer :=
  match parseRequestURI authorityOk r.uri with
  | none => .badRequest
  | some path =>
    if trimSpace (trimPrefix "Bearer " r.authorization) ≠ cfg.key then .unauthorized
    else if !adminProxyAllowed r.method path then .forbidden
    else
      match parseAbsolute authorityOk (target (base cfg socketLive) path (behind '?' r.uri)) with
      | none => .badRequest
      | some u => .forwarded path u

/-- The path that Caddy decodes from the request line the agent writes. -/
def upstreamPath (authorityOk : Str → Bool) (u : Location) : Option Str :=
  parseRequestURI authorityOk (requestURI u)

/-! ### What the second parser leaves of a path -/

lemma length_before_lt {c : Char} {s : Str} (h : c ∈ s) : (before c s).length < s.length := by
  refine lt_of_le_of_ne (before_isPrefix c s).length_le fun heq => ?_
  rw [← (before_isPrefix c s).eq_of_length heq] at h
  simpa using mem_takeWhile_imp h

/-- The query and the fragment are cut off behind the path, or in it. -/
lemma before_target (path rawQuery : Str) :
    before '?' (before '#' (path ++ if rawQuery ≠ [] then '?' :: rawQuery else [])) = before '?' (before '#' path) := by
  by_cases hhash : '#' ∈ path
  · rw [before_append_of_mem hhash]
  rw [before_append hhash, before_of_not_mem hhash]
  by_cases hquestion : '?' ∈ path
  · rw [before_append_of_mem hquestion]
  · rw [before_append hquestion, before_of_not_mem hquestion]
    split <;> simp [before]

/-- The path has none of the characters that a second parser does not take for themselves. -/
def Plain (path : Str) : Prop :=
  '%' ∉ path ∧ '?' ∉ path ∧ '#' ∉ path

lemma eq_iff_plain {path decoded : Str} (h : pathUnescape (before '?' (before '#' path)) = some decoded) :
    decoded = path ↔ Plain path := by
  constructor
  · rintro rfl
    -- every one of the three parsers makes a text shorter that it does not leave as it is
    have hlen := length_le_of_pathUnescape h
    have hle := (before_isPrefix '?' (before '#' decoded)).length_le
    have hhash : '#' ∉ decoded := fun hmem => by
      have := length_before_lt hmem
      omega
    rw [before_of_not_mem hhash] at hlen hle
    have hquestion : '?' ∉ decoded := fun hmem => by
      have := length_before_lt hmem
      omega
    rw [before_of_not_mem hquestion] at hlen
    exact ⟨fun hmem => Nat.lt_irrefl _ (hlen.2 hmem), hquestion, hhash⟩
  · rintro ⟨hpercent, hquestion, hhash⟩
    rw [before_of_not_mem hhash, before_of_not_mem hquestion, show pathUnescape _ = some _ by
      simpa [pathUnescape] using pathUnescape_append_of_not_mem hpercent []] at h
    cases h
    rfl

lemma forwarded_spec {authorityOk : Str → Bool} {cfg : AdminProxyConfig} {socketLive : Bool} {r : Request}
    {path : Str} {u : Location} (h : adminProxyHandler authorityOk cfg socketLive r = .forwarded path u) :
    parseRequestURI authorityOk r.uri = some path ∧ adminProxyAllowed r.method path ∧
      parseAbsolute authorityOk (target (base cfg socketLive) path (behind '?' r.uri)) = some u := by
  simp only [adminProxyHandler] at h
  split at h
  · cases h
  rename_i p hp
  split at h
  · cases h
  split at h
  · cases h
  rename_i hallowed
  split at h
  · cases h
  rename_i v hv
  cases h
  exact ⟨hp, by simpa using hallowed, hv⟩

lemma allowed_spec {method : Method} {path : Str} (h : adminProxyAllowed method path) :
    path.head? = some '/' ∧ ¬ ".." <:+: path := by
  simp only [adminProxyAllowed] at h
  split at h
  · cases h
  rename_i hdots
  refine ⟨?_, hdots⟩
  have hhead : ∀ p : Str, (('/' :: p).isPrefixOf path ∨ path = '/' :: p) → path.head? = some '/' := by
    rintro p (hp | rfl)
    · obtain ⟨t, rfl⟩ := isPrefixOf_iff_prefix.mp hp
      rfl
    · rfl
  cases method <;> simp only [Bool.or_eq_true, decide_eq_true_eq] at h
  · rcases h with (h | h) | h
    · exact hhead _ (.inr h)
    · exact hhead _ (.inl h)
    · exact hhead _ (.inl h)
  · rcases h with (h | h) | h
    · exact hhead _ (.inr h)
    · exact hhead _ (.inl h)
    · exact hhead _ (.inl h)
  · exact h.elim (fun h => hhead _ (.inl h)) (fun h => hhead _ (.inl h))
  · exact h.elim (fun h => hhead _ (.inl h)) (fun h => hhead _ (.inl h))
  · cases h

/-- Where the admin API is an origin, a forwarded request asks it for the path that was accepted just where that path
has nothing left to decode or to cut off. -/
theorem upstream_eq_accepted_iff (authorityOk : Str → Bool) (cfg : AdminProxyConfig) (socketLive : Bool)
    (horigin : IsOrigin (base cfg socketLive)) (r : Request) (hbytes : IsBytes r.uri) (path : Str) (u : Location)
    (h : adminProxyHandler authorityOk cfg socketLive r = .forwarded path u) :
    (∃ p, upstreamPath authorityOk u = some p ∧ p = path ∧ "..".toList ∉ p.splitOn '/') ↔ Plain path := by
  obtain ⟨hpath, hallowed, htarget⟩ := forwarded_spec h
  obtain ⟨hslash, hdots⟩ := allowed_spec hallowed
  have hbody : (path ++ if behind '?' r.uri ≠ [] then '?' :: behind '?' r.uri else []).head? = some '/' := by
    rw [List.head?_append, hslash]
    rfl
  have hbodyBytes : IsBytes (path ++ if behind '?' r.uri ≠ [] then '?' :: behind '?' r.uri else []) := by
    intro c hc
    rcases mem_append.mp hc with hc | hc
    · exact isBytes_parseRequestURI hbytes hpath c hc
    split at hc
    · rcases mem_cons.mp hc with rfl | hc
      · decide
      · exact hbytes c ((dropWhile_suffix _).subset (mem_of_mem_tail hc))
    · cases hc
  obtain ⟨decoded, hdecoded, hupstream⟩ := upstream_origin horigin hbody hbodyBytes htarget
  rw [before_target] at hdecoded
  rw [← eq_iff_plain hdecoded, upstreamPath, hupstream]
  constructor
  · rintro ⟨p, hp, rfl, -⟩
    exact Option.some.inj hp
  · rintro rfl
    exact ⟨decoded, rfl, rfl, fun hmem => hdots (isInfix_of_mem_splitOn hmem)⟩

def key : Str := "0123456789abcdef0123456789abcdef"

def localCaddy : AdminProxyConfig := ⟨key, "http://127.0.0.1:2019", []⟩

lemma isOrigin_localCaddy : IsOrigin (base localCaddy false) := by
  refine ⟨"127.0.0.1:2019", rfl, fun c hc => ?_⟩
  have hall : ("127.0.0.1:2019".toList.all fun c => decide (c ≠ '/' ∧ c ≠ '?' ∧ c ≠ '#')) := by decide
  exact of_decide_eq_true (all_eq_true.mp hall c hc)

theorem upstream_eq_accepted_load :
    (∃ p, upstreamPath (fun _ => true) ⟨"/load", [], [], false⟩ = some p ∧ p = "/load" ∧
      "..".toList ∉ p.splitOn '/') ↔ Plain "/load".toList :=
  upstream_eq_accepted_iff (fun _ => true) localCaddy false isOrigin_localCaddy
    ⟨.post, "Bearer " ++ key, "/load"⟩ (by decide +kernel) "/load" _ (by decide +kernel)

/-- The allow-list accepts a path below the configuration, and Caddy is asked to stop. -/
theorem escaped_dots_forwarded : ∃ u, adminProxyHandler (fun _ => true) localCaddy false
        ⟨.post, "Bearer ".toList ++ key, "/config/%252e%252e/stop".toList⟩ =
          .forwarded "/config/%2e%2e/stop".toList u ∧
      upstreamPath (fun _ => true) u = some "/config/../stop".toList := by
  exact ⟨⟨"/config/../stop".toList, "/config/%2e%2e/stop".toList, [], false⟩, by decide +kernel, by decide +kernel⟩

end AdminProxy
