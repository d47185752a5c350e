import CaddyPanel.Accesslog.Attribution
import CaddyPanel.Lib.Float64
import CaddyPanel.Lib.IP
import CaddyPanel.Lib.Utf8
import Mathlib.Data.List.ReduceOption

/-!
# The ingest of access logs

A node posts the lines of its access log as they are, and most of what a line holds was sent by a
client. The panel decodes each line, finds its route and clamps the values to the columns of the
table. All lines of a post are stored in one transaction, so one line that cannot be handled keeps
the others out, and the node posts the same lines again.
-/

namespace Ingest

open List
open Text (Str before byteLength)
open Utf8 (Bytes byte encode Valid toValid boundary)
open Float64 (F64)
open Attribution (RouteIndex hostKey)

/-! ### Lines and entries -/

/-- `caddyLogReq`. -/
structure Request where
  method : Str := []
  uri : Str := []
  proto : Str := []
  host : Str := []
  clientIP : Str := []
  remoteIP : Str := []
  remoteAddr : Str := []
  headers : List (Str × List Str) := []

/-- The first value of a header. -/
def Request.header (r : Request) (name : Str) : Option Str :=
  (r.headers.lookup name).bind List.head?

/-- `caddyLogLine`. The decoder puts U+FFFD for bytes that are no text, so the strings are texts. -/
structure Line where
  ts : F64
  request : Request
  status : Int := 0
  duration : F64
  size : Int := 0
  bytesRead : Int := 0

structure Entry where
  routeID : Nat
  /-- in nanoseconds -/
  ts : Int
  method : Bytes
  uri : Bytes
  status : Int
  latencyMS : Int
  remoteIP : Bytes
  userAgent : Bytes
  bytesResp : Int
  bytesReq : Int
  proto : Bytes
  country : Bytes
  asnOrg : Bytes

/-- What the handler asks for while it reads a line. -/
structure Env where
  now : Int
  /-- the country of an address, from the database of the panel -/
  iso2 : Str → Str
  /-- the organisation of an address; `none` for no address or an unknown one -/
  asnOrg : Str → Option Str

/-! ### Sanitising -/

/-- Whether `strconv.Atoi` takes the bytes. -/
def isNumber (b : Bytes) : Bool :=
  (Caddyapi.atoi (b.map fun x => Char.ofNat x.toNat)).any fun n => -(2 ^ 63) ≤ n && n < 2 ^ 63

/-- `stripPort`; `none` is a slice out of range. -/
def stripPort (addr : Bytes) : Option Bytes :=
  if addr.contains (byte ':') then
    let host := (addr.reverse.dropWhile (· ≠ byte ':')).tail.reverse
    if host ≠ [] && addr.head? = some (byte '[') then
      if host.length < 2 then none else some host.tail.dropLast
    else if host.any fun x => x = byte '.' || x = byte ']' then some host
    else if isNumber host then some addr
    else some host
  else some addr

def truncUTF8 (s : Bytes) (n : Nat) : Bytes :=
  if s.length ≤ n then s else toValid (s.take n)

/-- A slice without regard to characters. -/
def truncBytes (s : Bytes) (n : Nat) : Bytes :=
  if n < s.length then s.take n else s

def redactURI (uri : Str) : Str :=
  if "/api/wg/".toList.isPrefixOf uri then before '?' uri else uri

def knownProto (p : Str) : Option Str :=
  if p = "HTTP/1.1" then some "h1"
  else if p = "HTTP/2.0" || p = "HTTP/2" then some "h2"
  else if p = "HTTP/3.0" || p = "HTTP/3" then some "h3"
  else none

def normalizeProto (p : Str) : Bytes :=
  match knownProto p with
  | some short => encode short
  | none => truncBytes (encode p) 8

def Request.address (r : Request) : Str :=
  if r.clientIP = [] then r.remoteIP else r.clientIP

def resolveASNOrg (env : Env) (r : Request) : Bytes :=
  if r.address = [] then [] else truncBytes (encode ((env.asnOrg r.address).getD [])) 128

def resolveCountry (env : Env) (r : Request) : Bytes :=
  if r.address = [] then [] else truncBytes (encode (env.iso2 r.address)) 2

/-- `int64` of a number of seconds, in nanoseconds. Out of range it is the least integer. -/
def nanoseconds (ts : F64) : Int :=
  match Float64.nearest (ts.mag * 10 ^ 9) with
  | some q => if ⌊q⌋ < 2 ^ 63 then ⌊q⌋ else -(2 ^ 63)
  | none => -(2 ^ 63)

/-- The last nanosecond of the year 9999. -/
def lastNanosecond : Int :=
  253402300800 * 10 ^ 9 - 1

def timestamp (env : Env) (ts : F64) : Int :=
  if ts.neg || ts.mag = 0 || lastNanosecond < nanoseconds ts then env.now else nanoseconds ts

def latency (duration : F64) : Int :=
  if duration.neg then 0
  else
    match Float64.nearest (duration.mag * 1000) with
    | some q => min ⌊q⌋ (2 ^ 31 - 1)
    | none => 2 ^ 31 - 1

def clampStatus (status : Int) : Int :=
  if status < 0 || 999 < status then 0 else status

/-! ### One line -/

/-- The host of a line, without its port. -/
def lookupHost (r : Request) : Option Bytes :=
  (stripPort (encode r.host)).bind fun host =>
    if host = [] then
      match r.header "Host" with
      | some value => stripPort (encode value)
      | none => some []
    else some host

/-- `Resolve`, which strips the port once more. -/
def resolve (idx : RouteIndex) (host : Bytes) (uri : Str) : Option (Option Nat) :=
  (stripPort host).map fun name => idx.resolve (hostKey (Utf8.decode name)) uri

def Request.remote (r : Request) : Str :=
  if r.clientIP ≠ [] then r.clientIP
  else if r.remoteIP ≠ [] then r.remoteIP
  else r.remoteAddr

/-- The route of a line; the outer `none` is a panic. -/
def route (idx : RouteIndex) (line : Line) : Option (Option Nat) :=
  (lookupHost line.request).bind fun host =>
    if host = [] then some none else resolve idx host line.request.uri

/-- The entry of a line that has a route. -/
def entryFor (env : Env) (line : Line) (routeID : Nat) (remote : Bytes) : Entry where
  routeID := routeID
  ts := timestamp env line.ts
  method := truncUTF8 (encode line.request.method) 16
  uri := truncUTF8 (encode (redactURI line.request.uri)) 2048
  status := clampStatus line.status
  latencyMS := latency line.duration
  remoteIP := truncUTF8 remote 45
  userAgent := truncUTF8 (encode ((line.request.header "User-Agent").getD [])) 512
  bytesResp := max line.size 0
  bytesReq := max line.bytesRead 0
  proto := normalizeProto line.request.proto
  country := resolveCountry env line.request
  asnOrg := resolveASNOrg env line.request

/-- `toEntry`; the outer `none` is a panic, the inner one a line without a route. -/
def toEntry (env : Env) (idx : RouteIndex) (line : Line) : Option (Option Entry) :=
  (route idx line).bind fun
    | none => some none
    | some routeID =>
      (stripPort (encode line.request.remote)).map fun remote =>
        some (entryFor env line routeID remote)

/-! ### One post -/

def maxIngestBody : Nat := 8 <<< 20

/-- `bufio.ScanLines`. -/
def lines (body : Bytes) : List Bytes :=
  (body.splitOn (byte '\n')).filter (· ≠ [])

inductive Outcome where
  | panicked
  | badBody
  | tooLarge
  | batch (entries : List Entry)

section Posts

-- `unmarshal` is what `bytes.TrimSpace` and `json.Unmarshal` make of a line; `none` where the line is
-- empty or refused
variable (unmarshal : Bytes → Option Line) (env : Env) (idx : RouteIndex)

def entries (raw : List Bytes) : Option (List Entry) :=
  ((raw.filterMap unmarshal).mapM (toEntry env idx)).map List.reduceOption

/-- The loop of `ServeHTTP`, up to the transaction. -/
def ingest (body : Bytes) : Outcome :=
  let read := body.take maxIngestBody
  -- a line that fills the buffer of the scanner
  if maxIngestBody ≤ read.length && !read.contains (byte '\n') then .badBody
  else
    match entries unmarshal env idx (lines read) with
    | none => .panicked
    | some batch => if maxIngestBody < body.length then .tooLarge else .batch batch

end Posts

/-- A body that the agent posts: whole lines, within the cap. -/
structure Forwardable (body : Bytes) : Prop where
  length_le : body.length ≤ maxIngestBody
  last : body.getLast? = some (byte '\n')

/-! ### What can be stored -/

/-- A text of at most `n` characters. -/
def Fits (n : Nat) (b : Bytes) : Prop :=
  ∃ s : Str, encode s = b ∧ s.length ≤ n

/-- The row fits the columns of `host_access_log`. -/
structure Entry.Storable (e : Entry) : Prop where
  method : Fits 16 e.method
  uri : Fits 2048 e.uri
  remoteIP : Fits 45 e.remoteIP
  userAgent : Fits 512 e.userAgent
  proto : Fits 8 e.proto
  country : Fits 2 e.country
  asnOrg : Fits 128 e.asnOrg
  status : 0 ≤ e.status ∧ e.status ≤ 999
  latencyMS : 0 ≤ e.latencyMS ∧ e.latencyMS < 2 ^ 31
  bytesResp : 0 ≤ e.bytesResp
  bytesReq : 0 ≤ e.bytesReq

/-- The handler does not panic, and each line with a route becomes a row. -/
structure Robust (unmarshal : Bytes → Option Line) (env : Env) (idx : RouteIndex) (body : Bytes) :
    Prop where
  handled : ingest unmarshal env idx body ≠ .panicked
  stored : ∀ batch, ingest unmarshal env idx body = .batch batch → ∀ raw ∈ lines body, ∀ line,
    unmarshal raw = some line → ∀ routeID, route idx line = some (some routeID) →
      ∃ e ∈ batch, toEntry env idx line = some (some e) ∧ e.routeID = routeID ∧ e.Storable

/-! ### Odd addresses -/

/-- An address that is a bracket and a colon, with no other colon. -/
def Unclosed (s : Str) : Prop :=
  ∃ t, s = '[' :: ':' :: t ∧ ':' ∉ t

/-- An address that is left unclosed when it has lost its port. -/
def UnclosedInside (s : Str) : Prop :=
  ∃ u z v, s = '[' :: '[' :: ':' :: u ++ z :: ':' :: v ∧ ':' ∉ u ∧ ':' ∉ v

/-- A bracketed address of at most `n` bytes with a character of several bytes in front of its last
colon. -/
def CutsChar (n : Nat) (s : Str) : Prop :=
  ∃ u c v, s = '[' :: u ++ c :: ':' :: v ∧ ':' ∉ v ∧ c.utf8Size ≠ 1 ∧
    byteLength u + c.utf8Size - 1 ≤ n

/-- The host that is looked up: the first `Host` header where nothing is left of the other. -/
def Request.sent (r : Request) : Str :=
  if stripPort (encode r.host) = some [] then (r.header "Host").getD [] else r.host

/-- What the texts of a line must not be for it to be handled. -/
structure Harmless (env : Env) (idx : RouteIndex) (line : Line) : Prop where
  sent : ¬ Unclosed line.request.sent ∧ ¬ UnclosedInside line.request.sent
  remote : ∀ routeID, route idx line = some (some routeID) →
    ¬ Unclosed line.request.remote ∧ ¬ CutsChar 45 line.request.remote
  proto : ∀ routeID, route idx line = some (some routeID) →
    knownProto line.request.proto = none → boundary 8 line.request.proto
  country : ∀ routeID, route idx line = some (some routeID) →
    line.request.address ≠ [] → boundary 2 (env.iso2 line.request.address)
  asnOrg : ∀ routeID, route idx line = some (some routeID) →
    line.request.address ≠ [] → boundary 128 ((env.asnOrg line.request.address).getD [])

/-! ### Stripping the port -/

lemma colon_ascii : (':' : Char).toNat < 128 := by decide

lemma bracket_ascii : ('[' : Char).toNat < 128 := by decide

/-- A list at the last place of a member. -/
lemma exists_last {α : Type*} {x : α} {l : List α} (h : x ∈ l) : ∃ a v, l = a ++ x :: v ∧ x ∉ v := by
  obtain ⟨v, a, hl, hv⟩ := eq_append_cons_of_mem (mem_reverse.mpr h)
  refine ⟨a.reverse, v.reverse, ?_, by simpa using hv⟩
  rw [← reverse_reverse l, hl]
  simp

/-- What is in front of the last colon. -/
lemma stripPort_append (a v : Bytes) (hv : byte ':' ∉ v) :
    stripPort (a ++ byte ':' :: v) = if a ≠ [] && a.head? = some (byte '[') then
        if a.length < 2 then none else some a.tail.dropLast
      else if a.any fun x => x = byte '.' || x = byte ']' then some a
      else if isNumber a then some (a ++ byte ':' :: v) else some a := by
  have hhost : ((a ++ byte ':' :: v).reverse.dropWhile (· ≠ byte ':')).tail.reverse = a := by
    have hskip : v.reverse.dropWhile (· ≠ byte ':') = [] := by
      rw [dropWhile_eq_nil_iff]
      intro x hx
      have hne : x ≠ byte ':' := fun heq => hv (heq ▸ mem_reverse.mp hx)
      simpa using hne
    rw [reverse_append, reverse_cons, append_assoc, dropWhile_append, hskip]
    simp
  unfold stripPort
  rw [if_pos (by simp), hhost]
  cases a with
  | nil => rfl
  | cons x a => rfl

variable {b part : Bytes} {s v : Str}

lemma stripPort_of_not_mem (h : byte ':' ∉ b) : stripPort b = some b := by
  unfold stripPort
  rw [if_neg (by simpa using h)]

/-- The slice is out of range behind a bracket and a colon. -/
lemma stripPort_eq_none_iff (b : Bytes) : stripPort b = none ↔ ∃ t, b = byte '[' :: byte ':' :: t ∧ byte ':' ∉ t := by
  constructor
  · intro h
    by_cases hmem : byte ':' ∈ b
    · obtain ⟨a, v, rfl, hv⟩ := exists_last hmem
      rw [stripPort_append _ _ hv] at h
      split_ifs at h with hbracket hlength
      rw [Bool.and_eq_true, decide_eq_true_eq, decide_eq_true_eq] at hbracket
      refine ⟨v, ?_, hv⟩
      cases a with
      | nil => exact absurd rfl hbracket.1
      | cons x rest =>
        cases rest with
        | nil =>
          rw [Option.some.inj hbracket.2]
          rfl
        | cons y rest =>
          simp only [length_cons] at hlength
          omega
    · rw [stripPort_of_not_mem hmem] at h
      cases h
  · rintro ⟨t, rfl, ht⟩
    have happ : byte '[' :: byte ':' :: t = [byte '['] ++ byte ':' :: t := rfl
    rw [happ, stripPort_append _ _ ht]
    rfl

/-- An ASCII byte at the head is a character. -/
lemma exists_of_encode_eq_cons {k : Char} (hk : k.toNat < 128)
    (h : encode s = byte k :: b) : ∃ s', s = k :: s' ∧ encode s' = b := by
  cases s with
  | nil => cases h
  | cons c s =>
    have hhead : String.utf8EncodeChar c ++ encode s = String.utf8EncodeChar k ++ b := by
      rw [Utf8.encodeChar_ascii hk]
      exact h
    obtain ⟨rfl, hrest⟩ := Utf8.encodeChar_append_inj hhead
    exact ⟨s, rfl, hrest⟩

lemma encode_cons_ascii {k : Char} (hk : k.toNat < 128) (s : Str) : encode (k :: s) = byte k :: encode s := by
  rw [Utf8.encode_cons, Utf8.encodeChar_ascii hk]
  rfl

lemma stripPort_encode_eq_none_iff (s : Str) : stripPort (encode s) = none ↔ Unclosed s := by
  rw [stripPort_eq_none_iff]
  constructor
  · rintro ⟨t, hs, ht⟩
    obtain ⟨s₁, rfl, hs₁⟩ := exists_of_encode_eq_cons bracket_ascii hs
    obtain ⟨s₂, rfl, rfl⟩ := exists_of_encode_eq_cons colon_ascii hs₁
    exact ⟨s₂, rfl, fun hmem => ht ((Utf8.byte_mem_encode colon_ascii).mpr hmem)⟩
  · rintro ⟨t, rfl, ht⟩
    refine ⟨encode t, ?_, fun hmem => ht ((Utf8.byte_mem_encode colon_ascii).mp hmem)⟩
    rw [encode_cons_ascii bracket_ascii, encode_cons_ascii colon_ascii]

/-- A bracketed address loses a byte in front of its last colon. -/
lemma stripPort_bracketed (u : Str) (c : Char) (hv : ':' ∉ v) :
    stripPort (encode ('[' :: u ++ c :: ':' :: v)) = some (encode (u ++ [c])).dropLast := by
  have hsplit : encode ('[' :: u ++ c :: ':' :: v) =
      (byte '[' :: encode (u ++ [c])) ++ byte ':' :: encode v := by
    have hlist : '[' :: u ++ c :: ':' :: v = '[' :: (u ++ [c] ++ ':' :: v) := by simp
    rw [hlist, encode_cons_ascii bracket_ascii, Utf8.encode_append]
    rfl
  have hlength : 0 < (encode (u ++ [c])).length := by
    have hpos := c.utf8Size_pos
    simp only [Utf8.encode_append, Utf8.encode_cons, length_append, String.length_utf8EncodeChar]
    omega
  rw [hsplit, stripPort_append _ _ fun hmem => hv ((Utf8.byte_mem_encode colon_ascii).mp hmem),
    if_pos (by simp), if_neg (by rw [length_cons]; omega)]
  rfl

/-- Every other address stays a text, one that begins with a bracket only where it has no colon. -/
lemma stripPort_plain (h : stripPort (encode s) = some b) (hs : ¬ ∃ u c v, s = '[' :: u ++ c :: ':' :: v ∧ ':' ∉ v) :
    ∃ t : Str, b = encode t ∧ (t.head? = some '[' → ':' ∉ t) := by
  by_cases hmem : ':' ∈ s
  · obtain ⟨a, v, rfl, hv⟩ := exists_last hmem
    -- a bracket in front of the colon is the case that is left out
    have hhead : a.head? ≠ some '[' ∨ a = ['['] := by
      cases a with
      | nil => exact .inl nofun
      | cons x a =>
        by_cases hx : x = '['
        · subst hx
          cases a using List.reverseRecOn with
          | nil => exact .inr rfl
          | append_singleton u c => exact absurd ⟨u, c, v, by simp, hv⟩ hs
        · exact .inl fun heq => hx (Option.some.inj heq)
    rcases hhead with hhead | rfl
    · rw [Utf8.encode_append, encode_cons_ascii colon_ascii, stripPort_append _ _ fun hmem =>
        hv ((Utf8.byte_mem_encode colon_ascii).mp hmem)] at h
      have hbytes : ¬ ((encode a ≠ [] && (encode a).head? = some (byte '['))) := by
        rw [Bool.and_eq_true, decide_eq_true_eq, decide_eq_true_eq]
        rintro ⟨-, hfirst⟩
        obtain ⟨rest, hrest⟩ := head?_eq_some_iff.mp hfirst
        obtain ⟨a', rfl, -⟩ := exists_of_encode_eq_cons bracket_ascii hrest
        exact hhead rfl
      split_ifs at h
      · cases h
        exact ⟨a, rfl, fun heq => absurd heq hhead⟩
      · cases h
        refine ⟨a ++ ':' :: v, ?_, fun heq => ?_⟩
        · rw [Utf8.encode_append, encode_cons_ascii colon_ascii]
        cases a with
        | nil => cases heq
        | cons x a => exact absurd heq hhead
      · cases h
        exact ⟨a, rfl, fun heq => absurd heq hhead⟩
    · have hnone := (stripPort_encode_eq_none_iff _).mpr ⟨v, rfl, hv⟩
      exact absurd (h.symm.trans hnone) nofun
  · rw [stripPort_of_not_mem fun hb => hmem ((Utf8.byte_mem_encode colon_ascii).mp hb)] at h
    cases h
    exact ⟨s, rfl, fun _ => hmem⟩

/-- An ASCII byte at the head of a text that may have lost bytes at its end. -/
lemma exists_of_append_eq_cons {k : Char} (hk : k.toNat < 128)
    (hpart : ∀ x ∈ part, 128 ≤ x.toNat) (h : encode s ++ part = byte k :: b) :
    ∃ s', s = k :: s' ∧ encode s' ++ part = b := by
  cases s with
  | nil =>
    have hmem : byte k ∈ part := by
      rw [Utf8.encode_nil, nil_append] at h
      rw [h]
      exact mem_cons_self
    have hge := hpart _ hmem
    rw [Utf8.byte_toNat hk] at hge
    omega
  | cons c s =>
    have hhead : String.utf8EncodeChar c ++ (encode s ++ part) = String.utf8EncodeChar k ++ b := by
      rw [Utf8.encodeChar_ascii hk, ← append_assoc]
      exact h
    obtain ⟨rfl, hrest⟩ := Utf8.encodeChar_append_inj hhead
    exact ⟨s, rfl, hrest⟩

lemma colon_mem_append (hpart : ∀ x ∈ part, 128 ≤ x.toNat) : byte ':' ∈ encode s ++ part ↔ ':' ∈ s := by
  rw [mem_append, Utf8.byte_mem_encode colon_ascii]
  refine or_iff_left fun hmem => ?_
  have hge := hpart _ hmem
  exact absurd hge (by decide)

/-- The host that is looked up is stripped a second time. -/
lemma stripPort_stripped_eq_none_iff (h : stripPort (encode s) = some b) : stripPort b = none ↔ UnclosedInside s := by
  constructor
  · intro hnone
    by_cases hs : ∃ u c v, s = '[' :: u ++ c :: ':' :: v ∧ ':' ∉ v
    · obtain ⟨u, c, v, rfl, hv⟩ := hs
      rw [stripPort_bracketed u c hv, Utf8.dropLast_encode] at h
      cases h
      have hpart := fun x hx => Utf8.le_of_mem_part (c := c) (b := x) hx
      obtain ⟨t, hb, ht⟩ := (stripPort_eq_none_iff _).mp hnone
      obtain ⟨u₁, rfl, hb₁⟩ := exists_of_append_eq_cons bracket_ascii hpart hb
      obtain ⟨w, rfl, rfl⟩ := exists_of_append_eq_cons colon_ascii hpart hb₁
      exact ⟨w, c, v, rfl, fun hmem => ht ((colon_mem_append hpart).mpr hmem), hv⟩
    · obtain ⟨t, rfl, ht⟩ := stripPort_plain h hs
      obtain ⟨v, rfl, -⟩ := (stripPort_encode_eq_none_iff t).mp hnone
      exact absurd (mem_cons_of_mem _ mem_cons_self) (ht rfl)
  · rintro ⟨w, c, v, rfl, hw, hv⟩
    have hpart := fun x hx => Utf8.le_of_mem_part (c := c) (b := x) hx
    have hb := stripPort_bracketed ('[' :: ':' :: w) c hv
    rw [Utf8.dropLast_encode, encode_cons_ascii bracket_ascii] at hb
    cases h.symm.trans hb
    refine (stripPort_eq_none_iff _).mpr ⟨_, rfl, fun hmem => hw ?_⟩
    exact (colon_mem_append hpart).mp hmem

/-- The address of a client as it is stored. -/
lemma valid_remote_iff (n : Nat) (h : stripPort (encode s) = some b) : Valid (truncUTF8 b n) ↔ ¬ CutsChar n s := by
  unfold truncUTF8
  by_cases hs : ∃ u c v, s = '[' :: u ++ c :: ':' :: v ∧ ':' ∉ v
  · obtain ⟨u, c, v, hs, hv⟩ := hs
    have hb := h
    rw [hs, stripPort_bracketed u c hv] at hb
    cases hb
    have hlength := Utf8.length_dropLast_encode u c
    constructor
    · rintro hvalid ⟨u', c', v', hs', hv', hsize, hle⟩
      have hsame := h
      rw [hs', stripPort_bracketed u' c' hv', Option.some.injEq] at hsame
      have hlength' := Utf8.length_dropLast_encode u' c'
      rw [← hsame, if_pos (by omega)] at hvalid
      exact hsize (Utf8.valid_dropLast_iff.mp hvalid)
    · intro hcut
      split_ifs with hle
      · refine Utf8.valid_dropLast_iff.mpr ?_
        by_contra hsize
        exact hcut ⟨u, c, v, hs, hv, hsize, by omega⟩
      · exact Utf8.valid_toValid _
  · obtain ⟨t, rfl, -⟩ := stripPort_plain h hs
    constructor
    · rintro - ⟨u, c, v, hcut, hv, -⟩
      exact hs ⟨u, c, v, hcut, hv⟩
    intro _
    split_ifs
    · exact Utf8.valid_encode t
    · exact Utf8.valid_toValid _

/-! ### One line -/

lemma lookupHost_eq (r : Request) : lookupHost r = stripPort (encode r.sent) := by
  unfold lookupHost Request.sent
  cases hhost : stripPort (encode r.host) with
  | none => simp [hhost]
  | some host =>
    by_cases hempty : host = []
    · subst hempty
      cases r.header "Host" with
      | none => rfl
      | some value => rfl
    · simp [hempty, hhost]

lemma route_eq_none_iff (idx : RouteIndex) (line : Line) :
    route idx line = none ↔ Unclosed line.request.sent ∨ UnclosedInside line.request.sent := by
  unfold route
  rw [lookupHost_eq, ← stripPort_encode_eq_none_iff]
  cases hhost : stripPort (encode line.request.sent) with
  | none => simp
  | some host =>
    rw [← stripPort_stripped_eq_none_iff hhost]
    by_cases hempty : host = []
    · subst hempty
      simp [stripPort_of_not_mem]
    · simp [hempty, resolve]

lemma toEntry_of_route {env : Env} {idx : RouteIndex} {line : Line} {routeID : Nat}
    (h : route idx line = some (some routeID)) : toEntry env idx line =
      (stripPort (encode line.request.remote)).map fun remote => some (entryFor env line routeID remote) := by
  unfold toEntry
  rw [h]
  rfl

lemma toEntry_ne_none_iff (env : Env) (idx : RouteIndex) (line : Line) :
    toEntry env idx line ≠ none ↔
      (¬ Unclosed line.request.sent ∧ ¬ UnclosedInside line.request.sent) ∧
        ∀ routeID, route idx line = some (some routeID) → ¬ Unclosed line.request.remote := by
  rw [← not_or, ← route_eq_none_iff idx line]
  cases hroute : route idx line with
  | none => simp [toEntry, hroute]
  | some found =>
    cases found with
    | none => simp [toEntry, hroute]
    | some routeID => simp [toEntry_of_route hroute, stripPort_encode_eq_none_iff]

/-! ### The columns -/

lemma fits_iff_valid {n : Nat} (h : b.length ≤ n) : Fits n b ↔ Valid b := by
  constructor
  · rintro ⟨s, hs, -⟩
    exact ⟨s, hs⟩
  rintro ⟨s, rfl⟩
  refine ⟨s, rfl, le_trans ?_ h⟩
  rw [Utf8.length_encode, ← length_map (f := Char.utf8Size)]
  refine length_le_sum_of_one_le _ fun n hn => ?_
  obtain ⟨c, -, rfl⟩ := mem_map.mp hn
  exact c.utf8Size_pos

lemma length_truncUTF8_le (s : Bytes) (n : Nat) : (truncUTF8 s n).length ≤ n := by
  unfold truncUTF8
  split_ifs with h
  · exact h
  · exact (Utf8.length_toValid_le _).trans (length_take_le n s)

lemma fits_truncUTF8 (s : Str) (n : Nat) : Fits n (truncUTF8 (encode s) n) := by
  rw [fits_iff_valid (length_truncUTF8_le _ n)]
  unfold truncUTF8
  split_ifs
  · exact Utf8.valid_encode s
  · exact Utf8.valid_toValid _

lemma truncBytes_eq_take (s : Bytes) (n : Nat) : truncBytes s n = s.take n := by
  unfold truncBytes
  split_ifs with h
  · rfl
  · rw [take_of_length_le (Nat.le_of_not_lt h)]

/-- A plain slice is a text where it ends with a character. -/
lemma fits_truncBytes_iff (s : Str) (n : Nat) : Fits n (truncBytes (encode s) n) ↔ boundary n s := by
  rw [truncBytes_eq_take, fits_iff_valid (length_take_le n _), Utf8.valid_take_iff]

lemma fits_nil (n : Nat) : Fits n [] :=
  ⟨[], rfl, Nat.zero_le n⟩

lemma fits_normalizeProto_iff (p : Str) : Fits 8 (normalizeProto p) ↔ (knownProto p = none → boundary 8 p) := by
  unfold normalizeProto
  cases hknown : knownProto p with
  | none => simp [fits_truncBytes_iff]
  | some short =>
    have hshort : short.length ≤ 8 := by
      unfold knownProto at hknown
      split_ifs at hknown
      all_goals
        cases hknown
        decide
    simpa using ⟨short, rfl, hshort⟩

lemma fits_resolveCountry_iff (env : Env) (r : Request) :
    Fits 2 (resolveCountry env r) ↔ (r.address ≠ [] → boundary 2 (env.iso2 r.address)) := by
  unfold resolveCountry
  split_ifs with h
  · simpa [h] using fits_nil 2
  · simp [h, fits_truncBytes_iff]

lemma fits_resolveASNOrg_iff (env : Env) (r : Request) :
    Fits 128 (resolveASNOrg env r) ↔ (r.address ≠ [] → boundary 128 ((env.asnOrg r.address).getD [])) := by
  unfold resolveASNOrg
  split_ifs with h
  · simpa [h] using fits_nil 128
  · simp only [ne_eq, h, not_false_eq_true, forall_const, fits_truncBytes_iff]

lemma clampStatus_mem (status : Int) : 0 ≤ clampStatus status ∧ clampStatus status ≤ 999 := by
  unfold clampStatus
  split_ifs with h
  · simp
  · rw [Bool.or_eq_true, decide_eq_true_eq, decide_eq_true_eq] at h
    omega

lemma latency_mem (d : F64) : 0 ≤ latency d ∧ latency d < 2 ^ 31 := by
  unfold latency
  split_ifs
  · simp
  cases hq : Float64.nearest (d.mag * 1000) with
  | none => simp
  | some q =>
    have hnonneg : 0 ≤ q := by
      rw [(Float64.nearest_eq_some hq).1]
      exact Float64.round_nonneg (mul_nonneg d.nonneg (by norm_num))
    have hfloor : 0 ≤ ⌊q⌋ := Int.floor_nonneg.mpr hnonneg
    dsimp only
    omega

/-- The numbers always fit; of the texts four may not. -/
lemma storable_entryFor_iff (env : Env) (line : Line) (routeID : Nat) (remote : Bytes) :
    (entryFor env line routeID remote).Storable ↔
      Fits 45 (truncUTF8 remote 45) ∧ Fits 8 (normalizeProto line.request.proto) ∧
        Fits 2 (resolveCountry env line.request) ∧ Fits 128 (resolveASNOrg env line.request) := by
  constructor
  · exact fun h => ⟨h.remoteIP, h.proto, h.country, h.asnOrg⟩
  rintro ⟨hremote, hproto, hcountry, hasn⟩
  exact {
    method := fits_truncUTF8 _ 16
    uri := fits_truncUTF8 _ 2048
    remoteIP := hremote
    userAgent := fits_truncUTF8 _ 512
    proto := hproto
    country := hcountry
    asnOrg := hasn
    status := clampStatus_mem _
    latencyMS := latency_mem _
    bytesResp := le_max_right _ _
    bytesReq := le_max_right _ _ }

/-- A harmless line is handled, and stored where it has a route. -/
lemma harmless_iff (env : Env) (idx : RouteIndex) (line : Line) :
    Harmless env idx line ↔ toEntry env idx line ≠ none ∧
      ∀ routeID, route idx line = some (some routeID) →
        ∃ e, toEntry env idx line = some (some e) ∧ e.routeID = routeID ∧ e.Storable := by
  rw [toEntry_ne_none_iff]
  constructor
  · intro h
    refine ⟨⟨h.sent, fun routeID hroute => (h.remote routeID hroute).1⟩, fun routeID hroute => ?_⟩
    obtain ⟨hclosed, hcut⟩ := h.remote routeID hroute
    rw [← stripPort_encode_eq_none_iff, ← ne_eq, Option.ne_none_iff_exists'] at hclosed
    obtain ⟨remote, hremote⟩ := hclosed
    refine ⟨entryFor env line routeID remote, by rw [toEntry_of_route hroute, hremote]; rfl, rfl, ?_⟩
    rw [storable_entryFor_iff, fits_iff_valid (length_truncUTF8_le _ 45), valid_remote_iff 45 hremote,
      fits_normalizeProto_iff, fits_resolveCountry_iff, fits_resolveASNOrg_iff]
    exact ⟨hcut, h.proto routeID hroute, h.country routeID hroute, h.asnOrg routeID hroute⟩
  rintro ⟨⟨hsent, hremote⟩, hstored⟩
  have hfields : ∀ routeID, route idx line = some (some routeID) →
      ¬ CutsChar 45 line.request.remote ∧
      (knownProto line.request.proto = none → boundary 8 line.request.proto) ∧
      (line.request.address ≠ [] → boundary 2 (env.iso2 line.request.address)) ∧
      (line.request.address ≠ [] → boundary 128 ((env.asnOrg line.request.address).getD [])) := by
    intro routeID hroute
    obtain ⟨e, he, -, hstorable⟩ := hstored routeID hroute
    rw [toEntry_of_route hroute] at he
    obtain ⟨remote, hstrip, he⟩ := Option.map_eq_some_iff.mp he
    cases he
    rw [storable_entryFor_iff, fits_iff_valid (length_truncUTF8_le _ 45),
      valid_remote_iff 45 hstrip, fits_normalizeProto_iff, fits_resolveCountry_iff,
      fits_resolveASNOrg_iff] at hstorable
    exact hstorable
  exact {
    sent := hsent
    remote := fun routeID hroute => ⟨hremote routeID hroute, (hfields routeID hroute).1⟩
    proto := fun routeID hroute => (hfields routeID hroute).2.1
    country := fun routeID hroute => (hfields routeID hroute).2.2.1
    asnOrg := fun routeID hroute => (hfields routeID hroute).2.2.2 }

/-! ### One post -/

section Posts

variable {unmarshal : Bytes → Option Line} {env : Env} {idx : RouteIndex}

lemma ingest_eq {body : Bytes} (hbody : Forwardable body) : ingest unmarshal env idx body =
    match entries unmarshal env idx (lines body) with
    | none => .panicked
    | some batch => .batch batch := by
  have hnewline : body.contains (byte '\n') :=
    contains_iff_mem.mpr (mem_of_getLast? hbody.last)
  unfold ingest
  rw [take_of_length_le hbody.length_le]
  dsimp only
  rw [hnewline, if_neg (by simp)]
  cases entries unmarshal env idx (lines body) with
  | none => rfl
  | some batch => simp [Nat.not_lt.mpr hbody.length_le]

variable {raw : List Bytes}

lemma entries_eq_none_iff : entries unmarshal env idx raw = none ↔
    ∃ r ∈ raw, ∃ line, unmarshal r = some line ∧ toEntry env idx line = none := by
  simp only [entries, Option.map_eq_none_iff, Runs.mapM_eq_none_iff, mem_filterMap]
  constructor
  · rintro ⟨line, ⟨r, hr, hline⟩, hnone⟩
    exact ⟨r, hr, line, hline, hnone⟩
  · rintro ⟨r, hr, line, hline, hnone⟩
    exact ⟨line, ⟨r, hr, hline⟩, hnone⟩

lemma entries_eq_some {batch : List Entry} (h : entries unmarshal env idx raw = some batch) :
    batch = raw.filterMap fun r => (unmarshal r).bind fun line => (toEntry env idx line).join := by
  obtain ⟨out, hout, rfl⟩ := Option.map_eq_some_iff.mp h
  rw [← Runs.filterMap_eq_of_mapM hout, List.reduceOption, filterMap_filterMap, filterMap_filterMap]
  rfl

/-- A post is handled without a panic and without a row that the database refuses where each of its
lines is harmless, and only there. -/
theorem robust_iff {body : Bytes} (hbody : Forwardable body) : Robust unmarshal env idx body ↔
    ∀ raw ∈ lines body, ∀ line, unmarshal raw = some line → Harmless env idx line := by
  constructor
  · intro h raw hraw line hline
    have hhandled := h.handled
    rw [ingest_eq hbody] at hhandled
    cases hentries : entries unmarshal env idx (lines body) with
    | none =>
      rw [hentries] at hhandled
      exact absurd rfl hhandled
    | some batch =>
      have hbatch : ingest unmarshal env idx body = .batch batch := by rw [ingest_eq hbody, hentries]
      refine (harmless_iff env idx line).mpr ⟨fun hnone => ?_, fun routeID hroute => ?_⟩
      · exact absurd (entries_eq_none_iff.mpr ⟨raw, hraw, line, hline, hnone⟩) (by simp [hentries])
      · obtain ⟨e, -, he, hid, hstorable⟩ := h.stored batch hbatch raw hraw line hline routeID hroute
        exact ⟨e, he, hid, hstorable⟩
  · intro h
    cases hentries : entries unmarshal env idx (lines body) with
    | none =>
      obtain ⟨raw, hraw, line, hline, hnone⟩ := entries_eq_none_iff.mp hentries
      exact absurd hnone ((harmless_iff env idx line).mp (h raw hraw line hline)).1
    | some batch =>
      have hbatch : ingest unmarshal env idx body = .batch batch := by rw [ingest_eq hbody, hentries]
      refine ⟨by rw [hbatch]; exact nofun, fun batch' hbatch' raw hraw line hline routeID hroute => ?_⟩
      cases hbatch.symm.trans hbatch'
      obtain ⟨e, he, hid, hstorable⟩ :=
        ((harmless_iff env idx line).mp (h raw hraw line hline)).2 routeID hroute
      rw [entries_eq_some hentries]
      exact ⟨e, mem_filterMap.mpr ⟨raw, hraw, by rw [hline, Option.bind_some, he]; rfl⟩, he, hid, hstorable⟩

end Posts

/-! ### A request with an odd host -/

/-- One second. -/
def second : F64 :=
  ⟨false, 1, zero_le_one, by decide +kernel⟩

/-- A request for one route, under the given host. -/
def visit (host : Str) : Line where
  ts := second
  duration := second
  request := {
    method := "GET"
    uri := "/"
    proto := "HTTP/2.0"
    host := host
    clientIP := "192.0.2.7" }

/-- Two lines of the log, for `shop.io` and for an address of a bracket and a colon. -/
def visits (raw : Bytes) : Option Line :=
  if raw = encode "1" then some (visit "shop.io")
  else if raw = encode "2" then some (visit "[:")
  else none

/-- A node with one route. -/
def shopIndex : RouteIndex :=
  fun host => if host = "shop.io" then [⟨1, [], false⟩] else []

def plainEnv : Env where
  now := 0
  iso2 := fun _ => []
  asnOrg := fun _ => none

lemma harmless_visit : Harmless plainEnv shopIndex (visit "shop.io") where
  sent := by
    have hsent : (visit "shop.io").request.sent = "shop.io" := by decide +kernel
    refine ⟨?_, ?_⟩
    · rintro ⟨t, h, -⟩
      cases h
    · rintro ⟨u, z, v, h, -⟩
      cases h
  remote := by
    intro routeID _
    refine ⟨?_, ?_⟩
    · rintro ⟨t, h, -⟩
      cases h
    · rintro ⟨u, c, v, h, -⟩
      cases h
  proto := fun _ _ _ => by decide
  country := fun _ _ _ => by decide
  asnOrg := fun _ _ _ => by decide

theorem robust_iff_visit :
    Forwardable (encode "1\n") ∧ Robust visits plainEnv shopIndex (encode "1\n") := by
  have hbody : Forwardable (encode "1\n") := ⟨by decide, by decide⟩
  refine ⟨hbody, (robust_iff hbody).mpr fun raw hraw line hline => ?_⟩
  have hraw' : raw = encode "1" := by
    have hlines : lines (encode "1\n") = [encode "1"] := by decide +kernel
    rwa [hlines, mem_singleton] at hraw
  subst hraw'
  cases hline
  exact harmless_visit

/-- The second request makes the handler panic, and the first is not stored. -/
theorem ingest_panics :
    Forwardable (encode "1\n2\n") ∧ ingest visits plainEnv shopIndex (encode "1\n2\n") = .panicked ∧
      ∃ e, toEntry plainEnv shopIndex (visit "shop.io") = some (some e) := by
  refine ⟨⟨by decide, by decide⟩, ?_, ?_⟩
  · have hbody : Forwardable (encode "1\n2\n") := ⟨by decide, by decide⟩
    have hnone : entries visits plainEnv shopIndex (lines (encode "1\n2\n")) = none := by
      decide +kernel
    rw [ingest_eq hbody, hnone]
  · have hroute : route shopIndex (visit "shop.io") = some (some 1) := by decide +kernel
    have hremote : stripPort (encode (visit "shop.io").request.remote) =
        some (encode "192.0.2.7") := by decide +kernel
    exact ⟨_, by rw [toEntry_of_route hroute]; rfl⟩

/-! ### The forms of a host -/

/-- `net.JoinHostPort`. -/
def joinHostPort (host port : Str) : Str :=
  if host.contains ':' then '[' :: host ++ ']' :: ':' :: port else host ++ ':' :: port

inductive Form where
  | bare | bracketed
  | joined (port : ℕ)

def Form.text (host : Str) : Form → Str
  | .bare => host
  | .bracketed => '[' :: host ++ [']']
  | .joined port => joinHostPort host (Nat.toDigits 10 port)

/-- A name that `stripPort` finds in front of a port. -/
def Found (name : Bytes) : Prop :=
  name.head? ≠ some (byte '[') ∧
    (name.any (fun x => x = byte '.' || x = byte ']') ∨ isNumber name = false)

lemma not_colon_of_isNumber {b : Bytes} (h : isNumber b) : byte ':' ∉ b := by
  intro hmem
  obtain ⟨n, hn, -⟩ := (Option.any_eq_true _ _).mp h
  have hcolon : ':' ∈ b.map fun x => Char.ofNat x.toNat := mem_map.mpr ⟨_, hmem, by decide⟩
  have hdigits : ∀ ds : Str, ':' ∈ ds → ¬(ds ≠ [] && ds.all Char.isDigit) := by
    intro ds hds hall
    exact absurd (all_eq_true.mp (Bool.and_eq_true_iff.mp hall).2 _ hds) (by decide)
  unfold Caddyapi.atoi at hn
  dsimp only at hn
  split at hn
  · next heq =>
    rw [heq] at hcolon
    rw [if_neg (hdigits _ (mem_of_ne_of_mem (by decide) hcolon))] at hn
    cases hn
  · next heq =>
    rw [heq] at hcolon
    rw [if_neg (hdigits _ (mem_of_ne_of_mem (by decide) hcolon))] at hn
    cases hn
  · rw [if_neg (hdigits _ hcolon)] at hn
    cases hn

lemma some_ne_of_length {a b : Bytes} (h : a.length < b.length) : some a ≠ some b := fun heq =>
  h.ne (congrArg length (Option.some.inj heq))

lemma encode_colon (a v : Str) : encode (a ++ ':' :: v) = encode a ++ byte ':' :: encode v := by
  rw [Utf8.encode_append, encode_cons_ascii colon_ascii]

lemma not_colon_toDigits (port : ℕ) : byte ':' ∉ encode (Nat.toDigits 10 port) := fun hmem =>
  absurd (Nat.isDigit_of_mem_toDigits (by decide) (by decide) ((Utf8.byte_mem_encode colon_ascii).mp hmem)) (by decide)

/-- A host is found in front of its port, unless it begins with a bracket or looks like a number. -/
lemma stripPort_port (host : Str) (port : ℕ) :
    stripPort (encode (host ++ ':' :: Nat.toDigits 10 port)) = some (encode host) ↔ Found (encode host) := by
  rw [encode_colon, stripPort_append _ _ (not_colon_toDigits port), Found]
  by_cases hhead : (encode host).head? = some (byte '[')
  · have hne : encode host ≠ [] := by
      rintro hnil
      rw [hnil] at hhead
      cases hhead
    rw [if_pos (by simp [hne, hhead])]
    simp only [hhead, ne_eq, not_true, false_and, iff_false]
    split
    · exact nofun
    · exact some_ne_of_length (by rw [length_dropLast, length_tail]; omega)
  rw [if_neg (by simp [hhead])]
  split
  · next hany => simp [hhead, hany]
  · next hany =>
    split
    · next hnumber =>
      refine iff_of_false (some_ne_of_length ?_).symm (by simp [hany, hnumber])
      simp
    · next hnumber => simp [hhead, hnumber]

lemma stripPort_joined {host : Str} (h : ':' ∈ host) (port : ℕ) :
    stripPort (encode (joinHostPort host (Nat.toDigits 10 port))) = some (encode host) := by
  have hjoin : joinHostPort host (Nat.toDigits 10 port) = ('[' :: host ++ [']']) ++ ':' :: Nat.toDigits 10 port := by
    simp [joinHostPort, h]
  have hbracket : encode ('[' :: host ++ [']']) = byte '[' :: encode host ++ [byte ']'] := by
    rw [cons_append, encode_cons_ascii bracket_ascii, Utf8.encode_append]
    rfl
  rw [hjoin, encode_colon, hbracket, stripPort_append _ _ (not_colon_toDigits port), if_pos (by simp)]
  simp

/-- An address with colons loses what stands behind the last one. -/
lemma stripPort_bare {host : Str} (h : (IP.parseIP host).isSome) (hcolon : ':' ∈ host) :
    stripPort (encode host) ≠ some (encode host) := by
  obtain ⟨ip, hip⟩ := Option.isSome_iff_exists.mp h
  obtain ⟨a, v, rfl, hv⟩ := exists_last hcolon
  have hnumber : isNumber (encode a) = false := by
    rw [Bool.eq_false_iff]
    refine fun hn => IP.colons_of_parseIP hip ?_
    have ha : ':' ∉ a := fun hmem => not_colon_of_isNumber hn ((Utf8.byte_mem_encode colon_ascii).mpr hmem)
    simp [count_eq_zero.mpr ha, count_eq_zero.mpr hv]
  have hhead : (encode a).head? ≠ some (byte '[') := by
    intro hhead
    have hmem : '[' ∈ a := (Utf8.byte_mem_encode bracket_ascii).mp (mem_of_mem_head? hhead)
    exact absurd (IP.isAddrChar_of_parseIP hip _ (mem_append_left _ hmem)) (by decide)
  rw [encode_colon, stripPort_append _ _ fun hmem => hv ((Utf8.byte_mem_encode colon_ascii).mp hmem),
    if_neg (by simp [hhead]), hnumber, if_neg Bool.false_ne_true, ite_self]
  exact some_ne_of_length (by simp)

lemma stripPort_brackets (host : Str) : stripPort (encode ('[' :: host ++ [']'])) ≠ some (encode host) := by
  by_cases hcolon : ':' ∈ host
  · obtain ⟨a, v, rfl, hv⟩ := exists_last hcolon
    have hsplit : '[' :: (a ++ ':' :: v) ++ [']'] = ('[' :: a) ++ ':' :: (v ++ [']']) := by simp
    rw [hsplit, encode_colon, stripPort_append _ _ fun hmem => hv ?_, encode_cons_ascii bracket_ascii,
      if_pos (by simp)]
    · split
      · exact nofun
      · refine some_ne_of_length ?_
        rw [encode_colon a v]
        simp
        omega
    · simpa using (Utf8.byte_mem_encode colon_ascii).mp hmem
  · rw [stripPort_of_not_mem fun hmem => hcolon ?_]
    · refine (some_ne_of_length ?_).symm
      rw [cons_append, encode_cons_ascii bracket_ascii, length_cons, Utf8.encode_append, length_append]
      omega
    · simpa using (Utf8.byte_mem_encode colon_ascii).mp hmem

/-- Of a host that is an address or has no colon, `stripPort` makes the host again just where it has no brackets, and a
bare one no colon, and one in front of a port is an address with colons or is found there. -/
theorem stripPort_text_iff (host : Str) (form : Form) (h : (IP.parseIP host).isSome ∨ ':' ∉ host) :
    stripPort (encode (form.text host)) = some (encode host) ↔
      match form with
      | .bare => ':' ∉ host
      | .bracketed => False
      | .joined _ => ':' ∈ host ∨ Found (encode host) := by
  cases form with
  | bare =>
    by_cases hcolon : ':' ∈ host
    · exact iff_of_false (stripPort_bare (h.resolve_right (not_not.mpr hcolon)) hcolon) (not_not.mpr hcolon)
    · exact iff_of_true (stripPort_of_not_mem fun hmem => hcolon ((Utf8.byte_mem_encode colon_ascii).mp hmem)) hcolon
  | bracketed => exact iff_false_intro (stripPort_brackets host)
  | joined port =>
    by_cases hcolon : ':' ∈ host
    · exact iff_of_true (stripPort_joined hcolon port) (.inl hcolon)
    · simp only [Form.text, joinHostPort, contains_iff_mem, hcolon, false_or]
      exact stripPort_port host port

theorem stripPort_text_iff_v6 : stripPort (encode (Form.text "2001:db8::1" (.joined 443))) = some (encode "2001:db8::1") :=
  (stripPort_text_iff "2001:db8::1" (.joined 443) (.inl (by decide +kernel))).mpr (.inl (by decide +kernel))

/-- An address without brackets or with nothing behind them, and a numeric name, come back as something else. -/
theorem stripPort_loses_hosts : (IP.parseIP "2001:db8::1").isSome ∧ (IP.parseIP "192.0.2.7").isSome ∧
    stripPort (encode "2001:db8::1") = some (encode "2001:db8:") ∧
    stripPort (encode "[2001:db8::1]") = some (encode "2001:db8") ∧
    stripPort (encode "[192.0.2.7]") = some (encode "[192.0.2.7]") ∧
    stripPort (encode "127:80") = some (encode "127:80") := by
  decide +kernel

end Ingest
