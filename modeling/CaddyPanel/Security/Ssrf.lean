import CaddyPanel.Lib.IP

/-!
# The guarded HTTP client

`SafeHTTPClient` fetches URLs that users configure. It resolves the host of every connection itself, refuses it where
one of the answers is not allowed, and dials the first answer. Redirects are followed four times at most, and each one
is checked before it is. Every lookup may answer anything, and the server may redirect to anything.
-/

namespace Ssrf

open List Text
open IP (Addr parseIP to4 octet byte isLoopback isPrivate isLinkLocalUnicast isLinkLocalMulticast
  isInterfaceLocalMulticast isMulticast isUnspecified block4 block6)

def isAllowedIP (ip : Addr) : Bool :=
  if isLoopback ip || isLinkLocalUnicast ip || isLinkLocalMulticast ip || isInterfaceLocalMulticast ip ||
      isMulticast ip || isUnspecified ip then false
  else if isPrivate ip then false
  else
    match to4 ip with
    | some v =>
      if octet v 0 = 100 && octet v 1 &&& 0xC0 = 64 then false
      else if octet v 0 = 0 || octet v 0 = 169 && octet v 1 = 254 then false
      else true
    | none => true

structure URL where
  scheme : Str
  hostname : Str
  port : Str

inductive Blocked where
  | scheme
  | emptyHost
  | forbiddenRange
  deriving DecidableEq

def validateOutboundURL (u : URL) : Except Blocked Unit :=
  if toLower u.scheme ≠ "http" ∧ toLower u.scheme ≠ "https" then .error .scheme
  else if u.hostname = [] then .error .emptyHost
  else if (parseIP u.hostname).any fun ip => !isAllowedIP ip then .error .forbiddenRange
  else .ok ()

/-- The world as the client meets it, request by request. -/
structure World where
  /-- what the resolver answers, `none` for an error -/
  dns : Nat → Str → Option (List Addr)
  /-- whether the request goes over a connection that is open already -/
  reuses : Nat → Bool

/-- `LookupIPAddr`: an address is its own answer. -/
def World.lookup (w : World) (request : Nat) (host : Str) : Option (List Addr) :=
  match parseIP host with
  | some ip => some [ip]
  | none => w.dns request host

/-- A connection that the client has to open: the answers for its host. -/
structure Attempt where
  host : Str
  answers : List Addr

/-- `DialContext`: the address that is dialled. -/
def Attempt.dialled (a : Attempt) : Option Addr :=
  if a.answers.all isAllowedIP then a.answers.head? else none

/-- `CheckRedirect`, after `via` requests. -/
def checkRedirect (via : Nat) (u : URL) : Bool :=
  via < 5 && (validateOutboundURL u).isOk

/-- What the transport can send at all. -/
def sendable (u : URL) : Bool :=
  (u.scheme = "http" || u.scheme = "https") && u.hostname ≠ []

/-- The connections that the client tries to open for a URL, when the server answers with these redirects. -/
def attempts (w : World) : Nat → URL → List URL → List Attempt
  | via, u, redirects =>
    if !sendable u then []
    else
      let next :=
        match redirects with
        | [] => []
        | v :: rest => if checkRedirect (via + 1) v then attempts w (via + 1) v rest else []
      if w.reuses via then next
      else
        match w.lookup via u.hostname with
        | none => []
        | some answers =>
          let a : Attempt := ⟨u.hostname, answers⟩
          a :: if a.dialled.isSome then next else []
termination_by structural _ _ redirects => redirects

/-! ### The ranges that must not be reached -/

def benchmark (ip : Addr) : Bool :=
  (to4 ip).any (block4 0xc6120000#32 15)

/-- Loopback, private, link-local, carrier-grade NAT and benchmark addresses. -/
def internal (ip : Addr) : Bool :=
  match to4 ip with
  | some v =>
    block4 0x7f000000#32 8 v || block4 0x0a000000#32 8 v || block4 0xac100000#32 12 v || block4 0xc0a80000#32 16 v ||
      block4 0xa9fe0000#32 16 v || block4 0x64400000#32 10 v || benchmark ip
  | none => ip = 1 || block6 (0xfc#8 ++ 0#120) 7 ip || block6 (0xfe80#16 ++ 0#112) 10 ip

/-- Of these ranges the check leaves out the last one. -/
lemma internal_of_isAllowedIP {ip : Addr} (h : isAllowedIP ip) : internal ip = benchmark ip := by
  simp only [isAllowedIP] at h
  split at h
  · cases h
  rename_i hkinds
  split at h
  · cases h
  rename_i hprivate
  simp only [Bool.or_eq_true, not_or, Bool.not_eq_true] at hkinds hprivate
  obtain ⟨⟨⟨⟨⟨hloopback, hlinkLocal⟩, -⟩, -⟩, -⟩, -⟩ := hkinds
  simp only [internal]
  cases hv : to4 ip with
  | some v =>
    rw [IP.isLoopback_of_to4 hv] at hloopback
    rw [IP.isLinkLocalUnicast_of_to4 hv] at hlinkLocal
    simp only [IP.isPrivate_of_to4 hv] at hprivate
    simp only [hv, IP.cgnat_eq] at h
    split at h
    · cases h
    · next hcgnat => simp [hloopback, hlinkLocal, hprivate, hcgnat]
  | none =>
    rw [IP.isPrivate_of_not4 hv] at hprivate
    rw [IP.isLinkLocalUnicast_of_not4 hv] at hlinkLocal
    simp only [IP.isLoopback, hv] at hloopback
    simp only [hloopback, hprivate, hlinkLocal, benchmark, hv, Option.any_none, Bool.or_false]

/-! ### The connections of a fetch -/

lemma dialled_eq_some {a : Attempt} {ip : Addr} :
    a.dialled = some ip ↔ a.answers.all isAllowedIP ∧ a.answers.head? = some ip := by
  rw [Attempt.dialled]
  cases a.answers.all isAllowedIP <;> simp

/-- Every answer is one that the client has asked for. -/
lemma lookup_of_mem_attempts {w : World} {via : Nat} {u : URL} {redirects : List URL} {a : Attempt}
    (h : a ∈ attempts w via u redirects) : ∃ request, w.lookup request a.host = some a.answers := by
  induction redirects generalizing via u with
  | nil =>
    simp only [attempts] at h
    split at h
    · cases h
    split at h
    · cases h
    split at h
    · cases h
    rename_i answers hanswers
    simp only [ite_self, mem_singleton] at h
    subst h
    exact ⟨via, hanswers⟩
  | cons v rest ih =>
    have hnext : a ∈ (if checkRedirect (via + 1) v then attempts w (via + 1) v rest else []) →
        ∃ request, w.lookup request a.host = some a.answers := by
      intro h
      split at h
      · exact ih h
      · cases h
    simp only [attempts] at h
    split at h
    · cases h
    split at h
    · exact hnext h
    split at h
    · cases h
    rename_i answers hanswers
    rcases mem_cons.mp h with rfl | h
    · exact ⟨via, hanswers⟩
    split at h
    · exact hnext h
    · cases h

/-- The client connects only to checked answers of its own lookups, and only outside the internal ranges where no
answer that passes the check begins with a benchmark address. -/
theorem connects_outside_iff (w : World) (u : URL) (redirects : List URL) :
    (∀ a ∈ attempts w 0 u redirects, ∀ ip, a.dialled = some ip → internal ip = false ∧
        ∃ request answers, w.lookup request a.host = some answers ∧ ip ∈ answers ∧ isAllowedIP ip) ↔
      ∀ a ∈ attempts w 0 u redirects, a.answers.all isAllowedIP →
        ∀ ip, a.answers.head? = some ip → benchmark ip = false := by
  have hallowed : ∀ {a : Attempt} {ip : Addr}, a.answers.all isAllowedIP → a.answers.head? = some ip →
      ip ∈ a.answers ∧ isAllowedIP ip := fun hall hhead =>
    have hmem := mem_of_mem_head? hhead
    ⟨hmem, all_eq_true.mp hall _ hmem⟩
  constructor
  · intro h a ha hall ip hhead
    rw [← internal_of_isAllowedIP (hallowed hall hhead).2]
    exact (h a ha ip (dialled_eq_some.mpr ⟨hall, hhead⟩)).1
  intro h a ha ip hdialled
  obtain ⟨hall, hhead⟩ := dialled_eq_some.mp hdialled
  obtain ⟨hmem, hip⟩ := hallowed hall hhead
  obtain ⟨request, hlookup⟩ := lookup_of_mem_attempts ha
  refine ⟨?_, request, a.answers, hlookup, hmem, hip⟩
  rw [internal_of_isAllowedIP hip]
  exact h a ha hall ip hhead

/-- An address for benchmarks is dialled. -/
theorem benchmark_dialled :
    (attempts ⟨fun _ _ => none, fun _ => false⟩ 0 ⟨"http", "198.18.0.1", "80"⟩ []).map
        Attempt.dialled = [some (IP.mapped 0xc6120001#32)] ∧ internal (IP.mapped 0xc6120001#32) := by
  decide +kernel

end Ssrf
