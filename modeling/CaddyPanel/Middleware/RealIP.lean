import CaddyPanel.Caddyapi.BuildRoute
import CaddyPanel.Lib.IP

/-!
# The address of a client behind trusted proxies

`TrustedRealIP` takes the address of the client from `X-Forwarded-For` where its peer is a trusted proxy. Each proxy
adds the address of its own peer to that header, in the last line of it or in a new one, so that everything the client
has sent stands before. The middleware reads the first line from the right.
-/

namespace RealIP

open List Text
open IP (parseIP Network isAddrChar)

structure Config where
  trustedCIDRs : List Network
  trustTrueClientIP : Bool
  trustXRealIP : Bool

/-- A request, with all lines of the headers that are read. -/
structure Request where
  remoteAddr : Str
  forwardedFor : List Str
  trueClientIP : List Str
  realIP : List Str
  forwardedHost : List Str

/-- `Header.Get`. -/
def get (lines : List Str) : Str :=
  lines.headD []

def isBracket (c : Char) : Bool :=
  c = '[' || c = ']'

def stripPort (addr : Str) : Str :=
  match Caddyapi.splitHostPort addr with
  | some (host, _) => host
  | none => ((addr.dropWhile isBracket).reverse.dropWhile isBracket).reverse

def inAnyCIDR (host : Str) (cidrs : List Network) : Bool :=
  (parseIP host).any fun ip => cidrs.any (·.contains ip)

/-- The element is an address of nobody who is trusted. -/
def foreign (cidrs : List Network) (cand : Str) : Bool :=
  cand ≠ [] && (parseIP cand).isSome && !inAnyCIDR cand cidrs

/-- The walk through `X-Forwarded-For` from the right. -/
def originator (cidrs : List Network) (xff : Str) : Option Str :=
  ((xff.splitOn ',').map trimSpace).reverse.find? (foreign cidrs)

/-- `True-Client-IP` and `X-Real-IP`, where the operator has named them. -/
def singleHeader (trusted : Bool) (lines : List Str) : Option Str :=
  let ip := trimSpace (get lines)
  if trusted && ip ≠ [] && (parseIP ip).isSome then some ip else none

def trustedRealIP (cfg : Config) (r : Request) : Request :=
  if !inAnyCIDR (stripPort r.remoteAddr) cfg.trustedCIDRs then
    if cfg.trustedCIDRs ≠ [] then { r with forwardedHost := [] } else r
  else
    match originator cfg.trustedCIDRs (get r.forwardedFor) with
    | some ip => { r with remoteAddr := ip }
    | none =>
      match singleHeader cfg.trustTrueClientIP r.trueClientIP with
      | some ip => { r with remoteAddr := ip }
      | none =>
        match singleHeader cfg.trustXRealIP r.realIP with
        | some ip => { r with remoteAddr := ip }
        | none => r

/-! ### The proxies -/

/-- Where a proxy adds an element. -/
inductive Layout where
  | sameLine
  | newLine
  /-- all lines become one -/
  | joined
  deriving DecidableEq

/-- A proxy, with the address of its peer. -/
structure Hop where
  saw : Str
  layout : Layout

def separator : Str := ", "

def addToLast (saw : Str) : List Str → List Str
  | [] => [saw]
  | [line] => [line ++ separator ++ saw]
  | line :: rest => line :: addToLast saw rest

def Hop.add (lines : List Str) (hop : Hop) : List Str :=
  match hop.layout with
  | .sameLine => addToLast hop.saw lines
  | .newLine => lines ++ [hop.saw]
  | .joined => [separator.intercalate (lines ++ [hop.saw])]

/-- The header behind a chain of proxies, the outermost first. -/
def relay (hops : List Hop) (lines : List Str) : List Str :=
  hops.foldl Hop.add lines

@[simp] lemma relay_nil (lines : List Str) : relay [] lines = lines := rfl

@[simp] lemma relay_cons (hop : Hop) (hops : List Hop) (lines : List Str) :
    relay (hop :: hops) lines = relay hops (hop.add lines) := rfl

/-! ### The elements of the header -/

def elements (line : Str) : List Str :=
  (line.splitOn ',').map trimSpace

lemma elements_space (s : Str) : elements (' ' :: s) = elements s := by
  rw [elements, elements, splitOn_cons_eq_if_modifyHead]
  cases hparts : s.splitOn ',' with
  | nil => exact absurd hparts (splitOn_ne_nil ',' s)
  | cons part parts =>
    rfl

lemma elements_append (line s : Str) : elements (line ++ separator ++ s) = elements line ++ elements s := by
  have hsplit : line ++ separator ++ s = line ++ ',' :: ' ' :: s := by simp [separator]
  rw [hsplit, elements, splitOn_append_cons_self, map_append]
  exact congrArg _ (elements_space s)

lemma elements_intercalate {lines : List Str} (h : lines ≠ []) :
    elements (separator.intercalate lines) = lines.flatMap elements := by
  induction lines with
  | nil => exact absurd rfl h
  | cons line lines ih =>
    cases lines with
    | nil => simp
    | cons next lines =>
      rw [intercalate_cons_cons, elements_append, ih (cons_ne_nil _ _)]
      rfl

lemma elements_saw {saw : Str} (h : (parseIP saw).isSome) : elements saw = [saw] := by
  obtain ⟨ip, hip⟩ := Option.isSome_iff_exists.mp h
  have hchars := IP.isAddrChar_of_parseIP hip
  have hcomma : ',' ∉ saw := fun hmem => absurd (hchars ',' hmem) (by decide)
  rw [elements, splitOn_eq_singleton hcomma, map_singleton,
    trimSpace_eq_self fun c hc => IP.isSpace_of_isAddrChar (hchars c hc)]

/-! ### Where the address of the outermost peer is -/

variable {cidrs : List Network} {saw : Str} {before lines : List Str} {hop : Hop}

/-- The address stands behind the lines `before`, and nothing foreign stands behind it. -/
def Placed (cidrs : List Network) (saw : Str) (before lines : List Str) : Prop :=
  ∃ line after pre post, lines = before ++ line :: after ∧ elements line = pre ++ saw :: post ∧
    (∀ e ∈ post, foreign cidrs e = false) ∧ ∀ e ∈ after.flatMap elements, foreign cidrs e = false

/-- The lines before the one in which a proxy puts the address. -/
def Layout.skips (layout : Layout) (lines : List Str) : List Str :=
  match layout with
  | .sameLine => lines.dropLast
  | .newLine => lines
  | .joined => []

lemma addToLast_eq (saw : Str) (lines : List Str) (line : Str) :
    addToLast saw (lines ++ [line]) = lines ++ [line ++ separator ++ saw] := by
  induction lines with
  | nil => rfl
  | cons first lines ih =>
    cases lines with
    | nil => rfl
    | cons second lines => exact congrArg (first :: ·) ih

/-- The outermost proxy puts the address behind everything the client has sent. -/
lemma placed_add (h : (parseIP hop.saw).isSome) (lines : List Str) :
    Placed cidrs hop.saw (hop.layout.skips lines) (hop.add lines) := by
  obtain ⟨saw, layout⟩ := hop
  have hsaw := elements_saw h
  cases layout with
  | sameLine =>
    rcases eq_nil_or_concat' lines with rfl | ⟨lines, last, rfl⟩
    · exact ⟨saw, [], [], [], rfl, by simpa using hsaw, by simp, by simp⟩
    refine ⟨last ++ separator ++ saw, [], elements last, [], ?_, ?_, by simp, by simp⟩
    · simp only [Hop.add, Layout.skips, addToLast_eq, dropLast_concat]
    · rw [elements_append, hsaw]
  | newLine => exact ⟨saw, [], [], [], rfl, by simpa using hsaw, by simp, by simp⟩
  | joined =>
    refine ⟨separator.intercalate (lines ++ [saw]), [], lines.flatMap elements, [], rfl, ?_, by simp, by simp⟩
    rw [elements_intercalate (by simp), flatMap_append, flatMap_singleton, hsaw]

/-- A trusted proxy adds an address that is not foreign behind it. -/
lemma Placed.add (h : Placed cidrs saw before lines) (hsome : (parseIP hop.saw).isSome)
    (htrusted : foreign cidrs hop.saw = false) :
    Placed cidrs saw (if hop.layout = .joined then [] else before) (hop.add lines) := by
  obtain ⟨line, after, pre, post, rfl, hline, hpost, hafter⟩ := h
  obtain ⟨next, layout⟩ := hop
  have hnext := elements_saw hsome
  cases layout with
  | sameLine =>
    rcases eq_nil_or_concat' after with rfl | ⟨after, last, rfl⟩
    · refine ⟨line ++ separator ++ next, [], pre, post ++ [next], ?_, ?_, ?_, by simp⟩
      · simp [Hop.add, addToLast_eq]
      · rw [elements_append, hline, hnext, append_assoc, cons_append]
      · simpa [or_imp, forall_and] using ⟨hpost, htrusted⟩
    refine ⟨line, after ++ [last ++ separator ++ next], pre, post, ?_, hline, hpost, ?_⟩
    · rw [← cons_append, ← append_assoc, Hop.add, addToLast_eq]
      simp
    simp only [flatMap_append, flatMap_singleton, elements_append, hnext, mem_append,
      mem_singleton] at hafter ⊢
    rintro e (he | he | rfl)
    · exact hafter e (.inl he)
    · exact hafter e (.inr he)
    · exact htrusted
  | newLine =>
    refine ⟨line, after ++ [next], pre, post, by simp [Hop.add], hline, hpost, ?_⟩
    simp only [flatMap_append, flatMap_singleton, hnext, mem_append, mem_singleton]
    rintro e (he | rfl)
    · exact hafter e he
    · exact htrusted
  | joined =>
    refine ⟨separator.intercalate ((before ++ line :: after) ++ [next]), [], before.flatMap elements ++ pre,
      post ++ after.flatMap elements ++ [next], rfl, ?_, ?_, by simp⟩
    · rw [elements_intercalate (by simp)]
      simp [hline, hnext]
    simp only [mem_append, mem_singleton]
    rintro e ((he | he) | rfl)
    · exact hpost e he
    · exact hafter e he
    · exact htrusted

lemma placed_foldl (h : Placed cidrs saw before lines) {inner : List Hop}
    (hinner : ∀ hop ∈ inner, (parseIP hop.saw).isSome ∧ foreign cidrs hop.saw = false) :
    Placed cidrs saw (if ∃ hop ∈ inner, hop.layout = .joined then [] else before) (relay inner lines) := by
  induction inner generalizing before lines with
  | nil => simpa using h
  | cons hop inner ih =>
    obtain ⟨hhop, hinner⟩ := forall_mem_cons.mp hinner
    have hnext := ih (h.add hhop.1 hhop.2) hinner
    by_cases hjoined : hop.layout = .joined
    · simpa [hjoined] using hnext
    · simpa [hjoined] using hnext

/-- The walk ends at the address where it is in the first line. -/
lemma originator_of_placed (h : Placed cidrs saw [] lines) (hforeign : foreign cidrs saw) :
    originator cidrs (get lines) = some saw := by
  obtain ⟨line, after, pre, post, rfl, hline, hpost, -⟩ := h
  change (elements line).reverse.find? (foreign cidrs) = some saw
  have hnone : post.reverse.find? (foreign cidrs) = none := by
    simpa using hpost
  rw [hline, reverse_append, reverse_cons, append_assoc, find?_append, hnone]
  simp [hforeign]

/-- An element of the header that is not foreign is passed. -/
lemma originator_eq_none {line : Str} (h : ∀ e ∈ elements line, foreign cidrs e = false) :
    originator cidrs line = none := by
  change (elements line).reverse.find? (foreign cidrs) = none
  simpa using h

/-- A proxy adds one element to the combined header. -/
lemma elements_add (h : (parseIP hop.saw).isSome) (lines : List Str) :
    (hop.add lines).flatMap elements = lines.flatMap elements ++ [hop.saw] := by
  obtain ⟨saw, layout⟩ := hop
  have hsaw := elements_saw h
  cases layout with
  | sameLine =>
    rcases eq_nil_or_concat' lines with rfl | ⟨lines, last, rfl⟩
    · simpa [Hop.add, addToLast] using hsaw
    · simp only [Hop.add, addToLast_eq, flatMap_append, flatMap_singleton, elements_append, hsaw]
      rw [append_assoc]
  | newLine => simp [Hop.add, hsaw]
  | joined => simp [Hop.add, elements_intercalate, hsaw]

lemma elements_relay {hops : List Hop} (h : ∀ hop ∈ hops, (parseIP hop.saw).isSome) (lines : List Str) :
    (relay hops lines).flatMap elements = lines.flatMap elements ++ hops.map Hop.saw := by
  induction hops generalizing lines with
  | nil => simp
  | cons hop hops ih =>
    obtain ⟨hhop, hhops⟩ := forall_mem_cons.mp h
    rw [relay_cons, ih hhops, elements_add hhop, map_cons, append_assoc, singleton_append]

/-! ### The middleware -/

lemma splitLast_spec {c : Char} {s a b : Str} (h : Caddyapi.splitLast c s = some (a, b)) : s = a ++ c :: b ∧ c ∉ b := by
  simp only [Caddyapi.splitLast] at h
  split at h
  · next hc =>
    cases h
    have hmem : c ∈ s.reverse := by simpa using hc
    obtain ⟨u, v, huv, hu⟩ := eq_append_cons_of_mem hmem
    have hs : s = v.reverse ++ c :: u.reverse := by
      rw [← reverse_reverse s, huv]
      simp
    have hu' : ∀ d ∈ u, decide (d ≠ c) := fun d hd => by simpa using fun hdc : d = c => hu (hdc ▸ hd)
    rw [huv, dropWhile_append_of_pos hu', takeWhile_append_of_pos hu']
    simpa [hu] using hs
  · cases h

/-- An address alone is not taken for a host and a port. -/
lemma splitHostPort_of_parseIP {ip : IP.Addr} (h : parseIP saw = some ip) : Caddyapi.splitHostPort saw = none := by
  have hbracket : '[' ∉ saw := fun hmem => absurd (IP.isAddrChar_of_parseIP h '[' hmem) (by decide)
  have hcolons := IP.colons_of_parseIP h
  simp only [Caddyapi.splitHostPort]
  split
  · rfl
  rename_i host port hlast
  obtain ⟨rfl, hport⟩ := splitLast_spec hlast
  have hhost : host.head? ≠ some '[' := fun hhead =>
    hbracket (mem_append_left _ (mem_of_mem_head? hhead))
  have hcolon : ':' ∈ host := by
    rw [count_append, count_cons_self, count_eq_zero.mpr hport] at hcolons
    exact count_pos_iff.mp (by omega)
  simp [hhost, hcolon]

lemma foreign_eq (h : (parseIP saw).isSome) : foreign cidrs saw = !inAnyCIDR saw cidrs := by
  have hne : saw ≠ [] := by
    rintro rfl
    exact absurd h (by decide)
  simp [foreign, hne, h]

lemma isSome_of_inAnyCIDR (h : inAnyCIDR saw cidrs) : (parseIP saw).isSome := by
  rw [inAnyCIDR, Option.any_eq_true] at h
  obtain ⟨ip, hip, -⟩ := h
  rw [hip]
  rfl

variable {cfg : Config} {r : Request}

lemma remoteAddr_of_originator (hpeer : inAnyCIDR (stripPort r.remoteAddr) cfg.trustedCIDRs)
    (h : originator cfg.trustedCIDRs (get r.forwardedFor) = some saw) : (trustedRealIP cfg r).remoteAddr = saw := by
  simp [trustedRealIP, hpeer, h]

/-- Without an originator and without the other headers the address stays that of the peer. -/
lemma remoteAddr_of_none (hpeer : inAnyCIDR (stripPort r.remoteAddr) cfg.trustedCIDRs)
    (h : originator cfg.trustedCIDRs (get r.forwardedFor) = none) (htrue : r.trueClientIP = []) (hreal : r.realIP = []) :
    (trustedRealIP cfg r).remoteAddr = r.remoteAddr := by
  have hnil : ∀ trusted, singleHeader trusted [] = none := fun trusted => by cases trusted <;> rfl
  simp [trustedRealIP, hpeer, h, htrue, hreal, hnil]

lemma elements_nil_not_foreign : ∀ e ∈ elements [], foreign cidrs e = false := by
  simp [elements, foreign, trimSpace]

lemma get_not_foreign (h : ∀ e ∈ lines.flatMap elements, foreign cidrs e = false) :
    ∀ e ∈ elements (get lines), foreign cidrs e = false := by
  cases lines with
  | nil => exact elements_nil_not_foreign
  | cons line lines => exact fun e he => h e (mem_flatMap.mpr ⟨line, mem_cons_self, he⟩)

/-- The outermost proxy puts the address of its peer into the line that is read, or a later proxy does. -/
def Readable (n : Nat) (outer : Hop) (inner : List Hop) : Prop :=
  n = 0 ∨ n = 1 ∧ outer.layout = .sameLine ∨ ∃ hop ∈ outer :: inner, hop.layout = .joined

lemma mem_of_mem_skips {layout : Layout} {line : Str} (h : line ∈ layout.skips lines) : line ∈ lines := by
  cases layout with
  | sameLine => exact mem_of_mem_dropLast h
  | newLine => exact h
  | joined => cases h

lemma skips_eq_nil_iff {n : Nat} {outer : Hop} {inner : List Hop} (lines : List Str) (hn : lines.length = n) :
    (if ∃ hop ∈ inner, hop.layout = .joined then [] else outer.layout.skips lines) = [] ↔ Readable n outer inner := by
  by_cases hjoined : ∃ hop ∈ inner, hop.layout = .joined
  · simp [Readable, hjoined]
  obtain ⟨saw, layout⟩ := outer
  cases layout with
  | sameLine =>
    rcases eq_nil_or_concat' lines with rfl | ⟨lines, last, rfl⟩
    · simp [Readable, Layout.skips, ← hn]
    · simp [Readable, hjoined, Layout.skips, ← hn]
  | newLine => simp [Readable, hjoined, Layout.skips, ← hn]
  | joined => simp [Readable, Layout.skips]

/-- Behind trusted proxies the address that the outermost one saw is taken, whatever the client has sent in `n` lines,
just where that address is not trusted itself and is written into the line that is read. -/
theorem remoteAddr_eq_outermost_iff (cfg : Config) (remoteAddr : Str)
    (hport : (Caddyapi.splitHostPort remoteAddr).isSome)
    (hpeer : inAnyCIDR (stripPort remoteAddr) cfg.trustedCIDRs) (outer : Hop)
    (houter : (parseIP outer.saw).isSome) (inner : List Hop)
    (hinner : ∀ hop ∈ inner, inAnyCIDR hop.saw cfg.trustedCIDRs) (n : Nat) :
    (∀ r : Request, r.remoteAddr = remoteAddr → r.forwardedFor.length = n →
        (trustedRealIP cfg { r with forwardedFor := relay (outer :: inner) r.forwardedFor }).remoteAddr = outer.saw) ↔
      inAnyCIDR outer.saw cfg.trustedCIDRs = false ∧ Readable n outer inner := by
  have hinner' : ∀ hop ∈ inner, (parseIP hop.saw).isSome ∧ foreign cfg.trustedCIDRs hop.saw = false := fun hop hhop =>
    ⟨isSome_of_inAnyCIDR (hinner hop hhop), by simp [foreign, hinner hop hhop]⟩
  have hplaced : ∀ lines, Placed cfg.trustedCIDRs outer.saw _ (relay (outer :: inner) lines) := fun lines =>
    placed_foldl (placed_add houter lines) hinner'
  constructor
  · intro h
    -- a client that sends empty lines and no other header
    have hquiet := h ⟨remoteAddr, List.replicate n [], [], [], []⟩ rfl (by simp)
    have hne : remoteAddr ≠ outer.saw := by
      rintro rfl
      obtain ⟨ip, hip⟩ := Option.isSome_iff_exists.mp houter
      rw [splitHostPort_of_parseIP hip] at hport
      cases hport
    have hread : originator cfg.trustedCIDRs (get (relay (outer :: inner) (List.replicate n []))) ≠ none := fun hnone =>
      hne ((remoteAddr_of_none (r := ⟨remoteAddr, _, [], [], []⟩) hpeer hnone rfl rfl).symm.trans hquiet)
    constructor
    · refine Bool.eq_false_iff.mpr fun htrusted => hread (originator_eq_none (get_not_foreign ?_))
      have hhops : ∀ hop ∈ outer :: inner, (parseIP hop.saw).isSome ∧ foreign cfg.trustedCIDRs hop.saw = false :=
        forall_mem_cons.mpr ⟨⟨houter, by simp [foreign, htrusted]⟩, hinner'⟩
      rw [elements_relay fun hop hhop => (hhops hop hhop).1]
      intro e he
      rcases mem_append.mp he with he | he
      · obtain ⟨line, hline, he⟩ := mem_flatMap.mp he
        rw [eq_of_mem_replicate hline] at he
        exact elements_nil_not_foreign e he
      · obtain ⟨hop, hhop, rfl⟩ := mem_map.mp he
        exact (hhops hop hhop).2
    · rw [← skips_eq_nil_iff (List.replicate n []) (by simp)]
      by_contra hskips
      obtain ⟨line, after, -, -, hlines, -⟩ := hplaced (List.replicate n [])
      obtain ⟨first, rest, hfirst⟩ := exists_cons_of_ne_nil hskips
      have hmem : first ∈ List.replicate n ([] : Str) := by
        split at hfirst
        · cases hfirst
        · exact mem_of_mem_skips (hfirst ▸ mem_cons_self)
      rw [hlines, hfirst, eq_of_mem_replicate hmem] at hread
      exact hread (originator_eq_none elements_nil_not_foreign)
  · rintro ⟨huntrusted, hreadable⟩ r rfl hn
    refine remoteAddr_of_originator hpeer (originator_of_placed ?_ ?_)
    · have hp := hplaced r.forwardedFor
      rwa [(skips_eq_nil_iff r.forwardedFor hn).mpr hreadable] at hp
    · rw [foreign_eq houter, huntrusted]
      rfl

def edge : Config := ⟨[.v4 0x0a000000#32 0xff000000#32], false, false⟩

def outermost : Hop := ⟨"203.0.113.7", .sameLine⟩

def innermost : Hop := ⟨"10.0.0.1", .newLine⟩

theorem remoteAddr_eq_outermost_caddy :
    (∀ r : Request, r.remoteAddr = "10.0.0.2:4711" → r.forwardedFor.length = 1 →
        (trustedRealIP edge { r with forwardedFor := relay (outermost :: [innermost]) r.forwardedFor }).remoteAddr =
          outermost.saw) ↔
      inAnyCIDR outermost.saw edge.trustedCIDRs = false ∧ Readable 1 outermost [innermost] :=
  remoteAddr_eq_outermost_iff edge "10.0.0.2:4711" (by decide +kernel) (by decide +kernel) outermost
    (by decide +kernel) [innermost] (forall_mem_singleton.mpr (by decide +kernel)) 1

/-- A proxy that writes into a new line leaves the client's line to be read. -/
theorem new_line_spoofed : (trustedRealIP edge ⟨"10.0.0.2:4711",
      relay [{ outermost with layout := .newLine }] ["198.51.100.1"], [], [], []⟩).remoteAddr =
        "198.51.100.1" := by
  decide +kernel

end RealIP
