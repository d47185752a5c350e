import CaddyPanel.Caddy.Replacer

/-!
# Placeholders in tenant strings (`internal/caddyapi/tenanttemplate.go`)

Caddy expands `{key}` in many of the strings a route carries. The panel scans a tenant's string for
the placeholders Caddy would expand and refuses, or escapes, those outside `http.request.`.
-/

namespace TenantTemplate

open List Replacer Text

def tenantPlaceholderNS : Str := "http.request."

def allowedTenantPlaceholder (key : Str) : Bool :=
  tenantPlaceholderNS.isPrefixOf key && decide (tenantPlaceholderNS.length < key.length)

/-- One brace pair the panel takes for a placeholder. -/
structure PhSpan where
  start : Nat
  key : Str
  deriving DecidableEq, Repr

/-- `strings.IndexAny(s, "\x7b\x7d")`: the text before the first brace, and that brace. -/
def nextBrace : Str → Option (Str × Char)
  | [] => none
  | c :: s => if c = '{' ∨ c = '}' then some ([], c) else (nextBrace s).map fun (b, d) => (c :: b, d)

/-- The name in a brace pair: what stands before the default separator, trimmed. -/
def spanKey (body : Str) : Str :=
  trimSpace (before ':' body)

/-- The loop of `scanPlaceholderSpans` at position `i`. `esc` says that the byte before is a
backslash, `skip` how many bytes the last span still covers. -/
def scanFrom (esc : Bool) (skip i : Nat) : Str → List PhSpan
  | [] => []
  | c :: s =>
    match skip with
    | n + 1 => scanFrom (c = '\\') n (i + 1) s
    | 0 =>
      if c ≠ '{' ∨ esc then scanFrom (c = '\\') 0 (i + 1) s
      else
        match nextBrace s with
        | none => []
        | some (body, d) =>
          -- an inner brace opens the real placeholder
          if d = '{' then scanFrom false 0 (i + 1) s
          else ⟨i, spanKey body⟩ :: scanFrom false (body.length + 1) (i + 1) s

def scanPlaceholderSpans (s : Str) : List PhSpan :=
  scanFrom false 0 0 s

/-- The error carries the placeholder it names. -/
def ScreenTenantTemplate (s : Str) : Except Str Unit :=
  match (scanPlaceholderSpans s).find? fun sp => !allowedTenantPlaceholder sp.key with
  | some sp => .error (['{'] ++ sp.key ++ ['}'])
  | none => .ok ()

/-- The replacer namespaces that read the node's environment or files. -/
def unsafePlaceholderTokens : List Str :=
  ["\x7benv.", "\x7bfile.", "\x7bsystem.", "\x7b$"]

/-- The error carries the token it names. -/
def ScreenReplacerValue (s : Str) : Except Str Unit :=
  match unsafePlaceholderTokens.find? fun tok => tok <:+: toLower s with
  | some tok => .error (tok ++ "...\x7d")
  | none => .ok ()

def ScreenTenantRateKey (s : Str) : Except Str Unit :=
  ScreenReplacerValue s

/-- The builder of `NeutralizeTenantTemplate`: what is written, up to where the input is copied,
and whether anything was escaped. -/
structure Builder where
  out : Str
  prev : Nat
  escaped : Bool

def Builder.span (s : Str) (b : Builder) (sp : PhSpan) : Builder :=
  if allowedTenantPlaceholder sp.key then b
  else ⟨b.out ++ (s.drop b.prev).take (sp.start - b.prev) ++ ['\\'], sp.start, true⟩

def NeutralizeTenantTemplate (s : Str) : Str :=
  let spans := scanPlaceholderSpans s
  if spans.isEmpty then s
  else
    let b := spans.foldl (Builder.span s) ⟨[], 0, false⟩
    if b.escaped then b.out ++ s.drop b.prev else s

/-! ### Braces -/

variable {s body pre t p : Str} {esc : Bool}

lemma nextBrace_eq_some {d : Char} (h : nextBrace s = some (body, d)) :
    (d = '{' ∨ d = '}') ∧ (∀ c ∈ body, c ≠ '{') ∧ ∃ rest, s = body ++ d :: rest := by
  induction s generalizing body with
  | nil => simp [nextBrace] at h
  | cons c s ih =>
    simp only [nextBrace] at h
    split_ifs at h with hc
    · cases h
      exact ⟨hc, by simp, s, rfl⟩
    obtain ⟨⟨body', d'⟩, hb, heq⟩ := Option.map_eq_some_iff.mp h
    cases heq
    obtain ⟨hd, hbody, rest, rfl⟩ := ih hb
    refine ⟨hd, ?_, rest, rfl⟩
    rw [forall_mem_cons]
    exact ⟨fun hc' => hc (.inl hc'), hbody⟩

/-- No brace opens inside a span. -/
lemma nextBrace_take (h : nextBrace s = some (body, '}')) : ∀ c ∈ s.take (body.length + 1), c ≠ '{' := by
  obtain ⟨-, hbody, rest, hs⟩ := nextBrace_eq_some h
  have htake : s.take (body.length + 1) = body ++ ['}'] := by
    simp [hs, take_append]
  rw [htake]
  simpa [or_imp, forall_and] using hbody

lemma nextBrace_eq_none (h : nextBrace s = none) : ∀ c ∈ s, c ≠ '{' ∧ c ≠ '}' := by
  induction s with
  | nil => simp
  | cons c s ih =>
    simp only [nextBrace] at h
    split_ifs at h with hc
    rw [forall_mem_cons]
    exact ⟨not_or.mp hc, ih (Option.map_eq_none_iff.mp h)⟩

lemma keyFrom_eq_none (h : ∀ c ∈ s, c ≠ '}') : keyFrom esc s = none := by
  induction s generalizing esc with
  | nil => rfl
  | cons c s ih =>
    obtain ⟨hc, hs⟩ := forall_mem_cons.mp h
    simp [keyFrom, hc, ih hs]

/-! ### The spans that are not permitted -/

/-- The brace before `s` opens a span the allow-list does not permit. -/
def escapes (s : Str) : Bool :=
  match nextBrace s with
  | some (body, '}') => !allowedTenantPlaceholder (spanKey body)
  | _ => false

/-- Where the spans that are not permitted start, character by character. -/
def marks (esc : Bool) (i : Nat) : Str → List Nat
  | [] => []
  | c :: s =>
    if c = '{' ∧ esc = false ∧ escapes s then i :: marks false (i + 1) s
    else marks (c = '\\') (i + 1) s

lemma marks_of_no_open {i : Nat} (h : ∀ c ∈ s, c ≠ '{') : marks esc i s = [] := by
  induction s generalizing esc i with
  | nil => rfl
  | cons c s ih =>
    obtain ⟨hc, hs⟩ := forall_mem_cons.mp h
    simp [marks, hc, ih hs]

/-- The scan reports the braces whose next brace closes them. -/
lemma marks_scanFrom {skip i : Nat} (hskip : ∀ c ∈ s.take skip, c ≠ '{') :
    ((scanFrom esc skip i s).filter fun sp => !allowedTenantPlaceholder sp.key).map PhSpan.start = marks esc i s := by
  induction s generalizing esc skip i with
  | nil => rfl
  | cons c s ih =>
    cases skip with
    | succ n =>
      rw [take_succ_cons, forall_mem_cons] at hskip
      simp [scanFrom, marks, hskip.1, ih hskip.2]
    | zero =>
      by_cases hc : c = '{' ∧ esc = false
      · obtain ⟨rfl, rfl⟩ := hc
        cases hb : nextBrace s with
        | none =>
          have hnone : marks false (i + 1) s = [] := marks_of_no_open fun c hc => (nextBrace_eq_none hb c hc).1
          simp [scanFrom, marks, escapes, hb, hnone]
        | some bd =>
          obtain ⟨body, d⟩ := bd
          rcases (nextBrace_eq_some hb).1 with rfl | rfl
          · have hrest := @ih false 0 (i + 1) (by simp)
            simp [scanFrom, marks, escapes, hb, hrest]
          · have hrest := @ih false (body.length + 1) (i + 1) (nextBrace_take hb)
            cases ha : allowedTenantPlaceholder (spanKey body) <;>
              simp [scanFrom, marks, escapes, hb, ha, hrest]
      · have hc' : c ≠ '{' ∨ esc := by simpa [or_iff_not_imp_left] using hc
        have hc'' : ¬(c = '{' ∧ esc = false ∧ escapes s) := fun h => hc ⟨h.1, h.2.1⟩
        have hrest := @ih (c = '\\') 0 (i + 1) (by simp)
        simp [scanFrom, marks, if_pos hc', if_neg hc'', hrest]

lemma screenTenantTemplate_eq_ok : ScreenTenantTemplate s = .ok () ↔ marks false 0 s = [] := by
  rw [← @marks_scanFrom s false 0 0 (by simp), ScreenTenantTemplate, scanPlaceholderSpans]
  split
  · next sp hsp =>
    have hbad : sp ∈ (scanFrom false 0 0 s).filter fun sp => !allowedTenantPlaceholder sp.key :=
      mem_filter.mpr ⟨mem_of_find?_eq_some hsp, (find?_eq_some_iff_append.mp hsp).1⟩
    simp [ne_nil_of_mem hbad]
  · next hnone => simpa using hnone

/-! ### What neutralizing writes -/

/-- The neutralized string, character by character. -/
def neutralized (esc : Bool) : Str → Str
  | [] => []
  | c :: s =>
    if c = '{' ∧ esc = false ∧ escapes s then '\\' :: c :: neutralized false s
    else c :: neutralized (c = '\\') s

/-- An escape at position `p`. -/
def Builder.mark (s : Str) (b : Builder) (p : Nat) : Builder :=
  ⟨b.out ++ (s.drop b.prev).take (p - b.prev) ++ ['\\'], p, true⟩

lemma Builder.foldl_span (b : Builder) (spans : List PhSpan) : spans.foldl (Builder.span s) b =
    ((spans.filter fun sp => !allowedTenantPlaceholder sp.key).map PhSpan.start).foldl (Builder.mark s) b := by
  induction spans generalizing b with
  | nil => rfl
  | cons sp spans ih =>
    cases ha : allowedTenantPlaceholder sp.key <;> simp [ih, ha, span, mark]

lemma Builder.escaped_foldl (b : Builder) (ps : List Nat) :
    (ps.foldl (Builder.mark s) b).escaped = (b.escaped || !ps.isEmpty) := by
  induction ps generalizing b with
  | nil => simp
  | cons p ps ih => simp [ih, mark]

/-- The loop of `NeutralizeTenantTemplate` from state `b`, behind the text `pre`. -/
lemma Builder.finish_marks {b : Builder} {i : Nat} (hi : pre.length = i) (hb : b.prev ≤ i) :
    ((marks esc i t).foldl (Builder.mark (pre ++ t)) b).out ++
        (pre ++ t).drop ((marks esc i t).foldl (Builder.mark (pre ++ t)) b).prev =
      b.out ++ pre.drop b.prev ++ neutralized esc t := by
  induction t generalizing pre b esc i with
  | nil => simp [marks, neutralized]
  | cons c t ih =>
    have hpre : pre ++ c :: t = (pre ++ [c]) ++ t := by simp
    have hi' : (pre ++ [c]).length = i + 1 := by simp [hi]
    by_cases hc : c = '{' ∧ esc = false ∧ escapes t
    · have hcopy : ((pre ++ c :: t).drop b.prev).take (i - b.prev) = pre.drop b.prev := by
        rw [drop_append_of_le_length (by omega)]
        exact take_left' (by simp [hi])
      have hlast : (pre ++ [c]).drop i = [c] := drop_left' hi
      rw [marks, if_pos hc, foldl_cons, mark, hcopy, hpre, ih hi' (by simp), hlast]
      simp [neutralized, if_pos hc]
    · have hdrop : (pre ++ [c]).drop b.prev = pre.drop b.prev ++ [c] :=
        drop_append_of_le_length (by omega)
      rw [marks, if_neg hc, hpre, ih hi' (by omega), hdrop]
      simp [neutralized, if_neg hc]

theorem neutralizeTenantTemplate_eq (s : Str) : NeutralizeTenantTemplate s = neutralized false s := by
  have hfinish := @Builder.finish_marks [] s false ⟨[], 0, false⟩ 0 rfl le_rfl
  have hmarks := @marks_scanFrom s false 0 0 (by simp)
  unfold NeutralizeTenantTemplate
  dsimp only
  rw [Builder.foldl_span, scanPlaceholderSpans, hmarks, Builder.escaped_foldl]
  split_ifs with hspans hnil
  · rw [isEmpty_iff.mp hspans] at hmarks
    simpa [← hmarks] using hfinish
  · exact hfinish
  · simp only [Bool.false_or, Bool.not_eq_true', Bool.not_eq_false, List.isEmpty_iff] at hnil
    simpa [hnil] using hfinish

lemma isPrefix_neutralized_iff (hp : ∀ c ∈ p, c ≠ '{' ∧ c ≠ '\\') {esc : Bool} {s : Str} :
    p <+: neutralized esc s ↔ p <+: s := by
  induction p generalizing esc s with
  | nil => simp
  | cons a p ih =>
    obtain ⟨⟨ha, ha'⟩, hp⟩ := forall_mem_cons.mp hp
    match s with
    | [] => rfl
    | c :: s =>
      simp only [neutralized]
      split_ifs with hc
      · simp [hc.1, ha, ha']
      · simp only [cons_prefix_cons, ih hp]

lemma isSome_keyFrom_neutralized : (keyFrom esc (neutralized esc s)).isSome = (keyFrom esc s).isSome := by
  induction s generalizing esc with
  | nil => rfl
  | cons c s ih =>
    simp only [neutralized]
    split_ifs with hc
    · obtain ⟨rfl, rfl, -⟩ := hc
      simp [keyFrom, ih]
    simp only [keyFrom]
    split_ifs with hclose
    · rfl
    · simp [ih]

/-! ### The keys Caddy looks up -/

/-- Whatever keys the node knows, Caddy looks up keys under `http.request.` only. -/
def OnlyRequestKeys (s : Str) : Prop :=
  ∀ known, ∀ k ∈ lookups known s, tenantPlaceholderNS <+: k

/-- The condition on the text behind an unescaped opening brace that is closed somewhere. -/
def clearAt (t : Str) : Bool :=
  match nextBrace t with
  | none => true
  | some (body, d) =>
    if d = '{' then tenantPlaceholderNS.isPrefixOf t
    else !allowedTenantPlaceholder (spanKey body) || !body.head?.any isSpace

/-- Behind every unescaped opening brace with an unescaped closing brace after it: if the next brace
opens, the text starts with `http.request.`; if it closes an allowed span, the span does not start
with a blank. -/
def Clear (s : Str) : Prop :=
  EachOpen (fun t => (keyFrom false t).isSome → clearAt t) false s

instance (s : Str) : Decidable (Clear s) :=
  inferInstanceAs (Decidable (EachOpen _ false s))

lemma onlyRequestKeys_iff : OnlyRequestKeys s ↔
    EachOpen (fun t => (keyFrom false t).isSome → tenantPlaceholderNS <+: t) false s := by
  have hns : ∀ c ∈ tenantPlaceholderNS, c ≠ '}' := by
    have hall : tenantPlaceholderNS.all (· ≠ '}') := rfl
    simpa using hall
  rw [OnlyRequestKeys, forall_lookups_iff]
  constructor
  · intro h
    refine h.imp fun t ht hk => ?_
    obtain ⟨k, hk⟩ := Option.isSome_iff_exists.mp hk
    exact (isPrefix_key_iff hns hk).mp (ht k hk)
  · intro h
    refine h.imp fun t ht k hk => ?_
    exact (isPrefix_key_iff hns hk).mpr (ht (by simp [hk]))

/-- An allowed span is read by Caddy under the same key unless a blank was trimmed off its front. -/
lemma isPrefix_span_iff (hn : nextBrace t = some (body, '}')) (ha : allowedTenantPlaceholder (spanKey body)) :
    tenantPlaceholderNS <+: t ↔ body.head?.any isSpace = false := by
  obtain ⟨-, -, rest, rfl⟩ := nextBrace_eq_some hn
  have hkey : tenantPlaceholderNS <+: spanKey body := by
    rw [allowedTenantPlaceholder, Bool.and_eq_true, isPrefixOf_iff_prefix] at ha
    exact ha.1
  match body with
  | [] => exact absurd hkey (by decide)
  | c :: body =>
    constructor
    · rintro ⟨r, hr⟩
      have hns : tenantPlaceholderNS = 'h' :: "ttp.request." := by decide
      rw [hns, cons_append, cons_append, List.cons.injEq] at hr
      rw [← hr.1]
      show isSpace 'h' = false
      decide
    intro hc
    simp only [head?_cons, Option.any_some] at hc
    have hdrop : (before ':' (c :: body)).dropWhile isSpace = before ':' (c :: body) := by
      simp only [before, takeWhile_cons]
      split
      · simp [hc]
      · rfl
    have hbefore := hkey.trans (trimSpace_isPrefix _)
    rw [hdrop] at hbefore
    exact (hbefore.trans (before_isPrefix _ _)).trans (prefix_append _ _)

private lemma eachOpen_neutralized_iff :
    EachOpen (fun t => (keyFrom false t).isSome → tenantPlaceholderNS <+: t) esc (neutralized esc s) ↔
      EachOpen (fun t => (keyFrom false t).isSome → clearAt t) esc s := by
  have hns : ∀ c ∈ tenantPlaceholderNS, c ≠ '{' ∧ c ≠ '\\' := by
    have hall : tenantPlaceholderNS.all (fun c => c ≠ '{' && c ≠ '\\') := rfl
    simpa using hall
  induction s generalizing esc with
  | nil => rfl
  | cons c s ih =>
    simp only [neutralized]
    split_ifs with hc
    · obtain ⟨rfl, rfl, hesc⟩ := hc
      have hclear : clearAt s := by
        unfold escapes at hesc
        split at hesc
        · next body hn => simpa [clearAt, hn] using Or.inl hesc
        · exact absurd hesc Bool.false_ne_true
      simp only [EachOpen, Char.reduceEq, false_and, false_imp_iff, true_and, decide_true,
        Bool.true_eq_false, and_false, decide_false, hclear, implies_true]
      exact ih
    simp only [EachOpen]
    refine and_congr (imp_congr_right ?_) ih
    rintro ⟨rfl, rfl⟩
    simp only [Char.reduceEq, decide_false]
    rw [isSome_keyFrom_neutralized, isPrefix_neutralized_iff hns]
    refine imp_congr_right fun hkey => ?_
    cases hn : nextBrace s with
    | none =>
      have hclose : ∀ c ∈ s, c ≠ '}' := fun c hc => (nextBrace_eq_none hn c hc).2
      simp [keyFrom_eq_none hclose] at hkey
    | some bd =>
      obtain ⟨body, d⟩ := bd
      rcases (nextBrace_eq_some hn).1 with rfl | rfl
      · simp [clearAt, hn]
      have ha : allowedTenantPlaceholder (spanKey body) := by
        simpa [escapes, hn] using hc
      simp [clearAt, hn, ha, isPrefix_span_iff hn ha]

/-- A node looks up request keys only in a neutralized string exactly when the string is clear. -/
lemma onlyRequestKeys_neutralize_iff (s : Str) : OnlyRequestKeys (NeutralizeTenantTemplate s) ↔ Clear s := by
  rw [onlyRequestKeys_iff, neutralizeTenantTemplate_eq]
  exact eachOpen_neutralized_iff

lemma neutralized_of_marks {i : Nat} (h : marks esc i s = []) : neutralized esc s = s := by
  induction s generalizing esc i with
  | nil => rfl
  | cons c s ih =>
    by_cases hc : c = '{' ∧ esc = false ∧ escapes s
    · simp [marks, if_pos hc] at h
    · rw [marks, if_neg hc] at h
      rw [neutralized, if_neg hc, ih h]

/-- An accepted string is left as it is by neutralizing. -/
theorem neutralizeTenantTemplate_of_accepted (h : ScreenTenantTemplate s = .ok ()) :
    NeutralizeTenantTemplate s = s := by
  rw [neutralizeTenantTemplate_eq]
  exact neutralized_of_marks (screenTenantTemplate_eq_ok.mp h)

/-- Screening and neutralizing keep Caddy to request keys exactly on the clear strings. -/
theorem tenant_template_request_keys_iff (s : Str) :
    ((ScreenTenantTemplate s = .ok () → OnlyRequestKeys s) ∧
      OnlyRequestKeys (NeutralizeTenantTemplate s)) ↔ Clear s := by
  constructor
  · rintro ⟨-, h⟩
    exact (onlyRequestKeys_neutralize_iff s).mp h
  intro h
  have hn := (onlyRequestKeys_neutralize_iff s).mpr h
  refine ⟨fun hok => ?_, hn⟩
  rw [neutralizeTenantTemplate_of_accepted hok] at hn
  exact hn

/-- The scan restarts at an inner brace, Caddy does not: the whole run becomes one key. -/
theorem tenant_template_inner_brace :
    ScreenTenantTemplate "\x7benv.SECRET\x7bhttp.request.host\x7d" = .ok () ∧
    NeutralizeTenantTemplate "\x7benv.SECRET\x7bhttp.request.host\x7d" =
      "\x7benv.SECRET\x7bhttp.request.host\x7d" ∧ ¬OnlyRequestKeys "\x7benv.SECRET\x7bhttp.request.host\x7d" := by
  refine ⟨by decide, by decide, fun h => ?_⟩
  have hkey := h (fun _ => false) "env.SECRET\x7bhttp.request.host" (by decide)
  exact absurd hkey (by decide)

/-! ### The laws of neutralizing -/

lemma nextBrace_neutralized : nextBrace (neutralized esc s) = some (body, '}') ↔ nextBrace s = some (body, '}') := by
  induction s generalizing esc body with
  | nil => rfl
  | cons c s ih =>
    simp only [neutralized]
    split_ifs with hc
    · simp [nextBrace, hc.1]
    by_cases hbrace : c = '{' ∨ c = '}'
    · simp [nextBrace, hbrace]
    · simp [nextBrace, hbrace, ih]

lemma escapes_eq_true : escapes s ↔
    ∃ body, nextBrace s = some (body, '}') ∧ allowedTenantPlaceholder (spanKey body) = false := by
  unfold escapes
  split
  · next body hn => simp [hn]
  · next hn => simpa using fun body h => absurd h (hn body)

lemma marks_neutralized {i : Nat} : marks esc i (neutralized esc s) = [] := by
  induction s generalizing esc i with
  | nil => rfl
  | cons c s ih =>
    have hkeep : escapes (neutralized (c = '\\') s) = escapes s := by
      rw [Bool.eq_iff_iff]
      simp only [escapes_eq_true, nextBrace_neutralized]
    by_cases hc : c = '{' ∧ esc = false ∧ escapes s
    · obtain ⟨rfl, rfl, hesc⟩ := hc
      simp [neutralized, hesc, marks, ih]
    · rw [neutralized, if_neg hc, marks, hkeep, if_neg hc]
      exact ih

/-- Where the backslashes of a neutralized string stand. -/
def inserted (s : Str) : List Nat :=
  ((scanPlaceholderSpans s).filter fun sp => !allowedTenantPlaceholder sp.key).zipIdx.map fun (sp, k) => sp.start + k

/-- The same, character by character, from the output position `o`. -/
def insertedFrom (esc : Bool) (o : Nat) : Str → List Nat
  | [] => []
  | c :: s =>
    if c = '{' ∧ esc = false ∧ escapes s then o :: insertedFrom false (o + 2) s
    else insertedFrom (c = '\\') (o + 1) s

lemma zipIdx_marks {i k : Nat} :
    ((marks esc i s).zipIdx k).map (fun pk => pk.1 + pk.2) = insertedFrom esc (i + k) s := by
  induction s generalizing esc i k with
  | nil => rfl
  | cons c s ih =>
    simp only [marks, insertedFrom]
    split_ifs
    · simp [ih, Nat.add_add_add_comm]
    · rw [ih, Nat.add_right_comm]

lemma inserted_eq (s : Str) : inserted s = insertedFrom false 0 s := by
  rw [← @zipIdx_marks s false 0 0, ← @marks_scanFrom s false 0 0 (by simp), zipIdx_map, map_map]
  rfl

lemma le_of_mem_insertedFrom {o p : Nat} (h : p ∈ insertedFrom esc o s) : o ≤ p := by
  induction s generalizing esc o with
  | nil => cases h
  | cons c s ih =>
    simp only [insertedFrom] at h
    split_ifs at h
    · rcases mem_cons.mp h with rfl | h
      · exact le_rfl
      · have hle := ih h
        omega
    · have hle := ih h
      omega

lemma getElem?_insertedFrom {o p : Nat} (h : p ∈ insertedFrom esc o s) : (neutralized esc s)[p - o]? = some '\\' := by
  induction s generalizing esc o with
  | nil => cases h
  | cons c s ih =>
    simp only [insertedFrom] at h
    simp only [neutralized]
    split_ifs at h ⊢
    · rcases mem_cons.mp h with rfl | h
      · simp
      have hle := le_of_mem_insertedFrom h
      rw [show p - o = p - (o + 2) + 1 + 1 by omega]
      exact ih h
    · have hle := le_of_mem_insertedFrom h
      rw [show p - o = p - (o + 1) + 1 by omega]
      exact ih h

/-- The positions `ps` are those of the insertions, from `o` on. -/
lemma filter_neutralized {o : Nat} {ps : List Nat} (h : ∀ p, o ≤ p → (p ∈ ps ↔ p ∈ insertedFrom esc o s)) :
    (((neutralized esc s).zipIdx o).filter fun ci => ci.2 ∉ ps).map Prod.fst = s := by
  induction s generalizing esc o with
  | nil => rfl
  | cons c s ih =>
    simp only [insertedFrom] at h
    simp only [neutralized]
    split_ifs at h ⊢
    · have hmark : o ∈ ps := (h o le_rfl).mpr mem_cons_self
      have hbrace : o + 1 ∉ ps := by
        intro hmem
        rcases mem_cons.mp ((h _ (Nat.le_succ o)).mp hmem) with heq | hmem
        · omega
        · have hle := le_of_mem_insertedFrom hmem
          omega
      have hrest := @ih false (o + 2) fun p hp => by
        rw [h p (by omega), mem_cons, or_iff_right (by omega)]
      simpa [hmark, hbrace] using hrest
    · have hc : o ∉ ps := by
        intro hmem
        have hle := le_of_mem_insertedFrom ((h o le_rfl).mp hmem)
        omega
      simpa [hc] using ih fun p hp => h p (by omega)

/-- A neutralized string is accepted, neutralizing it again leaves it, a string without a span that is not permitted is
left as it is, and without the inserted backslashes the result is the string. -/
theorem neutralize_laws (s : Str) : ScreenTenantTemplate (NeutralizeTenantTemplate s) = .ok () ∧
    NeutralizeTenantTemplate (NeutralizeTenantTemplate s) = NeutralizeTenantTemplate s ∧
    ((∀ sp ∈ scanPlaceholderSpans s, allowedTenantPlaceholder sp.key) → NeutralizeTenantTemplate s = s) ∧
    (∀ p ∈ inserted s, (NeutralizeTenantTemplate s)[p]? = some '\\') ∧
    ((NeutralizeTenantTemplate s).zipIdx.filter fun ci => ci.2 ∉ inserted s).map Prod.fst = s := by
  have haccepted : ScreenTenantTemplate (NeutralizeTenantTemplate s) = .ok () := by
    rw [screenTenantTemplate_eq_ok, neutralizeTenantTemplate_eq]
    exact marks_neutralized
  refine ⟨haccepted, neutralizeTenantTemplate_of_accepted haccepted, fun h => ?_, fun p hp => ?_, ?_⟩
  · rw [neutralizeTenantTemplate_eq]
    refine neutralized_of_marks (i := 0) ?_
    rw [← @marks_scanFrom s false 0 0 (by simp), map_eq_nil_iff, filter_eq_nil_iff]
    exact fun sp hsp => by simp [h sp hsp]
  · rw [inserted_eq] at hp
    rw [neutralizeTenantTemplate_eq]
    exact getElem?_insertedFrom hp
  · rw [neutralizeTenantTemplate_eq, inserted_eq]
    exact filter_neutralized fun _ _ => Iff.rfl

end TenantTemplate
