import CaddyPanel.Caddyapi.BuildRoute
import CaddyPanel.Lib.Lines
import CaddyPanel.Lib.Runs

/-!
# Stored WAF directives (`wafdirectives.go`)

The directives of a route stand between the rule sets and the closing lines of the panel, one of
which switches the engine on. Every stored line is screened by itself, but the parser of the node
joins lines, so a last line that ends in a backslash takes the closing line with it.
-/

namespace Caddyapi

open List
open Text (Str trimSpace toLower)

/-! ### The screen of a line -/

inductive WafError where
  | tooLong
  | controlCharacter
  | unbalancedQuote (line : Str)
  | notSec (name : Str)
  | unknown (name : Str)
  | noArgument (name : Str)
  | notNumeric (name id : Str)
  | notEngine (name : Str) (args : List Str)
  | notOnOff (name : Str) (args : List Str)
  | notPositive (name : Str) (args : List Str)
  | onlyRemoveById (name : Str)
  deriving DecidableEq

/-- `strconv.Atoi` answers a number from 1 to 999999999. -/
def wafNumericID (s : Str) : Bool :=
  let digits := if s.head? = some '+' then s.tail else s
  let n := digits.foldl (fun n c => 10 * n + (c.toNat - '0'.toNat)) 0
  digits ≠ [] && digits.all Char.isDigit && 0 < n && n ≤ 999999999

/-- A number or a range of numbers. -/
def wafIDRange (id : Str) : Bool :=
  wafNumericID (Text.before '-' id) && (!id.contains '-' || wafNumericID (Text.behind '-' id))

def wafOneOf (args : List Str) (accepted : List Str) : Bool :=
  match args with
  | [arg] => accepted.contains (toLower arg)
  | _ => false

def wafIDNames : List Str :=
  ["SecRuleUpdateActionById", "SecRuleUpdateTargetById"]

def wafOnOffNames : List Str :=
  ["SecRequestBodyAccess", "SecResponseBodyAccess", "SecContentInjection",
    "SecStreamInBodyInspection", "SecStreamOutBodyInspection",
    "SecUploadKeepFiles", "SecXmlExternalEntity", "SecRuleInheritance",
    "SecInterceptOnError"]

def wafLimitNames : List Str :=
  ["SecRequestBodyLimit", "SecRequestBodyNoFilesLimit",
    "SecRequestBodyInMemoryLimit", "SecResponseBodyLimit",
    "SecUploadFileLimit", "SecArgumentsLimit"]

/-- The first argument that is no rule id. -/
def wafIDsOK (name : Str) (ids : List Str) : Except WafError Unit :=
  match ids.find? fun id => !wafIDRange id with
  | some id => .error (.notNumeric name id)
  | none => .ok ()

def wafArgsOK (name : Str) (args : List Str) : Except WafError Unit :=
  if name = "SecRuleRemoveById" then wafIDsOK name args
  else if wafIDNames.contains name then wafIDsOK name (args.take 1)
  else if name = "SecRuleEngine" || name = "SecAuditEngine" then
    if wafOneOf args ["on", "off", "detectiononly", "relevantonly"] then
      .ok ()
    else .error (.notEngine name args)
  else if wafOnOffNames.contains name then
    if wafOneOf args ["on", "off"] then .ok () else .error (.notOnOff name args)
  else if wafLimitNames.contains name then
    if args.length = 1 && args.all wafNumericID then .ok () else .error (.notPositive name args)
  else .ok ()

def knownWAFDirectives : List Str :=
  ["SecAction".toList, "SecArgumentSeparator".toList, "SecArgumentsLimit".toList,
    "SecAuditEngine".toList, "SecAuditLog".toList, "SecAuditLogDir".toList,
    "SecAuditLogDirMode".toList, "SecAuditLogFileMode".toList, "SecAuditLogFormat".toList,
    "SecAuditLogParts".toList, "SecAuditLogRelevantStatus".toList, "SecAuditLogType".toList,
    "SecCollectionTimeout".toList, "SecComponentSignature".toList, "SecConnEngine".toList,
    "SecContentInjection".toList, "SecDataDir".toList, "SecDebugLog".toList,
    "SecDebugLogLevel".toList, "SecDefaultAction".toList, "SecGeoLookupDB".toList,
    "SecHashEngine".toList, "SecHashKey".toList, "SecHashMethodPm".toList,
    "SecHashMethodRx".toList, "SecHashParam".toList, "SecHttpBlKey".toList,
    "SecInterceptOnError".toList, "SecMarker".toList, "SecPcreMatchLimit".toList,
    "SecPcreMatchLimitRecursion".toList, "SecRequestBodyAccess".toList,
    "SecRequestBodyInMemoryLimit".toList, "SecRequestBodyLimit".toList,
    "SecRequestBodyLimitAction".toList, "SecRequestBodyNoFilesLimit".toList,
    "SecResponseBodyAccess".toList, "SecResponseBodyLimit".toList,
    "SecResponseBodyLimitAction".toList, "SecResponseBodyMimeType".toList,
    "SecResponseBodyMimeTypesClear".toList, "SecRule".toList, "SecRuleEngine".toList,
    "SecRuleInheritance".toList, "SecRulePerfTime".toList, "SecRuleRemoveById".toList,
    "SecRuleRemoveByMsg".toList, "SecRuleRemoveByTag".toList, "SecRuleUpdateActionById".toList,
    "SecRuleUpdateTargetById".toList, "SecRuleUpdateTargetByMsg".toList,
    "SecRuleUpdateTargetByTag".toList, "SecSensorId".toList, "SecServerSignature".toList,
    "SecStatusEngine".toList, "SecStreamInBodyInspection".toList,
    "SecStreamOutBodyInspection".toList, "SecTmpDir".toList, "SecUnicodeMapFile".toList,
    "SecUploadDir".toList, "SecUploadFileLimit".toList, "SecUploadFileMode".toList,
    "SecUploadKeepFiles".toList, "SecWebAppId".toList, "SecXmlExternalEntity".toList]

def asciiLetter (c : Char) : Bool :=
  ('a' ≤ c && c ≤ 'z') || ('A' ≤ c && c ≤ 'Z')

/-- The name of a directive ends at the first blank, unless the line starts with one. -/
def wafName (line : Str) : Str :=
  let name := line.takeWhile fun c => c ≠ ' ' && c ≠ '\t'
  if name = [] then line else name

def wafLineOK (line : Str) : Except WafError Unit :=
  let name := wafName line
  if 2048 < Text.byteLength line then .error .tooLong
  else if line.any fun c => c.toNat < 0x20 && c ≠ '\t' then .error .controlCharacter
  else if line.count '"' % 2 ≠ 0 then .error (.unbalancedQuote line)
  else if !"Sec".toList.isPrefixOf name || name.length < 4 then .error (.notSec name)
  else if !(name.drop 3).all asciiLetter then .error (.notSec name)
  else if !knownWAFDirectives.contains name then .error (.unknown name)
  else if trimSpace (line.drop name.length) = [] then .error (.noArgument name)
  else wafArgsOK name (Text.fields line).tail

/-! ### Texts -/

/-- The trimmed lines of a text that are not blank. -/
def wafLines (raw : Str) : List Str :=
  ((raw.splitOn '\n').map trimSpace).filter (· ≠ [])

def isComment (line : Str) : Bool :=
  line.head? = some '#'

def wafRemoveByIDOnly (line : Str) : Except WafError Unit :=
  match Text.fields line with
  | name :: id :: ids =>
    if name ≠ "SecRuleRemoveById" then .error (.onlyRemoveById name)
    else wafIDsOK "SecRuleRemoveById" (id :: ids)
  | fs => .error (.onlyRemoveById (fs.headD []))

/-- The write path; an admin who answers for one tenant may only suppress rules by id. -/
def validateWAFDirectives (raw : Str) (unrestricted : Bool) : Except WafError Unit :=
  ((wafLines raw).filter fun line => !isComment line).forM fun line => do
    wafLineOK line
    if unrestricted then pure () else wafRemoveByIDOnly line

def wafLineKept (line : Str) : Bool :=
  isComment line || (wafLineOK line).isOk

/-- The lines that a push keeps. -/
def wafKept (raw : Str) : List Str :=
  (wafLines raw).filter wafLineKept

/-- The text that is emitted, and whether a line was dropped. -/
def sanitizeWAFDirectives (raw : Str) : Str × Bool :=
  (['\n'].intercalate (wafKept raw), (wafLines raw).any fun line => !wafLineKept line)

/-- The functions of other packages, with the screen of this one. -/
def withWAFScreen (hp : Helpers) : Helpers :=
  { hp with sanitizeWAFDirectives := fun raw => (sanitizeWAFDirectives raw).1 }

/-! ### How the node reads the text -/

/-- The directives of a text. -/
def corazaDirectives (text : Str) : List Str :=
  Lines.logical [] (text.splitOn '\n')

/-- Names of directives are compared without case. -/
def engineSetting (directive : Str) : Option Str :=
  if toLower (wafName directive) = "secruleengine" then
    some (trimSpace (directive.drop (wafName directive).length))
  else none

/-- The engine setting that counts: the last. -/
def corazaEngine (directives : List Str) : Option Str :=
  (directives.filterMap engineSetting).getLast?

/-- The lines that close the text of a route in blocking mode. -/
def blockingLines : List Str :=
  ["SecRuleEngine On", "SecAuditEngine RelevantOnly",
    "SecAuditLogParts ABDFHZ", "SecAuditLogType Serial",
    "SecAuditLogFormat JSON", "SecAuditLog /var/log/caddy/waf-audit.log"]

/-! ### The kept lines -/

variable {raw line text : Str} {hp : Helpers}

lemma mem_wafLines (h : line ∈ wafLines raw) : line ≠ [] ∧ trimSpace line = line ∧ '\n' ∉ line := by
  obtain ⟨hmem, hne⟩ := mem_filter.mp h
  obtain ⟨l, hl, rfl⟩ := mem_map.mp hmem
  refine ⟨by simpa using hne, Text.trimSpace_trimSpace l, fun hnl => ?_⟩
  exact Text.not_mem_of_mem_splitOn l hl (Text.mem_of_mem_trimSpace hnl)

lemma mem_wafKept (h : line ∈ wafKept raw) : line ≠ [] ∧ trimSpace line = line ∧ '\n' ∉ line :=
  mem_wafLines (mem_filter.mp h).1

/-- A kept line that is no comment has a name of more than three letters. -/
lemma length_of_wafKept (h : line ∈ wafKept raw) (hcomment : isComment line = false) : 4 ≤ line.length := by
  have hok := (mem_filter.mp h).2
  unfold wafLineKept at hok
  rw [hcomment, Bool.false_or] at hok
  have hname : 4 ≤ (wafName line).length := by
    unfold wafLineOK at hok
    dsimp only at hok
    split at hok
    · cases hok
    split at hok
    · cases hok
    split at hok
    · cases hok
    split at hok
    · cases hok
    rename_i hsec
    simp only [Bool.or_eq_true, decide_eq_true_eq, not_or, not_lt] at hsec
    exact hsec.2
  have hle : (wafName line).length ≤ line.length := by
    unfold wafName
    dsimp only
    split
    · exact le_rfl
    · exact IsPrefix.length_le <| takeWhile_prefix _
  omega

lemma splitOn_intercalate_kept (h : wafKept raw ≠ []) : (['\n'].intercalate (wafKept raw)).splitOn '\n' = wafKept raw :=
  splitOn_intercalate _ (fun _ hl => (mem_wafKept hl).2.2) h

/-! ### The engine of a blocking route -/

/-- The last line that is kept and no comment ends in a backslash. -/
def endsContinued (raw : Str) : Bool :=
  ((wafKept raw).filter fun line => !isComment line).getLast?.any Lines.continued

lemma pendingAfter_wafKept (raw : Str) : Lines.pendingAfter [] (wafKept raw) = [] ↔ endsContinued raw = false := by
  have htrim : (wafKept raw).map trimSpace = wafKept raw := by
    conv_rhs => rw [← map_id (wafKept raw)]
    exact map_congr_left fun l hl => (mem_wafKept hl).2.1
  have hskip : ∀ line ∈ wafKept raw, Lines.skipped line = isComment line := by
    intro line hline
    simp [Lines.skipped, isComment, (mem_wafKept hline).1]
  rw [Lines.pendingAfter_eq_nil_iff, htrim]
  · rw [filter_congr fun line hline => congrArg (!·) (hskip line hline)]
    unfold endsContinued
    cases ((wafKept raw).filter fun line => !isComment line).getLast? with
    | none => simp
    | some line => simp
  · intro line hline hline'
    rw [(mem_wafKept hline).2.1] at hline' ⊢
    rw [hskip line hline] at hline'
    exact le_trans (by decide) (length_of_wafKept hline hline')

/-- The text between the first lines and the closing lines. -/
lemma intercalate_wafKept_ne_nil (h : wafKept raw ≠ []) : ['\n'].intercalate (wafKept raw) ≠ [] := by
  intro hnil
  have hsplit := splitOn_intercalate_kept h
  rw [hnil, splitOn_nil] at hsplit
  have hmem : ([] : Str) ∈ wafKept raw := hsplit ▸ mem_cons_self
  exact (mem_wafKept hmem).1 rfl

def wafIncludes : Str :=
  "Include @coraza.conf-recommended\nInclude @crs-setup.conf.example\nInclude @owasp_crs/*.conf"

def blockingText : Str :=
  ['\n'].intercalate blockingLines

lemma wafText_eq {r : Route} (hblocking : r.wafBlocking) (h : wafHandlers hp r = [.waf text]) :
    text = wafIncludes ++ '\n' :: ((if hp.sanitizeWAFDirectives r.wafDirectives = [] then []
      else hp.sanitizeWAFDirectives r.wafDirectives ++ ['\n']) ++ blockingText) := by
  unfold wafHandlers at h
  rw [hblocking] at h
  split at h
  · rw [← Caddy.Handler.waf.inj (head_eq_of_cons_eq h)]
    have hfront : "Include @coraza.conf-recommended\nInclude @crs-setup.conf.example\n" ++
        "Include @owasp_crs/*.conf\n" = wafIncludes ++ ['\n'] := by decide +kernel
    have hclosing : "SecRuleEngine " ++ ("On" ++
        ("\nSecAuditEngine RelevantOnly\nSecAuditLogParts ABDFHZ\nSecAuditLogType Serial" ++
          "\nSecAuditLogFormat JSON\nSecAuditLog /var/log/caddy/waf-audit.log")) =
        blockingText := by decide +kernel
    rw [← hclosing, ← singleton_append, ← append_assoc wafIncludes, ← hfront]
    simp only [append_assoc]
    rfl
  · cases h

/-- The lines of the emitted text. -/
lemma splitOn_wafText {r : Route} (hblocking : r.wafBlocking) (h : wafHandlers (withWAFScreen hp) r = [.waf text]) :
    text.splitOn '\n' = wafIncludes.splitOn '\n' ++ (wafKept r.wafDirectives ++ blockingLines) := by
  have hextra : (withWAFScreen hp).sanitizeWAFDirectives r.wafDirectives =
      ['\n'].intercalate (wafKept r.wafDirectives) := rfl
  have hclosing : blockingText.splitOn '\n' = blockingLines := by decide
  rw [wafText_eq hblocking h, splitOn_append_cons_self, hextra]
  refine congrArg (wafIncludes.splitOn '\n' ++ ·) ?_
  by_cases hkept : wafKept r.wafDirectives = []
  · rw [hkept]
    exact hclosing
  · rw [if_neg (intercalate_wafKept_ne_nil hkept), append_assoc, singleton_append,
      splitOn_append_cons_self, splitOn_intercalate_kept hkept, hclosing]

/-- The closing lines of the panel, joined with what the stored lines leave to be continued. -/
lemma corazaDirectives_wafText {r : Route}
    (hblocking : r.wafBlocking) (h : wafHandlers (withWAFScreen hp) r = [.waf text]) :
    ∃ front, corazaDirectives text =
      front ++ (Lines.pendingAfter [] (wafKept r.wafDirectives) ++ "SecRuleEngine On") :: blockingLines.tail := by
  have hincludes : Lines.pendingAfter [] (wafIncludes.splitOn '\n') = [] := by decide +kernel
  have hclosing : ∀ pending, Lines.logical pending blockingLines =
      (pending ++ "SecRuleEngine On") :: blockingLines.tail := fun _ => rfl
  unfold corazaDirectives
  rw [splitOn_wafText hblocking h, Lines.logical_append, hincludes, Lines.logical_append, hclosing,
    ← append_assoc]
  exact ⟨_, rfl⟩

/-- The closing `SecRuleEngine On` of a blocking route is a directive of its own, and the engine
setting that counts, exactly if no stored line is left to be continued. -/
theorem waf_engine_on_iff {hp : Helpers} {r : Route} {text : Str} (hblocking : r.wafBlocking)
    (h : wafHandlers (withWAFScreen hp) r = [.waf text]) :
    (blockingLines <:+ corazaDirectives text ∧
        corazaEngine (corazaDirectives text) = some "On".toList) ↔ endsContinued r.wafDirectives = false := by
  obtain ⟨front, hfront⟩ := corazaDirectives_wafText hblocking h
  rw [← pendingAfter_wafKept, hfront]
  constructor
  · rintro ⟨hsuffix, -⟩
    -- both closings have the same length
    have heq := (suffix_of_suffix_length_le hsuffix (suffix_append front _) le_rfl).eq_of_length rfl
    have hhead : "SecRuleEngine On".toList =
        Lines.pendingAfter [] (wafKept r.wafDirectives) ++ "SecRuleEngine On".toList :=
      head_eq_of_cons_eq heq
    exact append_left_eq_self.mp hhead.symm
  · intro hpending
    rw [hpending]
    refine ⟨suffix_append front _, ?_⟩
    unfold corazaEngine
    rw [filterMap_append]
    have hlast : (([] ++ "SecRuleEngine On".toList) :: blockingLines.tail).filterMap engineSetting =
        ["On".toList] := by decide
    rw [hlast, getLast?_concat]

/-! ### What is stored and what is emitted -/

/-- The screen of a push keeps what it has kept. -/
lemma wafLines_sanitize (raw : Str) : wafLines (sanitizeWAFDirectives raw).1 = wafKept raw := by
  unfold wafLines sanitizeWAFDirectives
  dsimp only
  by_cases hkept : wafKept raw = []
  · rw [hkept]
    decide
  · rw [splitOn_intercalate_kept hkept, map_congr_left fun l hl => (mem_wafKept hl).2.1, map_id',
      filter_eq_self]
    exact fun l hl => decide_eq_true (mem_wafKept hl).1

lemma sanitize_of_kept (h : ∀ line ∈ wafLines raw, wafLineKept line) :
    sanitizeWAFDirectives raw = (['\n'].intercalate (wafLines raw), false) := by
  have hkept : wafKept raw = wafLines raw := filter_eq_self.mpr h
  simpa [sanitizeWAFDirectives, hkept] using h

lemma line_of_validate {unrestricted : Bool} (h : validateWAFDirectives raw unrestricted = .ok ())
    (hline : line ∈ wafLines raw) (hcomment : isComment line = false) :
    wafLineOK line = .ok () ∧ (unrestricted = false → wafRemoveByIDOnly line = .ok ()) := by
  have hok := Runs.forM_eq_ok h line (mem_filter.mpr ⟨hline, by rw [hcomment]; rfl⟩)
  cases hscreen : wafLineOK line with
  | error e =>
    rw [hscreen] at hok
    cases hok
  | ok u =>
    rw [hscreen] at hok
    exact ⟨rfl, fun hu => by simpa [hu] using hok⟩

/-- A rule id, or two of them with a dash between. -/
def RuleIDs (id : Str) : Prop :=
  ∃ lo, wafNumericID lo ∧ (id = lo ∨ ∃ hi, wafNumericID hi ∧ id = lo ++ '-' :: hi)

lemma ruleIDs_of_wafIDRange {id : Str} (h : wafIDRange id) : RuleIDs id := by
  obtain ⟨hlo, hhi⟩ := Bool.and_eq_true_iff.mp h
  refine ⟨_, hlo, ?_⟩
  by_cases hdash : '-' ∈ id
  · right
    exact ⟨_, by simpa [hdash] using hhi, (Text.before_append_behind hdash).symm⟩
  · left
    exact (takeWhile_eq_self_iff.mpr fun c hc => by simpa using ne_of_mem_of_not_mem hc hdash).symm

lemma ids_of_wafRemoveByIDOnly (h : wafRemoveByIDOnly line = .ok ()) :
    ∃ id ids, Text.fields line = "SecRuleRemoveById".toList :: id :: ids ∧ ∀ i ∈ id :: ids, RuleIDs i := by
  unfold wafRemoveByIDOnly at h
  split at h
  · next name id ids hfields =>
    split_ifs at h with hname
    refine ⟨id, ids, by rw [hfields, not_not.mp hname], fun i hi => ruleIDs_of_wafIDRange ?_⟩
    unfold wafIDsOK at h
    split at h
    · cases h
    · next hnone => simpa using find?_eq_none.mp hnone i hi
  · cases h

/-- A push drops no line of a text that was accepted, and leaves what it has emitted as it is; an admin of one tenant
stores comments and suppressions by id only. -/
theorem waf_screens_agree (raw : Str) :
    (∀ unrestricted, validateWAFDirectives raw unrestricted = .ok () →
      sanitizeWAFDirectives raw = (['\n'].intercalate (wafLines raw), false)) ∧
    sanitizeWAFDirectives (sanitizeWAFDirectives raw).1 = ((sanitizeWAFDirectives raw).1, false) ∧
    (validateWAFDirectives raw false = .ok () → ∀ line ∈ wafLines raw, isComment line = false →
      ∃ id ids, Text.fields line = "SecRuleRemoveById".toList :: id :: ids ∧ ∀ i ∈ id :: ids, RuleIDs i) := by
  refine ⟨fun unrestricted h => sanitize_of_kept fun line hline => ?_, ?_, fun h line hline hcomment => ?_⟩
  · cases hcomment : isComment line with
    | true => simp [wafLineKept, hcomment]
    | false => simp [wafLineKept, hcomment, (line_of_validate h hline hcomment).1, Except.isOk, Except.toBool]
  · rw [sanitize_of_kept, wafLines_sanitize]
    · rfl
    · rw [wafLines_sanitize]
      exact fun line hline => (mem_filter.mp hline).2
  · exact ids_of_wafRemoveByIDOnly ((line_of_validate h hline hcomment).2 rfl)

/-! ### A line that takes the closing line with it -/

def wafRoute (directives : Str) : Route where
  id := "1"
  hosts := ["shop.example"]
  wafEnabled := true
  wafBlocking := true
  wafModuleAvailable := true
  wafDirectives := directives

theorem waf_engine_on_iff_suppression :
    ∃ text, wafHandlers (withWAFScreen plainHelpers) (wafRoute "SecRuleRemoveById 942100".toList) =
        [.waf text] ∧
      ((blockingLines <:+ corazaDirectives text ∧
          corazaEngine (corazaDirectives text) = some "On".toList) ↔
        endsContinued "SecRuleRemoveById 942100".toList = false) :=
  ⟨_, rfl, @waf_engine_on_iff plainHelpers (wafRoute "SecRuleRemoveById 942100".toList) _ rfl rfl⟩

/-- Both lines pass the screen, and the second is joined with the closing line: the engine of the
blocking route is off. -/
theorem waf_engine_off_by_continued_line : ∃ text, wafHandlers (withWAFScreen plainHelpers)
        (wafRoute "SecRuleEngine Off\nSecMarker end\\".toList) = [.waf text] ∧
      corazaEngine (corazaDirectives text) = some "Off".toList ∧ ¬blockingLines <:+ corazaDirectives text := by
  have hkept : wafKept "SecRuleEngine Off\nSecMarker end\\".toList =
      ["SecRuleEngine Off".toList, "SecMarker end\\".toList] := by decide +kernel
  have hlogical : Lines.logical [] (wafIncludes.splitOn '\n' ++
      (["SecRuleEngine Off".toList, "SecMarker end\\".toList] ++ blockingLines)) =
      wafIncludes.splitOn '\n' ++ "SecRuleEngine Off".toList ::
        "SecMarker endSecRuleEngine On".toList :: blockingLines.tail := by decide +kernel
  have hlines := @splitOn_wafText _ plainHelpers
    (wafRoute "SecRuleEngine Off\nSecMarker end\\".toList) rfl rfl
  refine ⟨_, rfl, ?_⟩
  unfold corazaDirectives
  rw [hlines, show ∀ d, (wafRoute d).wafDirectives = d from fun _ => rfl, hkept, hlogical]
  exact ⟨by decide +kernel, by decide +kernel⟩

end Caddyapi
