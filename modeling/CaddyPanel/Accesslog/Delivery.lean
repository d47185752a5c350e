import CaddyPanel.Accesslog.Ingest
import CaddyPanel.NodeAgent.Forwarder

/-!
# Delivery of the access log

The agent posts a batch of lines and waits for the answer. A post may be lost, its answer may be lost,
and the panel may handle it long after the agent has given up; the agent then reads the log again and
posts from the same offset. The panel knows a batch by the hash of its body, so it counts a batch that
is posted again only once, as long as the body is the same.
-/

namespace Delivery

open List Option
open Utf8 (Bytes byte)
open Ingest (Line Entry Env)
open Attribution (RouteIndex)
open NodeAgent (newline readWindow softBatch accessBounds)
open Tail (throughLast)

/-! ### The store -/

/-- A row of `log_rollups`; a row that is not there has only zeros. -/
structure Rollup where
  requests : Nat := 0
  errors4xx : Nat := 0
  errors5xx : Nat := 0
  latencySumMs : Int := 0
  latencyMaxMs : Int := 0
  bytesResp : Int := 0
  bytesReq : Int := 0

/-- The route and the hour. -/
abbrev Key := Nat × Int

abbrev Rollups := Key → Rollup

/-- An hour, in nanoseconds. -/
def hour : Int := 3600 * 10 ^ 9

def key (e : Entry) : Key :=
  (e.routeID, e.ts / hour)

def Rollup.add (r : Rollup) (e : Entry) : Rollup where
  requests := r.requests + 1
  errors4xx := r.errors4xx + if 400 ≤ e.status && e.status ≤ 499 then 1 else 0
  errors5xx := r.errors5xx + if 500 ≤ e.status then 1 else 0
  latencySumMs := r.latencySumMs + e.latencyMS
  latencyMaxMs := max r.latencyMaxMs e.latencyMS
  bytesResp := r.bytesResp + e.bytesResp
  bytesReq := r.bytesReq + e.bytesReq

/-- `rollupUpsertQuery`. -/
def upsert (rollups : Rollups) (e : Entry) : Rollups :=
  Function.update rollups (key e) ((rollups (key e)).add e)

structure Store (δ : Type) where
  /-- `access_log_batches` -/
  ledger : List δ
  rollups : Rollups

/-- `InsertBatch`: one transaction, which does nothing where the batch is known. -/
def insertBatch {δ : Type} [DecidableEq δ] (batchID : δ) (es : List Entry) (s : Store δ) : Store δ :=
  if es = [] || batchID ∈ s.ledger then s
  else { ledger := batchID :: s.ledger, rollups := es.foldl upsert s.rollups }

/-! ### Agent and panel -/

/-- A request of the agent. `start` is the place of its body in the log. -/
structure Post where
  id : Nat
  start : Nat
  body : Bytes
  deriving DecidableEq

def Post.stop (p : Post) : Nat :=
  p.start + p.body.length

structure World (δ : Type) where
  file : Bytes
  offset : Nat
  /-- the number of requests so far -/
  sent : Nat
  /-- the request whose answer the agent waits for -/
  awaiting : Option Post
  /-- the requests that the panel may still handle -/
  inflight : List Post
  /-- the requests that the panel has answered with success -/
  answered : List Nat
  store : Store δ
  /-- the requests whose lines the panel has counted -/
  taken : List Post

inductive Event (δ : Type) where
  | append (bytes : Bytes)
  /-- a tick of the agent; `late` is appended between the `Stat` and the read -/
  | send (late : Bytes)
  /-- the panel handles a request -/
  | receive (p : Post) (env : Env) (idx : RouteIndex)
  /-- a request is lost, or its transaction fails -/
  | lose (p : Post)
  /-- the agent gets the answer -/
  | ack
  /-- the answer is lost or late -/
  | giveUp
  /-- old rows of `access_log_batches` are deleted -/
  | expire (batches : List δ)

section Steps

variable {δ : Type} [DecidableEq δ] (unmarshal : Bytes → Option Line) (digest : Bytes → δ)

/-- The log behind the offset, as a tick reads it. -/
def World.buffer (w : World δ) (late : Bytes) : Bytes :=
  ((w.file ++ late).drop w.offset).take readWindow

/-- The panel has handled a request. -/
def World.handled (w : World δ) (p : Post) (env : Env) (idx : RouteIndex) : World δ :=
  let rest := w.inflight.eraseP fun q => q.id = p.id
  match Ingest.ingest unmarshal env idx p.body with
  | .batch es =>
    { w with
      inflight := rest
      answered := p.id :: w.answered
      store := insertBatch (digest p.body) es w.store
      taken := if es = [] || digest p.body ∈ w.store.ledger then w.taken else p :: w.taken }
  | _ => { w with inflight := rest }

def step (w : World δ) : Event δ → Option (World δ)
  | .append bytes => some { w with file := w.file ++ bytes }
  | .send late =>
    if w.awaiting.isNone then
      let w' := { w with file := w.file ++ late }
      match if w.file.length = w.offset then .wait else accessBounds (w.buffer late) with
      | .ship n =>
        let p : Post := ⟨w.sent, w.offset, (w.buffer late).take n⟩
        some { w' with sent := w.sent + 1, awaiting := some p, inflight := p :: w.inflight }
      | _ => some w'
    else none
  | .receive p env idx => if p ∈ w.inflight then some (w.handled unmarshal digest p env idx) else none
  | .lose p => some { w with inflight := w.inflight.eraseP fun q => q.id = p.id }
  | .ack =>
    match w.awaiting with
    | some p =>
      if p.id ∈ w.answered then some { w with offset := w.offset + p.body.length, awaiting := none }
      else none
    | none => none
  | .giveUp => some { w with awaiting := none }
  | .expire batches =>
    some { w with store := { w.store with ledger := w.store.ledger.filter (· ∉ batches) } }

end Steps

/-! ### When a batch is posted again as it was -/

/-- How far the bounds look for the end of the batch. -/
def Post.limit (p : Post) : Nat :=
  if p.body.length ≤ softBatch then softBatch else readWindow

/-- No further line is complete within the limit of the batch. -/
def NoFurtherLine (file : Bytes) (p : Post) : Prop :=
  ∀ i, p.stop ≤ i → i < p.start + p.limit → file[i]? ≠ some newline

/-- While the panel may have counted a batch, or may still do so, without the agent knowing it, the
log gets no line that would make the batch longer, and the panel does not forget the batch. -/
def Steady {δ : Type} (digest : Bytes → δ) (w : World δ) : Event δ → Prop
  | .send late => ∀ p ∈ w.inflight ++ w.taken, w.offset < p.stop → NoFurtherLine (w.file ++ late) p
  | .expire batches => ∀ p ∈ w.taken,
      (w.offset < p.stop ∨ ∃ q ∈ w.inflight, q.start = p.start) → digest p.body ∉ batches
  | _ => True

/-! ### What a batch is -/

/-- The body of a post is a stretch of whole lines of the log, cut as the bounds cut it. -/
structure Cut (file : Bytes) (p : Post) : Prop where
  drop : ∃ rest, file.drop p.start = p.body ++ rest
  last : p.body.getLast? = some newline
  length_le : p.body.length ≤ readWindow
  soft : softBatch < p.body.length → newline ∉ p.body.take softBatch

namespace Cut

variable {file file' : Bytes} {p : Post}

lemma length_pos (h : Cut file p) : 0 < p.body.length := by
  refine length_pos_iff.mpr fun hnil => ?_
  have hlast := h.last
  rw [hnil] at hlast
  cases hlast

lemma getElem? (h : Cut file p) {i : ℕ} (hi : i < p.body.length) : file[p.start + i]? = p.body[i]? := by
  obtain ⟨rest, hrest⟩ := h.drop
  rw [← getElem?_drop, hrest, getElem?_append_left hi]

lemma stop_le (h : Cut file p) : p.stop ≤ file.length := by
  obtain ⟨rest, hrest⟩ := h.drop
  have hlength := congrArg List.length hrest
  have hpos := h.length_pos
  rw [length_drop, length_append] at hlength
  unfold Post.stop
  omega

lemma ends (h : Cut file p) : file[p.stop - 1]? = some newline := by
  have hpos := h.length_pos
  have hlast := h.last
  rw [getLast?_eq_getElem?, ← h.getElem? (by omega)] at hlast
  have heq : p.stop - 1 = p.start + (p.body.length - 1) := by
    unfold Post.stop
    omega
  rw [heq]
  exact hlast

lemma mono (h : Cut file p) (hfile : file <+: file') : Cut file' p where
  drop := by
    obtain ⟨rest, hrest⟩ := h.drop
    obtain ⟨more, rfl⟩ := hfile
    have hstop := h.stop_le
    unfold Post.stop at hstop
    refine ⟨rest ++ more, ?_⟩
    rw [drop_append_of_le_length (by omega), hrest, append_assoc]
  last := h.last
  length_le := h.length_le
  soft := h.soft

end Cut

/-- What the bounds cut off. -/
lemma cut_of_accessBounds {file : Bytes} {id offset n : ℕ}
    (h : accessBounds ((file.drop offset).take readWindow) = .ship n) :
    Cut file ⟨id, offset, ((file.drop offset).take readWindow).take n⟩ := by
  generalize hbuf : (file.drop offset).take readWindow = buf at h
  obtain ⟨hn, hle, hlast⟩ := NodeAgent.sound_accessForwarder.ship buf n h
  have hlength : (buf.take n).length = n := length_take_of_le hle
  have hprefix : buf.take n <+: file.drop offset := by
    have hwindow : buf <+: file.drop offset := hbuf ▸ take_prefix _ _
    have hpart : buf.take n <+: buf := take_prefix _ _
    exact hpart.trans hwindow
  refine ⟨?_, ?_, ?_, ?_⟩
  · obtain ⟨rest, hrest⟩ := hprefix
    exact ⟨rest, hrest.symm⟩
  · rw [getLast?_eq_getElem?, hlength, getElem?_take_of_lt (by omega)]
    exact hlast
  · refine hlength.le.trans (hle.trans ?_)
    rw [← hbuf]
    exact length_take_le _ _
  intro hsoft hmem
  rw [hlength] at hsoft
  unfold accessBounds at h
  dsimp only at h
  split_ifs at h with hnil hcut
  · -- a soft cut is not longer than the soft limit
    cases h
    have hshort := (Tail.throughLast_isPrefix newline ((throughLast newline buf).take softBatch)).length_le
    have htake := length_take_le softBatch (throughLast newline buf)
    omega
  · cases h
    rw [Bool.and_eq_true, decide_eq_true_eq, decide_eq_true_eq, not_and, not_not] at hcut
    have hnone := Tail.throughLast_eq_nil_iff.mp (hcut hsoft)
    have hpart : buf.take (throughLast newline buf).length = throughLast newline buf :=
      (prefix_iff_eq_take.mp (Tail.throughLast_isPrefix newline buf)).symm
    rw [hpart] at hmem
    exact hnone hmem

/-- The bounds of a window in which the last newline within the limit is known. -/
lemma accessBounds_eq_ship {buf : Bytes} {n : ℕ} (hlast : buf[n - 1]? = some newline) (hn : 0 < n)
    (hafter : ∀ i, n ≤ i → (n ≤ softBatch → i < softBatch) → buf[i]? ≠ some newline)
    (hsoft : softBatch < n → newline ∉ buf.take softBatch) : accessBounds buf = .ship n := by
  have hbatch : throughLast newline buf ≠ [] := by
    rw [ne_eq, Tail.throughLast_eq_nil_iff, not_not]
    exact mem_of_getElem? hlast
  have htake : softBatch < (throughLast newline buf).length →
      (throughLast newline buf).take softBatch = buf.take softBatch := by
    intro hlt
    obtain ⟨rest, hrest⟩ := Tail.throughLast_isPrefix newline buf
    conv_rhs => rw [← hrest]
    rw [take_append_of_le_length hlt.le]
  unfold accessBounds
  rw [if_neg hbatch]
  by_cases hshort : n ≤ softBatch
  · -- the batch ends within the soft limit, where the log has nothing else to end with
    have hpart : (throughLast newline (buf.take softBatch)).length = n := by
      rw [Tail.length_throughLast_eq (k := n - 1)]
      · omega
      · rw [getElem?_take_of_lt (by omega)]
        exact hlast
      intro i hi heq
      by_cases hin : i < softBatch
      · rw [getElem?_take_of_lt hin] at heq
        exact hafter i (by omega) (fun _ => hin) heq
      · rw [getElem?_take_eq_none (Nat.le_of_not_lt hin)] at heq
        cases heq
    by_cases hlong : softBatch < (throughLast newline buf).length
    · have hne : throughLast newline (buf.take softBatch) ≠ [] := length_pos_iff.mp (by omega)
      rw [htake hlong, if_pos (by simp [hlong, hne]), hpart]
    rw [if_neg (by simp [hlong]), Tail.length_throughLast_eq hlast, Nat.sub_add_cancel hn]
    intro i hi heq
    have hin := Tail.length_throughLast_gt heq
    exact hafter i (by omega) (fun _ => by omega) heq
  · have hwhole : (throughLast newline buf).length = n := by
      rw [Tail.length_throughLast_eq hlast, Nat.sub_add_cancel hn]
      exact fun i hi => hafter i (by omega) fun hle => absurd hle hshort
    have hnone := Tail.throughLast_eq_nil_iff.mpr (hsoft (Nat.lt_of_not_le hshort))
    rw [htake (by omega), hnone, if_neg (by simp), hwhole]

/-- A batch is cut off again where no further line is complete. -/
lemma accessBounds_eq_of_noFurtherLine {file : Bytes} {p : Post} (hcut : Cut file p)
    (hnone : NoFurtherLine file p) : accessBounds ((file.drop p.start).take readWindow) = .ship p.body.length := by
  have hpos := hcut.length_pos
  have hwindow := hcut.length_le
  obtain ⟨rest, hrest⟩ := hcut.drop
  have hbuf : (file.drop p.start).take readWindow = p.body ++ rest.take (readWindow - p.body.length) := by
    rw [hrest, take_append, take_of_length_le hwindow]
  refine accessBounds_eq_ship ?_ hpos (fun i hi hlimit heq => ?_) (fun hlong => ?_)
  · rw [hbuf, getElem?_append_left (by omega), ← getLast?_eq_getElem?]
    exact hcut.last
  · have hin : i < readWindow := by
      by_contra hout
      rw [getElem?_take_eq_none (Nat.le_of_not_lt hout)] at heq
      cases heq
    rw [getElem?_take_of_lt hin, getElem?_drop] at heq
    refine hnone (p.start + i) (Nat.add_le_add_left hi _) (Nat.add_lt_add_left ?_ _) heq
    unfold Post.limit
    split_ifs with hshort
    · exact hlimit hshort
    · exact hin
  · rw [hbuf, take_append_of_le_length hlong.le]
    exact hcut.soft hlong

/-! ### What a batch counts -/

section Counting

variable (unmarshal : Bytes → Option Line)

/-- A line of the log from `first` on that was counted: its place and its entry. -/
structure CountedLine (file : Bytes) (first : ℕ) (c : ℕ × Entry) : Prop where
  begins : c.1 = first ∨ file[c.1 - 1]? = some newline
  line : ∃ raw rest line env idx, file.drop c.1 = raw ++ newline :: rest ∧ newline ∉ raw ∧
    unmarshal raw = some line ∧ Ingest.toEntry env idx line = some (some c.2)

/-- The lines of a batch that are counted. -/
def countedOf (env : Env) (idx : RouteIndex) (p : Post) : List (ℕ × Entry) :=
  (Tail.positions p.start (p.body.splitOn newline)).filterMap fun x =>
    if x.2 = [] then none
    else ((unmarshal x.2).bind fun line => (Ingest.toEntry env idx line).join).map (x.1, ·)

variable {unmarshal}

variable {c : ℕ × Entry} {file file' body : Bytes} {first : ℕ} {idx : RouteIndex} {env : Env}

lemma CountedLine.lt (h : CountedLine unmarshal file first c) : c.1 < file.length := by
  obtain ⟨raw, rest, -, -, -, hdrop, -⟩ := h.line
  have hlength := congrArg List.length hdrop
  rw [length_drop, length_append, length_cons] at hlength
  omega

lemma CountedLine.mono (h : CountedLine unmarshal file first c) (hfile : file <+: file') :
    CountedLine unmarshal file' first c := by
  have hlt := h.lt
  refine ⟨h.begins.imp_right fun hbefore => ?_, ?_⟩
  · rw [Tail.getElem?_of_isPrefix hfile (by omega)]
    exact hbefore
  obtain ⟨raw, rest, line, env, idx, hdrop, hline⟩ := h.line
  obtain ⟨more, rfl⟩ := hfile
  refine ⟨raw, rest ++ more, line, env, idx, ?_, hline⟩
  rw [drop_append_of_le_length hlt.le, hdrop, append_assoc, cons_append]

lemma mem_countedOf {p : Post} (h : c ∈ countedOf unmarshal env idx p) :
    ∃ raw line, (c.1, raw) ∈ Tail.positions p.start (p.body.splitOn newline) ∧ raw ≠ [] ∧
      unmarshal raw = some line ∧ Ingest.toEntry env idx line = some (some c.2) := by
  obtain ⟨x, hx, hc⟩ := mem_filterMap.mp h
  split_ifs at hc with hne
  obtain ⟨e, he, rfl⟩ := map_eq_some_iff.mp hc
  obtain ⟨line, hline, he⟩ := bind_eq_some_iff.mp he
  exact ⟨x.2, line, hx, hne, hline, join_eq_some_iff.mp he⟩

lemma nodup_countedOf (env : Env) (idx : RouteIndex) (p : Post) :
    ((countedOf unmarshal env idx p).map Prod.fst).Nodup := by
  refine List.Nodup.sublist ?_ (Tail.nodup_positions p.start (p.body.splitOn newline))
  unfold countedOf
  induction Tail.positions p.start (p.body.splitOn newline) with
  | nil => exact List.Sublist.refl _
  | cons x xs ih =>
    rw [filterMap_cons]
    split
    · exact ih.cons _
    rename_i c hc
    split_ifs at hc
    obtain ⟨e, -, rfl⟩ := map_eq_some_iff.mp hc
    exact ih.cons_cons _

lemma entries_of_ingest {es : List Entry} (h : Ingest.ingest unmarshal env idx body = .batch es) :
    Ingest.entries unmarshal env idx (Ingest.lines body) = some es := by
  unfold Ingest.ingest at h
  dsimp only at h
  cases hentries : Ingest.entries unmarshal env idx (Ingest.lines (body.take Ingest.maxIngestBody)) with
  | none =>
    rw [hentries] at h
    split_ifs at h
  | some batch =>
    rw [hentries] at h
    split_ifs at h with hfull hlong
    cases h
    rwa [take_of_length_le (Nat.le_of_not_lt hlong)] at hentries

/-- The entries of a batch are those of its lines. -/
lemma map_snd_countedOf {p : Post} {es : List Entry} (h : Ingest.ingest unmarshal env idx p.body = .batch es) :
    (countedOf unmarshal env idx p).map Prod.snd = es := by
  rw [Ingest.entries_eq_some (entries_of_ingest h), Ingest.lines,
    ← Tail.map_snd_positions p.start (p.body.splitOn (byte '\n'))]
  change ((Tail.positions p.start (p.body.splitOn (byte '\n'))).filterMap _).map Prod.snd = _
  induction Tail.positions p.start (p.body.splitOn (byte '\n')) with
  | nil => rfl
  | cons x xs ih =>
    by_cases hne : x.2 = []
    · rw [filterMap_cons_none (by simp [hne]), ih]
      simp [hne]
    cases he : (unmarshal x.2).bind fun line => (Ingest.toEntry env idx line).join with
    | none =>
      rw [filterMap_cons_none (by simp [he]), ih]
      simp [hne, he]
    | some e =>
      rw [filterMap_cons_some (by simp only [hne, he]; rfl), map_cons, ih]
      simp [hne, he]

/-- The lines of a batch are lines of the log, inside the batch. -/
lemma countedLine_of_mem {p : Post} (hcut : Cut file p)
    (hbegins : p.start = first ∨ file[p.start - 1]? = some newline) (h : c ∈ countedOf unmarshal env idx p) :
    CountedLine unmarshal file first c ∧ p.start ≤ c.1 ∧ c.1 < p.stop := by
  obtain ⟨raw, line, hmem, hne, hline, hentry⟩ := mem_countedOf h
  have hle := Tail.le_of_mem_positions hmem
  have hparts : ∀ r ∈ p.body.splitOn newline, newline ∉ r := by
    intro r hr hmem'
    simpa using Text.eq_false_of_mem_splitOnP r hr newline hmem'
  have hbody : [newline].intercalate (p.body.splitOn newline) = p.body := intercalate_splitOn newline
  have hraw : raw ∈ p.body.splitOn newline := by
    rw [← Tail.map_snd_positions p.start (p.body.splitOn newline)]
    exact mem_map_of_mem hmem
  have hlast : ([newline].intercalate (p.body.splitOn newline)).getLast? = some newline := by
    rw [hbody]
    exact hcut.last
  obtain ⟨⟨rest, hrest⟩, hbefore⟩ := Tail.drop_of_mem_positions hparts hlast hmem hne
  rw [hbody] at hrest hbefore
  obtain ⟨more, hmore⟩ := hcut.drop
  have hlt : c.1 - p.start < p.body.length := by
    have hlength := congrArg List.length hrest
    rw [length_drop, length_append, length_cons] at hlength
    omega
  refine ⟨⟨?_, raw, rest ++ more, line, env, idx, ?_, hparts raw hraw, hline, hentry⟩, hle, ?_⟩
  · by_cases hfirst : c.1 = p.start
    · rw [hfirst]
      exact hbegins
    have hinside := hbefore.resolve_left hfirst
    rw [← hcut.getElem? (by omega)] at hinside
    have heq : p.start + (c.1 - p.start - 1) = c.1 - 1 := by omega
    rw [heq] at hinside
    exact .inr hinside
  · have hdrop : file.drop c.1 = (file.drop p.start).drop (c.1 - p.start) := by
      rw [drop_drop]
      congr 1
      omega
    rw [hdrop, hmore, drop_append_of_le_length hlt.le, hrest, append_assoc, cons_append]
  · unfold Post.stop
    omega

end Counting

/-! ### The invariant -/

section Invariant

variable {δ : Type} {unmarshal : Bytes → Option Line} {digest : Bytes → δ} {first : ℕ} {before : Rollups}

/-- The requests that the agent or the panel still has to do with, and those that are counted. -/
def World.live (w : World δ) : List Post :=
  w.awaiting.toList ++ (w.inflight ++ w.taken)

/-- The rollups have each line at most once, and only lines of the batches that were taken. -/
def Tallied (unmarshal : Bytes → Option Line) (first : ℕ) (before : Rollups) (w : World δ) : Prop :=
  ∃ counted : List (ℕ × Entry), (counted.map Prod.fst).Nodup ∧
    (∀ c ∈ counted, CountedLine unmarshal w.file first c ∧ ∃ p ∈ w.taken, p.start ≤ c.1 ∧ c.1 < p.stop) ∧
    w.store.rollups = (counted.map Prod.snd).foldl upsert before

structure Inv (unmarshal : Bytes → Option Line) (digest : Bytes → δ) (first : ℕ) (before : Rollups)
    (w : World δ) : Prop where
  offset_le : w.offset ≤ w.file.length
  begins : w.offset = first ∨ w.file[w.offset - 1]? = some newline
  cut : ∀ p ∈ w.live, Cut w.file p
  starts : ∀ p ∈ w.live, p.start = first ∨ w.file[p.start - 1]? = some newline
  /-- a request is behind the offset, or begins at it -/
  place : ∀ p ∈ w.live, p.stop ≤ w.offset ∨ p.start = w.offset
  awaits : ∀ p, w.awaiting = some p → p.start = w.offset
  same : ∀ p ∈ w.live, ∀ q ∈ w.live, p.start = q.start → p.body = q.body
  apart : ∀ p ∈ w.live, ∀ q ∈ w.live, p.start = q.start ∨ p.stop ≤ q.start ∨ q.stop ≤ p.start
  known : ∀ p ∈ w.taken, (w.offset < p.stop ∨ ∃ q ∈ w.inflight, q.start = p.start) →
    digest p.body ∈ w.store.ledger
  tallied : Tallied unmarshal first before w

variable {w w' : World δ} {p r : Post}

lemma mem_live_of_inflight (h : p ∈ w.inflight) : p ∈ w.live :=
  mem_append_right _ (mem_append_left _ h)

lemma mem_live_of_taken (h : p ∈ w.taken) : p ∈ w.live :=
  mem_append_right _ (mem_append_right _ h)

lemma mem_live : p ∈ w.live ↔ w.awaiting = some p ∨ p ∈ w.inflight ∨ p ∈ w.taken := by
  simp [World.live]

lemma Tallied.mono (h : Tallied unmarshal first before w) (hfile : w.file <+: w'.file)
    (htaken : w'.taken = w.taken) (hrollups : w'.store.rollups = w.store.rollups) :
    Tallied unmarshal first before w' := by
  obtain ⟨counted, hnodup, hcounted, heq⟩ := h
  refine ⟨counted, hnodup, fun c hc => ?_, hrollups.trans heq⟩
  obtain ⟨hline, hp⟩ := hcounted c hc
  exact ⟨hline.mono hfile, htaken ▸ hp⟩

lemma boundary_mono {file file' : Bytes} {pos : ℕ} (hfile : file <+: file')
    (h : pos = first ∨ file[pos - 1]? = some newline) : pos = first ∨ file'[pos - 1]? = some newline := by
  refine h.imp_right fun hbefore => ?_
  obtain ⟨hlt, -⟩ := List.getElem?_eq_some_iff.mp hbefore
  rw [Tail.getElem?_of_isPrefix hfile hlt]
  exact hbefore

/-- The log grows, requests are lost, and the agent gives up waiting. -/
lemma Inv.of_fewer (h : Inv unmarshal digest first before w)
    (hfile : w.file <+: w'.file) (hoffset : w'.offset = w.offset) (htaken : w'.taken = w.taken)
    (hinflight : ∀ p ∈ w'.inflight, p ∈ w.inflight)
    (hawaiting : ∀ p, w'.awaiting = some p → w.awaiting = some p) (hstore : w'.store = w.store) :
    Inv unmarshal digest first before w' := by
  have hlive : ∀ p ∈ w'.live, p ∈ w.live := by
    intro p hp
    rcases mem_live.mp hp with hp | hp | hp
    · exact mem_live.mpr (.inl (hawaiting p hp))
    · exact mem_live_of_inflight (hinflight p hp)
    · exact mem_live_of_taken (htaken ▸ hp)
  refine ⟨?_, ?_, ?_, ?_, ?_, ?_, ?_, ?_, ?_, ?_⟩
  · rw [hoffset]
    exact h.offset_le.trans hfile.length_le
  · rw [hoffset]
    exact boundary_mono hfile h.begins
  · exact fun p hp => (h.cut p (hlive p hp)).mono hfile
  · exact fun p hp => boundary_mono hfile (h.starts p (hlive p hp))
  · rw [hoffset]
    exact fun p hp => h.place p (hlive p hp)
  · rw [hoffset]
    exact fun p hp => h.awaits p (hawaiting p hp)
  · exact fun p hp q hq => h.same p (hlive p hp) q (hlive q hq)
  · exact fun p hp q hq => h.apart p (hlive p hp) q (hlive q hq)
  · rw [hoffset, htaken, hstore]
    intro p hp hlate
    exact h.known p hp (hlate.imp_right fun ⟨q, hq, heq⟩ => ⟨q, hinflight q hq, heq⟩)
  · exact h.tallied.mono hfile htaken (by rw [hstore])

/-- A request that goes out has the body of every other one from the offset. -/
lemma Inv.add (h : Inv unmarshal digest first before w) (hcut : Cut w.file r)
    (hstart : r.start = w.offset) (hsame : ∀ p ∈ w.live, p.start = w.offset → p.body = r.body) :
    Inv unmarshal digest first before
      { w with sent := w.sent + 1, awaiting := some r, inflight := r :: w.inflight } := by
  -- what holds of the new request and of the others holds of all
  have hlive : ∀ {P : Post → Prop}, P r → (∀ p ∈ w.live, P p) →
      ∀ p ∈ World.live { w with sent := w.sent + 1, awaiting := some r, inflight := r :: w.inflight }, P p := by
    intro P hr hold p hp
    rcases mem_live.mp hp with hp | hp | hp
    · exact Option.some.inj hp ▸ hr
    · exact forall_mem_cons.mpr ⟨hr, fun q hq => hold q (mem_live_of_inflight hq)⟩ p hp
    · exact hold p (mem_live_of_taken hp)
  have hafter : ∀ p ∈ w.live, p.start = r.start ∨ p.stop ≤ r.start := fun p hp => by
    rw [hstart]
    exact (h.place p hp).symm
  refine ⟨h.offset_le, h.begins, hlive hcut h.cut, hlive (hstart ▸ h.begins) h.starts, hlive (.inr hstart) h.place,
    fun p hp => Option.some.inj hp ▸ hstart, hlive (hlive (fun _ => rfl) fun q hq heq => ?_) fun p hp =>
      hlive (fun heq => hsame p hp (heq.trans hstart)) (h.same p hp),
    hlive (hlive (.inl rfl) fun q hq => (hafter q hq).imp Eq.symm .inr) fun p hp =>
      hlive ((hafter p hp).imp_right .inl) (h.apart p hp), fun p hp hlate => h.known p hp ?_, h.tallied⟩
  · exact (hsame q hq (heq.symm.trans hstart)).symm
  rcases hlate with hlate | ⟨q, hq, heq⟩
  · exact .inl hlate
  rcases mem_cons.mp hq with rfl | hq
  · have hpos := (h.cut p (mem_live_of_taken hp)).length_pos
    exact .inl (by unfold Post.stop; omega)
  · exact .inr ⟨q, hq, heq⟩

/-- While nothing changes the batch, the agent posts it as it was. -/
lemma body_eq_of_noFurtherLine {late : Bytes} (hcut : Cut (w.file ++ late) p)
    (hstart : p.start = w.offset) (hnone : NoFurtherLine (w.file ++ late) p) {n : ℕ}
    (hn : accessBounds (w.buffer late) = .ship n) : p.body = (w.buffer late).take n := by
  have hbounds := accessBounds_eq_of_noFurtherLine hcut hnone
  obtain ⟨rest, hrest⟩ := hcut.drop
  rw [hstart] at hbounds hrest
  cases hn.symm.trans hbounds
  rw [World.buffer, take_take, Nat.min_eq_left hcut.length_le, hrest, take_left]

/-- A batch that the panel counts. -/
lemma Inv.take (h : Inv unmarshal digest first before w) (hp : p ∈ w.inflight)
    (hnew : digest p.body ∉ w.store.ledger) {env : Env} {idx : RouteIndex} {es : List Entry}
    (hes : Ingest.ingest unmarshal env idx p.body = .batch es) {rest : List Post} {answered : List Nat}
    (hrest : ∀ q ∈ rest, q ∈ w.inflight) :
    Inv unmarshal digest first before { w with
        inflight := rest
        answered := answered
        store := { ledger := digest p.body :: w.store.ledger, rollups := es.foldl upsert w.store.rollups }
        taken := p :: w.taken } := by
  have hlivep := mem_live_of_inflight hp
  have hlive : ∀ q ∈ World.live { w with
        inflight := rest
        answered := answered
        store := { ledger := digest p.body :: w.store.ledger, rollups := es.foldl upsert w.store.rollups }
        taken := p :: w.taken }, q ∈ w.live := by
    intro q hq
    rcases mem_live.mp hq with hq | hq | hq
    · exact mem_live.mpr (.inl hq)
    · exact mem_live_of_inflight (hrest q hq)
    rcases mem_cons.mp hq with rfl | hq
    · exact hlivep
    · exact mem_live_of_taken hq
  refine ⟨h.offset_le, h.begins, fun q hq => h.cut q (hlive q hq), fun q hq => h.starts q (hlive q hq),
    fun q hq => h.place q (hlive q hq), h.awaits, fun q hq r hr => h.same q (hlive q hq) r (hlive r hr),
    fun q hq r hr => h.apart q (hlive q hq) r (hlive r hr), ?_, ?_⟩
  · intro q hq hlate
    rcases mem_cons.mp hq with rfl | hq
    · exact mem_cons_self
    · refine mem_cons_of_mem _ (h.known q hq (hlate.imp_right ?_))
      exact fun ⟨r, hr, heq⟩ => ⟨r, hrest r hr, heq⟩
  obtain ⟨counted, hnodup, hcounted, heq⟩ := h.tallied
  have hbatch : ∀ c ∈ countedOf unmarshal env idx p,
      CountedLine unmarshal w.file first c ∧ p.start ≤ c.1 ∧ c.1 < p.stop :=
    fun c hc => countedLine_of_mem (h.cut p hlivep) (h.starts p hlivep) hc
  refine ⟨counted ++ countedOf unmarshal env idx p, ?_, ?_, ?_⟩
  · rw [map_append, nodup_append]
    refine ⟨hnodup, nodup_countedOf env idx p, ?_⟩
    -- the batches that were taken are apart from this one
    intro i hi j hj hij
    obtain ⟨c, hc, rfl⟩ := mem_map.mp hi
    obtain ⟨c', hc', rfl⟩ := mem_map.mp hj
    obtain ⟨-, q, hq, hlow, hhigh⟩ := hcounted c hc
    obtain ⟨-, hlow', hhigh'⟩ := hbatch c' hc'
    rcases h.apart q (mem_live_of_taken hq) p hlivep with hstart | hapart | hapart
    · refine hnew ?_
      rw [← h.same q (mem_live_of_taken hq) p hlivep hstart]
      exact h.known q hq (.inr ⟨p, hp, hstart.symm⟩)
    · omega
    · omega
  · intro c hc
    rcases mem_append.mp hc with hc | hc
    · obtain ⟨hline, q, hq, hin⟩ := hcounted c hc
      exact ⟨hline, q, mem_cons_of_mem p hq, hin⟩
    · obtain ⟨hline, hin⟩ := hbatch c hc
      exact ⟨hline, p, mem_cons_self, hin⟩
  · rw [map_append, foldl_append, ← heq, map_snd_countedOf hes]

/-- An answer that arrives. -/
lemma Inv.acked (h : Inv unmarshal digest first before w) (hp : w.awaiting = some p) :
    Inv unmarshal digest first before { w with offset := w.offset + p.body.length, awaiting := none } := by
  have hlivep : p ∈ w.live := mem_live.mpr (.inl hp)
  have hstart := h.awaits p hp
  have hstop : p.stop = w.offset + p.body.length := by rw [Post.stop, hstart]
  have hlive : ∀ q ∈ World.live { w with offset := w.offset + p.body.length, awaiting := none },
      q ∈ w.live := by
    intro q hq
    rcases mem_live.mp hq with hq | hq | hq
    · cases hq
    · exact mem_live_of_inflight hq
    · exact mem_live_of_taken hq
  refine ⟨?_, .inr ?_, fun q hq => h.cut q (hlive q hq), fun q hq => h.starts q (hlive q hq), ?_, nofun,
    fun q hq r hr => h.same q (hlive q hq) r (hlive r hr),
    fun q hq r hr => h.apart q (hlive q hq) r (hlive r hr), ?_, h.tallied⟩
  · rw [← hstop]
    exact (h.cut p hlivep).stop_le
  · rw [← hstop]
    exact (h.cut p hlivep).ends
  · intro q hq
    refine .inl ?_
    rcases h.place q (hlive q hq) with hle | heq
    · exact hle.trans (Nat.le_add_right _ _)
    · rw [Post.stop, heq, h.same q (hlive q hq) p hlivep (heq.trans hstart.symm)]
  · intro q hq hlate
    refine h.known q hq (hlate.imp_left fun hlt => ?_)
    exact lt_of_le_of_lt (Nat.le_add_right _ _) hlt

/-- An agent that has not posted anything yet. -/
structure World.Idle (w : World δ) : Prop where
  offset_le : w.offset ≤ w.file.length
  awaiting : w.awaiting = none
  inflight : w.inflight = []
  taken : w.taken = []

lemma World.Idle.inv (h : w.Idle) : Inv unmarshal digest w.offset w.store.rollups w := by
  have hlive : w.live = [] := by rw [World.live, h.awaiting, h.inflight, h.taken]; rfl
  have hnone : ∀ p, w.awaiting ≠ some p := fun p hp => absurd (h.awaiting.symm.trans hp) nofun
  refine ⟨h.offset_le, .inl rfl, ?_, ?_, ?_, fun p hp => absurd hp (hnone p), ?_, ?_, ?_, ?_⟩
  all_goals first
    | rw [hlive]; exact nofun
    | rw [h.taken]; exact nofun
    | exact ⟨[], nodup_nil, nofun, rfl⟩

end Invariant

/-! ### Runs -/

section Runs

variable {δ : Type} [DecidableEq δ] {unmarshal : Bytes → Option Line} {digest : Bytes → δ} {first : ℕ}
  {before : Rollups}

lemma Inv.handled {w : World δ} (h : Inv unmarshal digest first before w) {p : Post}
    (hp : p ∈ w.inflight) (env : Env) (idx : RouteIndex) :
    Inv unmarshal digest first before (w.handled unmarshal digest p env idx) := by
  have hrest : ∀ q ∈ w.inflight.eraseP (fun q => q.id = p.id), q ∈ w.inflight :=
    fun q hq => mem_of_mem_eraseP hq
  unfold World.handled
  split
  · rename_i es hes
    by_cases hknown : (es = [] || digest p.body ∈ w.store.ledger)
    · rw [insertBatch, if_pos hknown, if_pos hknown]
      exact h.of_fewer (prefix_refl _) rfl rfl hrest (fun _ hq => hq) rfl
    rw [insertBatch, if_neg hknown, if_neg hknown]
    have hnew : digest p.body ∉ w.store.ledger := by
      intro hmem
      exact hknown (by simp [hmem])
    exact h.take hp hnew hes hrest
  · exact h.of_fewer (prefix_refl _) rfl rfl hrest (fun _ hq => hq) rfl

lemma Inv.step {w w' : World δ} {e : Event δ} (h : Inv unmarshal digest first before w)
    (hsteady : Steady digest w e) (hstep : step unmarshal digest w e = some w') :
    Inv unmarshal digest first before w' := by
  cases e with
  | append bytes =>
    cases hstep
    exact h.of_fewer (prefix_append _ _) rfl rfl (fun _ hp => hp) (fun _ hp => hp) rfl
  | send late =>
    have hgrown : Inv unmarshal digest first before { w with file := w.file ++ late } :=
      h.of_fewer (prefix_append _ _) rfl rfl (fun _ hp => hp) (fun _ hp => hp) rfl
    simp only [Delivery.step] at hstep
    split_ifs at hstep with hidle hsame
    · cases hstep
      exact hgrown
    split at hstep
    · rename_i n hn
      cases hstep
      refine hgrown.add (cut_of_accessBounds hn) rfl fun p hp hstart => ?_
      have hcut := hgrown.cut p hp
      refine body_eq_of_noFurtherLine hcut hstart (hsteady p ?_ ?_) hn
      · rcases mem_live.mp hp with hp | hp | hp
        · rw [isNone_iff_eq_none] at hidle
          exact absurd (hidle.symm.trans hp) nofun
        · exact mem_append_left _ hp
        · exact mem_append_right _ hp
      · have hpos := hcut.length_pos
        have hstart' : p.start = w.offset := hstart
        unfold Post.stop
        omega
    · cases hstep
      exact hgrown
  | receive p env idx =>
    simp only [Delivery.step] at hstep
    split_ifs at hstep with hp
    cases hstep
    exact h.handled hp env idx
  | lose p =>
    cases hstep
    exact h.of_fewer (prefix_refl _) rfl rfl (fun _ hq => mem_of_mem_eraseP hq)
      (fun _ hq => hq) rfl
  | ack =>
    simp only [Delivery.step] at hstep
    split at hstep
    · rename_i p hp
      split_ifs at hstep
      cases hstep
      exact h.acked hp
    · cases hstep
  | giveUp =>
    cases hstep
    exact h.of_fewer (prefix_refl _) rfl rfl (fun _ hp => hp) nofun rfl
  | expire batches =>
    cases hstep
    refine ⟨h.offset_le, h.begins, h.cut, h.starts, h.place, h.awaits, h.same, h.apart, ?_, h.tallied⟩
    intro p hp hlate
    exact mem_filter.mpr ⟨h.known p hp hlate, by simpa using hsteady p hp hlate⟩

/-- Each line of the log is counted at most once over every run in which no batch changes, and none is
forgotten, while it is not known whether it was counted. -/
theorem lines_counted_at_most_once {w w' : World δ} {events : List (Event δ)} (hidle : w.Idle)
    (hrun : Runs.run (step unmarshal digest) w events = some w')
    (hsteady : Runs.Meets (step unmarshal digest) (Steady digest) w events) :
    ∃ counted : List (ℕ × Entry), (counted.map Prod.fst).Nodup ∧
      (∀ c ∈ counted, CountedLine unmarshal w'.file w.offset c) ∧
      w'.store.rollups = (counted.map Prod.snd).foldl upsert w.store.rollups := by
  have hinv : Inv unmarshal digest w.offset w.store.rollups w' :=
    Runs.run_invariant_of_meets (fun _ _ _ h hC hstep => h.step hC hstep) hidle.inv hsteady hrun
  obtain ⟨counted, hnodup, hcounted, heq⟩ := hinv.tallied
  exact ⟨counted, hnodup, fun c hc => (hcounted c hc).1, heq⟩

end Runs

/-! ### A batch that grows before it is posted again -/

/-- Two lines of the log, for the same route. -/
def visits (raw : Bytes) : Option Line :=
  if raw = Utf8.encode "1" || raw = Utf8.encode "2" then
    some (Ingest.visit "shop.io")
  else none

/-- An empty log, and the bodies as their own hashes. -/
def quiet : World Bytes where
  file := []
  offset := 0
  sent := 0
  awaiting := none
  inflight := []
  answered := []
  store := { ledger := [], rollups := fun _ => {} }
  taken := []

/-- The panel counts the first batch and its answer is lost. -/
def lostAnswer : List (Event Bytes) :=
  [.append (Utf8.encode "1\n"), .send [],
    .receive ⟨0, 0, Utf8.encode "1\n"⟩ Ingest.plainEnv Ingest.shopIndex, .giveUp]

/-- A second line comes before the batch is posted again. -/
def grownBatch : List (Event Bytes) :=
  [.append (Utf8.encode "2\n"), .send [],
    .receive ⟨1, 0, Utf8.encode "1\n2\n"⟩ Ingest.plainEnv Ingest.shopIndex, .ack]

lemma idle_quiet : quiet.Idle :=
  ⟨le_refl _, rfl, rfl, rfl⟩

theorem lines_counted_at_most_once_lost_answer :
    ∃ w', Runs.run (step visits id) quiet lostAnswer = some w' ∧
      ∃ counted : List (ℕ × Entry), (counted.map Prod.fst).Nodup ∧
        (∀ c ∈ counted, CountedLine visits w'.file 0 c) ∧
        w'.store.rollups = (counted.map Prod.snd).foldl upsert fun _ => {} := by
  have hsome : (Runs.run (step visits id) quiet lostAnswer).isSome := by decide +kernel
  obtain ⟨w', hrun⟩ := isSome_iff_exists.mp hsome
  -- only the first request has to meet a condition, and there is no other one
  have hsteady : Runs.Meets (step visits id) (Steady id) quiet lostAnswer := by
    refine ⟨trivial, ?_⟩
    refine And.intro (fun p (hp : p ∈ ([] : List Post)) => absurd hp not_mem_nil) ?_
    split
    · refine ⟨trivial, ?_⟩
      split
      · refine ⟨trivial, ?_⟩
        split <;> trivial
      · trivial
    · trivial
  exact ⟨w', hrun, lines_counted_at_most_once idle_quiet hrun hsteady⟩

/-- The log has two lines, and the panel counts three requests. -/
theorem grown_batch_counts_twice : (Runs.run (step visits id) quiet (lostAnswer ++ grownBatch)).map
      (fun w => (w.file.count newline, (w.store.rollups (1, 0)).requests)) = some (2, 3) := by
  decide +kernel

end Delivery
