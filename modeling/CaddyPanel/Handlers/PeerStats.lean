import CaddyPanel.Lib.Float64
import CaddyPanel.Lib.Rows
import CaddyPanel.Lib.Runs
import CaddyPanel.Lib.Text

/-!
# Traffic counters of the customer tunnels (`handlers/wg_bootstrap.go`, `NodePeerStatsReport`)

A node reports the raw counters of its peers, and the panel adds what they have grown by to cumulative
counters. What one entry adds is clamped to what the link can carry since the peer's last report. The
columns are unsigned, so the database refuses a row with a negative number. Times are nanoseconds of a
monotonic clock.
-/

namespace PeerStats

open List
open Text (Str)

/-! ### The ceiling -/

def maxLinkBytesPerSec : ℕ := 100000000000 / 8

/-- `time.Second` -/
def second : ℕ := 10 ^ 9

def bandwidthFirstReportWindow : ℕ := 3600 * second

/-- `Duration.Seconds`, in floating point. -/
def seconds (d : ℕ) : ℚ :=
  Float64.round (Float64.round (d / second : ℕ) + Float64.round ((d % second : ℕ) / second))

/-- The conversion to `int64`, as the processor does it. -/
def toInt64 (x : ℚ) : ℤ :=
  if ⌊x⌋ < 2 ^ 63 then ⌊x⌋ else -2 ^ 63

/-- The bytes a link can carry in this time. A time under a second counts as one second. -/
def linkCeiling (elapsed : ℕ) : ℤ :=
  let secs := seconds elapsed
  toInt64 (Float64.round ((if secs < 1 then 1 else secs) * maxLinkBytesPerSec))

/-- `bandwidthCeiling`, given the time of the last report. -/
def bandwidthCeiling (last : Option ℕ) (now : ℕ) : ℤ :=
  match last with
  | some t => if t < now then linkCeiling (now - t) else linkCeiling bandwidthFirstReportWindow
  | none => linkCeiling bandwidthFirstReportWindow

/-! ### The counters -/

inductive Direction where
  | rx
  | tx
  deriving DecidableEq

/-- The columns of one direction: the raw counter, the one the next report is compared with, the sum. -/
structure Counter where
  bytes : ℕ
  prev : ℕ
  cumulative : ℕ
  deriving DecidableEq

structure Peer where
  nodeID : ℕ
  pubkey : Str
  counter : Direction → Counter
  lastHandshakeEpoch : Option ℤ
  endpoint : Option Str

def Peer.key (r : Peer) : ℕ × Str :=
  (r.nodeID, r.pubkey)

/-- An entry of a report. -/
structure Stat where
  pubkey : Str
  lastHandshake : ℤ
  bytes : Direction → ℤ
  endpoint : Str
  /-- whether the database takes the row, its counters apart -/
  written : Bool

structure Report where
  nodeID : ℕ
  now : ℕ
  stats : List Stat
  /-- whether the query for the previous counters succeeds -/
  loaded : Bool

/-- The peers, and `lastStatsReport`. -/
structure State where
  peers : Rows Peer.key
  lastStatsReport : ℕ × Str → Option ℕ

/-- A counter that went backwards was reset. -/
def delta (value : ℤ) (prev : ℕ) : ℤ :=
  if prev ≤ value then value - prev else value

def clamp (delta ceiling : ℤ) : ℤ :=
  if ceiling < delta then ceiling else delta

/-- An unsigned column. -/
def unsigned (n : ℤ) : Option ℕ :=
  if 0 ≤ n ∧ n < 2 ^ 64 then some n.toNat else none

def Counter.add (c : Counter) (value delta : ℤ) : Option Counter := do
  let bytes ← unsigned value
  let cumulative ← unsigned (c.cumulative + delta)
  return { bytes, prev := bytes, cumulative }

/-- The row after the `UPDATE`, which fails as a whole. -/
def Peer.store (e : Stat) (deltas : Direction → ℤ) (r : Peer) : Peer :=
  match (r.counter .rx).add (e.bytes .rx) (deltas .rx), (r.counter .tx).add (e.bytes .tx) (deltas .tx) with
  | some rx, some tx =>
    if e.written then
      { r with
        counter := fun | .rx => rx | .tx => tx
        lastHandshakeEpoch := if 0 < e.lastHandshake then some e.lastHandshake else r.lastHandshakeEpoch
        endpoint := if e.endpoint = [] then none else some e.endpoint }
    else r
  | _, _ => r

lemma Peer.key_store (e : Stat) (deltas : Direction → ℤ) (r : Peer) : (r.store e deltas).key = r.key := by
  unfold Peer.store
  split
  · split <;> rfl
  · rfl

/-- One turn of the loop. `prev` has the rows as they were before the loop. -/
def reportStat (nodeID now : ℕ) (prev : Str → Option Peer) (s : State) (e : Stat) : State :=
  if Text.byteLength e.pubkey ≠ 44 then s
  else
    let key := (nodeID, e.pubkey)
    let ceiling := bandwidthCeiling (s.lastStatsReport key) now
    let deltas d :=
      match prev e.pubkey with
      | some r => clamp (delta (e.bytes d) (r.counter d).prev) ceiling
      | none => clamp 0 ceiling
    { peers := s.peers.update (fun r => r.key = key) (Peer.store e deltas) (Peer.key_store e deltas)
      lastStatsReport := Function.update s.lastStatsReport key (some now) }

def nodePeerStatsReport (s : State) (r : Report) : State :=
  let prev pubkey := if r.loaded then s.peers.lookup (r.nodeID, pubkey) else none
  r.stats.foldl (reportStat r.nodeID r.now prev) s

def step (s : State) (r : Report) : Option State :=
  some (nodePeerStatsReport s r)

/-- What is stored for a peer; nothing for a peer that does not exist. -/
def cumulative (s : State) (d : Direction) (key : ℕ × Str) : ℕ :=
  ((s.peers.lookup key).map fun r => (r.counter d).cumulative).getD 0

/-! ### When the bound holds -/

/-- The entries that are not skipped. -/
def Report.counted (r : Report) : List Stat :=
  r.stats.filter fun e => Text.byteLength e.pubkey = 44

/-- The ceilings of a report are numbers of the type they are computed in. -/
def Representable (s : State) (r : Report) : Prop :=
  ∀ e ∈ r.counted, ∀ t, s.lastStatsReport (r.nodeID, e.pubkey) = some t → 0 ≤ linkCeiling (r.now - t)

/-- The report names no peer twice, and the ceiling of each peer is what the link carries in the time
since the peer's last report. -/
def Paced (s : State) (r : Report) : Prop :=
  (r.counted.map Stat.pubkey).Nodup ∧
    ∀ e ∈ r.counted, ∀ t, s.lastStatsReport (r.nodeID, e.pubkey) = some t →
      t < r.now ∧ 0 ≤ linkCeiling (r.now - t) ∧
        linkCeiling (r.now - t) * second ≤ maxLinkBytesPerSec * (r.now - t : ℕ)

/-! ### The ceiling in floating point -/

/-- A whole number of seconds is exact. -/
lemma linkCeiling_seconds {k : ℕ} (hk : 1 ≤ k) (hle : k * maxLinkBytesPerSec ≤ 2 ^ 53) :
    linkCeiling (k * second) = k * maxLinkBytesPerSec := by
  have hk53 : k ≤ 2 ^ 53 := (Nat.le_mul_of_pos_right k (by decide)).trans hle
  have hsecs : seconds (k * second) = k := by
    have hzero : Float64.round ((0 : ℕ) / second) = 0 := by simp [Float64.round, Float64.roundHalfEven]
    rw [seconds, Nat.mul_div_cancel _ (by decide), Nat.mul_mod_left, hzero, Float64.round_natCast hk53,
      add_zero, Float64.round_natCast hk53]
  have hround : Float64.round ((k : ℚ) * maxLinkBytesPerSec) = (k * maxLinkBytesPerSec : ℕ) := by
    rw [← Nat.cast_mul]
    exact Float64.round_natCast hle
  have hone : ¬ (k : ℚ) < 1 := by exact_mod_cast Nat.not_lt.mpr hk
  have hfloor : ⌊((k * maxLinkBytesPerSec : ℕ) : ℚ)⌋ = (k * maxLinkBytesPerSec : ℕ) := Int.floor_natCast _
  have hlt : ((k * maxLinkBytesPerSec : ℕ) : ℤ) < 2 ^ 63 := by exact_mod_cast hle.trans_lt (by decide)
  unfold linkCeiling
  dsimp only
  rw [hsecs, if_neg hone, hround, toInt64, hfloor, if_pos hlt]
  exact Nat.cast_mul _ _

lemma normal_le : (2 : ℚ) ^ (-1022 : ℤ) ≤ 1 / second :=
  calc (2 : ℚ) ^ (-1022 : ℤ) ≤ 2 ^ (-30 : ℤ) := zpow_le_zpow_right₀ one_le_two (by decide)
    _ ≤ 1 / second := by norm_num [second]

lemma normal_le_one : (2 : ℚ) ^ (-1022 : ℤ) ≤ 1 :=
  normal_le.trans (by norm_num [second])

lemma seconds_le {d : ℕ} (hsecond : second ≤ d) (hday : d ≤ 86400 * second) :
    seconds d ≤ (d / second : ℚ) * (1 + 2 ^ (-53 : ℤ)) ^ 2 := by
  have hwhole : Float64.round (d / second : ℕ) = (d / second : ℕ) := by
    refine Float64.round_natCast ((Nat.div_le_of_le_mul ?_).trans (by decide : 86400 ≤ 2 ^ 53))
    rwa [Nat.mul_comm]
  have hwhole_pos : (1 : ℚ) ≤ (d / second : ℕ) := by
    exact_mod_cast Nat.div_pos hsecond (by decide)
  have hpart : Float64.round ((d % second : ℕ) / second) ≤
      ((d % second : ℕ) / second : ℚ) * (1 + 2 ^ (-53 : ℤ)) := by
    rcases Nat.eq_zero_or_pos (d % second) with h | h
    · simp [h, Float64.round, Float64.roundHalfEven]
    refine Float64.round_le_mul (normal_le.trans ?_)
    have hone : (1 : ℚ) ≤ (d % second : ℕ) := by exact_mod_cast h
    gcongr
  have hpart_nonneg : 0 ≤ Float64.round ((d % second : ℕ) / second) :=
    Float64.round_nonneg (by positivity)
  have hsplit : ((d / second : ℕ) : ℚ) + (d % second : ℕ) / second = d / second := by
    have h : ((second * (d / second) + d % second : ℕ) : ℚ) = d := by rw [Nat.div_add_mod]
    rw [← h]
    push_cast
    have hne : (second : ℚ) ≠ 0 := by norm_num [second]
    field_simp
  calc seconds d
      = Float64.round ((d / second : ℕ) + Float64.round ((d % second : ℕ) / second)) := by
        rw [seconds, hwhole]
    _ ≤ ((d / second : ℕ) + Float64.round ((d % second : ℕ) / second)) * (1 + 2 ^ (-53 : ℤ)) :=
        Float64.round_le_mul (normal_le_one.trans (by linarith))
    _ ≤ ((d / second : ℕ) * (1 + 2 ^ (-53 : ℤ)) +
          ((d % second : ℕ) / second : ℚ) * (1 + 2 ^ (-53 : ℤ))) * (1 + 2 ^ (-53 : ℤ)) := by
        have hu : (1 : ℚ) ≤ 1 + 2 ^ (-53 : ℤ) := by norm_num
        have := le_mul_of_one_le_right (zero_le_one.trans hwhole_pos) hu
        gcongr
    _ = (d / second : ℚ) * (1 + 2 ^ (-53 : ℤ)) ^ 2 := by
        rw [← add_mul, hsplit]
        ring

/-- From a second to a day, rounding does not raise the ceiling above what the link carries. -/
lemma linkCeiling_le {d : ℕ} (hsecond : second ≤ d) (hday : d ≤ 86400 * second) :
    0 ≤ linkCeiling d ∧ linkCeiling d * second ≤ maxLinkBytesPerSec * d := by
  have hd : (1 : ℚ) ≤ d / second := by
    rw [le_div_iff₀ (by norm_num [second])]
    exact_mod_cast hsecond
  have hdle : (d : ℚ) ≤ 86400000000000 := by exact_mod_cast hday
  -- the seconds that are multiplied
  obtain ⟨secs, hsecs⟩ : ∃ secs, secs = if seconds d < 1 then 1 else seconds d := ⟨_, rfl⟩
  have hge : 1 ≤ secs := by
    rw [hsecs]
    split
    · exact le_refl 1
    · next h => exact not_lt.mp h
  have hle : secs ≤ (d / second : ℚ) * (1 + 2 ^ (-53 : ℤ)) ^ 2 := by
    rw [hsecs]
    split
    · have hu : (1 : ℚ) ≤ (1 + 2 ^ (-53 : ℤ)) ^ 2 := by norm_num
      exact hd.trans (le_mul_of_one_le_right (zero_le_one.trans hd) hu)
    · exact seconds_le hsecond hday
  -- the product is less than half a byte too large
  obtain ⟨x, hx⟩ : ∃ x, x = Float64.round (secs * maxLinkBytesPerSec) := ⟨_, rfl⟩
  have hprod : 1 ≤ secs * maxLinkBytesPerSec := by
    norm_num [maxLinkBytesPerSec]
    linarith
  have hxle : x ≤ 25 * d / 2 + 2 / 5 := by
    calc x ≤ secs * maxLinkBytesPerSec * (1 + 2 ^ (-53 : ℤ)) := by
          rw [hx]
          exact Float64.round_le_mul (normal_le_one.trans hprod)
      _ ≤ (d / second : ℚ) * (1 + 2 ^ (-53 : ℤ)) ^ 2 * maxLinkBytesPerSec * (1 + 2 ^ (-53 : ℤ)) := by
          gcongr
      _ ≤ 25 * d / 2 + 2 / 5 := by
          norm_num [second, maxLinkBytesPerSec]
          linarith
  have hxnonneg : 0 ≤ x := by
    rw [hx]
    exact Float64.round_nonneg (by linarith)
  have hceiling : linkCeiling d = ⌊x⌋ := by
    have hbound : ⌊x⌋ < 2 ^ 63 := by
      rw [Int.floor_lt]
      norm_num
      linarith
    unfold linkCeiling
    dsimp only
    rw [← hsecs, ← hx, toInt64, if_pos hbound]
  -- and twice the exact product is a whole number
  have hfloor : 2 * ⌊x⌋ ≤ 25 * d := by
    have h : ((2 * ⌊x⌋ : ℤ) : ℚ) < ((25 * d + 1 : ℤ) : ℚ) := by
      have := Int.floor_le x
      push_cast
      linarith
    have h := Int.cast_lt.mp h
    omega
  refine ⟨hceiling ▸ Int.floor_nonneg.mpr hxnonneg, ?_⟩
  norm_num [second, maxLinkBytesPerSec]
  omega

lemma linkCeiling_window : linkCeiling bandwidthFirstReportWindow = 3600 * maxLinkBytesPerSec := by
  exact_mod_cast linkCeiling_seconds (k := 3600) (by decide) (by decide)

lemma linkCeiling_window_nonneg : 0 ≤ linkCeiling bandwidthFirstReportWindow := by
  rw [linkCeiling_window]
  decide

/-! ### One entry -/

lemma clamp_mem {delta ceiling : ℤ} (hdelta : 0 ≤ delta) (hceiling : 0 ≤ ceiling) :
    0 ≤ clamp delta ceiling ∧ clamp delta ceiling ≤ ceiling := by
  unfold clamp
  split <;> omega

lemma unsigned_eq_some {n : ℤ} {m : ℕ} (h : unsigned n = some m) : (m : ℤ) = n := by
  unfold unsigned at h
  split at h
  · next hn =>
    cases h
    exact Int.toNat_of_nonneg hn.1
  · cases h

lemma Counter.add_eq_some {c c' : Counter} {value delta : ℤ} (h : c.add value delta = some c') :
    0 ≤ value ∧ (c'.cumulative : ℤ) = c.cumulative + delta := by
  obtain ⟨bytes, hbytes, h⟩ := Option.bind_eq_some_iff.mp h
  obtain ⟨sum, hsum, h⟩ := Option.bind_eq_some_iff.mp h
  cases h
  exact ⟨(unsigned_eq_some hbytes) ▸ Int.natCast_nonneg bytes, unsigned_eq_some hsum⟩

/-- A row keeps its counter, or the new one is accepted. -/
lemma Peer.counter_store (e : Stat) (deltas : Direction → ℤ) (r : Peer) (d : Direction) :
    (r.store e deltas).counter d = r.counter d ∨
      (r.counter d).add (e.bytes d) (deltas d) = some ((r.store e deltas).counter d) := by
  unfold Peer.store
  split
  · next rx tx hrx htx =>
    split
    · cases d
      · exact .inr hrx
      · exact .inr htx
    · exact .inl rfl
  · exact .inl rfl

section Entry

variable {nodeID : ℕ} (now : ℕ) (prev : Str → Option Peer) (s : State) {e : Stat}

lemma reportStat_of_ne {key : ℕ × Str} (h : (nodeID, e.pubkey) ≠ key) (d : Direction) :
    cumulative (reportStat nodeID now prev s e) d key = cumulative s d key ∧
      (reportStat nodeID now prev s e).lastStatsReport key = s.lastStatsReport key := by
  unfold reportStat
  split
  · exact ⟨rfl, rfl⟩
  refine ⟨?_, Function.update_of_ne h.symm _ _⟩
  unfold cumulative
  rw [Rows.lookup_update]
  cases hr : s.peers.lookup key with
  | none => rfl
  | some r =>
    have hkey : r.key ≠ (nodeID, e.pubkey) := (Rows.lookup_eq_some.mp hr).2 ▸ h.symm
    simp [hkey]

lemma lastStatsReport_reportStat (nodeID : ℕ) (e : Stat) (key : ℕ × Str) :
    (reportStat nodeID now prev s e).lastStatsReport key = s.lastStatsReport key ∨
      (reportStat nodeID now prev s e).lastStatsReport key = some now := by
  unfold reportStat
  split
  · exact .inl rfl
  by_cases h : key = (nodeID, e.pubkey)
  · subst h
    exact .inr (Function.update_self _ _ _)
  · exact .inl (Function.update_of_ne h _ _)

variable {now} {s}

/-- An entry adds at most its ceiling, and takes nothing away. -/
lemma reportStat_cumulative
    (hceiling : 0 ≤ bandwidthCeiling (s.lastStatsReport (nodeID, e.pubkey)) now) (d : Direction) (key : ℕ × Str) :
    cumulative s d key ≤ cumulative (reportStat nodeID now prev s e) d key ∧
      (cumulative (reportStat nodeID now prev s e) d key : ℤ) ≤
        cumulative s d key + bandwidthCeiling (s.lastStatsReport (nodeID, e.pubkey)) now := by
  unfold reportStat
  split
  · exact ⟨le_refl _, by omega⟩
  dsimp only
  generalize hdeltas : (fun d => match prev e.pubkey with
    | some r => clamp (delta (e.bytes d) (r.counter d).prev)
        (bandwidthCeiling (s.lastStatsReport (nodeID, e.pubkey)) now)
    | none => clamp 0 (bandwidthCeiling (s.lastStatsReport (nodeID, e.pubkey)) now)) = deltas
  have hdelta : 0 ≤ e.bytes d → 0 ≤ deltas d ∧
      deltas d ≤ bandwidthCeiling (s.lastStatsReport (nodeID, e.pubkey)) now := by
    intro hbytes
    rw [← hdeltas]
    split
    · exact clamp_mem (by unfold delta; split <;> omega) hceiling
    · exact clamp_mem le_rfl hceiling
  unfold cumulative
  rw [Rows.lookup_update]
  cases hr : s.peers.lookup key with
  | none => exact ⟨le_refl _, by simpa using hceiling⟩
  | some r =>
    simp only [Option.map_some, Option.getD_some]
    split
    · rcases Peer.counter_store e deltas r d with h | h
      · rw [h]
        omega
      · obtain ⟨hbytes, hsum⟩ := Counter.add_eq_some h
        omega
    · omega

end Entry

/-! ### One report -/

section Report

variable {nodeID : ℕ} (now : ℕ) (prev : Str → Option Peer) (s : State) {key : ℕ × Str}

lemma foldl_reportStat_of_ne {es : List Stat} (h : ∀ e ∈ es, (nodeID, e.pubkey) ≠ key) (d : Direction) :
    cumulative (es.foldl (reportStat nodeID now prev) s) d key = cumulative s d key ∧
      (es.foldl (reportStat nodeID now prev) s).lastStatsReport key = s.lastStatsReport key := by
  induction es generalizing s with
  | nil => exact ⟨rfl, rfl⟩
  | cons e es ih =>
    obtain ⟨hcum, hlast⟩ := reportStat_of_ne now prev s (h e mem_cons_self) d
    obtain ⟨hcum', hlast'⟩ := ih (reportStat nodeID now prev s e)
      (fun e he => h e (mem_cons_of_mem _ he))
    exact ⟨hcum'.trans hcum, hlast'.trans hlast⟩

variable {now} {s}

/-- A report that names a peer at most once adds at most one ceiling to its counters. -/
lemma foldl_reportStat {es : List Stat} (hnodup : (es.map Stat.pubkey).Nodup)
    (hceiling : ∀ e ∈ es, 0 ≤ bandwidthCeiling (s.lastStatsReport (nodeID, e.pubkey)) now) (d : Direction) :
    (cumulative (es.foldl (reportStat nodeID now prev) s) d key = cumulative s d key ∧
        (es.foldl (reportStat nodeID now prev) s).lastStatsReport key = s.lastStatsReport key) ∨
      (∃ e ∈ es, (nodeID, e.pubkey) = key) ∧
        (cumulative s d key ≤ cumulative (es.foldl (reportStat nodeID now prev) s) d key ∧
          (cumulative (es.foldl (reportStat nodeID now prev) s) d key : ℤ) ≤
            cumulative s d key + bandwidthCeiling (s.lastStatsReport key) now) ∧
        (es.foldl (reportStat nodeID now prev) s).lastStatsReport key = some now := by
  induction es generalizing s with
  | nil => exact .inl ⟨rfl, rfl⟩
  | cons e es ih =>
    obtain ⟨hhead, htail⟩ := nodup_cons.mp hnodup
    by_cases hkey : (nodeID, e.pubkey) = key
    · -- no later entry is about the peer
      have hrest : ∀ e' ∈ es, (nodeID, e'.pubkey) ≠ key := by
        intro e' he' h
        have hpub : e'.pubkey = e.pubkey := (Prod.mk.inj (h.trans hkey.symm)).2
        exact hhead (hpub ▸ mem_map_of_mem he')
      obtain ⟨hcum, hlast⟩ := foldl_reportStat_of_ne now prev (reportStat nodeID now prev s e) hrest d
      have hentry := reportStat_cumulative prev (hceiling e mem_cons_self) d key
      rw [hkey] at hentry
      rw [foldl_cons, hcum, hlast]
      by_cases hlength : Text.byteLength e.pubkey ≠ 44
      · have hsame : reportStat nodeID now prev s e = s := by rw [reportStat, if_pos hlength]
        rw [hsame]
        exact .inl ⟨rfl, rfl⟩
      · refine .inr ⟨⟨e, mem_cons_self, hkey⟩, hentry, ?_⟩
        rw [reportStat, if_neg hlength, ← hkey]
        exact Function.update_self _ _ _
    · have hsame := reportStat_of_ne now prev s hkey d
      have hceiling' : ∀ e' ∈ es,
          0 ≤ bandwidthCeiling ((reportStat nodeID now prev s e).lastStatsReport (nodeID, e'.pubkey)) now := by
        intro e' he'
        have hne : (nodeID, e.pubkey) ≠ (nodeID, e'.pubkey) := by
          intro h
          exact hhead ((Prod.mk.inj h).2 ▸ mem_map_of_mem he')
        rw [(reportStat_of_ne now prev s hne d).2]
        exact hceiling e' (mem_cons_of_mem _ he')
      rcases ih htail hceiling' with ⟨hcum, hlast⟩ | ⟨⟨e', he', hkey'⟩, hbound, hlast⟩
      · exact .inl ⟨hcum.trans hsame.1, hlast.trans hsame.2⟩
      · rw [hsame.1, hsame.2] at hbound
        exact .inr ⟨⟨e', mem_cons_of_mem _ he', hkey'⟩, hbound, hlast⟩

/-- No entry of a report takes anything away, named twice or not. -/
lemma le_foldl_reportStat {es : List Stat} {s₀ : State}
    (hlast : ∀ key, s.lastStatsReport key = s₀.lastStatsReport key ∨ s.lastStatsReport key = some now)
    (hrep : ∀ e ∈ es, ∀ t, s₀.lastStatsReport (nodeID, e.pubkey) = some t → 0 ≤ linkCeiling (now - t))
    (d : Direction) (key : ℕ × Str) :
    cumulative s d key ≤ cumulative (es.foldl (reportStat nodeID now prev) s) d key := by
  induction es generalizing s with
  | nil => exact le_refl _
  | cons e es ih =>
    have hceiling : 0 ≤ bandwidthCeiling (s.lastStatsReport (nodeID, e.pubkey)) now := by
      have hwindow := linkCeiling_window_nonneg
      rcases hlast (nodeID, e.pubkey) with h | h
      · rw [h]
        unfold bandwidthCeiling
        split
        · next t ht =>
          split
          · exact hrep e mem_cons_self t ht
          · exact hwindow
        · exact hwindow
      · rw [h, bandwidthCeiling, if_neg (lt_irrefl now)]
        exact hwindow
    refine (reportStat_cumulative prev hceiling d key).1.trans (ih (fun key => ?_) ?_)
    · rcases lastStatsReport_reportStat now prev s nodeID e key with h | h
      · rw [h]
        exact hlast key
      · exact .inr h
    · exact fun e he => hrep e (mem_cons_of_mem _ he)

end Report

lemma nodePeerStatsReport_eq (s : State) (r : Report) : nodePeerStatsReport s r = r.counted.foldl
    (reportStat r.nodeID r.now fun pubkey => if r.loaded then s.peers.lookup (r.nodeID, pubkey) else none) s := by
  rw [Report.counted, foldl_filter]
  refine foldl_ext _ _ _ fun t e _ => ?_
  by_cases hlength : Text.byteLength e.pubkey = 44
  · simp [hlength]
  · simp [reportStat, hlength]

/-- What a paced report does to the counters of a peer. -/
lemma report_of_paced {s : State} {r : Report} (h : Paced s r) (d : Direction) (key : ℕ × Str) :
    (cumulative (nodePeerStatsReport s r) d key = cumulative s d key ∧
        (nodePeerStatsReport s r).lastStatsReport key = s.lastStatsReport key) ∨
      cumulative s d key ≤ cumulative (nodePeerStatsReport s r) d key ∧
        (nodePeerStatsReport s r).lastStatsReport key = some r.now ∧
        ∀ t, s.lastStatsReport key = some t → t < r.now ∧
          cumulative (nodePeerStatsReport s r) d key * second ≤
            cumulative s d key * second + maxLinkBytesPerSec * (r.now - t) := by
  have hceiling : ∀ e ∈ r.counted, 0 ≤ bandwidthCeiling (s.lastStatsReport (r.nodeID, e.pubkey)) r.now := by
    intro e he
    unfold bandwidthCeiling
    split
    · next t ht =>
      obtain ⟨hlt, hnonneg, -⟩ := h.2 e he t ht
      rw [if_pos hlt]
      exact hnonneg
    · exact linkCeiling_window_nonneg
  rw [nodePeerStatsReport_eq]
  rcases foldl_reportStat _ h.1 hceiling d with hsame | ⟨⟨e, he, hkey⟩, ⟨hle, hbound⟩, hlast⟩
  · exact .inl hsame
  refine .inr ⟨hle, hlast, fun t ht => ?_⟩
  subst hkey
  obtain ⟨hlt, -, hlink⟩ := h.2 e he t ht
  rw [ht, bandwidthCeiling, if_pos hlt] at hbound
  refine ⟨hlt, ?_⟩
  have hmul := mul_le_mul_of_nonneg_right hbound (Int.natCast_nonneg second)
  rw [add_mul] at hmul
  exact_mod_cast hmul.trans (add_le_add_right hlink _)

/-- The cumulative counters never fall, as long as the ceilings are numbers; and where each report names
a peer at most once and comes late enough after the last one, they grow by no more than the link carries
between two reports of the peer. -/
theorem counters_of_reports {s s' : State} {reports : List Report}
    (h : Runs.run step s reports = some s') (d : Direction) (key : ℕ × Str) :
    (Runs.Meets step Representable s reports → cumulative s d key ≤ cumulative s' d key) ∧
      (Runs.Meets step Paced s reports → cumulative s d key ≤ cumulative s' d key ∧
        ∀ t₁ t₂, s.lastStatsReport key = some t₁ → s'.lastStatsReport key = some t₂ →
          (cumulative s' d key - cumulative s d key) * second ≤ maxLinkBytesPerSec * max second (t₂ - t₁)) := by
  constructor
  · intro hrep
    refine Runs.run_invariant_of_meets (I := fun t => cumulative s d key ≤ cumulative t d key)
      (fun s₁ r s₂ hle hr hstep => ?_) (le_refl _) hrep h
    cases hstep
    rw [nodePeerStatsReport_eq]
    exact hle.trans (le_foldl_reportStat _ (fun _ => .inl rfl) hr d key)
  intro hpaced
  -- what is stored since the start is what the link has carried up to the last report
  have hinv := Runs.run_invariant_of_meets
    (I := fun t => cumulative s d key ≤ cumulative t d key ∧
      ∀ t₁, s.lastStatsReport key = some t₁ → ∃ t₂, t.lastStatsReport key = some t₂ ∧ t₁ ≤ t₂ ∧
        cumulative t d key * second ≤ cumulative s d key * second + maxLinkBytesPerSec * (t₂ - t₁))
    (fun s₁ r s₂ hI hr hstep => ?_) ⟨le_refl _, fun t₁ ht₁ => ⟨t₁, ht₁, le_refl _, by simp⟩⟩ hpaced h
  · refine ⟨hinv.1, fun t₁ t₂ ht₁ ht₂ => ?_⟩
    obtain ⟨t, ht, -, hsum⟩ := hinv.2 t₁ ht₁
    cases ht₂.symm.trans ht
    have hmax := Nat.mul_le_mul_left maxLinkBytesPerSec (le_max_right second (t₂ - t₁))
    rw [Nat.sub_mul]
    omega
  cases hstep
  obtain ⟨hle, hbound⟩ := hI
  rcases report_of_paced hr d key with ⟨hcum, hlast⟩ | ⟨hcum, hlast, hlink⟩
  · rw [hcum, hlast]
    exact ⟨hle, hbound⟩
  refine ⟨hle.trans hcum, fun t₁ ht₁ => ?_⟩
  obtain ⟨t, ht, ht₁t, hsum⟩ := hbound t₁ ht₁
  obtain ⟨hlt, hadd⟩ := hlink t ht
  refine ⟨r.now, hlast, ht₁t.trans hlt.le, ?_⟩
  have hsplit : r.now - t₁ = (t - t₁) + (r.now - t) := by omega
  rw [hsplit, Nat.mul_add]
  omega

/-! ### A peer that is named twice -/

def somePubkey : Str := List.replicate 44 'A'

/-- A peer that was last reported at the start of the clock. -/
def oneReport : State where
  peers :=
    { rows := [⟨1, somePubkey, fun _ => ⟨0, 0, 0⟩, none, none⟩]
      nodup := nodup_singleton _ }
  lastStatsReport := fun _ => some 0

/-- An entry that claims so many incoming bytes. -/
def rxStat (bytes : ℤ) : Stat := ⟨somePubkey, 0, fun | .rx => bytes | .tx => 0, [], true⟩

def reportAt (now : ℕ) (stats : List Stat) : Report := ⟨1, now, stats, true⟩

lemma paced_oneReport : Paced oneReport (reportAt second [rxStat (10 ^ 14)]) := by
  refine ⟨nodup_singleton _, fun e he t ht => ?_⟩
  cases ht
  exact ⟨by decide, linkCeiling_le (le_refl _) (by decide)⟩

theorem counters_of_reports_once :
    (cumulative (nodePeerStatsReport oneReport (reportAt second [rxStat (10 ^ 14)])) .rx (1, somePubkey) -
      cumulative oneReport .rx (1, somePubkey)) * second ≤ maxLinkBytesPerSec * max second (second - 0) := by
  have hrun : Runs.run step oneReport [reportAt second [rxStat (10 ^ 14)]] =
      some (nodePeerStatsReport oneReport (reportAt second [rxStat (10 ^ 14)])) := rfl
  have hpaced : Runs.Meets step Paced oneReport [reportAt second [rxStat (10 ^ 14)]] :=
    ⟨paced_oneReport, trivial⟩
  exact ((counters_of_reports hrun .rx (1, somePubkey)).2 hpaced).2 0 second rfl (by decide +kernel)

/-- The second entry of a report gets the window of a first report, and a report after half a second
counts as one after a second: in one second the counter grows by more than the link carries. -/
theorem counters_exceed_link : maxLinkBytesPerSec * max second (second - 0) <
      (cumulative (nodePeerStatsReport oneReport (reportAt second [rxStat (10 ^ 14), rxStat (10 ^ 14)]))
        .rx (1, somePubkey) - cumulative oneReport .rx (1, somePubkey)) * second ∧
    maxLinkBytesPerSec * max second (second - 0) < (cumulative (nodePeerStatsReport (nodePeerStatsReport oneReport
          (reportAt (second / 2) [rxStat (10 ^ 14)])) (reportAt second [rxStat (10 ^ 14 - 1)]))
        .rx (1, somePubkey) - cumulative oneReport .rx (1, somePubkey)) * second := by
  decide +kernel

end PeerStats
