import CaddyPanel.Lib.Runs
import CaddyPanel.Lib.Text

/-!
# Confirming a node's preshared key (`handlers/node_psk.go`, `wireguard/configfile.go`)

`Confirm` promotes the staged key, renders `wg0.conf`, clears the pending marker and answers 204. If the render
fails, it writes back the key that it had read before its promotion. All calls for one staged key carry the same
token, and each of these is a step of its own, so that calls interleave. A render reads the nodes that are approved,
enabled and on the mesh, and takes rows that break off for all of them; the rest of the config does not change with the
key.
-/

namespace NodePsk

open Option Runs
open Text (Str)

-- what decrypting a stored key gives, if it is a valid preshared key
variable (dec : Str → Option Str)

/-- The `PresharedKey` line of the node, for what the query of `Render` gives for it: no row, or one with the stored
key. `none` is an error of `Render`. -/
def pskLine : Option (Option Str) → Option (Option Str)
  | none => some none
  | some none => some none
  | some (some []) => some none
  | some (some enc) => (dec enc).map some

/-- A call of `Confirm` between two of its steps, with the `prevActive` and `pending` of its transaction. -/
inductive Call where
  | promoted (prevActive pending : Option Str)
  | compensating (prevActive pending : Option Str)
  /-- the second render, whose outcome is ignored -/
  | rerendering
  | rendered
  /-- what is left is the 204 -/
  | answering
  deriving DecidableEq

structure Panel where
  /-- the node meets the conditions of the query: approved, enabled, with a public key and an address -/
  listed : Bool
  /-- `wg_psk_enc` -/
  active : Option Str
  /-- `wg_psk_pending_enc` -/
  pending : Option Str
  /-- the line in the last config that was written, if there is one -/
  file : Option (Option Str)
  /-- who holds the lock of the writer (`none` is a render from elsewhere), and the row it has read -/
  rendering : Option (Option ℕ × Option (Option Str))
  calls : ℕ → Option Call
  /-- history: some call has answered 204 -/
  answered : Bool

/-- How a render ends: with an error, with rows that broke off before the node, which nobody notices, or whole. -/
inductive Outcome where
  | failed
  | cut
  | complete
  deriving DecidableEq

inductive Action where
  /-- the node is approved, enabled or disabled -/
  | list (listed : Bool)
  | confirm (call : ℕ) (fails : Bool)
  /-- a render fails before it comes to the lock -/
  | fail (call : ℕ)
  | lock (who : Option ℕ)
  | unlock (outcome : Outcome)
  | compensate (call : ℕ) (fails : Bool)
  | clear (call : ℕ) (fails : Bool)
  | answer (call : ℕ)

def Panel.set (s : Panel) (call : ℕ) (c : Option Call) : Panel :=
  { s with calls := Function.update s.calls call c }

/-- How a call goes on after a render. -/
def Call.afterRender (ok : Bool) : Call → Option Call
  | .promoted prevActive pending => if ok then some .rendered else some (.compensating prevActive pending)
  | .rerendering => none
  | c => some c

def Call.renders : Call → Bool
  | .promoted _ _ => true
  | .rerendering => true
  | _ => false

/-- The call that held the lock goes on. -/
def Panel.resume (s : Panel) (ok : Bool) : Option ℕ → Panel
  | some call => s.set call ((s.calls call).bind (Call.afterRender ok))
  | none => s

/-- The row of the node in the query of `Render`. -/
def Panel.row (s : Panel) : Option (Option Str) :=
  if s.listed then some s.active else none

/-- The line of the config that is written. -/
def Outcome.line (row : Option (Option Str)) : Outcome → Option (Option Str)
  | .failed => none
  | .cut => some none
  | .complete => pskLine dec row

def step (s : Panel) : Action → Option Panel
  | .list listed => some { s with listed := listed }
  | .confirm call fails =>
    if (s.calls call).isSome then none
    else if fails then some s
    else
      match s.pending with
      | none => some (s.set call (some .answering))
      | some key => some ({ s with active := some key }.set call (some (.promoted s.active s.pending)))
  | .fail call =>
    match s.calls call with
    | some c =>
      if c.renders ∧ s.rendering.map Prod.fst ≠ some (some call) then some (s.resume false (some call)) else none
    | none => none
  | .lock who =>
    if s.rendering.isSome then none
    else if who.all fun call => (s.calls call).any Call.renders then
      some { s with rendering := some (who, s.row) }
    else none
  | .unlock outcome =>
    match s.rendering with
    | some (who, row) =>
      match outcome.line dec row with
      | some line => some ({ s with file := some line, rendering := none }.resume true who)
      | none => some ({ s with rendering := none }.resume false who)
    | none => none
  | .compensate call fails =>
    match s.calls call with
    | some (.compensating prevActive pending) =>
      if fails then some (s.set call (some .rerendering))
      else some ({ s with active := prevActive, pending := pending }.set call (some .rerendering))
    | _ => none
  | .clear call fails =>
    match s.calls call with
    | some .rendered =>
      some ({ s with pending := if fails then s.pending else none }.set call (some .answering))
    | _ => none
  | .answer call =>
    match s.calls call with
    | some .answering => some ({ s with answered := true }.set call none)
    | _ => none

/-! ### The promise of a 204 -/

/-- The staged key is active, and the last config that was written has it. -/
def Applied (key : Str) (s : Panel) : Prop :=
  s.active = some key ∧ ∃ psk, dec key = some psk ∧ s.file = some (some psk)

def Call.isPromoted : Call → Bool
  | .promoted _ _ => true
  | _ => false

/-- The render of the call is done. -/
def Call.isDone : Call → Bool
  | .rendered => true
  | .answering => true
  | _ => false

/-- Somebody has been told, or will be told, that the key is in use. -/
def Settled (s : Panel) : Prop :=
  s.answered ∨ s.pending = none ∨ ∃ call c, s.calls call = some c ∧ c.isDone

def Promoted (s : Panel) : Prop :=
  ∃ call c, s.calls call = some c ∧ c.isPromoted

/-- Nobody relies on what is written now: no answer stands for it, and the render is not that of a promoted call. -/
def Unrelied (s : Panel) (who : Option ℕ) : Prop :=
  ¬ Settled s ∧ ∀ call c, who = some call → s.calls call = some c → c.isPromoted = false

/-- A compensation writes back another key only while no other call is between its promotion and its answer, and
before the first answer; a render misses the node, or breaks off before it, only while nobody relies on it. -/
def Orderly (key : Str) (s : Panel) : Action → Prop
  | .compensate call false => ∀ prevActive pending, s.calls call = some (.compensating prevActive pending) →
      prevActive = some key ∨ s.answered = false ∧
        ∀ other c, s.calls other = some c → c.isPromoted = false ∧ c.isDone = false
  | .lock who => s.listed ∨ Unrelied s who
  | .unlock .cut => ∀ who row, s.rendering = some (who, row) → Unrelied s who
  | _ => True

/-- What the call would put back as pending is the staged key. -/
def Call.Owns (key : Str) : Call → Prop
  | .promoted _ pending => pending = some key
  | .compensating _ pending => pending = some key
  | _ => True

/-- The panel while `key` is staged. -/
structure Staged (key : Str) (s : Panel) : Prop where
  pending : s.pending = none ∨ s.pending = some key
  own : ∀ call c, s.calls call = some c → c.Owns key
  active : Settled s ∨ Promoted s → s.active = some key
  file : Settled s → s.file = pskLine dec (some (some key)) ∧ s.file.isSome
  holder : ∀ call k, s.rendering = some (some call, k) → (s.calls call).any Call.renders
  lock : ∀ who row, s.rendering = some (who, row) → row ≠ some (some key) → Unrelied s who

variable {dec} {key : Str} {s s' : Panel}

/-! ### Steps -/

variable {call i : ℕ} {c : Option Call} {fails answered : Bool} {row : Option (Option Str)}
  {line prevActive pending : Option Str}

lemma settled_set (h : Settled (s.set call c)) : Settled s ∨ ∃ c', c = some c' ∧ c'.isDone := by
  obtain h | h | ⟨i, c', hi, hdone⟩ := h
  · exact .inl (.inl h)
  · exact .inl (.inr (.inl h))
  obtain ⟨-, hc⟩ | ⟨-, hi⟩ := update_eq_some hi
  · exact .inr ⟨c', hc, hdone⟩
  · exact .inl (.inr (.inr ⟨i, c', hi, hdone⟩))

lemma promoted_set (h : Promoted (s.set call c)) : Promoted s ∨ ∃ c', c = some c' ∧ c'.isPromoted := by
  obtain ⟨i, c', hi, hprom⟩ := h
  obtain ⟨-, hc⟩ | ⟨-, hi⟩ := update_eq_some hi
  · exact .inr ⟨c', hc, hprom⟩
  · exact .inl ⟨i, c', hi, hprom⟩

/-- A call goes on to something that promises no more than what is already promised. -/
lemma Staged.set (hs : Staged dec key s) (hown : ∀ c', c = some c' → c'.Owns key)
    (hdone : ∀ c', c = some c' → c'.isDone → Settled s) (hprom : ∀ c', c = some c' → c'.isPromoted = false)
    (hfree : s.rendering.map Prod.fst ≠ some (some call)) : Staged dec key (s.set call c) := by
  have hsettled : Settled (s.set call c) → Settled s := by
    intro h
    obtain h | ⟨c', hc, hd⟩ := settled_set h
    · exact h
    · exact hdone c' hc hd
  refine ⟨hs.pending, fun i c' hi => ?_, fun h => hs.active ?_, fun h => hs.file (hsettled h), fun i k hi => ?_,
    fun who k hk hne => ?_⟩
  · obtain ⟨-, hc⟩ | ⟨-, hi⟩ := update_eq_some hi
    · exact hown c' hc
    · exact hs.own i c' hi
  · obtain h | h := h
    · exact .inl (hsettled h)
    obtain h | ⟨c', hc, hp⟩ := promoted_set h
    · exact .inr h
    · rw [hprom c' hc] at hp
      cases hp
  · have hne : i ≠ call := by
      rintro rfl
      have hheld : s.rendering = some (some i, k) := hi
      exact hfree (by rw [hheld, map_some])
    simp only [Panel.set, Function.update_of_ne hne]
    exact hs.holder i k hi
  · obtain ⟨hunsettled, hholder⟩ := hs.lock who k hk hne
    refine ⟨fun h => hunsettled (hsettled h), fun i c' hwho hi => ?_⟩
    obtain ⟨-, hc⟩ | ⟨-, hi⟩ := update_eq_some hi
    · exact hprom c' hc
    · exact hholder i c' hwho hi

lemma not_held (hs : Staged dec key s) (h : (s.calls call).any Call.renders = false) :
    s.rendering.map Prod.fst ≠ some (some call) := by
  intro hheld
  obtain ⟨⟨who, k⟩, hk, hwho⟩ := map_eq_some_iff.mp hheld
  cases hwho
  rw [hs.holder call k hk] at h
  cases h

lemma Staged.confirm (hs : Staged dec key s) (h : step dec s (.confirm call fails) = some s') : Staged dec key s' := by
  simp only [step] at h
  split_ifs at h with hbusy hfails
  · cases h
    exact hs
  have hidle : s.calls call = none := by simpa using hbusy
  have hfree : s.rendering.map Prod.fst ≠ some (some call) := not_held hs (by simp [hidle])
  split at h
  · next hpending =>
    cases h
    refine hs.set ?_ ?_ ?_ hfree <;> rintro c' ⟨⟩
    · trivial
    · exact fun _ => .inr (.inl hpending)
    · rfl
  rename_i key' hpending
  cases h
  have hkey : key' = key := by
    obtain h | h := hs.pending
    · cases hpending.symm.trans h
    · exact Option.some.inj (hpending.symm.trans h)
  have hsettled : Settled ({ s with active := some key' }.set call (some (.promoted s.active s.pending))) →
      Settled s := by
    intro h
    obtain h | ⟨c', hc, hd⟩ := settled_set h
    · exact h
    · cases hc
      cases hd
  refine ⟨hs.pending, fun i c' hi => ?_, fun _ => congrArg some hkey, fun h => hs.file (hsettled h),
    fun i k hi => ?_, fun who k hk hne => ?_⟩
  · obtain ⟨-, hc⟩ | ⟨-, hi⟩ := update_eq_some hi
    · cases hc
      exact hpending.trans (congrArg some hkey)
    · exact hs.own i c' hi
  · have hi' := hs.holder i k hi
    have hne : i ≠ call := by
      rintro rfl
      simp [hidle] at hi'
    simpa only [Panel.set, Function.update_of_ne hne] using hi'
  · obtain ⟨hunsettled, hholder⟩ := hs.lock who k hk hne
    refine ⟨fun h => hunsettled (hsettled h), fun i c' hwho hi => ?_⟩
    obtain ⟨rfl, -⟩ | ⟨-, hi⟩ := update_eq_some hi
    · subst hwho
      have hheld := hs.holder i k hk
      simp [hidle] at hheld
    · exact hholder i c' hwho hi

lemma Call.of_afterRender_false {c c' : Call} (h : c.afterRender false = some c') (hr : c.renders) :
    ∃ prevActive pending, c = .promoted prevActive pending ∧ c' = .compensating prevActive pending := by
  cases c with
  | promoted prevActive pending =>
    cases h
    exact ⟨prevActive, pending, rfl, rfl⟩
  | rerendering => cases h
  | _ => cases hr

/-- After a failed render the call compensates, or is over. -/
lemma Staged.resume_false {c : Call} (hs : Staged dec key s) (hcall : s.calls call = some c)
    (hr : c.renders) (hfree : s.rendering.map Prod.fst ≠ some (some call)) :
    Staged dec key (s.resume false (some call)) := by
  rw [Panel.resume, hcall]
  refine hs.set (fun c' hc => ?_) (fun c' hc hd => ?_) (fun c' hc => ?_) hfree <;>
    obtain ⟨prevActive, pending, rfl, rfl⟩ := Call.of_afterRender_false hc hr
  · have howns : pending = some key := hs.own call _ hcall
    exact howns
  · cases hd
  · rfl

lemma Staged.released (hs : Staged dec key s) : Staged dec key { s with rendering := none } :=
  ⟨hs.pending, hs.own, hs.active, hs.file, nofun, nofun⟩

/-- A render that is relied upon writes the staged key. -/
lemma Staged.written {who : Option ℕ} (hs : Staged dec key s)
    (hline : ¬ Unrelied s who → some line = pskLine dec (some (some key))) :
    Staged dec key { s with file := some line, rendering := none } := by
  refine ⟨hs.pending, hs.own, hs.active, fun hsettled => ⟨hline fun h => h.1 hsettled, rfl⟩, nofun, nofun⟩

/-- The render of a promoted call has written the staged key. -/
lemma Staged.rendered (hs : Staged dec key s) (hcall : s.calls call = some (.promoted prevActive pending))
    (hline : ¬ Unrelied s (some call) → some line = pskLine dec (some (some key))) :
    Staged dec key ({ s with file := some line, rendering := none }.set call (some .rendered)) := by
  have hactive : s.active = some key := hs.active (.inr ⟨call, _, hcall, rfl⟩)
  have hrelied : ¬ Unrelied s (some call) := by
    intro h
    cases h.2 call _ rfl hcall
  refine ⟨hs.pending, fun i c' hi => ?_, fun _ => hactive, fun _ => ⟨hline hrelied, rfl⟩, nofun, nofun⟩
  obtain ⟨-, hc⟩ | ⟨-, hi⟩ := update_eq_some hi
  · cases hc
    trivial
  · exact hs.own i c' hi

lemma Staged.unlock {outcome : Outcome} (hs : Staged dec key s) (ha : Orderly key s (.unlock outcome))
    (h : step dec s (.unlock outcome) = some s') : Staged dec key s' := by
  simp only [step] at h
  split at h
  · next who row hlock =>
    split at h
    · next line hread =>
      have hline : ¬ Unrelied s who → some line = pskLine dec (some (some key)) := by
        intro hrelied
        cases outcome with
        | failed => cases hread
        | cut => exact absurd (ha who row hlock) hrelied
        | complete =>
          have hrow : row = some (some key) := by
            by_contra hne
            exact hrelied (hs.lock who row hlock hne)
          exact hrow ▸ hread.symm
      cases h
      cases who with
      | none => exact hs.written hline
      | some call =>
        obtain ⟨c, hcall, hr⟩ := (any_eq_true _ _).mp (hs.holder call row hlock)
        simp only [Panel.resume, hcall, bind_some]
        cases c with
        | promoted prevActive pending => exact hs.rendered hcall hline
        | rerendering =>
          refine (hs.written hline).set ?_ ?_ ?_ (by simp) <;> rintro c' ⟨⟩
        | _ => cases hr
    · cases h
      cases who with
      | none => exact hs.released
      | some call =>
        obtain ⟨c, hcall, hr⟩ := (any_eq_true _ _).mp (hs.holder call row hlock)
        exact hs.released.resume_false hcall hr (by simp)
  · cases h

lemma Staged.compensate (hs : Staged dec key s) (ha : Orderly key s (.compensate call fails))
    (h : step dec s (.compensate call fails) = some s') : Staged dec key s' := by
  simp only [step] at h
  split at h
  · next prevActive pending hcall =>
    have hfree : s.rendering.map Prod.fst ≠ some (some call) := not_held hs (by simp [hcall, Call.renders])
    have hpending : pending = some key := hs.own call _ hcall
    cases fails with
    | true =>
      cases h
      refine hs.set ?_ ?_ ?_ hfree <;> rintro c' ⟨⟩
      · trivial
      · rintro ⟨⟩
      · rfl
    | false =>
      cases h
      subst hpending
      have hsettled : Settled { s with active := prevActive, pending := some key } → Settled s := by
        rintro (h | h | h)
        · exact .inl h
        · cases h
        · exact .inr (.inr h)
      have hback : Staged dec key { s with active := prevActive, pending := some key } := by
        refine ⟨.inr rfl, hs.own, fun h => ?_, fun h => hs.file (hsettled h), hs.holder, fun who k hk hne => ?_⟩
        · obtain hprev | ⟨hanswered, hothers⟩ := ha prevActive (some key) hcall
          · exact hprev
          obtain (h | h | ⟨i, c, hi, hd⟩) | ⟨i, c, hi, hp⟩ := h
          · exact absurd h (Bool.eq_false_iff.mp hanswered)
          · cases h
          · exact absurd hd (Bool.eq_false_iff.mp (hothers i c hi).2)
          · exact absurd hp (Bool.eq_false_iff.mp (hothers i c hi).1)
        · obtain ⟨hunsettled, hholder⟩ := hs.lock who k hk hne
          exact ⟨fun h => hunsettled (hsettled h), hholder⟩
      refine hback.set ?_ ?_ ?_ hfree <;> rintro c' ⟨⟩
      · trivial
      · rintro ⟨⟩
      · rfl
  · cases h

/-- Once the key is settled, the pending marker and the answer add nothing. -/
lemma Staged.of_settled (hs : Staged dec key s) (hsettled : Settled s)
    (hpending : pending = none ∨ pending = some key) : Staged dec key { s with pending, answered } :=
  ⟨hpending, hs.own, fun _ => hs.active (.inl hsettled), fun _ => hs.file hsettled, hs.holder,
    fun who k hk hne => absurd hsettled (hs.lock who k hk hne).1⟩

theorem Staged.step {a : Action} (hs : Staged dec key s) (ha : Orderly key s a) (h : step dec s a = some s') :
    Staged dec key s' := by
  cases a with
  | list listed =>
    cases h
    exact ⟨hs.pending, hs.own, hs.active, hs.file, hs.holder, hs.lock⟩
  | confirm call fails => exact hs.confirm h
  | fail call =>
    simp only [NodePsk.step] at h
    split at h
    · next c hcall =>
      split at h
      · next hr =>
        cases h
        exact hs.resume_false hcall hr.1 hr.2
      · cases h
    · cases h
  | lock who =>
    simp only [NodePsk.step] at h
    split_ifs at h with hheld hwho
    cases h
    refine ⟨hs.pending, hs.own, hs.active, hs.file, fun call k hk => ?_, fun who' k hk hne => ?_⟩
    · cases hk
      exact hwho
    cases hk
    obtain hlisted | hunrelied := ha
    swap
    · exact hunrelied
    have hactive : s.active ≠ some key := fun hactive => hne (by rw [Panel.row, if_pos hlisted, hactive])
    have hopen : ¬ (Settled s ∨ Promoted s) := fun h => hactive (hs.active h)
    refine ⟨fun h => hopen (.inl h), fun call c _ hcall => ?_⟩
    by_contra hprom
    exact hopen (.inr ⟨call, c, hcall, eq_true_of_ne_false hprom⟩)
  | unlock outcome => exact hs.unlock ha h
  | compensate call fails => exact hs.compensate ha h
  | clear call fails =>
    simp only [NodePsk.step] at h
    split at h
    · next hcall =>
      cases h
      have hsettled : Settled s := .inr (.inr ⟨call, _, hcall, rfl⟩)
      have hpending : (if fails then s.pending else none) = none ∨
          (if fails then s.pending else none) = some key := by
        cases fails with
        | true => exact hs.pending
        | false => exact .inl rfl
      have hfree : s.rendering.map Prod.fst ≠ some (some call) := not_held hs (by simp [hcall, Call.renders])
      refine (hs.of_settled hsettled hpending).set ?_ ?_ ?_ hfree <;> rintro c' ⟨⟩
      · trivial
      · exact fun _ => .inr (.inr ⟨call, _, hcall, rfl⟩)
      · rfl
    · cases h
  | answer call =>
    simp only [NodePsk.step] at h
    split at h
    · next hcall =>
      cases h
      have hsettled : Settled s := .inr (.inr ⟨call, _, hcall, rfl⟩)
      have hfree : s.rendering.map Prod.fst ≠ some (some call) := not_held hs (by simp [hcall, Call.renders])
      refine (hs.of_settled hsettled hs.pending).set ?_ ?_ ?_ hfree <;> rintro c' ⟨⟩
    · cases h

/-! ### Runs -/

/-- The key has just been staged; a render from elsewhere may be under way. -/
structure Start (key : Str) (s : Panel) : Prop where
  staged : key ≠ []
  pending : s.pending = some key
  calls : ∀ call, s.calls call = none
  rendering : ∀ call k, s.rendering ≠ some (some call, k)
  answered : s.answered = false

lemma Start.invariant (hs : Start key s) : Staged dec key s := by
  have hcalls : ∀ call c, s.calls call ≠ some c := by
    intro call c h
    rw [hs.calls call] at h
    cases h
  have hunsettled : ¬ Settled s := by
    rintro (h | h | ⟨call, c, h, -⟩)
    · exact absurd h (Bool.eq_false_iff.mp hs.answered)
    · cases hs.pending.symm.trans h
    · exact hcalls call c h
  refine ⟨.inr hs.pending, fun call c h => absurd h (hcalls call c), ?_, fun h => absurd h hunsettled,
    fun call k h => absurd h (hs.rendering call k), fun who k hk _ => ⟨hunsettled, ?_⟩⟩
  · rintro (h | ⟨call, c, h, -⟩)
    · exact absurd h hunsettled
    · exact absurd h (hcalls call c)
  · exact fun call c _ h => absurd h (hcalls call c)

/-- From the first 204 on, the staged key is active and in the config, in every interleaving in which a
compensation never writes back another key under a call that has promoted or answered and no render that is relied upon
misses the node; and after a 204 a compensation that writes back another key, or a render that finds no row for the node
or breaks off before it, breaks this at once. -/
theorem applied_after_answer (dec : Str → Option Str) (key : Str) :
    (∀ s s' as, Start key s → Runs.Meets (step dec) (Orderly key) s as → Runs.run (step dec) s as = some s' →
      s'.answered → Applied dec key s') ∧
    (∀ s call prevActive pending, s.answered →
      s.calls call = some (.compensating prevActive pending) → prevActive ≠ some key →
      ∃ s', step dec s (.compensate call false) = some s' ∧ s'.answered ∧ ¬ Applied dec key s') ∧
    (∀ s who row outcome, s.answered → s.rendering = some (who, row) →
      outcome = .cut ∨ outcome = .complete ∧ row = none →
      ∃ s', step dec s (.unlock outcome) = some s' ∧ s'.answered ∧ ¬ Applied dec key s') := by
  refine ⟨?_, ?_, ?_⟩
  · intro s s' as hs hmeets hrun hanswered
    have hstaged : Staged dec key s' :=
      run_invariant_of_meets (fun s a s' hI hC h => Staged.step hI hC h) hs.invariant hmeets hrun
    have hsettled : Settled s' := .inl hanswered
    obtain ⟨hfile, hsome⟩ := hstaged.file hsettled
    refine ⟨hstaged.active (.inl hsettled), ?_⟩
    obtain ⟨c, cs, rfl⟩ := List.exists_cons_of_ne_nil hs.staged
    rw [hfile] at hsome ⊢
    obtain ⟨psk, hpsk⟩ := Option.isSome_iff_exists.mp (isSome_map.symm.trans hsome)
    exact ⟨psk, hpsk, by simp [pskLine, hpsk]⟩
  · intro s call prevActive pending hanswered hcall hprev
    refine ⟨{ s with active := prevActive, pending := pending }.set call (some .rerendering), ?_, hanswered, ?_⟩
    · simp [step, hcall]
    · exact fun happlied => hprev happlied.1
  · intro s who row outcome hanswered hlock houtcome
    have hline : outcome.line dec row = some none := by
      rcases houtcome with rfl | ⟨rfl, rfl⟩ <;> rfl
    refine ⟨{ s with file := some none, rendering := none }.resume true who, ?_, ?_, ?_⟩
    · simp [step, hlock, hline]
    · cases who <;> exact hanswered
    · rintro ⟨-, psk, -, hfile⟩
      cases who <;> cases hfile

def newKeyStaged : Panel where
  listed := true
  active := some "old"
  pending := some "new"
  file := some (some "old")
  rendering := none
  calls := fun _ => none
  answered := false

/-- The first call fails and compensates alone; then two calls overlap, and a render from elsewhere follows. -/
def retriedConfirms : List Action :=
  [.confirm 0 false, .lock (some 0), .unlock .failed, .compensate 0 false, .lock (some 0), .unlock .complete,
    .confirm 1 false, .confirm 2 false, .lock (some 1), .unlock .complete, .clear 1 false, .answer 1,
    .lock (some 2), .unlock .complete, .clear 2 true, .answer 2, .list false, .list true, .lock none, .unlock .complete]

theorem applied_after_answer_retriedConfirms :
    ∃ s', Runs.run (step some) newKeyStaged retriedConfirms = some s' ∧ Applied some "new" s' := by
  have hstart : Start "new" newKeyStaged := ⟨by decide, rfl, fun _ => rfl, nofun, rfl⟩
  have hmeets : Runs.Meets (step some) (Orderly "new") newKeyStaged retriedConfirms := by
    refine ⟨trivial, .inl rfl, trivial, fun _ _ _ => .inr ⟨rfl, fun other c hc => ?_⟩, .inl rfl, trivial, trivial,
      trivial, .inl rfl, trivial, trivial, trivial, .inl rfl, trivial, trivial, trivial, trivial, trivial, .inl rfl,
      trivial, trivial⟩
    -- the only call is the one that compensates
    obtain ⟨-, hc⟩ | ⟨hne, hc⟩ := update_eq_some hc
    · cases hc
      exact ⟨rfl, rfl⟩
    obtain ⟨heq, -⟩ | ⟨-, hc⟩ := update_eq_some hc
    · exact absurd heq hne
    · cases hc
  exact ⟨_, rfl, (applied_after_answer some "new").1 _ _ _ hstart hmeets rfl rfl⟩

/-- The render of the first call fails, and before it compensates the second call renders and answers. -/
def overlappingConfirms : List Action :=
  [.confirm 0 false, .confirm 1 false, .lock (some 0), .unlock .failed, .lock (some 1), .unlock .complete,
    .clear 1 false, .answer 1, .compensate 0 false, .lock (some 0), .unlock .complete]

/-- The second call has answered 204, and the panel is back at the old key, in the database and in the file. -/
theorem compensation_undoes_answer :
    (Runs.run (step some) newKeyStaged overlappingConfirms).map (fun s =>
      (s.answered, s.active, s.file)) = some (true, some "old".toList, some (some "old".toList)) := by
  decide +kernel

end NodePsk
