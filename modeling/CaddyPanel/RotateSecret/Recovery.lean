import CaddyPanel.Lib.Runs
import CaddyPanel.RotateSecret.Stores

/-!
# Interrupted rotations (`runRotation`)

The database and the state file are rotated one after the other, with a journal that says how far a run has come.
A run is a process that can end after each of its writes: it crashes, or a write fails. The commit of the
database and the renames are atomic. The next run reads the journal and the stores, and goes on from there.
-/

namespace RotateSecret

open Runs
open Text (Str)

structure Journal where
  oldHash : Str
  newHash : Str
  stage : Str
  deriving DecidableEq

def stageIntent : Str := "intent"
def stageDBDone : Str := "db_done"

/-- The stage of a run; `start` is the empty text. -/
inductive Stage where
  | start
  | intent
  | dbDone
  deriving DecidableEq

inductive RunError where
  | otherPair
  | unknownStage
  | db
  | stateFile

/-- The secrets of the command, with their hashes. -/
structure Command (C : Cipher) where
  oldKey : C.Key
  newKey : C.Key
  oldHash : Str
  newHash : Str
  keys_ne : oldKey ≠ newKey

structure World where
  db : DB
  file : StateFile
  journal : Option Journal

/-- What a run does next. -/
inductive Phase where
  | writeIntent
  | commitDB
  | writeDBDone
  | writeFile
  | removeJournal

variable {C : Cipher} (cmd : Command C)

def Command.journal (stage : Str) : Journal :=
  ⟨cmd.oldHash, cmd.newHash, stage⟩

def decideResume : Option Journal → Except RunError Stage
  | none => .ok .start
  | some j =>
    if j.oldHash ≠ cmd.oldHash ∨ j.newHash ≠ cmd.newHash then .error .otherPair
    else if j.stage = stageIntent then .ok .intent
    else if j.stage = stageDBDone then .ok .dbDone
    else .error .unknownStage

/-- The check of the database: where only the intent is recorded, the ciphertext says whether the commit landed. -/
def preflightDB (stage : Stage) (db : DB) : Except RunError Stage :=
  if checkDB C (if stage = .dbDone then cmd.newKey else cmd.oldKey) db then .ok stage
  else if stage = .intent ∧ checkDB C cmd.newKey db then .ok .dbDone
  else .error .db

/-- The check of the state file; the answer says whether it is already rotated. -/
def preflightFile (stage : Stage) (f : StateFile) : Except RunError Bool :=
  if checkStateFile C cmd.oldKey f then .ok false
  else if stage = .dbDone ∧ checkStateFile C cmd.newKey f then .ok true
  else .error .stateFile

def firstWrite (stage : Stage) (fileDone : Bool) : Phase :=
  if stage ≠ .dbDone then .writeIntent
  else if fileDone then .removeJournal
  else .writeFile

/-- `runRotation` up to its first write. -/
def preflight (w : World) : Except RunError Phase := do
  let stage ← decideResume cmd w.journal
  let stage ← preflightDB cmd stage w.db
  let fileDone ← preflightFile cmd stage w.file
  .ok (firstWrite stage fileDone)

structure State where
  world : World
  /-- the run under way -/
  run : Option Phase
  /-- history: some run has come to its end -/
  completed : Bool

inductive Action (C : Cipher) where
  | begin
  | crash
  /-- the next write, with the nonces of its ciphertexts, or its failure -/
  | next (ns : ℕ → C.Nonce) (fails : Bool)

/-- A write of a run; a failure ends the run, but for the last one, whose error is ignored. -/
def write (s : State) (ns : ℕ → C.Nonce) : Phase → State
  | .writeIntent =>
    { s with world := { s.world with journal := some (cmd.journal stageIntent) }, run := some .commitDB }
  | .commitDB =>
    match rotateDB C cmd.oldKey cmd.newKey ns s.world.db with
    | some db => { s with world := { s.world with db }, run := some .writeDBDone }
    | none => { s with run := none }
  | .writeDBDone =>
    { s with world := { s.world with journal := some (cmd.journal stageDBDone) }, run := some .writeFile }
  | .writeFile =>
    match rotateStateFile C cmd.oldKey cmd.newKey ns s.world.file with
    | some file => { s with world := { s.world with file }, run := some .removeJournal }
    | none => { s with run := none }
  | .removeJournal => { world := { s.world with journal := none }, run := none, completed := true }

def step (s : State) : Action C → Option State
  | .begin =>
    match s.run with
    | some _ => none
    | none =>
      match preflight cmd s.world with
      | .ok phase => some { s with run := some phase }
      | .error _ => some s
  | .crash => some { s with run := none }
  | .next ns fails =>
    match s.run with
    | some .removeJournal =>
      if fails then some { s with run := none, completed := true } else some (write cmd s ns .removeJournal)
    | some phase => if fails then some { s with run := none } else some (write cmd s ns phase)
    | none => none

/-! ### Where a run can be interrupted -/

/-- The database can be committed: it is not rotated, or the rotation finds nothing to open. -/
def Ready (w₀ w : World) : Prop :=
  w.db = w₀.db ∨ DbRotated C cmd.oldKey cmd.newKey w₀.db w.db ∧ checkDB C cmd.oldKey w.db

/-- The next run finds that the database is rotated, by the journal or by the ciphertext. -/
def Recorded (w : World) : Prop :=
  w.journal = some (cmd.journal stageDBDone) ∨
    w.journal = some (cmd.journal stageIntent) ∧ checkDB C cmd.oldKey w.db = false

/-- Both stores are rotated. -/
def Rotated (w₀ w : World) : Prop :=
  DbRotated C cmd.oldKey cmd.newKey w₀.db w.db ∧ FileRotated C cmd.oldKey cmd.newKey w₀.file w.file

/-- The worlds that runs from `w₀` leave behind. -/
inductive Left (w₀ : World) (completed : Bool) (w : World) : Prop
  | ready (hfile : w.file = w₀.file) (hready : Ready cmd w₀ w)
      (hj : w.journal = none ∨ w.journal = some (cmd.journal stageIntent))
  | recorded (hdb : DbRotated C cmd.oldKey cmd.newKey w₀.db w.db) (hrecorded : Recorded cmd w)
      (hfile : w.file = w₀.file ∨ FileRotated C cmd.oldKey cmd.newKey w₀.file w.file)
  | done (hcompleted : completed) (hj : w.journal = none)

/-- What a run knows before its next write. -/
def Knows (w₀ w : World) : Phase → Prop
  | .writeIntent => w.file = w₀.file ∧ Ready cmd w₀ w
  | .commitDB => w.file = w₀.file ∧ Ready cmd w₀ w ∧ w.journal = some (cmd.journal stageIntent)
  | .writeDBDone => w.file = w₀.file ∧ DbRotated C cmd.oldKey cmd.newKey w₀.db w.db
  | .writeFile => w.file = w₀.file ∧ DbRotated C cmd.oldKey cmd.newKey w₀.db w.db ∧ Recorded cmd w
  | .removeJournal => Rotated cmd w₀ w

/-- The invariant of all runs. -/
structure Resumable (w₀ : World) (s : State) : Prop where
  left : Left cmd w₀ s.completed s.world
  knows : ∀ phase, s.run = some phase → Knows cmd w₀ s.world phase
  done : s.completed → Rotated cmd w₀ s.world

/-- A world to start from: all ciphertexts are under the old secret, and no other rotation is under way. -/
structure Startable (w₀ : World) : Prop where
  db : checkDB C cmd.oldKey w₀.db
  file : checkStateFile C cmd.oldKey w₀.file
  journal : w₀.journal = none ∨ w₀.journal = some (cmd.journal stageIntent)

variable {cmd} {w₀ w : World} {s s' : State}

@[simp] lemma decideResume_none : decideResume cmd none = .ok .start := rfl

@[simp] lemma decideResume_intent : decideResume cmd (some (cmd.journal stageIntent)) = .ok .intent := by
  simp [decideResume, Command.journal]

@[simp] lemma decideResume_dbDone : decideResume cmd (some (cmd.journal stageDBDone)) = .ok .dbDone := by
  simp [decideResume, Command.journal, show stageDBDone ≠ stageIntent by decide]

lemma Ready.checkDB (h₀ : Startable cmd w₀) (h : Ready cmd w₀ w) : checkDB C cmd.oldKey w.db := by
  obtain hsame | ⟨-, hcheck⟩ := h
  · rw [hsame]
    exact h₀.db
  · exact hcheck

/-! ### What the next run finds -/

lemma preflight_of_stage {stage stage' : Stage} (hresume : decideResume cmd w.journal = .ok stage)
    (hdb : preflightDB cmd stage w.db = .ok stage') :
    preflight cmd w = (preflightFile cmd stage' w.file).map (firstWrite stage') := by
  rw [preflight, hresume, ok_bind, hdb, ok_bind]
  cases preflightFile cmd stage' w.file <;> rfl

/-- A database that opens under the old key, and no word that it is rotated. -/
lemma preflight_of_checkDB (hj : w.journal = none ∨ w.journal = some (cmd.journal stageIntent))
    (hdb : checkDB C cmd.oldKey w.db) :
    preflight cmd w = if checkStateFile C cmd.oldKey w.file then .ok .writeIntent else .error .stateFile := by
  obtain ⟨stage, hresume, hstage⟩ : ∃ stage, decideResume cmd w.journal = .ok stage ∧ stage ≠ .dbDone := by
    obtain hj | hj := hj <;> simp [hj]
  have hpre : preflightDB cmd stage w.db = .ok stage := by
    simp [preflightDB, hstage, hdb]
  rw [preflight_of_stage hresume hpre, preflightFile]
  split
  · simp [Except.map, firstWrite, hstage]
  · simp [Except.map, hstage]

lemma preflight_of_recorded (h : Recorded cmd w) (hdb : checkDB C cmd.newKey w.db) :
    preflight cmd w = if checkStateFile C cmd.oldKey w.file then .ok .writeFile
      else if checkStateFile C cmd.newKey w.file then .ok .removeJournal else .error .stateFile := by
  obtain ⟨stage, hresume, hpre⟩ :
      ∃ stage, decideResume cmd w.journal = .ok stage ∧ preflightDB cmd stage w.db = .ok .dbDone := by
    obtain hj | ⟨hj, hold⟩ := h
    · exact ⟨.dbDone, by simp [hj], by simp [preflightDB, hdb]⟩
    · exact ⟨.intent, by simp [hj], by simp [preflightDB, hold, hdb]⟩
  rw [preflight_of_stage hresume hpre, preflightFile]
  split
  · rfl
  · simp only [true_and]
    split <;> rfl

/-- Without a journal a rotated database is refused, unless nothing in it must open. -/
lemma checkDB_of_preflight {phase : Phase} (hj : w.journal = none) (h : preflight cmd w = .ok phase) :
    checkDB C cmd.oldKey w.db := by
  by_contra hcheck
  have hpre : preflightDB cmd .start w.db = .error .db := by
    simp [preflightDB, hcheck]
  rw [preflight, hj, decideResume_none, ok_bind, hpre] at h
  cases h

lemma knows_of_preflight (h₀ : Startable cmd w₀) {phase : Phase} (hs : Resumable cmd w₀ s)
    (h : preflight cmd s.world = .ok phase) : Knows cmd w₀ s.world phase := by
  cases hs.left with
  | ready hfile hready hj =>
    rw [preflight_of_checkDB hj (hready.checkDB h₀)] at h
    split at h
    · cases h
      exact ⟨hfile, hready⟩
    · cases h
  | recorded hdb hrecorded hfile =>
    rw [preflight_of_recorded hrecorded (hdb.checkDB h₀.db)] at h
    split at h
    · next hold =>
      cases h
      refine ⟨?_, hdb, hrecorded⟩
      obtain hfile | hfile := hfile
      · exact hfile
      · exact hfile.eq_of_checkStateFile cmd.keys_ne hold
    · next hold =>
      split at h
      · cases h
        refine ⟨hdb, ?_⟩
        obtain hfile | hfile := hfile
        · exact absurd h₀.file (hfile ▸ hold)
        · exact hfile
      · cases h
  | done hcompleted hj =>
    have hcheck := checkDB_of_preflight hj h
    obtain ⟨hdb, hfile⟩ := hs.done hcompleted
    rw [preflight_of_checkDB (.inl hj) hcheck] at h
    split at h
    · next hold =>
      cases h
      exact ⟨hfile.eq_of_checkStateFile cmd.keys_ne hold, .inr ⟨hdb, hcheck⟩⟩
    · cases h

/-- Until a run has come to its end, the next one does not refuse. -/
lemma exists_preflight (h₀ : Startable cmd w₀) (hs : Resumable cmd w₀ s) (hcompleted : s.completed = false) :
    ∃ phase, preflight cmd s.world = .ok phase := by
  cases hs.left with
  | ready hfile hready hj =>
    refine ⟨.writeIntent, ?_⟩
    rw [preflight_of_checkDB hj (hready.checkDB h₀), hfile, h₀.file, if_pos rfl]
  | recorded hdb hrecorded hfile =>
    rw [preflight_of_recorded hrecorded (hdb.checkDB h₀.db)]
    split
    · exact ⟨_, rfl⟩
    rename_i hold
    obtain hfile | hfile := hfile
    · exact absurd h₀.file (hfile ▸ hold)
    · rw [hfile.checkStateFile h₀.file]
      exact ⟨_, rfl⟩
  | done htrue _ =>
    rw [hcompleted] at htrue
    cases htrue

/-! ### Runs -/

lemma Resumable.halt (hs : Resumable cmd w₀ s) : Resumable cmd w₀ { s with run := none } :=
  ⟨hs.left, nofun, hs.done⟩

/-- The commit rotates the database of the start, or changes nothing. -/
lemma Ready.rotateDB (h : Ready cmd w₀ w) {ns : ℕ → C.Nonce} {db : DB}
    (hdb : rotateDB C cmd.oldKey cmd.newKey ns w.db = some db) : DbRotated C cmd.oldKey cmd.newKey w₀.db db := by
  obtain hsame | ⟨hrotated, -⟩ := h
  · rw [hsame] at hdb
    exact dbRotated_of_rotateDB hdb
  · exact hrotated.rotateDB cmd.keys_ne hdb

lemma Resumable.write (hs : Resumable cmd w₀ s) {phase : Phase} (hrun : s.run = some phase) (ns : ℕ → C.Nonce) :
    Resumable cmd w₀ (write cmd s ns phase) := by
  have hknows := hs.knows phase hrun
  cases phase with
  | writeIntent =>
    obtain ⟨hfile, hready⟩ := hknows
    refine ⟨.ready hfile hready (.inr rfl), ?_, hs.done⟩
    rintro _ ⟨⟩
    exact ⟨hfile, hready, rfl⟩
  | commitDB =>
    obtain ⟨hfile, hready, hj⟩ := hknows
    simp only [RotateSecret.write]
    split
    · next db hdb =>
      have hrotated := hready.rotateDB hdb
      refine ⟨?_, ?_, fun hcompleted => ⟨hrotated, (hs.done hcompleted).2⟩⟩
      · -- whether the next run sees the commit depends on what there was to open
        cases hcheck : checkDB C cmd.oldKey db with
        | true => exact .ready hfile (.inr ⟨hrotated, hcheck⟩) (.inr hj)
        | false => exact .recorded hrotated (.inr ⟨hj, hcheck⟩) (.inl hfile)
      · rintro _ ⟨⟩
        exact ⟨hfile, hrotated⟩
    · exact hs.halt
  | writeDBDone =>
    obtain ⟨hfile, hdb⟩ := hknows
    refine ⟨.recorded hdb (.inl rfl) (.inl hfile), ?_, hs.done⟩
    rintro _ ⟨⟩
    exact ⟨hfile, hdb, .inl rfl⟩
  | writeFile =>
    obtain ⟨hfile, hdb, hrecorded⟩ := hknows
    simp only [RotateSecret.write]
    split
    · next file hrotate =>
      rw [hfile] at hrotate
      have hrotated := Rekey.Codec.rekeyed_of_rekeyAll (rotateStateFile_eq_some.mp hrotate)
      refine ⟨.recorded hdb hrecorded (.inr hrotated), ?_, fun _ => ⟨hdb, hrotated⟩⟩
      rintro _ ⟨⟩
      exact ⟨hdb, hrotated⟩
    · exact hs.halt
  | removeJournal => exact ⟨.done rfl rfl, nofun, fun _ => hknows⟩

/-- A run whose last write fails has done its work. -/
lemma Resumable.complete (hs : Resumable cmd w₀ s) (hrun : s.run = some .removeJournal) :
    Resumable cmd w₀ { s with run := none, completed := true } := by
  have hrotated : Rotated cmd w₀ s.world := hs.knows _ hrun
  refine ⟨?_, nofun, fun _ => hrotated⟩
  cases hs.left with
  | ready hfile hready hj => exact .ready hfile hready hj
  | recorded hdb hrecorded hfile => exact .recorded hdb hrecorded hfile
  | done _ hj => exact .done rfl hj

theorem Resumable.step (h₀ : Startable cmd w₀) {a : Action C} (hs : Resumable cmd w₀ s)
    (h : step cmd s a = some s') : Resumable cmd w₀ s' := by
  cases a with
  | begin =>
    simp only [RotateSecret.step] at h
    split at h
    · cases h
    split at h
    · next phase hphase =>
      cases h
      have hknows := knows_of_preflight h₀ hs hphase
      refine ⟨hs.left, ?_, hs.done⟩
      rintro _ ⟨⟩
      exact hknows
    · cases h
      exact hs
  | crash =>
    cases h
    exact hs.halt
  | next ns fails =>
    simp only [RotateSecret.step] at h
    split at h
    · next hrun =>
      split_ifs at h
      · cases h
        exact hs.complete hrun
      · cases h
        exact hs.write hrun ns
    · next phase _ hrun =>
      split_ifs at h
      · cases h
        exact hs.halt
      · cases h
        exact hs.write hrun ns
    · cases h

/-! ### A run that is not interrupted -/

/-- The writes of the run under way, one after the other, bring it to its end. -/
def Finishes (cmd : Command C) (s : State) : Prop :=
  ∀ ns : ℕ → ℕ → C.Nonce, ∃ n s',
    Runs.run (step cmd) s ((List.range n).map fun i => .next (ns i) false) = some s' ∧ s'.completed

lemma finishes_of_next (h : ∀ ns, ∃ s₁, step cmd s (.next ns false) = some s₁ ∧ Finishes cmd s₁) : Finishes cmd s := by
  intro ns
  obtain ⟨s₁, hstep, hfinishes⟩ := h (ns 0)
  obtain ⟨n, s', hrun, hcompleted⟩ := hfinishes fun i => ns (i + 1)
  refine ⟨n + 1, s', ?_, hcompleted⟩
  rw [List.range_succ_eq_map, List.map_cons, List.map_map]
  exact run_cons_eq_some.mpr ⟨s₁, hstep, hrun⟩

lemma finishes_removeJournal (hrun : s.run = some .removeJournal) : Finishes cmd s := by
  refine finishes_of_next fun ns => ⟨write cmd s ns .removeJournal, by simp [RotateSecret.step, hrun], ?_⟩
  exact fun _ => ⟨0, _, rfl, rfl⟩

section

variable (h₀ : Startable cmd w₀) (hs : Resumable cmd w₀ s)

include h₀ hs

lemma finishes_writeFile (hrun : s.run = some .writeFile) : Finishes cmd s := by
  obtain ⟨hfile, -, -⟩ : Knows cmd w₀ s.world .writeFile := hs.knows _ hrun
  have hcheck : checkStateFile C cmd.oldKey s.world.file := by
    rw [hfile]
    exact h₀.file
  refine finishes_of_next fun ns => ?_
  obtain ⟨file, hrotate⟩ := exists_rotateStateFile hcheck cmd.newKey ns
  refine ⟨write cmd s ns .writeFile, by simp [RotateSecret.step, hrun], finishes_removeJournal ?_⟩
  simp [RotateSecret.write, hrotate]

lemma finishes_writeDBDone (hrun : s.run = some .writeDBDone) : Finishes cmd s := by
  refine finishes_of_next fun ns => ⟨write cmd s ns .writeDBDone, by simp [RotateSecret.step, hrun], ?_⟩
  exact finishes_writeFile h₀ (hs.write hrun ns) rfl

lemma finishes_commitDB (hrun : s.run = some .commitDB) : Finishes cmd s := by
  obtain ⟨-, hready, -⟩ : Knows cmd w₀ s.world .commitDB := hs.knows _ hrun
  refine finishes_of_next fun ns => ?_
  obtain ⟨db, hrotate⟩ := exists_rotateDB (hready.checkDB h₀) cmd.newKey ns
  refine ⟨write cmd s ns .commitDB, by simp [RotateSecret.step, hrun], ?_⟩
  refine finishes_writeDBDone h₀ (hs.write hrun ns) ?_
  simp [RotateSecret.write, hrotate]

theorem finishes_of_run {phase : Phase} (hrun : s.run = some phase) : Finishes cmd s := by
  cases phase with
  | writeIntent =>
    refine finishes_of_next fun ns => ⟨write cmd s ns .writeIntent, by simp [RotateSecret.step, hrun], ?_⟩
    exact finishes_commitDB h₀ (hs.write hrun ns) rfl
  | commitDB => exact finishes_commitDB h₀ hs hrun
  | writeDBDone => exact finishes_writeDBDone h₀ hs hrun
  | writeFile => exact finishes_writeFile h₀ hs hrun
  | removeJournal => exact finishes_removeJournal hrun

/-- A run that begins before any has come to its end comes to its end. -/
theorem exists_finishing_run (hcompleted : s.completed = false) (ns : ℕ → ℕ → C.Nonce) : ∃ n s', Runs.run (step cmd) s
      (.crash :: .begin :: (List.range n).map fun i => .next (ns i) false) = some s' ∧ s'.completed := by
  obtain ⟨phase, hphase⟩ := exists_preflight h₀ hs hcompleted
  have hbegin : step cmd { s with run := none } .begin = some { s with run := some phase } := by
    simp [RotateSecret.step, hphase]
  have hfinishes := finishes_of_run h₀ (hs.halt.step h₀ hbegin) rfl
  obtain ⟨n, s', hrun, hdone⟩ := hfinishes ns
  refine ⟨n, s', ?_, hdone⟩
  exact run_cons_eq_some.mpr ⟨_, rfl, run_cons_eq_some.mpr ⟨_, hbegin, hrun⟩⟩

end

/-- The stores of `w` hold what those of `w₀` hold, sealed with the new key; what was no ciphertext is as it was.
The two columns that cannot be rotated are cleared. -/
structure Carried (cmd : Command C) (w₀ w : World) : Prop where
  cells : List.Forall₂
    (fun cell cell' => cell'.place = cell.place ∧ (cellCodec C).Carried cmd.oldKey cmd.newKey cell cell')
    w₀.db.cells w.db.cells
  fields : List.Forall₂ ((fieldCodec C).Carried cmd.oldKey cmd.newKey) w₀.file.fields w.file.fields
  totpPending : w.db.totpPending = cleared w₀.db.totpPending
  keyHmac : w.db.keyHmac = cleared w₀.db.keyHmac

lemma Rotated.carried (h : Rotated cmd w₀ w) : Carried cmd w₀ w where
  cells := h.1.cells.imp fun _ _ hcell => ⟨place_of_rekeyed hcell, hcell.carried⟩
  fields := h.2.imp fun _ _ hfield => hfield.carried
  totpPending := h.1.totpPending
  keyHmac := h.1.keyHmac

theorem rotation_recovers (cmd : Command C) (w₀ : World) (h₀ : Startable cmd w₀) (as : List (Action C)) (s : State)
    (h : Runs.run (step cmd) ⟨w₀, none, false⟩ as = some s) :
    (s.completed = false → ∀ ns : ℕ → ℕ → C.Nonce, ∃ n s',
      Runs.run (step cmd) s (.crash :: .begin :: (List.range n).map fun i => .next (ns i) false) = some s' ∧
        s'.completed) ∧ (s.completed → Carried cmd w₀ s.world) := by
  have hs : Resumable cmd w₀ s :=
    run_invariant (fun _ _ _ hs hstep => hs.step h₀ hstep)
      (show Resumable cmd w₀ ⟨w₀, none, false⟩ from ⟨.ready rfl (.inl rfl) h₀.journal, nofun, nofun⟩) h
  exact ⟨exists_finishing_run h₀ hs, fun hcompleted => (hs.done hcompleted).carried⟩

/-! ### A small cipher -/

def spell : Str → Str
  | [] => []
  | c :: cs => if c = ':' then 'b' :: 'b' :: spell cs else 'a' :: c :: spell cs

def unspell : Str → Option Str
  | [] => some []
  | 'a' :: c :: cs => (unspell cs).map (c :: ·)
  | 'b' :: _ :: cs => (unspell cs).map (':' :: ·)
  | _ => none

lemma unspell_spell (pt : Str) : unspell (spell pt) = some pt := by
  induction pt with
  | nil => rfl
  | cons c cs ih =>
    unfold spell
    split
    · next hc => simp [unspell, ih, hc]
    · simp [unspell, ih]

lemma not_mem_spell (pt : Str) : ':' ∉ spell pt := by
  induction pt with
  | nil => simp [spell]
  | cons c cs ih =>
    unfold spell
    split
    · simp [ih]
    · next hc => simp [ih, Ne.symm hc]

def letter (k : Bool) : Char :=
  if k then 'N' else 'O'

/-- The key is the first letter. -/
def letterCipher : Cipher where
  Key := Bool
  Nonce := Unit
  encrypt k _ pt := letter k :: spell pt
  decrypt k
    | c :: cs => if c = letter k then unspell cs else none
    | [] => none
  purposeKey k _ := k
  decrypt_encrypt k _ pt := by simp [unspell_spell]
  decrypt_encrypt_ne k k' _ pt hk := by cases k <;> cases k' <;> simp_all [letter]
  purposeKey_ne _ _ _ hk := hk
  not_mem_encrypt k _ pt := by cases k <;> simp [letter, not_mem_spell]
  encrypt_ne_nil _ _ _ := by simp

def letterCommand : Command letterCipher :=
  ⟨false, true, "old", "new", Bool.false_ne_true⟩

/-- A setting, a pending enrollment and the password of the database, all under the old key. -/
def letterWorld : World where
  db :=
    { cells := [⟨⟨⟨"settings", "key", "value", "is_encrypted = 1", "", false⟩, by decide⟩, "smtp_pass", true,
        some "Oapaw"⟩]
      totpPending := [(7, some "Oaoatap")]
      keyHmac := [] }
  file := ⟨some "Oadab", none⟩
  journal := none

/-- A run that ends between the commit and the second journal. -/
theorem rotation_recovers_afterCommit :
    ∃ s, Runs.run (step letterCommand) ⟨letterWorld, none, false⟩
        [.begin, .next (fun _ => ()) false, .next (fun _ => ()) false, .crash] = some s ∧
      s.completed = false ∧
      ∃ n s', Runs.run (step letterCommand) s
        (.crash :: .begin :: (List.range n).map fun _ => .next (fun _ => ()) false) = some s' ∧ s'.completed := by
  have hstart : Startable letterCommand letterWorld := ⟨by decide +kernel, by decide +kernel, .inl rfl⟩
  obtain ⟨s, hrun, hcompleted⟩ : ∃ s, Runs.run (step letterCommand) ⟨letterWorld, none, false⟩
      [.begin, .next (fun _ => ()) false, .next (fun _ => ()) false, .crash] = some s ∧ s.completed = false :=
    ⟨_, rfl, rfl⟩
  exact ⟨s, hrun, hcompleted,
    (rotation_recovers letterCommand letterWorld hstart _ s hrun).1 hcompleted fun _ _ => ()⟩

/-- The enrollment opened under the old key, and is gone after a run that was not interrupted. A journal of other
secrets stops the command. -/
theorem pending_enrollment_cleared : Startable letterCommand letterWorld ∧
    decEnvelope letterCipher false "Oaoatap".toList = some (⟨[], by simp⟩, "otp".toList) ∧
    (∃ s, Runs.run (step letterCommand) ⟨letterWorld, none, false⟩
        (.begin :: List.replicate 5 (.next (fun _ => ()) false)) = some s ∧
      s.completed ∧ letterWorld.db.totpPending = [(7, some "Oaoatap".toList)] ∧
      s.world.db.totpPending = [(7, none)]) ∧
    preflight letterCommand { letterWorld with journal := some ⟨"new", "old", stageIntent⟩ } =
      .error .otherPair := by
  refine ⟨⟨by decide +kernel, by decide +kernel, .inl rfl⟩, by decide +kernel, ⟨_, rfl, rfl, rfl, rfl⟩, ?_⟩
  rfl

end RotateSecret
