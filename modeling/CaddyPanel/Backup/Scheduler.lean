import CaddyPanel.Lib.Rows
import CaddyPanel.Lib.Runs
import Mathlib.Data.Int.Notation

/-!
# Scheduled backups and their retention

A tick of the backup scheduler (`internal/backup/scheduler.go`) runs a backup for every enabled destination and then
prunes the jobs that are older than the retention: the artifact first, the row after it. What the destinations and
the database answer is part of the tick. The runs of one tick are for different destinations and are taken one after
the other. Verification jobs are rows without an artifact.
-/

namespace Backup.Scheduler

open List Runs

structure Destination where
  id : ℕ
  enabled : Bool
  deriving DecidableEq

/-- The name `hpg-<time>-job-<id>.tgz`, or `.tgz.age` for an encrypted artifact. -/
structure Key where
  stamp : ℕ
  jobID : ℕ
  encrypted : Bool
  deriving DecidableEq

inductive Status where
  | running
  | succeeded
  | failed
  deriving DecidableEq

/-- A row of `backup_jobs`. `recorded` is the rest of its `artifact_key`, which names the job. -/
structure Job where
  id : ℕ
  destID : ℕ
  createdAt : ℕ
  status : Status
  recorded : Option (ℕ × Bool)
  deriving DecidableEq

def Job.artifactKey (j : Job) : Option Key :=
  j.recorded.map fun (stamp, encrypted) => ⟨stamp, j.id, encrypted⟩

/-- What lies at a destination; `succeeded` if its backup did. -/
structure Object where
  destID : ℕ
  key : Key
  succeeded : Bool
  deriving DecidableEq

structure State where
  destinations : Rows Destination.id
  jobs : Rows Job.id
  objects : List Object

/-! ### What a tick meets -/

inductive RunResult where
  /-- the destination cannot be read, the encryption is refused, or the row is not inserted -/
  | refused
  /-- the archive is not built, and there is no key yet -/
  | unbuilt
  /-- the upload fails and leaves something, or nothing -/
  | unsent (leaves : Bool)
  | sent
  deriving DecidableEq

structure RunOutcome where
  result : RunResult
  stamp : ℕ
  encrypted : Bool
  /-- whether the `UPDATE` of `finish` works, whose error is ignored -/
  finishes : Bool
  deriving DecidableEq

inductive DeleteOutcome where
  | ok
  /-- an error, after the object is gone or not -/
  | failed (gone : Bool)
  deriving DecidableEq

/-- Settings and answers; times are in seconds. Numbers that cannot be read from the settings are `none`. -/
structure Tick where
  intervalHours : ℤ
  retentionDays : Option ℤ
  now : ℕ
  /-- how long the runs take, with 30 minutes for each of them -/
  elapsed : ℕ
  elapsed_lt : elapsed < 86400
  loads : Bool
  runs : ℕ → RunOutcome
  lists : Bool
  /-- `GetDestination` and `newDestination` for a row that is there -/
  opens : ℕ → Bool
  /-- the answers for the artifact and for the row of a job -/
  deletes : ℕ → DeleteOutcome
  drops : ℕ → Bool

/-! ### Backups -/

/-- The row that `finish` leaves. -/
def finish (o : RunOutcome) (j : Job) : Job :=
  if o.finishes then
    match o.result with
    | .sent => { j with status := .succeeded, recorded := some (o.stamp, o.encrypted) }
    | .unsent _ => { j with status := .failed, recorded := some (o.stamp, o.encrypted) }
    | _ => { j with status := .failed }
  else j

/-- What `Upload` leaves at the destination. -/
def uploaded (o : RunOutcome) (destID jobID : ℕ) : List Object :=
  match o.result with
  | .sent => [⟨destID, ⟨o.stamp, jobID, o.encrypted⟩, true⟩]
  | .unsent true => [⟨destID, ⟨o.stamp, jobID, o.encrypted⟩, false⟩]
  | _ => []

@[simp] lemma id_finish (o : RunOutcome) (j : Job) : (finish o j).id = j.id := by
  unfold finish
  split
  · split <;> rfl
  · rfl

@[simp] lemma createdAt_finish (o : RunOutcome) (j : Job) : (finish o j).createdAt = j.createdAt := by
  unfold finish
  split
  · split <;> rfl
  · rfl

/-- `Service.Run` -/
def runBackup (e : Tick) (s : State) (d : Destination) : State :=
  let o := e.runs d.id
  if o.result = .refused then s
  else
    { s with
      jobs := s.jobs.insertNext (fun id => finish o ⟨id, d.id, e.now, .running, none⟩) fun _ => id_finish _ _
      objects := s.objects ++ uploaded o d.id s.jobs.next }

def scheduled (s : State) : List Destination :=
  s.destinations.rows.filter (·.enabled)

/-! ### Pruning -/

inductive Action where
  | erase (destID : ℕ) (key : Key)
  | drop (j : Job)

def perform (s : State) : Action → State
  | .erase destID key => { s with objects := s.objects.filter fun o => !(o.destID = destID && o.key = key) }
  | .drop j => { s with jobs := s.jobs.delete (·.id = j.id) }

def expired (e : Tick) (s : State) : List Job :=
  match e.retentionDays with
  | none => []
  | some days =>
    if days ≤ 0 || !e.lists then []
    else s.jobs.rows.filter fun j => (j.createdAt : ℤ) + days * 86400 < e.now + e.elapsed

/-- `sql.ErrNoRows`: the destination is gone. -/
def Gone (s : State) (destID : ℕ) : Prop :=
  s.destinations.lookup destID = none

instance (s : State) (destID : ℕ) : Decidable (Gone s destID) :=
  inferInstanceAs (Decidable (_ = _))

def dropRow (e : Tick) (j : Job) : List Action :=
  if e.drops j.id then [.drop j] else []

/-- The loop body of `pruneOldJobs`. -/
def pruneJob (e : Tick) (s : State) (j : Job) : List Action :=
  match j.artifactKey with
  | none => dropRow e j
  | some key =>
    if Gone s j.destID then dropRow e j
    else if e.opens j.destID then
      match e.deletes j.id with
      | .ok => .erase j.destID key :: dropRow e j
      | .failed gone => if gone then [.erase j.destID key] else []
    else []

def pruneOldJobs (e : Tick) (s : State) : List Action :=
  (expired e s).flatMap (pruneJob e s)

/-! ### The tick -/

/-- Scheduled backups are off, or the destinations cannot be loaded: nothing is pruned either. -/
def idle (e : Tick) : Bool :=
  e.intervalHours ≤ 0 || !e.loads

/-- After the backups. -/
def backedUp (e : Tick) (s : State) : State :=
  if idle e then s else (scheduled s).foldl (runBackup e) s

def pruning (e : Tick) (s : State) : List Action :=
  if idle e then [] else pruneOldJobs e (backedUp e s)

def tick (e : Tick) (s : State) : State :=
  (pruning e s).foldl perform (backedUp e s)

variable {e : Tick} {s u : State} {j : Job} {o : Object}

/-! ### What the backups leave -/

/-- A backup adds a young row, and an object under the number of the row. -/
structure Grown (e : Tick) (s u : State) (jobs : List Job) (objects : List Object) : Prop where
  destinations : u.destinations = s.destinations
  jobs_eq : u.jobs.rows = s.jobs.rows ++ jobs
  young : ∀ j ∈ jobs, j.createdAt = e.now
  objects_eq : u.objects = s.objects ++ objects
  numbered : ∀ o ∈ objects, ∀ j ∈ s.jobs, j.id < o.key.jobID

lemma grown_runBackup (e : Tick) (s : State) (d : Destination) :
    ∃ jobs objects, Grown e s (runBackup e s d) jobs objects ∧
      ∀ destID, (∃ o ∈ objects, o.destID = destID ∧ o.succeeded) ↔ d.id = destID ∧ (e.runs d.id).result = .sent := by
  by_cases hrefused : (e.runs d.id).result = .refused
  · have hsame : runBackup e s d = s := if_pos hrefused
    rw [hsame]
    refine ⟨[], [], ⟨rfl, (append_nil _).symm, nofun, (append_nil _).symm, nofun⟩, fun destID => ?_⟩
    simp [hrefused]
  rw [runBackup, if_neg hrefused]
  refine ⟨_, _, ⟨rfl, rfl, ?_, rfl, ?_⟩, fun destID => ?_⟩
  · intro j hj
    rw [mem_singleton.mp hj, createdAt_finish]
  · intro o ho j hj
    have hid : o.key.jobID = s.jobs.next := by
      unfold uploaded at ho
      split at ho
      · rw [mem_singleton.mp ho]
      · rw [mem_singleton.mp ho]
      · cases ho
    rw [hid]
    exact Rows.lt_next hj
  · unfold uploaded
    split
    · next hsent => simp [hsent]
    · next hunsent => simp [hunsent]
    rename_i hsent _
    have hnot : (e.runs d.id).result ≠ .sent := hsent
    simp [hnot]

lemma grown_runs (e : Tick) (s : State) (ds : List Destination) :
    ∃ jobs objects, Grown e s (ds.foldl (runBackup e) s) jobs objects ∧
      ∀ destID, (∃ o ∈ objects, o.destID = destID ∧ o.succeeded) ↔
        ∃ d ∈ ds, d.id = destID ∧ (e.runs d.id).result = .sent := by
  induction ds generalizing s with
  | nil => exact ⟨[], [], ⟨rfl, (append_nil _).symm, nofun, (append_nil _).symm, nofun⟩, by simp⟩
  | cons d ds ih =>
    obtain ⟨jobs₁, objects₁, h₁, hsent₁⟩ := grown_runBackup e s d
    obtain ⟨jobs₂, objects₂, h₂, hsent₂⟩ := ih (runBackup e s d)
    refine ⟨jobs₁ ++ jobs₂, objects₁ ++ objects₂, ⟨?_, ?_, ?_, ?_, ?_⟩, fun destID => ?_⟩
    · rw [foldl_cons, h₂.destinations, h₁.destinations]
    · rw [foldl_cons, h₂.jobs_eq, h₁.jobs_eq, append_assoc]
    · intro j hj
      obtain hj | hj := mem_append.mp hj
      · exact h₁.young j hj
      · exact h₂.young j hj
    · rw [foldl_cons, h₂.objects_eq, h₁.objects_eq, append_assoc]
    · intro o ho j hj
      obtain ho | ho := mem_append.mp ho
      · exact h₁.numbered o ho j hj
      have hold : j ∈ (runBackup e s d).jobs.rows := by
        rw [h₁.jobs_eq]
        exact mem_append_left _ hj
      exact h₂.numbered o ho j hold
    · simp only [mem_append, or_and_right, exists_or, mem_cons, exists_eq_left]
      rw [hsent₁ destID, hsent₂ destID]

/-- This tick sends a new artifact to the destination. -/
def Renewed (e : Tick) (s : State) (destID : ℕ) : Prop :=
  idle e = false ∧ ∃ d ∈ scheduled s, d.id = destID ∧ (e.runs d.id).result = .sent

lemma grown_backedUp (e : Tick) (s : State) :
    ∃ jobs objects, Grown e s (backedUp e s) jobs objects ∧
      ∀ destID, (∃ o ∈ objects, o.destID = destID ∧ o.succeeded) ↔ Renewed e s destID := by
  unfold backedUp Renewed
  cases hidle : idle e with
  | true =>
    exact ⟨[], [], ⟨rfl, (append_nil _).symm, nofun, (append_nil _).symm, nofun⟩, by simp⟩
  | false =>
    obtain ⟨jobs, objects, hgrown, hsent⟩ := grown_runs e s (scheduled s)
    exact ⟨jobs, objects, hgrown, fun destID => by simpa using hsent destID⟩

variable {objects : List Object} {jobs : List Job}

/-- A row of this tick has not expired when the tick prunes. -/
lemma Grown.expired_eq (h : Grown e s u jobs objects) : expired e u = expired e s := by
  unfold expired
  split
  · rfl
  rename_i days hdays
  split
  · rfl
  rename_i hlists
  have hpos : ¬days ≤ 0 := fun h => hlists (by simp [h])
  have helapsed := e.elapsed_lt
  rw [h.jobs_eq, List.filter_append]
  have hyoung : jobs.filter (fun j => (j.createdAt : ℤ) + days * 86400 < e.now + e.elapsed) = [] := by
    refine filter_eq_nil_iff.mpr fun j hj => ?_
    rw [h.young j hj, decide_eq_true_eq]
    omega
  rw [hyoung, append_nil]

/-! ### What pruning takes away -/

/-- The loop reaches the deletion of the row. -/
def Drops (e : Tick) (s : State) (j : Job) : Prop :=
  e.drops j.id ∧ (j.artifactKey = none ∨ Gone s j.destID ∨ e.opens j.destID ∧ e.deletes j.id = .ok)

/-- The deletion of the object takes effect. -/
def Erases (e : Tick) (s : State) (j : Job) (key : Key) : Prop :=
  j.artifactKey = some key ∧ ¬Gone s j.destID ∧ e.opens j.destID ∧ e.deletes j.id ≠ .failed false

lemma erase_mem_pruneJob {destID : ℕ} {key : Key} :
    .erase destID key ∈ pruneJob e s j ↔ destID = j.destID ∧ Erases e s j key := by
  have hdrop : .erase destID key ∉ dropRow e j := by
    unfold dropRow
    split <;> simp
  unfold pruneJob Erases
  cases hkey : j.artifactKey with
  | none => simp [hdrop]
  | some key' =>
    by_cases hgone : Gone s j.destID
    · simp [hgone, hdrop]
    cases hopens : e.opens j.destID with
    | false => simp [hgone]
    | true =>
      cases hdelete : e.deletes j.id with
      | ok => simp [hgone, hdrop, eq_comm]
      | failed gone => cases gone <;> simp [hgone, eq_comm]

lemma mem_objects_foldl {actions : List Action} :
    o ∈ (actions.foldl perform s).objects ↔ o ∈ s.objects ∧ .erase o.destID o.key ∉ actions := by
  induction actions generalizing s with
  | nil => simp
  | cons a actions ih =>
    rw [foldl_cons, ih]
    cases a with
    | drop j => simp [perform]
    | erase destID key =>
      simp only [perform, mem_filter, mem_cons, Action.erase.injEq, not_or, Bool.not_eq_true',
        Bool.and_eq_false_iff, decide_eq_false_iff_not, not_and_or]
      tauto

/-- An object is erased for an expired job that has recorded it. -/
def Erased (e : Tick) (s : State) (o : Object) : Prop :=
  idle e = false ∧ ∃ j ∈ expired e s, j.destID = o.destID ∧ Erases e s j o.key

lemma Grown.erases_iff (h : Grown e s u jobs objects) {key : Key} : Erases e u j key ↔ Erases e s j key := by
  unfold Erases Gone
  rw [h.destinations]

lemma mem_tick (h : Grown e s (backedUp e s) jobs objects) :
    o ∈ (tick e s).objects ↔ o ∈ (backedUp e s).objects ∧ ¬Erased e s o := by
  rw [tick, mem_objects_foldl]
  unfold pruning Erased pruneOldJobs
  cases idle e with
  | true => simp
  | false =>
    simp only [Bool.false_eq_true, if_false, mem_flatMap, h.expired_eq, erase_mem_pruneJob, h.erases_iff, true_and,
      eq_comm]

lemma mem_jobs_of_expired (h : j ∈ expired e s) : j ∈ s.jobs := by
  unfold expired at h
  split at h
  · cases h
  split at h
  · cases h
  · exact mem_of_mem_filter h

/-- What this tick has sent, it does not erase. -/
lemma Grown.not_erased (h : Grown e s u jobs objects) (ho : o ∈ objects) : ¬Erased e s o := by
  rintro ⟨-, j, hj, -, hkey, -⟩
  have hlt := h.numbered o ho j (mem_jobs_of_expired hj)
  obtain ⟨⟨stamp, encrypted⟩, -, heq⟩ := Option.map_eq_some_iff.mp hkey
  have hid : o.key.jobID = j.id := by rw [← heq]
  omega

def Holds (s : State) (destID : ℕ) : Prop :=
  ∃ o ∈ s.objects, o.destID = destID ∧ o.succeeded

instance (s : State) (destID : ℕ) : Decidable (Holds s destID) :=
  inferInstanceAs (Decidable (∃ o ∈ s.objects, _))

/-- A destination keeps an artifact if it gets a new one or if one of its own is not erased. -/
lemma holds_tick_iff (e : Tick) (s : State) (destID : ℕ) : Holds (tick e s) destID ↔
      Renewed e s destID ∨ ∃ o ∈ s.objects, o.destID = destID ∧ o.succeeded ∧ ¬Erased e s o := by
  obtain ⟨jobs, objects, hgrown, hsent⟩ := grown_backedUp e s
  rw [← hsent destID]
  constructor
  · rintro ⟨o, ho, hdest, hgood⟩
    obtain ⟨hmem, herased⟩ := (mem_tick hgrown).mp ho
    rw [hgrown.objects_eq] at hmem
    obtain hold | hnew := mem_append.mp hmem
    · exact .inr ⟨o, hold, hdest, hgood, herased⟩
    · exact .inl ⟨o, hnew, hdest, hgood⟩
  · rintro (⟨o, hnew, hdest, hgood⟩ | ⟨o, hold, hdest, hgood, herased⟩)
    · refine ⟨o, (mem_tick hgrown).mpr ⟨?_, hgrown.not_erased hnew⟩, hdest, hgood⟩
      rw [hgrown.objects_eq]
      exact mem_append_right _ hnew
    · refine ⟨o, (mem_tick hgrown).mpr ⟨?_, herased⟩, hdest, hgood⟩
      rw [hgrown.objects_eq]
      exact mem_append_left _ hold

/-! ### Objects first, rows second -/

/-- The object carries the number of the job. -/
def Object.Of (o : Object) (j : Job) : Prop :=
  o.destID = j.destID ∧ o.key.jobID = j.id

/-- A row goes when its destination is gone or nothing of the job is left there. -/
def Orderly (s : State) : Action → Prop
  | .erase _ _ => True
  | .drop j => Gone s j.destID ∨ ∀ o ∈ s.objects, ¬o.Of j

def act (s : State) (a : Action) : Option State :=
  some (perform s a)

lemma run_act (s : State) (actions : List Action) : run act s actions = some (actions.foldl perform s) := by
  induction actions generalizing s with
  | nil => rfl
  | cons a actions ih => exact ih (perform s a)

lemma meets_dropRow : Meets act Orderly u (dropRow e j) ↔
    (e.drops j.id → Gone u j.destID ∨ ∀ o ∈ u.objects, ¬o.Of j) := by
  unfold dropRow
  split
  · next h => simp [Meets, act, Orderly, h]
  · next h => simp [h]

/-- What is there of a job whose row goes is what the row has recorded. -/
lemma meets_pruneJob (hdest : u.destinations = s.destinations) : Meets act Orderly u (pruneJob e s j) ↔
    (Drops e s j → Gone s j.destID ∨ ∀ o ∈ u.objects, o.Of j → j.artifactKey = some o.key) := by
  have hgone_eq : Gone u j.destID ↔ Gone s j.destID := by rw [Gone, Gone, hdest]
  unfold pruneJob Drops
  cases hkey : j.artifactKey with
  | none => simp [meets_dropRow, hgone_eq]
  | some key =>
    by_cases hgone : Gone s j.destID
    · simp [hgone, meets_dropRow, hgone_eq]
    cases hopens : e.opens j.destID with
    | false => simp [hgone]
    | true =>
      cases hdelete : e.deletes j.id with
      | failed gone => cases gone <;> simp [hgone, Meets, act, Orderly]
      | ok =>
        simp only [hgone, if_false, if_true, Meets, act, Orderly, true_and, meets_dropRow, reduceCtorEq, false_or, and_true]
        have herased : Gone (perform u (.erase j.destID key)) j.destID ↔ False := by
          rw [← iff_false_intro hgone, ← hgone_eq]
          exact Iff.rfl
        rw [herased, false_or]
        refine imp_congr_right fun _ => forall_congr' fun o => ?_
        simp only [perform, mem_filter, Option.some.injEq]
        constructor
        · intro h ho hof
          by_contra hne
          exact h ⟨ho, by simp [Ne.symm hne]⟩ hof
        · rintro h ⟨ho, hleft⟩ hof
          simp [hof.1, h ho hof] at hleft

/-- The row of an expired job goes and leaves nothing behind. -/
def Tidy (e : Tick) (s : State) (j : Job) : Prop :=
  Drops e s j → Gone s j.destID ∨ ∀ o ∈ s.objects, o.Of j → j.artifactKey = some o.key

/-- The jobs of the loop do not touch each other's objects. -/
lemma meets_pruneJobs (hnodup : (jobs.map Job.id).Nodup) (hdest : u.destinations = s.destinations)
    (hsub : ∀ o ∈ u.objects, o ∈ s.objects) (hkept : ∀ o ∈ s.objects, ∀ j ∈ jobs, o.key.jobID = j.id → o ∈ u.objects) :
    Meets act Orderly u (jobs.flatMap (pruneJob e s)) ↔ ∀ j ∈ jobs, Tidy e s j := by
  induction jobs generalizing u with
  | nil => simp
  | cons j jobs ih =>
    obtain ⟨hnew, hnodup⟩ := nodup_cons.mp hnodup
    set u' := (pruneJob e s j).foldl perform u with hu'
    have hdest' : u'.destinations = s.destinations := by
      rw [← hdest]
      refine List.foldlRecOn (motive := fun v : State => v.destinations = u.destinations) _ _ rfl fun v hv a _ => ?_
      cases a <;> exact hv
    have hrest : Meets act Orderly u' (jobs.flatMap (pruneJob e s)) ↔ ∀ j ∈ jobs, Tidy e s j := by
      refine ih hnodup hdest' ?_ ?_
      · exact fun o ho => hsub o (mem_objects_foldl.mp ho).1
      -- an object that `j` erases has the number of `j`
      intro o ho j' hj' hid
      refine mem_objects_foldl.mpr ⟨hkept o ho j' (mem_cons_of_mem j hj') hid, fun hmem => hnew ?_⟩
      obtain ⟨-, hkey, -⟩ := erase_mem_pruneJob.mp hmem
      obtain ⟨⟨stamp, encrypted⟩, -, heq⟩ := Option.map_eq_some_iff.mp hkey
      have hjid : j.id = j'.id := by rw [← hid, ← heq]
      exact hjid ▸ mem_map_of_mem hj'
    have hfirst : (∀ o ∈ u.objects, o.Of j → j.artifactKey = some o.key) ↔
        ∀ o ∈ s.objects, o.Of j → j.artifactKey = some o.key := by
      constructor
      · exact fun h o ho hof => h o (hkept o ho j mem_cons_self hof.2) hof
      · exact fun h o ho hof => h o (hsub o ho) hof
    rw [forall_mem_cons, ← hrest, Tidy, ← hfirst, ← meets_pruneJob hdest]
    constructor
    · exact fun h => ⟨h.of_append, h.of_run (run_act u _)⟩
    · exact fun h => h.1.append (run_act u _) h.2

lemma Grown.tidy_iff (h : Grown e s u jobs objects) (hj : j ∈ expired e s) : Tidy e u j ↔ Tidy e s j := by
  have hobjects : (∀ o ∈ u.objects, o.Of j → j.artifactKey = some o.key) ↔
      ∀ o ∈ s.objects, o.Of j → j.artifactKey = some o.key := by
    rw [h.objects_eq]
    refine ⟨fun hall o ho => hall o (mem_append_left _ ho), fun hall o ho hof => ?_⟩
    obtain hold | hnew := mem_append.mp ho
    · exact hall o hold hof
    · have hlt := h.numbered o hnew j (mem_jobs_of_expired hj)
      exact absurd hof.2 (Nat.ne_of_gt hlt)
  unfold Tidy Drops Gone
  rw [h.destinations, hobjects]

lemma nodup_expired (e : Tick) (s : State) : ((expired e s).map Job.id).Nodup := by
  unfold expired
  split
  · exact nodup_nil
  split
  · exact nodup_nil
  · exact s.jobs.nodup.sublist (filter_sublist.map Job.id)

lemma meets_pruning_iff (e : Tick) (s : State) :
    Meets act Orderly (backedUp e s) (pruning e s) ↔ (idle e = false → ∀ j ∈ expired e s, Tidy e s j) := by
  unfold pruning
  cases hidle : idle e with
  | true => simp
  | false =>
    obtain ⟨jobs, objects, hgrown, -⟩ := grown_backedUp e s
    simp only [Bool.false_eq_true, if_false, forall_true_left, pruneOldJobs]
    rw [meets_pruneJobs (nodup_expired e _) rfl (fun _ ho => ho) (fun _ ho _ _ _ => ho), hgrown.expired_eq]
    exact forall₂_congr fun j hj => hgrown.tidy_iff hj

/-! ### The last good backup -/

/-- Every destination with a good artifact gets a new one or keeps one, and the rows that go have recorded what was
uploaded for them. -/
structure Spared (e : Tick) (s : State) : Prop where
  kept : ∀ destID, Holds s destID →
    Renewed e s destID ∨ ∃ o ∈ s.objects, o.destID = destID ∧ o.succeeded ∧ ¬Erased e s o
  recorded : idle e = false → ∀ j ∈ expired e s, Tidy e s j

/-- A tick leaves every destination a good artifact, and deletes rows after their artifacts, exactly if the retention
spares one of them where no new backup succeeds. -/
theorem tick_keeps_backup_iff (e : Tick) (s : State) :
    ((∀ destID, Holds s destID → Holds (tick e s) destID) ∧
      Meets act Orderly (backedUp e s) (pruning e s)) ↔ Spared e s := by
  rw [meets_pruning_iff]
  constructor
  · rintro ⟨hkept, hrecorded⟩
    exact ⟨fun destID h => (holds_tick_iff e s destID).mp (hkept destID h), hrecorded⟩
  · rintro ⟨hkept, hrecorded⟩
    exact ⟨fun destID h => (holds_tick_iff e s destID).mpr (hkept destID h), hrecorded⟩

/-- A destination with one good backup, and a row of which `finish` has not recorded the upload. -/
def aged : State where
  destinations := ⟨[⟨1, true⟩], by decide⟩
  jobs := ⟨[⟨1, 1, 0, .succeeded, some (0, true)⟩, ⟨2, 1, 0, .running, none⟩], by decide⟩
  objects := [⟨1, ⟨0, 1, true⟩, true⟩, ⟨1, ⟨0, 2, true⟩, false⟩]

/-- The uploads have failed for as long as the retention of a week. -/
def outage : Tick where
  intervalHours := 24
  retentionDays := some 7
  now := 700000
  elapsed := 60
  elapsed_lt := by decide
  loads := true
  runs := fun _ => ⟨.unsent false, 700000, true, true⟩
  lists := true
  opens := fun _ => true
  deletes := fun _ => .ok
  drops := fun _ => true

/-- The only good backup is deleted, and the row of the second job goes while its upload is still there. -/
theorem last_backup_deleted : Holds aged 1 ∧ ¬Holds (tick outage aged) 1 ∧
    (tick outage aged).jobs.rows.map Job.id = [3] ∧ (tick outage aged).objects = [⟨1, ⟨0, 2, true⟩, false⟩] := by
  decide +kernel

end Backup.Scheduler
