import Sandrun.JobQueue.Step
import Sandrun.Json.RoundTrip

/-!
# The storage file

`_save_jobs` writes the whole table to the storage file, `Job.to_dict` for each job and
then `json.dump(data, f, indent=4)`; a new `JobQueue` reads it back in `_load_jobs`,
through `json.load(f)` and `Job.from_dict`, and submits a run for each job left queued or
running.  The state `St` of the other modules keeps the file as the table it decodes to
(`St.ledger`); the first section shows that this loses nothing: the file `_save_jobs`
writes for any table decodes to that table.

The file is written only by `_save_jobs`, and every method that changes the table saves
before it returns.  The one write to the table that is not followed by a save inside the
same locked block is the outcome `_run_job` writes into its job after the process ends:
its save comes later, in the `finally` block.  So the ledger holds the table in every
reachable world of the repaired program except while some execution is between those two points, and a call
that returns in that window sees a table the file does not hold.

## Main definitions

* `PyJob`, `PyJob.toDict`, `PyJob.fromDict` — a job as the file stores it.
* `saveText`, `loadText` — the file `_save_jobs` writes, and the table `_load_jobs`
  reads from a file.
* `LedgerCurrent` — the ledger holds the table, or an execution's outcome awaits its
  save.

## Main results

* `loadText_saveText` — the file of a table decodes to the table.
* `loadJobs_submits` — `_load_jobs` submits one run for each queued or running job of
  the ledger and none for another.
* `ReachableBy.ledgerCurrent` — every reachable world satisfies `LedgerCurrent`.
-/

namespace Sandrun.JobQueue

open Json JQ

/-! ### The records of the file -/

/-- A `Job` as the storage file holds it and `Job.from_dict` rebuilds it: the names and
texts as strings, the command as a list of strings and `None`s. -/
structure PyJob where
  jobId : String
  ephemeralUser : String
  directory : String
  command : List (Option String)
  status : String
  logs : String
  hashedSecret : Option String
  deriving DecidableEq, Repr

/-- A Python `str` or `None`, as JSON. -/
def ofOptStr : Option String → JVal
  | some s => .str s
  | none => .null

/-- A string or `null` read back; a value of another kind is outside the model. -/
def toOptStr : JVal → Option (Option String)
  | .str s => some (some s)
  | .null => some none
  | _ => none

/-- A string read back; a value of another kind is outside the model. -/
def asStr : JVal → Option String
  | .str s => some s
  | _ => none

/-- A list read back; a value of another kind is outside the model. -/
def asArr : JVal → Option (List JVal)
  | .arr items => some items
  | _ => none

/-- `Job.to_dict()`. -/
def PyJob.toDict (job : PyJob) : JVal :=
  .obj [("job_id", .str job.jobId), ("ephemeral_user", .str job.ephemeralUser),
    ("directory", .str job.directory), ("command", .arr (job.command.map ofOptStr)),
    ("status", .str job.status), ("logs", .str job.logs),
    ("hashed_secret", ofOptStr job.hashedSecret)]

/-- `Job.from_dict(data)`, on the dict `json.load` builds from an object's members
(`dict(pairs)`, the last value of a repeated key kept): `data[key]` raises `KeyError` on
a missing key, `data.get("hashed_secret")` is `None` there. -/
def PyJob.fromDict : JVal → Option PyJob
  | .obj members =>
    let data : PyDict String JVal := PyDict.empty.setAll members
    do
      let command ← (data.get? "command").bind asArr
      let command ← command.mapM toOptStr
      let jobId ← (data.get? "job_id").bind asStr
      let ephemeralUser ← (data.get? "ephemeral_user").bind asStr
      let directory ← (data.get? "directory").bind asStr
      let status ← (data.get? "status").bind asStr
      let logs ← (data.get? "logs").bind asStr
      let hashedSecret ← toOptStr ((data.get? "hashed_secret").getD .null)
      pure ⟨jobId, ephemeralUser, directory, command, status, logs, hashedSecret⟩
  | _ => none

/-- The file `_save_jobs` writes: `{job_id: job.to_dict() for job_id, job in
self.jobs.items()}` through `json.dump(data, f, indent=4)`. -/
def saveText (jobs : PyDict String PyJob) : List Char :=
  dump 0 (.obj (jobs.items.map fun e => (e.1, e.2.toDict)))

/-- The table `_load_jobs` reads from a file: `json.load(f)`, then `self.jobs[job_id] =
Job.from_dict(job_data)` for each item, into the empty table of a new queue. -/
def loadText (text : List Char) : Option (PyDict String PyJob) :=
  match loads text with
  | some (.obj members) =>
    ((PyDict.empty.setAll members).items.mapM fun e => (PyJob.fromDict e.2).map (e.1, ·)).map
      PyDict.empty.setAll
  | _ => none

/-! ### The file of a table decodes to the table -/

theorem mapM_map_some {α β γ : Type} (f : α → β) (g : β → Option γ) (back : α → γ)
    {l : List α} (h : ∀ x ∈ l, g (f x) = some (back x)) :
    (l.map f).mapM g = some (l.map back) := by
  induction l with
  | nil => rfl
  | cons x l ih =>
    rw [List.map_cons, List.mapM_cons, h x (List.mem_cons_self x l),
      ih fun y hy => h y (List.mem_cons_of_mem x hy)]
    rfl

theorem fromDict_toDict (job : PyJob) : PyJob.fromDict job.toDict = some job := by
  have hc : (job.command.map ofOptStr).mapM toOptStr = some job.command := by
    simpa using mapM_map_some ofOptStr toOptStr id fun o _ => by cases o <;> rfl
  cases job
  cases hs : ‹Option String› <;>
    simp_all [PyJob.fromDict, PyJob.toDict, asArr, asStr, toOptStr, ofOptStr]

/-- **The file `_save_jobs` writes for a table decodes to the same table**: the same
keys in the same order, and each job equal in every field. -/
theorem loadText_saveText (jobs : PyDict String PyJob) : loadText (saveText jobs) = some jobs := by
  have hk : ((jobs.items.map fun e => (e.1, e.2.toDict)).map Prod.fst).Nodup := by
    simpa [Function.comp_def, PyDict.items_map_fst] using jobs.keys_nodup
  rw [loadText, saveText, loads_dump]
  dsimp only
  rw [PyDict.items_setAll_empty hk, mapM_map_some _ _ id fun e _ => by simp [fromDict_toDict],
    List.map_id]
  exact congrArg some (PyDict.setAll_items jobs)

/-! ### Loading resubmits the unfinished jobs -/

/-- `job.status in ["queued", "running"]`, the test of `_load_jobs`. -/
def resumable (job : Job) : Bool := job.status ∈ ["queued", "running"]

theorem resumable_iff (job : Job) :
    resumable job = true ↔ job.status = "queued" ∨ job.status = "running" := by
  simp [resumable]

/-- `_load_jobs` run by a thread that does not hold the lock, with either kind of lock,
ends as with `RLock`. -/
theorem loadJobs_unheld (k : LockKind) (s : St) (hs : s.held = false) :
    loadJobs k s = loadJobs .rlock s := by
  simp [loadJobs, withLock, hs, bind_apply, loadEach_apply]

/-- The number of runs `_load_jobs` submits for a job: one when the ledger holds it
queued or running, none otherwise. -/
theorem count_resubmitted (d : PyDict Nat Job) (jobId : Nat) :
    (resubmitted d.items).count jobId = if (d.get? jobId).any resumable then 1 else 0 := by
  cases hj : d.get? jobId with
  | none =>
    exact List.count_eq_zero_of_not_mem fun h => by
      obtain ⟨job, hj', -⟩ := mem_resubmitted.1 h
      rw [hj] at hj'; cases hj'
  | some job =>
    by_cases hr : resumable job = true
    · rw [Option.any_some, if_pos hr]
      exact List.count_eq_one_of_mem (resubmitted_nodup d)
        (mem_resubmitted.2 ⟨job, hj, (resumable_iff job).1 hr⟩)
    · rw [Option.any_some, if_neg hr]
      exact List.count_eq_zero_of_not_mem fun h => by
        obtain ⟨job', hj', hs⟩ := mem_resubmitted.1 h
        rw [hj, Option.some.injEq] at hj'
        exact hr ((resumable_iff job).2 (hj' ▸ hs))

/-- `_load_jobs` loads the ledger's jobs into the table and submits exactly one run for
each job the ledger holds queued or running, and none for any other. -/
theorem loadJobs_submits (k : LockKind) (s : St) (hs : s.held = false) :
    ∃ submitted : List Nat,
      loadJobs k s = .ok () { s with
        jobs := loadTable s.ledger.items s.jobs, pool := s.pool ++ submitted
        uuid := s.uuid + 3 * s.ledger.items.length } ∧
      ∀ jobId, submitted.count jobId = if (s.ledger.get? jobId).any resumable then 1 else 0 :=
  ⟨_, by rw [loadJobs_unheld k s hs, loadJobs_rlock], count_resubmitted s.ledger⟩

/-! ### The ledger over every run -/

/-- The ledger holds the table, or some execution of `_run_job` has written its job's
outcome and not yet run the save of its `finally` block. -/
def LedgerCurrent (w : World) : Prop :=
  w.st.ledger = w.st.jobs ∨ ∃ r ∈ w.runs, r.phase = .finished

/-- What a method does to the ledger: it leaves the state as it was, or saves the table
it ends with. -/
def SavesOrKeeps (s s' : St) : Prop := s' = s ∨ s'.ledger = s'.jobs

theorem enqueue_savesOrKeeps (hashSecret : String → String) (command : List (Option String))
    (secret : Option String) (allowed : Bool) (s : St) :
    SavesOrKeeps s (enqueue hashSecret command secret allowed .rlock s).state :=
  .inr (by rw [enqueue_state])

theorem cancelJob_savesOrKeeps (jobId : Nat) (matched : Bool) (s : St) :
    SavesOrKeeps s (cancelJob jobId matched .rlock s).state := by
  rw [SavesOrKeeps, cancelJob_state]
  cases s.jobs.get? jobId with
  | none => exact .inl rfl
  | some job =>
    dsimp only
    by_cases h : job.status = "running" ∧ job.ephemeralUser ∈ s.users ∧ matched = true
    · rw [if_pos h]; exact .inr rfl
    · rw [if_neg h]; exact .inl rfl

theorem restartJob_savesOrKeeps (jobId : Nat) (allowed : Bool) (s : St) :
    SavesOrKeeps s (restartJob jobId allowed .rlock s).state := by
  rw [SavesOrKeeps, restartJob_state]
  cases s.jobs.get? jobId with
  | none => exact .inl rfl
  | some job =>
    dsimp only
    by_cases h : job.status = "cancelled"
    · rw [if_pos h]; exact .inr rfl
    · rw [if_neg h]; exact .inl rfl

theorem deleteJob_savesOrKeeps (jobId : Nat) (s : St) :
    SavesOrKeeps s (deleteJob jobId .rlock s).state := by
  rw [SavesOrKeeps, deleteJob_state]
  cases s.jobs.get? jobId with
  | none => exact .inl rfl
  | some job =>
    dsimp only
    by_cases h : job.status = "running"
    · rw [if_pos h]; exact .inl rfl
    · rw [if_neg h]; exact .inr rfl

theorem LedgerCurrent.of_savesOrKeeps {w : World} {s' : St} (hw : LedgerCurrent w)
    (h : SavesOrKeeps w.st s') : LedgerCurrent ⟨s', w.runs⟩ := by
  rcases h with rfl | h
  · exact hw
  · exact .inl h

/-- A crash loads the ledger into an empty table. -/
theorem crash_ledger_eq_jobs (s : St) :
    (loadJobs .rlock (reboot s)).state.ledger = (loadJobs .rlock (reboot s)).state.jobs := by
  rw [loadJobs_rlock]
  exact (PyDict.setAll_items s.ledger).symm

/-- One step keeps `LedgerCurrent`. -/
theorem LedgerCurrent.step {hashSecret : String → String} {w w' : World} {a : Act}
    (hw : LedgerCurrent w) (hs : step hashSecret w a = some w') : LedgerCurrent w' := by
  cases a with
  | enqueue command secret allowed =>
    cases hs; exact hw.of_savesOrKeeps (enqueue_savesOrKeeps _ _ _ _ _)
  | start jobId =>
    obtain ⟨-, ⟨job, -, rfl⟩ | ⟨-, rfl⟩⟩ := step_start_cases hs
    · exact .inl rfl
    · exact hw
  | finish r proc =>
    simp only [JobQueue.step, stepWith] at hs
    split_ifs at hs
    cases hs
    exact .inr ⟨_, List.mem_cons_self _ _, rfl⟩
  | save r =>
    obtain ⟨-, -, rfl⟩ := step_save hs
    exact .inl (by rw [runSave_rlock]; rfl)
  | deleteUser r removed =>
    simp only [JobQueue.step, stepWith] at hs
    split_ifs at hs with hr
    cases hs
    rcases hw with hl | ⟨r', hr', hf⟩
    · exact .inl hl
    · refine .inr ⟨r', (List.mem_erase_of_ne fun he => ?_).2 hr', hf⟩
      rw [he, hr.2] at hf
      cases hf
  | cancel jobId matched =>
    cases hs; exact hw.of_savesOrKeeps (cancelJob_savesOrKeeps _ _ _)
  | restart jobId allowed =>
    cases hs; exact hw.of_savesOrKeeps (restartJob_savesOrKeeps _ _ _)
  | delete jobId =>
    cases hs; exact hw.of_savesOrKeeps (deleteJob_savesOrKeeps _ _)
  | crash =>
    cases hs; exact .inl (crash_ledger_eq_jobs _)

/-- **The ledger in every reachable world**: it holds the table, unless an execution
has written its outcome and not yet saved it. -/
theorem ReachableBy.ledgerCurrent {hashSecret : String → String} {allowed : Act → Prop}
    {w : World} (h : ReachableBy hashSecret allowed w) : LedgerCurrent w := by
  induction h with
  | init => exact .inl rfl
  | step _ _ hs ih => exact ih.step hs

/-- `get_job` returns the table's entry and changes nothing. -/
theorem getJob_rlock (jobId : Nat) (s : St) : getJob jobId .rlock s = .ok (s.jobs.get? jobId) s := by
  simp [getJob, withLock, lookup]

/-- **The storage file.**  The file `_save_jobs` writes for any table decodes to that
table; `_load_jobs` submits one run for each job the ledger holds queued or running and
none for another; and in every reachable world the ledger holds the table, unless an
execution's outcome awaits the save of its `finally` block. -/
theorem ledger_law (hashSecret : String → String) :
    (∀ jobs : PyDict String PyJob, loadText (saveText jobs) = some jobs) ∧
    (∀ (k : LockKind) (s : St), s.held = false → ∃ submitted : List Nat,
      loadJobs k s = .ok () { s with
        jobs := loadTable s.ledger.items s.jobs, pool := s.pool ++ submitted
        uuid := s.uuid + 3 * s.ledger.items.length } ∧
      ∀ jobId, submitted.count jobId = if (s.ledger.get? jobId).any resumable then 1 else 0) ∧
    (∀ w, Reachable hashSecret w → LedgerCurrent w) :=
  ⟨loadText_saveText, loadJobs_submits, fun _ hw => hw.ledgerCurrent⟩

/-- **A call returns while the file lags the table.**  After `enqueue`, the start of its
run and the end of the run's process, `get_job` returns with the table saying
`completed` and the file still saying `running`. -/
example :
    ∃ w, Reachable id w ∧ getJob 0 .rlock w.st = .ok (w.st.jobs.get? 0) w.st ∧
      (w.st.jobs.get? 0).map (·.status) = some "completed" ∧
      (w.st.ledger.get? 0).map (·.status) = some "running" ∧ w.st.ledger ≠ w.st.jobs := by
  refine ⟨_, ReachableBy.of_steps .init (fun _ _ => trivial) (show steps id World.init
    [.enqueue [some "echo"] none true, .start 0,
      .finish ⟨0, ⟨0, 1, 2, [some "echo"], "queued", "", none⟩, .started⟩ (.exited 0 "ok")] =
      some _ from rfl), getJob_rlock 0 _, rfl, rfl, fun h => ?_⟩
  have hc := congrArg (fun d => (PyDict.get? d 0).map (·.status)) h
  exact absurd hc (by decide)

end Sandrun.JobQueue
