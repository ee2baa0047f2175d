import Sandrun.JobQueue.Basic

/-!
# What the methods do when they complete

With a reentrant lock no method of the queue blocks, and each one is a function of the
state it starts from.  This module states that function for every method, as one
equation each; the step relation of `Sandrun.JobQueue.Step` is built from these runs and
every later proof cites the equations instead of unfolding a method.

## Main results

* `enqueue_rlock`, `runStart_rlock`, `runBody_rlock`, `runSave_rlock`,
  `cancelJob_rlock`, `restartJob_rlock`, `deleteJob_rlock`, `loadJobs_rlock` — the
  outcome of each method, from any state.
-/

namespace Sandrun.JobQueue

open JQ

/-- The job `enqueue` creates: ids from the next three uuids. -/
def enqueuedJob (hashSecret : String → String) (command : List (Option String))
    (secret : Option String) (s : St) : Job :=
  ⟨s.uuid, s.uuid + 1, s.uuid + 2, command, "queued", "", hashedSecretOf hashSecret secret⟩

/-- The job object as `_run_job` leaves it when the process is over. -/
def finishJob : ProcOutcome → Job → Job
  | .exited code stdout => fun j =>
    if code = 0 then { j with logs := stdout, status := "completed" }
    else { j with logs := stdout ++ "\n[Error] Non-zero return code.", status := "failed" }
  | .raised e => fun j => { j with status := "failed", logs := j.logs ++ "\n[Exception] " ++ e }

/-- `job.status = status` on a stored job. -/
def withStatus (status : String) : Job → Job := fun j => { j with status := status }

theorem setStatus_eq (jobId : Nat) (status : String) :
    setStatus jobId status = modifyJob jobId (withStatus status) := rfl

/-- The table `_load_jobs` builds from the ledger's items. -/
def loadTable (items : List (Nat × Job)) (jobs : PyDict Nat Job) : PyDict Nat Job :=
  jobs.setAll items

/-- The ids `_load_jobs` resubmits: those of the queued and running jobs, in order. -/
def resubmitted (items : List (Nat × Job)) : List Nat :=
  (items.filter fun e => e.2.status = "queued" ∨ e.2.status = "running").map Prod.fst

/-- `enqueue` stores the new job and saves; then the directory, the user, the run. -/
theorem enqueue_rlock (hashSecret : String → String) (command : List (Option String))
    (secret : Option String) (allowed : Bool) (s : St) :
    enqueue hashSecret command secret allowed .rlock s =
      let job := enqueuedJob hashSecret command secret s
      let s₁ : St := { s with
        jobs := s.jobs.set s.uuid job, ledger := s.jobs.set s.uuid job
        dirs := if s.uuid + 2 ∈ s.dirs then s.dirs else (s.uuid + 2) :: s.dirs
        uuid := s.uuid + 3 }
      if allowed = true ∧ s.uuid + 1 ∉ s.users then
        .ok s.uuid { s₁ with users := (s.uuid + 1) :: s.users, pool := s.pool ++ [s.uuid] }
      else .error .calledProcessError s₁ := by
  by_cases h : allowed = true ∧ s.uuid + 1 ∉ s.users <;>
    simp [enqueue, newJob, bind_apply, uuid4, withLock, setItem, saveJobs, makedirs, createUser,
      submit, enqueuedJob, h, Nat.add_assoc]

/-- The first block of `_run_job` marks the job running and saves, or raises `KeyError`. -/
theorem runStart_rlock (jobId : Nat) (s : St) :
    runStart jobId .rlock s =
      match s.jobs.get? jobId with
      | some job =>
        .ok job { s with
          jobs := s.jobs.modify jobId (withStatus "running")
          ledger := s.jobs.modify jobId (withStatus "running") }
      | none => .error (.keyError jobId) s := by
  cases h : s.jobs.get? jobId <;>
    simp [runStart, bind_apply, withLock, getItem, h, setStatus_eq, modifyJob, saveJobs]

/-- The rest of `_run_job`'s `try` block writes the outcome into the job object. -/
theorem runBody_rlock (jobId : Nat) (proc : ProcOutcome) (s : St) :
    runBody jobId proc .rlock s = .ok () { s with jobs := s.jobs.modify jobId (finishJob proc) } := by
  cases proc with
  | exited code stdout =>
    by_cases h : code = 0 <;>
      simp [runBody, bind_apply, modifyJob, setStatus, finishJob, h, Function.comp_def]
  | raised e => simp [runBody, bind_apply, modifyJob, setStatus, finishJob, Function.comp_def]

/-- The `finally` block's save writes the table to the ledger. -/
theorem runSave_rlock (s : St) : runSave .rlock s = .ok () { s with ledger := s.jobs } := by
  simp [runSave, saveJobs, withLock]

/-- `cancel_job`: the three checks, then the status write and the save. -/
theorem cancelJob_rlock (jobId : Nat) (matched : Bool) (s : St) :
    cancelJob jobId matched .rlock s =
      match s.jobs.get? jobId with
      | none => .error (.valueError "Job not found.") s
      | some job =>
        if job.status ≠ "running" then .error (.valueError "Job is not running.") s
        else if job.ephemeralUser ∈ s.users ∧ matched = true then
          .ok () { s with
            jobs := s.jobs.modify jobId (withStatus "cancelled")
            ledger := s.jobs.modify jobId (withStatus "cancelled") }
        else .error (.valueError "Error canceling job: Failed to cancel job.") s := by
  cases h : s.jobs.get? jobId with
  | none => simp [cancelJob, bind_apply, withLock, lookup, h]
  | some job =>
    by_cases hr : job.status = "running" <;> by_cases hu : job.ephemeralUser ∈ s.users <;>
      cases matched <;>
      simp [cancelJob, bind_apply, withLock, lookup, h, hr, hu, tryExcept, pkill, setStatus_eq,
        modifyJob, saveJobs, Exc.str]

/-- `restart_job`: the checks, the status write and the save, then the directory, the
user and the run. -/
theorem restartJob_rlock (jobId : Nat) (allowed : Bool) (s : St) :
    restartJob jobId allowed .rlock s =
      match s.jobs.get? jobId with
      | none => .error (.valueError "Job not found.") s
      | some job =>
        if job.status ≠ "cancelled" then .error (.valueError "Job is not cancelled.") s
        else
          let s₁ : St := { s with
            jobs := s.jobs.modify jobId (withStatus "queued")
            ledger := s.jobs.modify jobId (withStatus "queued")
            dirs := if job.directory ∈ s.dirs then s.dirs else job.directory :: s.dirs }
          if allowed = true ∧ job.ephemeralUser ∉ s.users then
            .ok () { s₁ with users := job.ephemeralUser :: s.users, pool := s.pool ++ [job.jobId] }
          else .error .calledProcessError s₁ := by
  cases h : s.jobs.get? jobId with
  | none => simp [restartJob, bind_apply, withLock, lookup, h]
  | some job =>
    by_cases hr : job.status = "cancelled" <;>
      by_cases hu : allowed = true ∧ job.ephemeralUser ∉ s.users <;>
      simp [restartJob, bind_apply, withLock, lookup, h, hr, hu, setStatus_eq, modifyJob, saveJobs,
        makedirs, createUser, submit]

/-- `delete_job`: the checks, then the entry, the ledger's copy and the directory go. -/
theorem deleteJob_rlock (jobId : Nat) (s : St) :
    deleteJob jobId .rlock s =
      match s.jobs.get? jobId with
      | none => .error (.valueError "Job not found.") s
      | some job =>
        if job.status = "running" then
          .error (.valueError "Cannot delete a running job. Cancel it first.") s
        else
          .ok () { s with
            jobs := s.jobs.erase jobId, ledger := s.jobs.erase jobId
            dirs := s.dirs.erase job.directory } := by
  cases h : s.jobs.get? jobId with
  | none => simp [deleteJob, bind_apply, withLock, lookup, h]
  | some job =>
    by_cases hr : job.status = "running" <;>
      simp [deleteJob, bind_apply, withLock, lookup, h, hr, tryExcept, delItem, saveJobs, rmtree]

/-! ### The states the methods end in -/

theorem enqueue_state (hashSecret : String → String) (command : List (Option String))
    (secret : Option String) (allowed : Bool) (s : St) :
    (enqueue hashSecret command secret allowed .rlock s).state =
      { s with
        jobs := s.jobs.set s.uuid (enqueuedJob hashSecret command secret s)
        ledger := s.jobs.set s.uuid (enqueuedJob hashSecret command secret s)
        dirs := if s.uuid + 2 ∈ s.dirs then s.dirs else (s.uuid + 2) :: s.dirs
        uuid := s.uuid + 3
        users := if allowed = true ∧ s.uuid + 1 ∉ s.users then (s.uuid + 1) :: s.users else s.users
        pool := if allowed = true ∧ s.uuid + 1 ∉ s.users then s.pool ++ [s.uuid] else s.pool } := by
  rw [enqueue_rlock]
  by_cases h : allowed = true ∧ s.uuid + 1 ∉ s.users <;> simp only [h, if_true, if_false] <;> rfl

theorem cancelJob_state (jobId : Nat) (matched : Bool) (s : St) :
    (cancelJob jobId matched .rlock s).state =
      match s.jobs.get? jobId with
      | some job =>
        if job.status = "running" ∧ job.ephemeralUser ∈ s.users ∧ matched = true then
          { s with
            jobs := s.jobs.modify jobId (withStatus "cancelled")
            ledger := s.jobs.modify jobId (withStatus "cancelled") }
        else s
      | none => s := by
  rw [cancelJob_rlock]
  cases s.jobs.get? jobId with
  | none => rfl
  | some job => by_cases h : job.status = "running" <;> simp [h]; split <;> rfl

theorem restartJob_state (jobId : Nat) (allowed : Bool) (s : St) :
    (restartJob jobId allowed .rlock s).state =
      match s.jobs.get? jobId with
      | some job =>
        if job.status = "cancelled" then
          { s with
            jobs := s.jobs.modify jobId (withStatus "queued")
            ledger := s.jobs.modify jobId (withStatus "queued")
            dirs := if job.directory ∈ s.dirs then s.dirs else job.directory :: s.dirs
            users := if allowed = true ∧ job.ephemeralUser ∉ s.users then job.ephemeralUser :: s.users
              else s.users
            pool := if allowed = true ∧ job.ephemeralUser ∉ s.users then s.pool ++ [job.jobId]
              else s.pool }
        else s
      | none => s := by
  rw [restartJob_rlock]
  cases s.jobs.get? jobId with
  | none => rfl
  | some job =>
    by_cases h : job.status = "cancelled" <;>
      by_cases hu : allowed = true ∧ job.ephemeralUser ∉ s.users <;> simp [h, hu]

theorem deleteJob_state (jobId : Nat) (s : St) :
    (deleteJob jobId .rlock s).state =
      match s.jobs.get? jobId with
      | some job =>
        if job.status = "running" then s
        else { s with
          jobs := s.jobs.erase jobId, ledger := s.jobs.erase jobId
          dirs := s.dirs.erase job.directory }
      | none => s := by
  rw [deleteJob_rlock]
  cases s.jobs.get? jobId with
  | none => rfl
  | some job => by_cases h : job.status = "running" <;> simp [h]

theorem loadEach_apply (items : List (Nat × Job)) (k : LockKind) (s : St) :
    loadEach items k s =
      .ok () { s with
        jobs := loadTable items s.jobs, pool := s.pool ++ resubmitted items
        uuid := s.uuid + 3 * items.length } := by
  induction items generalizing s with
  | nil => simp [loadEach, loadTable, resubmitted]
  | cons e items ih =>
    by_cases h : e.2.status = "queued" ∨ e.2.status = "running" <;>
      simp [loadEach, bind_apply, fromDict, newJob, uuid4, setItem, submit, h, ih, loadTable,
        resubmitted, List.filter_cons] <;> omega

theorem mem_resubmitted {d : PyDict Nat Job} {jobId : Nat} :
    jobId ∈ resubmitted d.items ↔
      ∃ job, d.get? jobId = some job ∧ (job.status = "queued" ∨ job.status = "running") := by
  simp [resubmitted, PyDict.mem_items]

theorem resubmitted_nodup (d : PyDict Nat Job) : (resubmitted d.items).Nodup :=
  ((List.filter_sublist _).map Prod.fst).nodup (d.items_map_fst ▸ d.keys_nodup)

/-- `_load_jobs` loads the ledger's jobs and resubmits the queued and running ones. -/
theorem loadJobs_rlock (s : St) :
    loadJobs .rlock s =
      .ok () { s with
        jobs := loadTable s.ledger.items s.jobs
        pool := s.pool ++ resubmitted s.ledger.items
        uuid := s.uuid + 3 * s.ledger.items.length } := by
  simp [loadJobs, withLock, bind_apply, loadEach_apply]

end Sandrun.JobQueue
