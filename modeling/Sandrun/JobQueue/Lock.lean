import Sandrun.JobQueue.Basic

/-!
# Self-deadlock on the table lock

`self.lock` is a `threading.Lock`, and `_save_jobs` takes it itself.  Every method that
changes the table calls `_save_jobs` inside its own `with self.lock:` block, so the thread
acquires a lock it already holds, and a `threading.Lock` makes it wait for ever.

This module decides, for every method and every state in which the calling thread does
not hold the lock, whether the call blocks: `enqueue` always does; `_run_job`,
`cancel_job`, `restart_job` and `delete_job` do exactly when they get past their checks to
the save; `_load_jobs` never does.

## Main results

* `saveJobs_of_held` — `_save_jobs` called under the lock blocks.
* `enqueue_blocks` — **every `enqueue` blocks**.
* `runJob_blocks_iff`, `cancelJob_blocks_iff`, `restartJob_blocks_iff`,
  `deleteJob_blocks_iff`, `loadJobs_not_blocked` — the other methods.
-/

namespace Sandrun.JobQueue

open JQ

variable {α : Type}

/-- Whether a call waits for ever. -/
def Outcome.isBlocked : Outcome α → Bool
  | .blocked _ => true
  | _ => false

@[simp] theorem Outcome.isBlocked_ok (a : α) (s : St) : (Outcome.ok a s).isBlocked = false := rfl

@[simp] theorem Outcome.isBlocked_error (e : Exc) (s : St) :
    (Outcome.error e s : Outcome α).isBlocked = false := rfl

@[simp] theorem Outcome.isBlocked_blocked (s : St) :
    (Outcome.blocked s : Outcome α).isBlocked = true := rfl

/-- A thread that does not hold the lock blocks in `with self.lock:` only if the body
does. -/
theorem withLock_isBlocked {body : JQ α} {k : LockKind} {s : St} (hs : s.held = false) :
    (withLock body k s).isBlocked = (body k { s with held := true }).isBlocked := by
  simp only [withLock, hs, Bool.false_eq_true, false_and, if_false]
  split <;> simp_all

/-- A thread holding a `threading.Lock` blocks on `with self.lock:`. -/
theorem withLock_of_held {body : JQ α} {s : St} (hs : s.held = true) :
    withLock body .lock s = .blocked s := by
  simp [withLock, hs]

/-- The defect: `_save_jobs` called with the lock held blocks. -/
theorem saveJobs_of_held {s : St} (hs : s.held = true) : saveJobs .lock s = .blocked s :=
  withLock_of_held hs

/-- **Every `enqueue` blocks**: it calls `_save_jobs` inside its own `with self.lock:`. -/
theorem enqueue_blocks (hashSecret : String → String) (command : List (Option String))
    (secret : Option String) (allowed : Bool) {s : St} (hs : s.held = false) :
    ∃ s', enqueue hashSecret command secret allowed .lock s = .blocked s' := by
  simp [enqueue, newJob, bind_apply, withLock, hs, uuid4, setItem, saveJobs]

/-- `enqueue(["echo", "hi"], None)` on a fresh queue blocks. -/
theorem enqueue_echo_blocks :
    St.init.held = false ∧
      ∃ s', enqueue id [some "echo", some "hi"] none true .lock St.init = .blocked s' :=
  ⟨rfl, enqueue_blocks id [some "echo", some "hi"] none true rfl⟩

/-- `_run_job` blocks exactly when its job is still in the table; otherwise the lookup
raises `KeyError` first. -/
theorem runJob_blocks_iff (jobId : Nat) (proc : ProcOutcome) (removed : Bool) {s : St}
    (hs : s.held = false) :
    (runJob jobId proc removed .lock s).isBlocked = (s.jobs.get? jobId).isSome := by
  cases h : s.jobs.get? jobId <;>
    simp [runJob, runStart, bind_apply, withLock, hs, getItem, h, setStatus, modifyJob, saveJobs]

/-- `delete_job` blocks exactly when the job exists and is not running. -/
theorem deleteJob_blocks_iff (jobId : Nat) {s : St} (hs : s.held = false) :
    (deleteJob jobId .lock s).isBlocked =
      (s.jobs.get? jobId).any fun job => job.status ≠ "running" := by
  cases h : s.jobs.get? jobId with
  | none => simp [deleteJob, bind_apply, withLock, hs, lookup, h]
  | some job =>
    by_cases hr : job.status = "running" <;>
      simp [deleteJob, bind_apply, withLock, hs, lookup, h, hr, tryExcept, delItem, saveJobs]

/-- `cancel_job` blocks exactly when the job is running and `pkill` succeeds. -/
theorem cancelJob_blocks_iff (jobId : Nat) (matched : Bool) {s : St} (hs : s.held = false) :
    (cancelJob jobId matched .lock s).isBlocked =
      (s.jobs.get? jobId).any fun job =>
        job.status = "running" ∧ job.ephemeralUser ∈ s.users ∧ matched = true := by
  cases h : s.jobs.get? jobId with
  | none => simp [cancelJob, bind_apply, withLock, hs, lookup, h]
  | some job =>
    by_cases hr : job.status = "running" <;> by_cases hu : job.ephemeralUser ∈ s.users <;>
      cases matched <;>
      simp [cancelJob, bind_apply, withLock, hs, lookup, h, hr, hu, tryExcept, pkill, setStatus,
        modifyJob, saveJobs]

/-- `restart_job` blocks exactly when the job exists and is cancelled. -/
theorem restartJob_blocks_iff (jobId : Nat) (allowed : Bool) {s : St} (hs : s.held = false) :
    (restartJob jobId allowed .lock s).isBlocked =
      (s.jobs.get? jobId).any fun job => job.status = "cancelled" := by
  cases h : s.jobs.get? jobId with
  | none => simp [restartJob, bind_apply, withLock, hs, lookup, h]
  | some job =>
    by_cases hr : job.status = "cancelled" <;>
      simp [restartJob, bind_apply, withLock, hs, lookup, h, hr, setStatus, modifyJob, saveJobs]

/-- The loop of `_load_jobs` takes no lock. -/
theorem loadEach_not_blocked (l : List (Nat × Job)) (k : LockKind) (s : St) :
    (loadEach l k s).isBlocked = false := by
  induction l generalizing s with
  | nil => rfl
  | cons e l ih =>
    by_cases h : e.2.status = "queued" ∨ e.2.status = "running" <;>
      simp [loadEach, bind_apply, fromDict, newJob, uuid4, setItem, h, submit, ih]

/-- `_load_jobs` never blocks: it takes the lock once and calls nothing that takes it. -/
theorem loadJobs_not_blocked (k : LockKind) {s : St} (hs : s.held = false) :
    (loadJobs k s).isBlocked = false := by
  rw [loadJobs, withLock_isBlocked hs]
  exact loadEach_not_blocked _ k _

end Sandrun.JobQueue
