import Sandrun.JobQueue.Failure
import Sandrun.JobQueue.Ledger
import Sandrun.JobQueue.Users

/-!
# The job queue as written

`self.lock` is a `threading.Lock`, and `_save_jobs` takes it again inside every locked
block that saves, so the thread that gets there waits for ever holding the lock
(`Sandrun.JobQueue.Lock`).  This module follows the runs of the code as written: every
method runs with that lock, a call that blocks leaves its thread waiting with the lock
held, and every later call that takes the lock blocks as well.

Call by call the code refines the repaired program: with `threading.Lock` a method ends
as with a reentrant lock, or blocks holding the lock (`LockRefines`).  Over a run this
makes a run of the code a run of the repaired program up to its first blocked call
(`codeSteps_refines`).  From a fresh installation that call comes early: `enqueue` stores
its job and blocks in `_save_jobs` before it makes a directory, a user or a run, and from
then on every call that takes the lock blocks; a `cancel_job`, `restart_job` or
`delete_job` made while the lock is free finds no job, and a crash reloads the ledger,
which no save ever wrote.  So no job leaves `queued`, no execution starts, and no user or
directory is made (`Frozen`).

## Main definitions

* `codeStep`, `CodeReachable` — the steps of the code, and the worlds its runs reach from
  a fresh installation.
* `Frozen` — what those worlds satisfy.

## Main results

* `enqueue_lock`, `runStart_lock`, `runSave_lock`, `cancelJob_lock`, `restartJob_lock`,
  `deleteJob_lock` — the outcome of each method with `threading.Lock`, from any state.
* `codeStep_refines`, `codeSteps_refines` — a step of the code is the repaired step or
  blocks holding the lock; a run of the code is a run of the repaired program up to its
  first blocked call.
* `CodeReachable.frozen` — every world the code reaches is `Frozen`.
* `code_statuses_stay_queued`, `code_runs_isolated`, `code_users_follow_runs`,
  `code_ledger_law`, `raising_call_keeps_state` — what the lifecycle, the executions, the
  users, the ledger and the failed calls of the code come to.
-/

namespace Sandrun.JobQueue

open JQ

@[simp] theorem Outcome.state_blocked {α : Type} (s : St) : (Outcome.blocked s : Outcome α).state = s :=
  rfl

/-! ### The methods with `threading.Lock` -/

/-- `enqueue` draws its uuids, and, unless another thread holds the lock, stores the job;
it then blocks, in its own `_save_jobs` or on the lock. -/
theorem enqueue_lock (hashSecret : String → String) (command : List (Option String))
    (secret : Option String) (allowed : Bool) (s : St) :
    enqueue hashSecret command secret allowed .lock s =
      .blocked { s with
        jobs := if s.held then s.jobs else s.jobs.set s.uuid (enqueuedJob hashSecret command secret s)
        uuid := s.uuid + 3, held := true } := by
  obtain ⟨jobs, ledger, pool, users, dirs, uuid, held⟩ := s
  cases held <;>
    simp [enqueue, newJob, bind_apply, uuid4, withLock, setItem, saveJobs, enqueuedJob, Nat.add_assoc]

/-- The first block of `_run_job` raises `KeyError` for a missing job, and otherwise
marks it running and blocks in `_save_jobs`. -/
theorem runStart_lock (jobId : Nat) (s : St) :
    runStart jobId .lock s =
      if s.held then .blocked s
      else match s.jobs.get? jobId with
        | some _ => .blocked { s with jobs := s.jobs.modify jobId (withStatus "running"), held := true }
        | none => .error (.keyError jobId) s := by
  obtain ⟨jobs, ledger, pool, users, dirs, uuid, held⟩ := s
  cases held <;> cases h : jobs.get? jobId <;>
    simp [runStart, bind_apply, withLock, getItem, h, setStatus_eq, modifyJob, saveJobs]

/-- The save of `_run_job`'s `finally` block takes the lock twice. -/
theorem runSave_lock (s : St) : runSave .lock s = .blocked { s with held := true } := by
  obtain ⟨jobs, ledger, pool, users, dirs, uuid, held⟩ := s
  cases held <;> simp [runSave, saveJobs, withLock]

/-- `cancel_job` raises at its checks, and blocks in `_save_jobs` past them. -/
theorem cancelJob_lock (jobId : Nat) (matched : Bool) (s : St) :
    cancelJob jobId matched .lock s =
      if s.held then .blocked s
      else match s.jobs.get? jobId with
        | none => .error (.valueError "Job not found.") s
        | some job =>
          if job.status ≠ "running" then .error (.valueError "Job is not running.") s
          else if job.ephemeralUser ∈ s.users ∧ matched = true then
            .blocked { s with jobs := s.jobs.modify jobId (withStatus "cancelled"), held := true }
          else .error (.valueError "Error canceling job: Failed to cancel job.") s := by
  obtain ⟨jobs, ledger, pool, users, dirs, uuid, held⟩ := s
  cases held
  · cases h : jobs.get? jobId with
    | none => simp [cancelJob, bind_apply, withLock, lookup, h]
    | some job =>
      by_cases hr : job.status = "running" <;> by_cases hu : job.ephemeralUser ∈ users <;>
        cases matched <;>
        simp [cancelJob, bind_apply, withLock, lookup, h, hr, hu, tryExcept, pkill, setStatus_eq,
          modifyJob, saveJobs, Exc.str]
  · simp [cancelJob, withLock]

/-- `restart_job` raises at its checks, and blocks in `_save_jobs` past them, before
`useradd`. -/
theorem restartJob_lock (jobId : Nat) (allowed : Bool) (s : St) :
    restartJob jobId allowed .lock s =
      if s.held then .blocked s
      else match s.jobs.get? jobId with
        | none => .error (.valueError "Job not found.") s
        | some job =>
          if job.status ≠ "cancelled" then .error (.valueError "Job is not cancelled.") s
          else .blocked { s with jobs := s.jobs.modify jobId (withStatus "queued"), held := true } := by
  obtain ⟨jobs, ledger, pool, users, dirs, uuid, held⟩ := s
  cases held
  · cases h : jobs.get? jobId with
    | none => simp [restartJob, bind_apply, withLock, lookup, h]
    | some job =>
      by_cases hr : job.status = "cancelled" <;>
        simp [restartJob, bind_apply, withLock, lookup, h, hr, setStatus_eq, modifyJob, saveJobs]
  · simp [restartJob, withLock]

/-- `delete_job` raises at its checks, and blocks in `_save_jobs` past them. -/
theorem deleteJob_lock (jobId : Nat) (s : St) :
    deleteJob jobId .lock s =
      if s.held then .blocked s
      else match s.jobs.get? jobId with
        | none => .error (.valueError "Job not found.") s
        | some job =>
          if job.status = "running" then
            .error (.valueError "Cannot delete a running job. Cancel it first.") s
          else .blocked { s with jobs := s.jobs.erase jobId, held := true } := by
  obtain ⟨jobs, ledger, pool, users, dirs, uuid, held⟩ := s
  cases held
  · cases h : jobs.get? jobId with
    | none => simp [deleteJob, bind_apply, withLock, lookup, h]
    | some job =>
      by_cases hr : job.status = "running" <;>
        simp [deleteJob, bind_apply, withLock, lookup, h, hr, tryExcept, delItem, saveJobs]
  · simp [deleteJob, withLock]

/-- The body of `_run_job` takes no lock. -/
theorem runBody_lock (jobId : Nat) (proc : ProcOutcome) (s : St) :
    runBody jobId proc .lock s = runBody jobId proc .rlock s := by
  rw [runBody_rlock]
  cases proc with
  | exited code stdout =>
    by_cases h : code = 0 <;>
      simp [runBody, bind_apply, modifyJob, setStatus, finishJob, h, Function.comp_def]
  | raised e => simp [runBody, bind_apply, modifyJob, setStatus, finishJob, Function.comp_def]

/-- **A call of the code raises only before it writes.**  With `threading.Lock`, from any
state: `enqueue` never raises; and an exception of `restart_job`, `cancel_job` or
`delete_job` leaves the state as it was, since each raises at a check or, for `pkill`,
from a block that writes nothing, and blocks once past them. -/
theorem raising_call_keeps_state (s s' : St) (e : Exc) :
    (∀ hashSecret command secret allowed,
      enqueue hashSecret command secret allowed .lock s ≠ .error e s') ∧
    (∀ jobId allowed, restartJob jobId allowed .lock s = .error e s' → s' = s) ∧
    (∀ jobId matched, cancelJob jobId matched .lock s = .error e s' → s' = s) ∧
    (∀ jobId, deleteJob jobId .lock s = .error e s' → s' = s) := by
  refine ⟨fun _ _ _ _ h => (by rw [enqueue_lock] at h; cases h), fun jobId allowed h => ?_,
    fun jobId matched h => ?_, fun jobId h => ?_⟩
  · rw [restartJob_lock] at h
    split_ifs at h
    split at h
    · cases h; rfl
    · split_ifs at h; cases h; rfl
  · rw [cancelJob_lock] at h
    split_ifs at h
    split at h
    · cases h; rfl
    · split_ifs at h <;> cases h <;> rfl
  · rw [deleteJob_lock] at h
    split_ifs at h
    split at h
    · cases h; rfl
    · split_ifs at h; cases h; rfl

/-- `restart_job` of a queued job raises, and leaves the state as it was. -/
theorem raising_call_keeps_state_queued :
    let s : St := { St.init with jobs := PyDict.empty.set 0 ⟨0, 1, 2, [], "queued", "", none⟩ }
    ∃ e s', restartJob 0 true .lock s = .error e s' ∧ s' = s :=
  ⟨_, _, rfl, (raising_call_keeps_state _ _ _).2.1 0 true rfl⟩

/-! ### The runs of the code -/

/-- A step of the code as written: every method runs with `threading.Lock`. -/
def codeStep (hashSecret : String → String) : World → Act → Option World :=
  stepWith hashSecret .lock

/-- The worlds the code reaches from a fresh installation. -/
inductive CodeReachable (hashSecret : String → String) : World → Prop
  | init : CodeReachable hashSecret World.init
  | step {w w' : World} {a : Act} : CodeReachable hashSecret w → codeStep hashSecret w a = some w' →
      CodeReachable hashSecret w'

theorem CodeReachable.of_steps {hashSecret : String → String} {w w' : World} {as : List Act}
    (hw : CodeReachable hashSecret w) (h : stepsWith hashSecret .lock w as = some w') :
    CodeReachable hashSecret w' := by
  induction as generalizing w with
  | nil => cases h; exact hw
  | cons a as ih =>
    obtain ⟨w₁, h₁, h₂⟩ := Option.bind_eq_some.1 h
    exact ih (hw.step h₁) h₂

/-- **A step of the code is a step of the repaired program, or blocks.**  From the
refinement of each method: the code takes the step the repaired program takes, or its
call blocks and the world it leaves has the lock held. -/
theorem codeStep_refines (hashSecret : String → String) (w : World) (a : Act) :
    codeStep hashSecret w a = step hashSecret w a ∨
      ∃ w', codeStep hashSecret w a = some w' ∧ w'.st.held = true := by
  -- a call whose only effect is the state it ends in
  have call : ∀ {α : Type} {m : JQ α}, LockRefines m →
      some { w with st := (m .lock w.st).state } = some { w with st := (m .rlock w.st).state } ∨
        ∃ w', some { w with st := (m .lock w.st).state } = some w' ∧ w'.st.held = true :=
    fun hm => (hm.state w.st).imp (fun he => by rw [he]) fun hh => ⟨_, rfl, hh⟩
  cases a with
  | enqueue command secret allowed => exact call (enqueue_lockRefines hashSecret command secret allowed)
  | start jobId =>
    simp only [codeStep, step, stepWith]
    split_ifs
    · rcases runStart_lockRefines jobId { w.st with pool := w.st.pool.erase jobId } with
        ⟨s', hb, hh⟩ | he
      · exact .inr ⟨_, by rw [hb], hh⟩
      · exact .inl (by rw [he])
    · exact .inl rfl
  | finish r proc => exact .inl (by simp only [codeStep, step, stepWith, runBody_lock])
  | save r =>
    simp only [codeStep, step, stepWith]
    split_ifs
    · rcases runSave_lockRefines w.st with ⟨s', hb, hh⟩ | he
      · exact .inr ⟨_, by rw [hb], hh⟩
      · exact .inl (by rw [he])
    · exact .inl rfl
  | deleteUser r removed => exact .inl rfl
  | cancel jobId matched => exact call (cancelJob_lockRefines jobId matched)
  | restart jobId allowed => exact call (restartJob_lockRefines jobId allowed)
  | delete jobId => exact call (deleteJob_lockRefines jobId)
  | crash => exact .inl (by simp only [codeStep, step, stepWith, loadJobs_unheld .lock (reboot w.st) rfl])

/-- **A run of the code is a run of the repaired program up to its first blocked call.**
Either the code's run is a run of the repaired program, or it is one up to a step whose
call blocks, holding the lock, and the code goes on from there. -/
theorem codeSteps_refines (hashSecret : String → String) {w w' : World} {as : List Act}
    (h : stepsWith hashSecret .lock w as = some w') :
    steps hashSecret w as = some w' ∨
      ∃ as₁ a as₂ w₁ w₂, as = as₁ ++ a :: as₂ ∧ steps hashSecret w as₁ = some w₁ ∧
        codeStep hashSecret w₁ a = some w₂ ∧ w₂.st.held = true ∧
        stepsWith hashSecret .lock w₂ as₂ = some w' := by
  induction as generalizing w with
  | nil => exact .inl h
  | cons a as ih =>
    obtain ⟨w₁, h₁, h₂⟩ := Option.bind_eq_some.1 h
    rcases codeStep_refines hashSecret w a with he | ⟨w₂, hb, hh⟩
    · have hs : step hashSecret w a = some w₁ := he ▸ h₁
      rcases ih h₂ with hr | ⟨as₁, b, as₂, v₁, v₂, rfl, hv₁, hb', hh', hv₂⟩
      · exact .inl (Option.bind_eq_some.2 ⟨w₁, hs, hr⟩)
      · exact .inr ⟨a :: as₁, b, as₂, v₁, v₂, rfl, Option.bind_eq_some.2 ⟨w₁, hs, hv₁⟩, hb', hh', hv₂⟩
    · obtain rfl : w₂ = w₁ := Option.some_injective _ (hb.symm.trans h₁)
      exact .inr ⟨[], a, as, w, w₂, rfl, rfl, h₁, hh, h₂⟩

/-- Two jobs enqueued with a crash between them, and a cancellation, a restart and a
deletion of the first, each blocked: the second job is in the table, queued. -/
def frozenRun : List Act :=
  [.enqueue [some "echo", some "hi"] none true, .cancel 0 true, .restart 0 true, .delete 0,
    .crash, .enqueue [some "ls"] none true]

/-- The run of the code over `frozenRun` is a run of the repaired program up to a call
that blocks. -/
theorem codeSteps_refines_frozenRun :
    ∃ w, stepsWith id .lock World.init frozenRun = some w ∧
      (steps id World.init frozenRun = some w ∨
        ∃ as₁ a as₂ w₁ w₂, frozenRun = as₁ ++ a :: as₂ ∧ steps id World.init as₁ = some w₁ ∧
          codeStep id w₁ a = some w₂ ∧ w₂.st.held = true ∧ stepsWith id .lock w₂ as₂ = some w) := by
  have hs := show stepsWith id .lock World.init frozenRun = some _ from rfl
  exact ⟨_, hs, codeSteps_refines id hs⟩

/-! ### What the code reaches -/

/-- What every world of the code satisfies: no execution, nothing in the pool, an empty
ledger, no user and no directory; the table is empty unless a thread waits holding the
lock, and every job in it is queued. -/
structure Frozen (w : World) : Prop where
  runs : w.runs = []
  pool : w.st.pool = []
  ledger : w.st.ledger = .empty
  users : w.st.users = []
  dirs : w.st.dirs = []
  /-- While no thread waits holding the lock, the table is empty. -/
  free : w.st.held = false → w.st.jobs = .empty
  queued : ∀ j job, w.st.jobs.get? j = some job → job.status = "queued"

theorem Frozen.init : Frozen World.init :=
  ⟨rfl, rfl, rfl, rfl, rfl, fun _ => rfl, fun _ _ h => by cases h⟩

section Frozen

variable {w : World} (h : Frozen w)
include h

/-- The calls that look a job up change nothing: the lock is held, or the table is
empty. -/
theorem Frozen.lookups (jobId : Nat) (matched allowed : Bool) :
    (cancelJob jobId matched .lock w.st).state = w.st ∧
      (restartJob jobId allowed .lock w.st).state = w.st ∧ (deleteJob jobId .lock w.st).state = w.st := by
  cases hh : w.st.held
  · have hj : w.st.jobs.get? jobId = none := by rw [h.free hh]; rfl
    simp [cancelJob_lock, restartJob_lock, deleteJob_lock, hh, hj]
  · simp [cancelJob_lock, restartJob_lock, deleteJob_lock, hh]

theorem Frozen.enqueue (hashSecret : String → String) (command : List (Option String))
    (secret : Option String) (allowed : Bool) :
    Frozen { w with st := (JobQueue.enqueue hashSecret command secret allowed .lock w.st).state } := by
  rw [enqueue_lock, Outcome.state_blocked]
  refine ⟨h.runs, h.pool, h.ledger, h.users, h.dirs, fun hf => (by cases hf), fun j job hj => ?_⟩
  dsimp only at hj
  cases hh : w.st.held
  · rw [hh, h.free hh] at hj
    simp only [Bool.false_eq_true, if_false, PyDict.get?_set, PyDict.get?_empty] at hj
    split_ifs at hj
    cases hj; rfl
  · rw [hh, if_pos rfl] at hj
    exact h.queued j job hj

theorem Frozen.crash : Frozen ⟨(loadJobs .lock (reboot w.st)).state, []⟩ := by
  have hi : (reboot w.st).ledger.items = [] := by rw [reboot, h.ledger]; rfl
  rw [loadJobs_unheld .lock (reboot w.st) rfl, loadJobs_rlock, Outcome.state_ok, hi]
  exact ⟨rfl, rfl, h.ledger, h.users, h.dirs, fun _ => rfl, fun _ _ hj => by cases hj⟩

/-- **Every step of the code keeps the world frozen.** -/
theorem Frozen.step {hashSecret : String → String} {w' : World} {a : Act}
    (hs : codeStep hashSecret w a = some w') : Frozen w' := by
  cases a with
  | enqueue command secret allowed => cases hs; exact h.enqueue hashSecret command secret allowed
  | start jobId => simp [codeStep, stepWith, h.pool] at hs
  | finish r proc => simp [codeStep, stepWith, h.runs] at hs
  | save r => simp [codeStep, stepWith, h.runs] at hs
  | deleteUser r removed => simp [codeStep, stepWith, h.runs] at hs
  | cancel jobId matched => cases hs; rw [(h.lookups jobId matched true).1]; exact h
  | restart jobId allowed => cases hs; rw [(h.lookups jobId true allowed).2.1]; exact h
  | delete jobId => cases hs; rw [(h.lookups jobId true true).2.2]; exact h
  | crash => cases hs; exact h.crash

end Frozen

/-- **Every world the code reaches is frozen.** -/
theorem CodeReachable.frozen {hashSecret : String → String} {w : World}
    (hr : CodeReachable hashSecret w) : Frozen w := by
  induction hr with
  | init => exact Frozen.init
  | step _ hs ih => exact ih.step hs

/-! ### The laws of the code -/

/-- **No status ever changes.**  In every world the code reaches, every job is queued,
and no step changes the status of a job: the code never makes the transitions the
lifecycle names, and none other. -/
theorem code_statuses_stay_queued {hashSecret : String → String} {w : World}
    (hr : CodeReachable hashSecret w) :
    (∀ j job, w.st.jobs.get? j = some job → job.status = "queued") ∧
    ∀ a w', codeStep hashSecret w a = some w' → ∀ j job job', w.st.jobs.get? j = some job →
      w'.st.jobs.get? j = some job' → job'.status = job.status :=
  ⟨hr.frozen.queued, fun _ _ hs j job job' hj hj' => by
    rw [(hr.step hs).frozen.queued j job' hj', hr.frozen.queued j job hj]⟩

theorem code_statuses_stay_queued_frozenRun :
    ∃ w, stepsWith id .lock World.init frozenRun = some w ∧ statusOf w 3 = some "queued" ∧
      (∀ j job, w.st.jobs.get? j = some job → job.status = "queued") ∧
      ∀ a w', codeStep id w a = some w' → ∀ j job job', w.st.jobs.get? j = some job →
        w'.st.jobs.get? j = some job' → job'.status = job.status := by
  have hs := show stepsWith id .lock World.init frozenRun = some _ from rfl
  exact ⟨_, hs, rfl, code_statuses_stay_queued (CodeReachable.init.of_steps hs)⟩

/-- **Executions are isolated**, since none starts: in every world the code reaches no
execution is pending or in progress. -/
theorem code_runs_isolated {hashSecret : String → String} {w : World}
    (hr : CodeReachable hashSecret w) : w.runs = [] ∧ w.st.pool = [] ∧ Isolated w := by
  have h := hr.frozen
  refine ⟨h.runs, h.pool, fun j => by simp [World.inflight, h.pool, h.runs], ?_, ?_⟩ <;>
    simp [h.runs]

theorem code_runs_isolated_frozenRun :
    ∃ w, stepsWith id .lock World.init frozenRun = some w ∧ statusOf w 3 = some "queued" ∧
      w.runs = [] ∧ w.st.pool = [] ∧ Isolated w := by
  have hs := show stepsWith id .lock World.init frozenRun = some _ from rfl
  exact ⟨_, hs, rfl, code_runs_isolated (CodeReachable.init.of_steps hs)⟩

/-- **Users follow executions**, crashes included: in every world the code reaches there
is no user, and no execution either. -/
theorem code_users_follow_runs {hashSecret : String → String} {w : World}
    (hr : CodeReachable hashSecret w) : w.st.users = [] ∧ UsersFollowRuns w := by
  have h := hr.frozen
  refine ⟨h.users, by simp [h.runs], fun j job _ => ?_⟩
  simp [h.users, World.inflight, h.pool, h.runs]

theorem code_users_follow_runs_frozenRun :
    ∃ w, stepsWith id .lock World.init frozenRun = some w ∧ statusOf w 3 = some "queued" ∧
      w.st.users = [] ∧ UsersFollowRuns w := by
  have hs := show stepsWith id .lock World.init frozenRun = some _ from rfl
  exact ⟨_, hs, rfl, code_users_follow_runs (CodeReachable.init.of_steps hs)⟩

/-- **The storage file of the code.**  The file `_save_jobs` writes for any table decodes
to that table; `_load_jobs` submits one run for each job the ledger holds queued or
running and none for another; and in every world the code reaches in which no thread
waits holding the lock, which is when a call that takes it returns, the ledger holds the
table. -/
theorem code_ledger_law (hashSecret : String → String) :
    (∀ jobs : PyDict String PyJob, loadText (saveText jobs) = some jobs) ∧
    (∀ (k : LockKind) (s : St), s.held = false → ∃ submitted : List Nat,
      loadJobs k s = .ok () { s with
        jobs := loadTable s.ledger.items s.jobs, pool := s.pool ++ submitted
        uuid := s.uuid + 3 * s.ledger.items.length } ∧
      ∀ jobId, submitted.count jobId = if (s.ledger.get? jobId).any resumable then 1 else 0) ∧
    (∀ w, CodeReachable hashSecret w → w.st.held = false → w.st.ledger = w.st.jobs) :=
  ⟨loadText_saveText, loadJobs_submits, fun _ hw hh => by rw [hw.frozen.ledger, hw.frozen.free hh]⟩

/-- After an `enqueue` that blocked and a crash, the lock is free and the ledger holds the
table. -/
theorem code_ledger_law_restarted :
    ∃ w, stepsWith id .lock World.init [.enqueue [some "echo", some "hi"] none true, .crash] =
        some w ∧ w.st.uuid = 3 ∧ w.st.held = false ∧ w.st.ledger = w.st.jobs := by
  have hs := show stepsWith id .lock World.init
    [.enqueue [some "echo", some "hi"] none true, .crash] = some _ from rfl
  exact ⟨_, hs, rfl, rfl, (code_ledger_law id).2.2 _ (CodeReachable.init.of_steps hs) rfl⟩

end Sandrun.JobQueue
