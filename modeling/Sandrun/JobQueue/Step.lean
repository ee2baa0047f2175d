import Sandrun.JobQueue.Spec

/-!
# The job queue as a step relation

The queue's behaviour over time is an interleaving of the calls of its clients, of the
phases of the `_run_job` executions the pool is running, and of crashes.  A `World` is
the queue's state together with the pool threads inside `_run_job`; a step is one
method call, one phase of one execution, or a crash followed by the restart's
`_load_jobs`.

A step runs its method with the lock kind it is given.  With the queue's own
`threading.Lock` the first save inside a locked block never returns, as
`Sandrun.JobQueue.Lock` shows, and the thread waits for ever holding the lock; the runs of
the code as written are the subject of `Sandrun.JobQueue.AsWritten`.  `step` runs every
method with a reentrant lock, so its interleavings are those of the program with that
defect repaired.  Method calls are atomic, as the lock makes them; an execution's phases
are separate steps, since the process runs and the status is written outside the lock.

## Main definitions

* `Phase`, `Run`, `World` — the executions in progress, and the whole system.
* `Act`, `stepWith`, `step` — the actions and their effect with either kind of lock, and
  with the reentrant one, computable.
* `ReachableBy`, `Reachable` — the worlds some run of allowed actions reaches.
* `statusOf` — a job's status in a world.
-/

namespace Sandrun.JobQueue

/-- Where a started `_run_job` execution is. -/
inductive Phase
  /-- Past the first block: the command runs. -/
  | started
  /-- The outcome is written into the job; the `finally` block's save is next. -/
  | finished
  /-- Saved; `_delete_user` is next. -/
  | saved
  deriving DecidableEq, Repr

/-- A pool thread inside `_run_job(jobId)`, with the job object its first block read. -/
structure Run where
  jobId : Nat
  job : Job
  phase : Phase
  deriving DecidableEq, Repr

/-- The queue and the executions in progress. -/
structure World where
  st : St
  runs : List Run

/-- A fresh installation: no storage file, no job. -/
def World.init : World := ⟨St.init, []⟩

/-- One step of the system. -/
inductive Act
  | enqueue (command : List (Option String)) (secret : Option String) (allowed : Bool)
  /-- A pool thread takes a submitted id and runs the first block of `_run_job`. -/
  | start (jobId : Nat)
  /-- The process of an execution ends. -/
  | finish (r : Run) (proc : ProcOutcome)
  | save (r : Run)
  | deleteUser (r : Run) (removed : Bool)
  | cancel (jobId : Nat) (matched : Bool)
  | restart (jobId : Nat) (allowed : Bool)
  | delete (jobId : Nat)
  /-- The process dies and a new `JobQueue()` loads the ledger. -/
  | crash

/-- What survives a crash: the ledger, the users, the directories; the uuid counter
stands for uuids never repeating. -/
def reboot (s : St) : St := { s with jobs := .empty, pool := [], held := false }

/-- The effect of one step when `self.lock` is of kind `k`, `none` when the step cannot be
taken.  A call that blocks leaves its thread waiting for ever with the lock held, in the
state it reached: a pool thread whose first block blocks runs no command, and an execution
whose save blocks never gets to `_delete_user`. -/
def stepWith (hashSecret : String → String) (k : LockKind) (w : World) : Act → Option World
  | .enqueue command secret allowed =>
    some { w with st := (enqueue hashSecret command secret allowed k w.st).state }
  | .start jobId =>
    if jobId ∈ w.st.pool then
      match runStart jobId k { w.st with pool := w.st.pool.erase jobId } with
      | .ok job s => some ⟨s, ⟨jobId, job, .started⟩ :: w.runs⟩
      | o => some ⟨o.state, w.runs⟩
    else none
  | .finish r proc =>
    if r ∈ w.runs ∧ r.phase = .started then
      some ⟨(runBody r.jobId proc k w.st).state, { r with phase := .finished } :: w.runs.erase r⟩
    else none
  | .save r =>
    if r ∈ w.runs ∧ r.phase = .finished then
      match runSave k w.st with
      | .blocked s => some ⟨s, w.runs⟩
      | o => some ⟨o.state, { r with phase := .saved } :: w.runs.erase r⟩
    else none
  | .deleteUser r removed =>
    if r ∈ w.runs ∧ r.phase = .saved then
      some ⟨(deleteUser r.job.ephemeralUser removed k w.st).state, w.runs.erase r⟩
    else none
  | .cancel jobId matched => some { w with st := (cancelJob jobId matched k w.st).state }
  | .restart jobId allowed => some { w with st := (restartJob jobId allowed k w.st).state }
  | .delete jobId => some { w with st := (deleteJob jobId k w.st).state }
  | .crash => some ⟨(loadJobs k (reboot w.st)).state, []⟩

/-- One step of the program with the self-deadlock repaired: `self.lock` reentrant. -/
def step (hashSecret : String → String) : World → Act → Option World :=
  stepWith hashSecret .rlock

/-- The `finally` block's save of an execution, with the reentrant lock. -/
theorem step_save {hashSecret : String → String} {w w' : World} {r : Run}
    (hs : step hashSecret w (.save r) = some w') :
    r ∈ w.runs ∧ r.phase = .finished ∧
      w' = ⟨(runSave .rlock w.st).state, { r with phase := .saved } :: w.runs.erase r⟩ := by
  simp only [step, stepWith, runSave_rlock] at hs
  split_ifs at hs with hr
  cases hs
  exact ⟨hr.1, hr.2, by rw [runSave_rlock]⟩

/-- A pool thread takes a submitted id: the job is marked running and an execution of it
starts, or the job is gone and the execution ends with `KeyError`. -/
theorem step_start_cases {hashSecret : String → String} {w w' : World} {jobId : Nat}
    (hs : step hashSecret w (.start jobId) = some w') :
    jobId ∈ w.st.pool ∧
      ((∃ job, w.st.jobs.get? jobId = some job ∧ w' = ⟨{ w.st with
          pool := w.st.pool.erase jobId
          jobs := w.st.jobs.modify jobId (withStatus "running")
          ledger := w.st.jobs.modify jobId (withStatus "running") },
          ⟨jobId, job, .started⟩ :: w.runs⟩) ∨
        (w.st.jobs.get? jobId = none ∧ w' = ⟨{ w.st with pool := w.st.pool.erase jobId }, w.runs⟩)) := by
  simp only [step, stepWith] at hs
  split_ifs at hs with hj
  rw [runStart_rlock] at hs
  refine ⟨hj, ?_⟩
  cases hjob : w.st.jobs.get? jobId with
  | none => simp only [hjob, Option.some.injEq] at hs; exact .inr ⟨rfl, hs.symm⟩
  | some job => simp only [hjob, Option.some.injEq] at hs; exact .inl ⟨job, rfl, hs.symm⟩

/-- The steps from a world with a lock of kind `k`, in order; `none` if one cannot be
taken. -/
def stepsWith (hashSecret : String → String) (k : LockKind) (w : World) : List Act → Option World
  | [] => some w
  | a :: as => (stepWith hashSecret k w a).bind fun w' => stepsWith hashSecret k w' as

/-- The steps of the repaired program. -/
def steps (hashSecret : String → String) : World → List Act → Option World :=
  stepsWith hashSecret .rlock

/-- The worlds reached from a fresh installation by steps whose actions satisfy
`allowed`. -/
inductive ReachableBy (hashSecret : String → String) (allowed : Act → Prop) : World → Prop
  | init : ReachableBy hashSecret allowed World.init
  | step {w w' : World} {a : Act} : ReachableBy hashSecret allowed w → allowed a →
      JobQueue.step hashSecret w a = some w' → ReachableBy hashSecret allowed w'

/-- The worlds some interleaving reaches. -/
def Reachable (hashSecret : String → String) : World → Prop := ReachableBy hashSecret fun _ => True

theorem ReachableBy.of_steps {hashSecret : String → String} {allowed : Act → Prop}
    {w w' : World} {as : List Act} (hw : ReachableBy hashSecret allowed w)
    (has : ∀ a ∈ as, allowed a) (h : steps hashSecret w as = some w') :
    ReachableBy hashSecret allowed w' := by
  induction as generalizing w with
  | nil => cases h; exact hw
  | cons a as ih =>
    obtain ⟨w₁, h₁, h₂⟩ := Option.bind_eq_some.1 h
    exact ih (hw.step (has a (List.mem_cons_self a as)) h₁)
      (fun b hb => has b (List.mem_cons_of_mem a hb)) h₂

/-- The status of a job in a world. -/
def statusOf (w : World) (jobId : Nat) : Option String := (w.st.jobs.get? jobId).map (·.status)

end Sandrun.JobQueue
