import Sandrun.PyDict
import Mathlib.Data.List.MinMax

/-!
# The trusted-pool coordinator

`coordinator.py` routes jobs to allowlisted workers.  Its state is three Python objects:
the worker registry `workers`, keyed by `worker_id`; the job table `jobs`, keyed by the
`job_id` that `submit_job` draws from `uuid4`; and the `asyncio.Queue` `job_queue` of
`(job, files_data, manifest)` entries.  A queue entry holds the same `PoolJob` object as
the table, so an entry is modelled by its job's id, and `files_data` and `manifest`,
which the coordinator only forwards, are left out.

The coordinator's methods are coroutines.  Each one is modelled up to its first `await`
and from there to its end, as two functions: the worker's reply to the request the
method is waiting on is an argument of the second.  A reply is any HTTP status with any
JSON body, or an exception (a network error, a timeout, a body that is not JSON); JSON
values are modelled as strings, which is how the coordinator compares them.

## Main definitions

* `Worker`, `PoolJob`, `Coord` — the records and the coordinator's state.
* `getAvailableWorker` — the healthy worker with a free slot and the fewest active jobs.
* `submitJob`, `dispatchJob`, `dispatchJobResume`, `healthCheckWorker`, `getJobStatus`,
  `getJobStatusResume` — the methods, cut at their `await`s.

## Main results

* `getAvailableWorker_spec` — the worker returned is registered, healthy, below its
  limit, and has no more active jobs than any other such worker.
-/

namespace Sandrun.Pool

/-- A trusted worker, with the fields the coordinator reads. -/
structure Worker where
  workerId : String
  isHealthy : Bool := false
  activeJobs : Int := 0
  maxConcurrentJobs : Int := 4
  deriving DecidableEq, Repr

/-- A job of the pool.  `remote_job_id` is set by `submit_job` and again by a
successful dispatch. -/
structure PoolJob where
  jobId : String
  workerId : Option String := none
  status : String := "queued"
  remoteJobId : Option String := none
  deriving DecidableEq, Repr

/-- An entry of the workers file. -/
structure WorkerCfg where
  workerId : String
  /-- The `max_concurrent_jobs` key, if the entry has one. -/
  maxConcurrentJobs : Option Int
  deriving DecidableEq, Repr

/-- The coordinator's state. -/
structure Coord where
  workers : PyDict String Worker
  jobs : PyDict String PoolJob
  /-- The ids of the jobs of the entries of `job_queue`, head first. -/
  jobQueue : List String

/-- The worker that `__init__` builds from an entry of the workers file. -/
def Worker.ofCfg (cfg : WorkerCfg) : Worker :=
  { workerId := cfg.workerId, maxConcurrentJobs := cfg.maxConcurrentJobs.getD 4 }

/-- `TrustedPoolCoordinator(workers_config)`: a later entry with the same id replaces an
earlier one. -/
def Coord.init (workersConfig : List WorkerCfg) : Coord :=
  ⟨PyDict.empty.setAll (workersConfig.map fun cfg => (cfg.workerId, Worker.ofCfg cfg)),
    PyDict.empty, []⟩

/-- Every worker is registered under its own id. -/
theorem Coord.init_workerId {cfgs : List WorkerCfg} {k : String} {wk : Worker}
    (h : (Coord.init cfgs).workers.get? k = some wk) : wk.workerId = k := by
  rcases PyDict.get?_setAll_eq_some _ h with h | h
  · simp at h
  · obtain ⟨cfg, -, hcfg⟩ := List.mem_map.1 h
    simp only [Prod.mk.injEq] at hcfg
    rw [← hcfg.2, ← hcfg.1]
    rfl

/-! ### Choosing a worker -/

/-- `get_available_worker`: among the healthy workers below their limit, the first with
the fewest active jobs (`min` keeps the first of equal keys, as `List.argmin` does). -/
def getAvailableWorker (s : Coord) : Option Worker :=
  @List.argmin _ _ Int.instLinearOrder.toPartialOrder.toPreorder _ (·.activeJobs)
    (s.workers.values.filter fun w => w.isHealthy && w.activeJobs < w.maxConcurrentJobs)

/-- **The specification of `get_available_worker`.** -/
theorem getAvailableWorker_spec {s : Coord} {wk : Worker} (h : getAvailableWorker s = some wk) :
    (∃ k, s.workers.get? k = some wk) ∧ wk.isHealthy ∧ wk.activeJobs < wk.maxConcurrentJobs ∧
      ∀ w ∈ s.workers.values, w.isHealthy → w.activeJobs < w.maxConcurrentJobs →
        wk.activeJobs ≤ w.activeJobs := by
  have hmem := List.argmin_mem h
  simp only [List.mem_filter, Bool.and_eq_true, decide_eq_true_eq] at hmem
  refine ⟨(PyDict.mem_values _ _).1 hmem.1, hmem.2.1, hmem.2.2, fun w hw hh hl => ?_⟩
  exact List.le_of_mem_argmin (List.mem_filter.2 ⟨hw, by simp [hh, hl]⟩) h

/-! ### Submitting and dispatching -/

/-- `submit_job`, with the id `uuid4` drew: a queued job, put on the queue. -/
def submitJob (jobId : String) (s : Coord) : Coord :=
  { s with jobs := s.jobs.set jobId { jobId := jobId }, jobQueue := s.jobQueue ++ [jobId] }

/-- Where the dispatcher task is suspended. -/
inductive DispatchPc
  /-- At `await self.job_queue.get()`, between two entries. -/
  | waiting
  /-- At `await asyncio.sleep(5)`: no worker was available for the entry. -/
  | backoff (jobId : String)
  /-- Waiting for the worker's reply to `POST /submit`. -/
  | posting (jobId workerId : String)
  deriving DecidableEq, Repr

/-- `dispatch_job` up to its first `await`: choose a worker, or back off. -/
def dispatchJob (s : Coord) (jobId : String) : DispatchPc :=
  match getAvailableWorker s with
  | none => .backoff jobId
  | some worker => .posting jobId worker.workerId

/-- A worker's reply to `POST /submit`. -/
inductive SubmitReply
  /-- The request, or reading or using its JSON body, raised. -/
  | raised
  /-- A response with this HTTP status; for status 200, the `job_id` of its body. -/
  | status (code : Nat) (jobIdField : Option String)
  deriving DecidableEq, Repr

/-- The worker object, as `worker.attr = ...` writes it. -/
def Coord.modifyWorker (s : Coord) (workerId : String) (f : Worker → Worker) : Coord :=
  { s with workers := s.workers.modify workerId f }

/-- `dispatch_job` after the worker's reply: on 200 the job is dispatched and counted
against the worker; otherwise it is put back on the queue, and an exception also marks
the worker unhealthy. -/
def dispatchJobResume (jobId workerId : String) : SubmitReply → Coord → Coord
  | .raised, s =>
    { s.modifyWorker workerId ({ · with isHealthy := false }) with
      jobQueue := s.jobQueue ++ [jobId] }
  | .status code jobIdField, s =>
    if code = 200 then
      { s.modifyWorker workerId fun w => { w with activeJobs := w.activeJobs + 1 } with
        jobs := s.jobs.modify jobId fun job =>
          { job with workerId := some workerId, status := "dispatched", remoteJobId := jobIdField } }
    else { s with jobQueue := s.jobQueue ++ [jobId] }

/-! ### Health checks -/

/-- A worker's reply to `GET /health`. -/
inductive HealthReply
  | raised
  /-- A response with this HTTP status; for status 200, the `worker_id` of its body. -/
  | status (code : Nat) (workerIdField : Option String)
  deriving DecidableEq, Repr

/-- Whether a health reply confirms the worker's identity. -/
def HealthReply.confirms (workerId : String) : HealthReply → Bool
  | .raised => false
  | .status code workerIdField => code = 200 && workerIdField = some workerId

/-- `health_check_worker` after the reply. -/
def healthCheckWorker (workerId : String) (reply : HealthReply) (s : Coord) : Coord :=
  s.modifyWorker workerId fun w => { w with isHealthy := reply.confirms w.workerId }

/-! ### Status polls -/

/-- A `get_job_status(job_id)` call suspended at its request to the job's worker. -/
structure Poll where
  jobId : String
  workerId : String
  deriving DecidableEq, Repr

/-- The dictionary `get_job_status` returns, without its timestamps and the worker's
reply. -/
structure StatusReport where
  jobId : String
  poolStatus : String
  workerId : Option String
  deriving DecidableEq, Repr

/-- The local status of a job. -/
def PoolJob.report (jobId : String) (job : PoolJob) : StatusReport :=
  ⟨jobId, job.status, job.workerId⟩

/-- Where a `get_job_status` call is after its synchronous part. -/
inductive StatusCall
  /-- It returned at once. -/
  | done (report : Option StatusReport)
  /-- It awaits the job's worker. -/
  | awaiting (p : Poll)
  deriving DecidableEq, Repr

/-- `get_job_status` up to its `await`: a job dispatched or running, with a (non-empty)
worker id that names a worker, is asked about; any other job's local status is returned.
`hasattr(job, 'remote_job_id')` holds of every job, since `submit_job` sets it. -/
def getJobStatus (s : Coord) (jobId : String) : StatusCall :=
  match s.jobs.get? jobId with
  | none => .done none
  | some job =>
    match job.workerId with
    | some workerId =>
      if job.status ∈ ["dispatched", "running"] ∧ workerId ≠ "" ∧ (s.workers.get? workerId).isSome
      then .awaiting ⟨jobId, workerId⟩
      else .done (some (job.report jobId))
    | none => .done (some (job.report jobId))

/-- A worker's reply to `GET /status/{remote_job_id}`. -/
inductive StatusReply
  | raised
  /-- A response with this HTTP status; for status 200, the `status` of its body. -/
  | status (code : Nat) (statusField : Option String)
  deriving DecidableEq, Repr

/-- `get_job_status` after the reply: on 200 the job takes the worker's status, and a
job now completed or failed gives its worker's slot back.  Other replies return the local
status. -/
def getJobStatusResume (p : Poll) (reply : StatusReply) (s : Coord) : Coord × Option StatusReport :=
  match s.jobs.get? p.jobId, reply with
  | some job, .status code statusField =>
    if code = 200 then
      let job := { job with status := statusField.getD job.status }
      let s := { s with jobs := s.jobs.set p.jobId job }
      if job.status ∈ ["completed", "failed"] then
        (s.modifyWorker p.workerId fun w => { w with activeJobs := max 0 (w.activeJobs - 1) },
          some (job.report p.jobId))
      else (s, some (job.report p.jobId))
    else (s, some (job.report p.jobId))
  | some job, .raised => (s, some (job.report p.jobId))
  | none, _ => (s, none)

/-! ### Equation lemmas -/

section Lemmas

variable {s : Coord}

@[simp] theorem modifyWorker_jobs (k : String) (f : Worker → Worker) :
    (s.modifyWorker k f).jobs = s.jobs := rfl

@[simp] theorem modifyWorker_jobQueue (k : String) (f : Worker → Worker) :
    (s.modifyWorker k f).jobQueue = s.jobQueue := rfl

@[simp] theorem modifyWorker_workers (k : String) (f : Worker → Worker) :
    (s.modifyWorker k f).workers = s.workers.modify k f := rfl

@[simp] theorem submitJob_workers (j : String) : (submitJob j s).workers = s.workers := rfl

@[simp] theorem submitJob_jobs (j : String) :
    (submitJob j s).jobs = s.jobs.set j { jobId := j } := rfl

@[simp] theorem submitJob_jobQueue (j : String) :
    (submitJob j s).jobQueue = s.jobQueue ++ [j] := rfl

@[simp] theorem healthCheckWorker_jobs (k : String) (r : HealthReply) :
    (healthCheckWorker k r s).jobs = s.jobs := rfl

@[simp] theorem healthCheckWorker_jobQueue (k : String) (r : HealthReply) :
    (healthCheckWorker k r s).jobQueue = s.jobQueue := rfl

end Lemmas

end Sandrun.Pool
