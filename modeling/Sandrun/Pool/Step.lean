import Sandrun.Pool.Basic

/-!
# The coordinator as cooperative tasks

The coordinator runs on one `asyncio` event loop: the dispatcher task
(`job_dispatcher_loop`), the health-check task, and one task per HTTP request, of which
`submit_job` and `get_job_status` touch the state.  A task runs without interruption
from one `await` that suspends to the next, so a run is an interleaving of such
segments.  A `World` is the state with the dispatcher's suspension point and the
suspended `get_job_status` calls; a step is one segment, with the reply of the worker
that the segment was waiting on.

The model lets any segment run between any two others.  This covers every schedule of
the event loop, and a few it cannot produce: after its backoff the dispatcher puts the
entry back and, the queue being non-empty, takes the head without suspending, while
here the take is a step of its own; and the health-check task checks its workers in
turn, every 30 s, while here any worker can be checked at any step.  `asyncio.Queue.put`
on the unbounded queue never suspends.

## Main definitions

* `World`, `Act`, `step` — the system and its segments, computable.
* `ReachableBy`, `Reachable` — the worlds some interleaving reaches.
* `World.entries` — the queue entries together with the one the dispatcher handles.

## Main results

* `step_cases` — what each segment does, with its guard.
* `Reachable.of_steps` — a run from a reachable world ends in one.
-/

namespace Sandrun.Pool

/-- The coordinator with its tasks. -/
structure World where
  st : Coord
  dispatcher : DispatchPc
  /-- The `get_job_status` calls awaiting a worker. -/
  polls : List Poll

/-- A coordinator just built from a workers file: no job, no call in progress. -/
def World.init (workersConfig : List WorkerCfg) : World := ⟨Coord.init workersConfig, .waiting, []⟩

/-- A segment of one task, with the reply it receives. -/
inductive Act
  /-- `submit_job`, with a fresh id. -/
  | submit (jobId : String)
  /-- The dispatcher's `job_queue.get()` returns the head, and `dispatch_job` runs to its
  first `await`. -/
  | take
  /-- The backoff ends and the entry is put back. -/
  | backoffDone
  /-- The worker replies to the dispatcher's `POST /submit`. -/
  | submitReply (reply : SubmitReply)
  /-- A health check of a worker completes. -/
  | healthCheck (workerId : String) (reply : HealthReply)
  /-- A `get_job_status` call runs to its `await`, or returns. -/
  | pollStart (jobId : String)
  /-- The worker replies to a suspended `get_job_status` call. -/
  | pollReply (p : Poll) (reply : StatusReply)
  deriving DecidableEq, Repr

/-- The effect of a segment; `none` when it cannot run.  A submitted job's id is fresh,
as `uuid4` makes it. -/
def step (w : World) : Act → Option World
  | .submit jobId =>
    if (w.st.jobs.get? jobId).isSome then none else some { w with st := submitJob jobId w.st }
  | .take =>
    match w.dispatcher, w.st.jobQueue with
    | .waiting, jobId :: rest =>
      some { w with st := { w.st with jobQueue := rest }, dispatcher := dispatchJob w.st jobId }
    | _, _ => none
  | .backoffDone =>
    match w.dispatcher with
    | .backoff jobId =>
      some { w with st := { w.st with jobQueue := w.st.jobQueue ++ [jobId] }, dispatcher := .waiting }
    | _ => none
  | .submitReply reply =>
    match w.dispatcher with
    | .posting jobId workerId =>
      some { w with st := dispatchJobResume jobId workerId reply w.st, dispatcher := .waiting }
    | _ => none
  | .healthCheck workerId reply => some { w with st := healthCheckWorker workerId reply w.st }
  | .pollStart jobId =>
    match getJobStatus w.st jobId with
    | .awaiting p => some { w with polls := p :: w.polls }
    | .done _ => some w
  | .pollReply p reply =>
    if p ∈ w.polls then
      some { w with st := (getJobStatusResume p reply w.st).1, polls := w.polls.erase p }
    else none

/-- **What a segment can do**, its guard included. -/
theorem step_cases {w w' : World} {a : Act} (hs : step w a = some w') :
    (∃ j, a = .submit j ∧ w.st.jobs.get? j = none ∧ w' = { w with st := submitJob j w.st }) ∨
    (∃ j rest, a = .take ∧ w.dispatcher = .waiting ∧ w.st.jobQueue = j :: rest ∧
      w' = { w with st := { w.st with jobQueue := rest }, dispatcher := dispatchJob w.st j }) ∨
    (∃ j, a = .backoffDone ∧ w.dispatcher = .backoff j ∧
      w' = { w with st := { w.st with jobQueue := w.st.jobQueue ++ [j] }, dispatcher := .waiting }) ∨
    (∃ j k r, a = .submitReply r ∧ w.dispatcher = .posting j k ∧
      w' = { w with st := dispatchJobResume j k r w.st, dispatcher := .waiting }) ∨
    (∃ k r, a = .healthCheck k r ∧ w' = { w with st := healthCheckWorker k r w.st }) ∨
    (∃ j p, a = .pollStart j ∧ getJobStatus w.st j = .awaiting p ∧
      w' = { w with polls := p :: w.polls }) ∨
    (∃ j, a = .pollStart j ∧ w' = w) ∨
    (∃ p r, a = .pollReply p r ∧ p ∈ w.polls ∧
      w' = { w with st := (getJobStatusResume p r w.st).1, polls := w.polls.erase p }) := by
  cases a with
  | submit j =>
    simp only [step] at hs
    split_ifs at hs with hj
    cases hs
    exact .inl ⟨j, rfl, by simpa using hj, rfl⟩
  | take =>
    simp only [step] at hs
    split at hs
    · next j rest hd hq => cases hs; exact .inr (.inl ⟨j, rest, rfl, hd, hq, rfl⟩)
    · cases hs
  | backoffDone =>
    simp only [step] at hs
    split at hs
    · next j hd => cases hs; exact .inr (.inr (.inl ⟨j, rfl, hd, rfl⟩))
    · cases hs
  | submitReply r =>
    simp only [step] at hs
    split at hs
    · next j k hd => cases hs; exact .inr (.inr (.inr (.inl ⟨j, k, r, rfl, hd, rfl⟩)))
    · cases hs
  | healthCheck k r => cases hs; exact .inr (.inr (.inr (.inr (.inl ⟨k, r, rfl, rfl⟩))))
  | pollStart j =>
    simp only [step] at hs
    split at hs
    · next p ha => cases hs; exact .inr (.inr (.inr (.inr (.inr (.inl ⟨j, p, rfl, ha, rfl⟩)))))
    · cases hs; exact .inr (.inr (.inr (.inr (.inr (.inr (.inl ⟨j, rfl, rfl⟩))))))
  | pollReply p r =>
    simp only [step] at hs
    split_ifs at hs with hp
    cases hs
    exact .inr (.inr (.inr (.inr (.inr (.inr (.inr ⟨p, r, rfl, hp, rfl⟩))))))

/-- The steps from a world, in order; `none` if one cannot be taken. -/
def steps (w : World) : List Act → Option World
  | [] => some w
  | a :: as => (step w a).bind fun w' => steps w' as

/-- The worlds reached from a coordinator just built by steps that `allowed` permits. -/
inductive ReachableBy (allowed : World → Act → Prop) : World → Prop
  | init (workersConfig : List WorkerCfg) : ReachableBy allowed (World.init workersConfig)
  | step {w w' : World} {a : Act} : ReachableBy allowed w → allowed w a →
      Pool.step w a = some w' → ReachableBy allowed w'

/-- The worlds some interleaving reaches. -/
def Reachable : World → Prop := ReachableBy fun _ _ => True

theorem Reachable.of_steps {w w' : World} {as : List Act} (hw : Reachable w)
    (h : steps w as = some w') : Reachable w' := by
  induction as generalizing w with
  | nil => cases h; exact hw
  | cons a as ih =>
    obtain ⟨w₁, h₁, h₂⟩ := Option.bind_eq_some.1 h
    exact ih (.step hw trivial h₁) h₂

/-- The job the dispatcher is handling, if any. -/
def DispatchPc.entry : DispatchPc → List String
  | .waiting => []
  | .backoff jobId => [jobId]
  | .posting jobId _ => [jobId]

@[simp] theorem DispatchPc.entry_waiting : DispatchPc.waiting.entry = [] := rfl

@[simp] theorem DispatchPc.entry_backoff (j : String) : (DispatchPc.backoff j).entry = [j] := rfl

@[simp] theorem DispatchPc.entry_posting (j k : String) : (DispatchPc.posting j k).entry = [j] :=
  rfl

/-- The queue's entries, and then the one the dispatcher is handling. -/
def World.entries (w : World) : List String := w.st.jobQueue ++ w.dispatcher.entry

/-- A job's status in a world. -/
def statusOf (w : World) (jobId : String) : Option String := (w.st.jobs.get? jobId).map (·.status)

end Sandrun.Pool
