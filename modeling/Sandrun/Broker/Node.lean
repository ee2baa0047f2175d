import Sandrun.Broker.Step

/-!
# The node client

`node_client/node.py` runs a sandrun instance as a node of the broker.  `start()` checks
that sandrun answers, registers the instance's URL as its endpoint and keeps the
`node_id` the broker answers; a heartbeat thread then posts `/heartbeat` every
`heartbeat_interval` seconds, and `job_loop` claims a job, runs it through sandrun's own
API (`execute_job`) and reports the result with `/complete`, again and again.

`execute_job` never raises once it has written the job's files: every failure of sandrun
becomes a result.  A rejected submission and an exception give exit code 1, a `/status`
of `failed` gives exit code 1 with sandrun's logs, a `/status` of `completed` gives exit
code 0 with them, and a loop that runs out of time gives exit code 124.  Sandrun's replies
are the input of the model: a `/status` reply other than 200, or a `/logs` reply other than
200, lets the loop go on.  How many turns the loop takes before its deadline is the length
of the list of replies.

## Main definitions

* `Result`, `SubmitReply`, `Poll`, `executeJob` — `execute_job` as a function of
  sandrun's replies.
* `Phase`, `Client` — where a node client is.
* `Call` — the requests a node client sends to the broker.

## Main results

* `executeJob_exitCode` — the exit codes `execute_job` reports are 0, 1 and 124.
* `executeJob_eq_zero` — exit code 0 is reported only with the logs of a `/status`
  reply of `completed`, the first reply of the loop that ends it.
-/

namespace Sandrun.Broker

/-! ### Running a job through sandrun -/

/-- What `execute_job` returns: `{'output': ..., 'error': ..., 'exit_code': ...}`; the
output or the error is `None` where it comes from a `null` of sandrun's logs. -/
structure Result where
  output : Option String
  error : Option String
  exitCode : Int
  deriving DecidableEq, Repr

/-- The reply of sandrun's `POST /submit`. -/
inductive SubmitReply
  /-- Status 200, with `response.json()['job_id']`. -/
  | ok (jobId : String)
  /-- Another status, with `response.text`. -/
  | rejected (text : String)
  /-- The request raised, or the reply had no `job_id`: `except Exception as e`. -/
  | raised (e : String)
  deriving DecidableEq, Repr

/-- The reply of sandrun's `GET /logs/{id}`. -/
inductive LogsReply
  /-- Status 200, with the logs' `stdout` and `stderr`: `none` where the key is missing,
  `some none` where its value is `null`. -/
  | ok (stdout stderr : Option (Option String))
  /-- Another status. -/
  | unavailable
  deriving DecidableEq, Repr

/-- What one turn of the polling loop of `execute_job` reads. -/
inductive Poll
  /-- `GET /status/{id}` answers a status other than 200. -/
  | unavailable
  /-- It answers 200 with this `status`; `logs` is the reply of the `GET /logs/{id}` the
  loop sends for `completed` and `failed`. -/
  | status (status : String) (logs : LogsReply)
  /-- A request raised, or a reply was not the JSON the loop reads. -/
  | raised (e : String)
  deriving DecidableEq, Repr

/-- The polling loop of `execute_job`, given the turns it takes before
`time.time() - start_time < timeout` fails. -/
def pollLoop : List Poll → Result
  | [] => ⟨some "", some "Job execution timeout", 124⟩
  | .raised e :: _ => ⟨some "", some ("Execution error: " ++ e), 1⟩
  | .status s (.ok stdout stderr) :: rest =>
    if s = "completed" then ⟨stdout.getD (some ""), stderr.getD (some ""), 0⟩
    else if s = "failed" then ⟨stdout.getD (some ""), stderr.getD (some "Job failed"), 1⟩
    else pollLoop rest
  | _ :: rest => pollLoop rest

/-- `execute_job(job)` from its `try`, given sandrun's replies. -/
def executeJob (submit : SubmitReply) (polls : List Poll) : Result :=
  match submit with
  | .ok _ => pollLoop polls
  | .rejected text => ⟨some "", some ("Sandrun submission failed: " ++ text), 1⟩
  | .raised e => ⟨some "", some ("Execution error: " ++ e), 1⟩

example : executeJob (.ok "j") [.unavailable, .status "running" .unavailable,
    .status "completed" .unavailable, .status "completed" (.ok (some "hi\n") none)] =
    ⟨some "hi\n", some "", 0⟩ := rfl

/-- Whether a turn of the polling loop returns. -/
def Poll.ends : Poll → Bool
  | .raised _ => true
  | .status s (.ok _ _) => s = "completed" ∨ s = "failed"
  | _ => false

/-- A turn that does not return leaves the loop to the next one. -/
theorem pollLoop_cons_of_ends_eq_false {p : Poll} (hp : p.ends = false) (ps : List Poll) :
    pollLoop (p :: ps) = pollLoop ps := by
  rcases p with _ | ⟨s, ⟨o, e⟩ | _⟩ | e
  · rfl
  · simp only [Poll.ends, decide_eq_false_iff_not, not_or] at hp
    simp [pollLoop, hp.1, hp.2]
  · rfl
  · simp [Poll.ends] at hp

theorem pollLoop_exitCode (polls : List Poll) : (pollLoop polls).exitCode ∈ [0, 1, 124] := by
  induction polls with
  | nil => simp [pollLoop]
  | cons p ps ih =>
    rcases p with _ | ⟨s, ⟨o, e⟩ | _⟩ | e
    · exact ih
    · unfold pollLoop
      split_ifs
      · simp
      · simp
      · exact ih
    · exact ih
    · simp [pollLoop]

/-- The exit codes `execute_job` reports. -/
theorem executeJob_exitCode (submit : SubmitReply) (polls : List Poll) :
    (executeJob submit polls).exitCode ∈ [0, 1, 124] := by
  cases submit with
  | ok _ => exact pollLoop_exitCode polls
  | rejected _ => simp [executeJob]
  | raised _ => simp [executeJob]

theorem pollLoop_eq_zero {polls : List Poll} (h : (pollLoop polls).exitCode = 0) :
    ∃ pre stdout stderr rest, polls = pre ++ .status "completed" (.ok stdout stderr) :: rest ∧
      (∀ p ∈ pre, p.ends = false) ∧ pollLoop polls = ⟨stdout.getD (some ""), stderr.getD (some ""), 0⟩ := by
  induction polls with
  | nil => simp [pollLoop] at h
  | cons p ps ih =>
    cases hp : p.ends
    · rw [pollLoop_cons_of_ends_eq_false hp] at h ⊢
      obtain ⟨pre, o, e, rest, rfl, hpre, hr⟩ := ih h
      exact ⟨p :: pre, o, e, rest, rfl, by simpa [hp] using hpre, hr⟩
    · -- the turn that returns: `completed`, since `failed` and an exception give exit code 1
      rcases p with _ | ⟨s, ⟨o, e⟩ | _⟩ | e
      · simp [Poll.ends] at hp
      · by_cases hc : s = "completed"
        · subst hc; exact ⟨[], o, e, ps, rfl, by simp, by simp [pollLoop]⟩
        · have hf : s = "failed" := by simpa [Poll.ends, hc] using hp
          simp [pollLoop, hf] at h
      · simp [Poll.ends] at hp
      · simp [pollLoop] at h

/-- Exit code 0 comes only from a `/status` reply of `completed` followed by a `/logs`
reply of 200, the first turn of the loop that returns; the output and the error are the
logs' `stdout` and `stderr`, `''` where the logs lack them and `None` where they are
`null`. -/
theorem executeJob_eq_zero {submit : SubmitReply} {polls : List Poll}
    (h : (executeJob submit polls).exitCode = 0) :
    ∃ jobId pre stdout stderr rest, submit = .ok jobId ∧
      polls = pre ++ .status "completed" (.ok stdout stderr) :: rest ∧ (∀ p ∈ pre, p.ends = false) ∧
      executeJob submit polls = ⟨stdout.getD (some ""), stderr.getD (some ""), 0⟩ := by
  cases submit with
  | ok jobId =>
    obtain ⟨pre, o, e, rest, hp, hpre, hr⟩ := pollLoop_eq_zero h
    exact ⟨jobId, pre, o, e, rest, rfl, hp, hpre, hr⟩
  | rejected _ => simp [executeJob] at h
  | raised _ => simp [executeJob] at h

/-! ### The client -/

/-- Where a node client is: in `start()`, or in the loop of `job_loop`. -/
inductive Phase
  /-- Created; `start()` has not run. -/
  | created
  /-- `start()` sent `POST /register` on connection `tag`. -/
  | registering (tag : Nat)
  /-- `start()` returned `False`: sandrun did not answer, or the registration failed. -/
  | stopped
  /-- At the top of the loop of `job_loop`. -/
  | idle
  /-- `claim_job()` sent `POST /claim` on connection `tag`. -/
  | claiming (tag : Nat)
  /-- `execute_job(job)` runs the job `/claim` handed out. -/
  | executing (job : ClaimedJob)
  /-- `report_completion` sent `POST /complete` on connection `tag`. -/
  | reporting (tag : Nat)
  deriving DecidableEq, Repr

/-- `self.running`: set once the registration has succeeded. -/
def Phase.running : Phase → Bool
  | .created | .registering _ | .stopped => false
  | _ => true

/-- The connection a client waits on for a reply, if it waits. -/
def Phase.waiting : Phase → Option Nat
  | .registering tag | .claiming tag | .reporting tag => some tag
  | _ => none

/-- A node client. -/
structure Client where
  /-- `sandrun_url.rstrip('/')`, the endpoint it registers. -/
  endpoint : String
  /-- `self.node_id`. -/
  nodeId : Option String
  phase : Phase
  deriving DecidableEq, Repr

/-- A client just created for a sandrun instance. -/
def Client.init (endpoint : String) : Client := ⟨endpoint, none, .created⟩

/-- A request a node client sends to the broker. -/
inductive Call
  /-- `register()`: `{'endpoint': ..., 'capabilities': ...}`. -/
  | register (body : RegisterBody)
  /-- `heartbeat()`: `{'node_id': self.node_id}`. -/
  | heartbeat (nodeId : Option String)
  /-- `claim_job()`: `{'node_id': self.node_id}`. -/
  | claim (nodeId : Option String)
  /-- `report_completion(job_id, result)`. -/
  | complete (body : CompleteBody)
  deriving DecidableEq, Repr

/-- The body `report_completion(job['id'], result)` posts: every key is there, and
`node_id` is `null` while `self.node_id` is `None`. -/
def Client.report (cl : Client) (job : ClaimedJob) (r : Result) : CompleteBody :=
  ⟨some cl.nodeId, some (some job.id), some r.output, some r.error, some (some r.exitCode)⟩

/-- A report the broker reads from that body: one exactly when the client has a node id. -/
theorem Client.report_report? (cl : Client) (job : ClaimedJob) (r : Result) :
    (cl.report job r).report? =
      cl.nodeId.map fun n => ⟨n, some job.id, r.output, r.error, some r.exitCode⟩ := by
  cases h : cl.nodeId <;> simp [Client.report, CompleteBody.report?, h]

/-- The request of one turn of the heartbeat thread: none while `self.node_id` is falsy. -/
def Client.heartbeat? (cl : Client) : Option Call :=
  match cl.nodeId with
  | some n => if n = "" then none else some (.heartbeat (some n))
  | none => none

/-- What a client does with the reply it waits for (`none`: the request raised, for
instance on its timeout): `register()` keeps the `node_id` of a 200 reply and `start()`
stops otherwise; `claim_job()` returns the job of a 200 reply, and `job_loop` runs it or
sleeps; `report_completion` returns whatever the reply. -/
def Client.receive (cl : Client) (reply : Option Reply) : Client :=
  match cl.phase, reply with
  | .registering _, some (.registered n) => { cl with nodeId := some n, phase := .idle }
  | .registering _, _ => { cl with phase := .stopped }
  | .claiming _, some (.job (some job)) => { cl with phase := .executing job }
  | .claiming _, _ => { cl with phase := .idle }
  | .reporting _, _ => { cl with phase := .idle }
  | _, _ => cl

/-- The job a reply hands a client that waits for its `/claim`. -/
def Client.handed (cl : Client) (reply : Option Reply) : Option ClaimedJob :=
  match cl.phase, reply with
  | .claiming _, some (.job (some job)) => some job
  | _, _ => none

theorem Client.handed_eq_some {cl : Client} {reply : Option Reply} {job : ClaimedJob}
    (h : cl.handed reply = some job) : reply = some (.job (some job)) := by
  unfold Client.handed at h
  split at h
  · cases h; rfl
  · cases h

/-- A client runs a job after reading a reply only if the reply handed it that job, or if
it was running it already. -/
theorem Client.receive_executing {cl : Client} {reply : Option Reply} {job : ClaimedJob}
    (h : (cl.receive reply).phase = .executing job) :
    cl.receive reply = cl ∨ (cl.handed reply = some job ∧ (cl.receive reply).nodeId = cl.nodeId) := by
  unfold Client.receive at h ⊢
  unfold Client.handed
  split at h <;> simp_all

/-- A client that reads the reply it waits for waits no more. -/
theorem Client.receive_waiting {cl : Client} {tag : Nat} (h : cl.phase.waiting = some tag)
    (reply : Option Reply) : (cl.receive reply).phase.waiting = none := by
  unfold Client.receive
  split <;> first | rfl | simp_all [Phase.waiting]

end Sandrun.Broker
