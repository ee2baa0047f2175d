import Sandrun.PyDict

/-!
# The broker: tables and handlers

`broker.py` distributes jobs to nodes through an SQLite database with two tables, `jobs`
and `nodes`.  Nodes register with their endpoint, heartbeat, claim the oldest pending job,
and report its result; a background thread runs `cleanup_stale_data` every 30 seconds.

Each handler opens a connection, runs its statements and commits.  SQLite lets one
connection write at a time and a transaction holds its write lock to its commit, so a
handler's writes are one atomic step, and a handler that fails (a locked database, a
constraint) writes nothing.  The exception is `claim_job`, whose `SELECT` runs before the
transaction that its `UPDATE` opens: it is cut there, into `claimSelect` and
`claimUpdate`.

A table is a dictionary from the primary key to the rest of the row.  Times are UTC
seconds, the clock of `CURRENT_TIMESTAMP`, and arguments of the handlers.  The cleanup reads
`datetime.now()` instead, the broker's local time, and compares it with those UTC
timestamps (`Config.ago`), so that off UTC a node is expired by how long it has been silent
less the offset.  JSON values of a
request body are strings, except `exit_code`, an integer; a body is the value of each key
the handler reads, `none` when the key is missing (as it is in a missing or empty body).
`complete_job` checks its keys with `k in data`, which a `null` value passes, and writes
the values as they are, so its body tells `null` apart; for the other handlers a `null`
value is not modelled.

## Main definitions

* `JobRow`, `NodeRow`, `Db` — the rows and the database.
* `Reply` — what a handler answers.
* `submitJob`, `registerNode`, `heartbeat`, `claimSelect`, `claimUpdate`, `completeJob`,
  `cleanupStaleData` — the handlers and the cleanup.
* `getStatus`, `getResults` — the handlers that read a job.
-/

namespace Sandrun.Broker

/-- A row of `jobs`, without its primary key `id`. -/
structure JobRow where
  code : String
  interpreter : String
  /-- The JSON text of the submitted arguments. -/
  args : String
  status : String
  nodeId : Option String
  output : Option String
  error : Option String
  exitCode : Option Int
  createdAt : Nat
  assignedAt : Option Nat
  completedAt : Option Nat
  deriving DecidableEq, Repr

/-- A row of `nodes`, without its primary key `id`. -/
structure NodeRow where
  endpoint : String
  /-- The JSON text of the node's capabilities. -/
  capabilities : String
  lastHeartbeat : Nat
  jobsCompleted : Nat
  jobsFailed : Nat
  active : Bool
  deriving DecidableEq, Repr

/-- The database. -/
structure Db where
  jobs : PyDict String JobRow
  nodes : PyDict String NodeRow

/-- The tables `init_db` creates. -/
def Db.init : Db := ⟨.empty, .empty⟩

/-- The settings read from the environment that the cleanup uses, and the broker's clock. -/
structure Config where
  /-- `RESULT_TTL`. -/
  resultTtl : Nat := 3600
  /-- `NODE_TIMEOUT`. -/
  nodeTimeout : Nat := 60
  /-- How many seconds the broker's local time, which `datetime.now()` reads, is ahead of
  UTC, which `CURRENT_TIMESTAMP` writes: negative west of Greenwich. -/
  utcOffset : Int := 0

/-- `datetime.now() - timedelta(seconds=s)` in a cleanup that runs at UTC second `now`:
the local time, `utcOffset` ahead, less `s`.  The cleanup compares it with timestamps that
`CURRENT_TIMESTAMP` wrote in UTC. -/
def Config.ago (cfg : Config) (now s : Nat) : Nat := ((now : Int) + cfg.utcOffset - s).toNat

/-- A job as `/claim` hands it out. -/
structure ClaimedJob where
  id : String
  code : String
  interpreter : String
  args : String
  deriving DecidableEq, Repr

/-- What a handler answers. -/
inductive Reply
  /-- `jsonify({'error': message}), code`. -/
  | error (message : String) (code : Nat)
  /-- The handler raised: Flask answers 500. -/
  | raised
  /-- `{'job_id': job_id, 'status': 'pending'}`. -/
  | submitted (jobId : String)
  /-- `{'node_id': node_id}`. -/
  | registered (nodeId : String)
  /-- `{'status': 'ok'}`. -/
  | ok
  /-- `{'job': ...}` of `/claim`. -/
  | job (job : Option ClaimedJob)
  deriving DecidableEq, Repr

/-! ### Submitting, registering, heartbeats -/

/-- The keys of a `/submit` body. -/
structure SubmitBody where
  code : Option String
  interpreter : Option String
  /-- The JSON text of the `args` value. -/
  args : Option String
  deriving DecidableEq, Repr

/-- `submit_job`, with the id `generate_job_id` returns.  An id already in the table makes
the `INSERT` fail. -/
def submitJob (jobId : String) (body : SubmitBody) (now : Nat) (db : Db) : Db × Reply :=
  match body.code with
  | none => (db, .error "Missing code" 400)
  | some code =>
    if (db.jobs.get? jobId).isSome then (db, .raised)
    else
      ({ db with
        jobs := db.jobs.set jobId
          { code, interpreter := body.interpreter.getD "python3", args := body.args.getD "[]",
            status := "pending", nodeId := none, output := none, error := none,
            exitCode := none, createdAt := now, assignedAt := none, completedAt := none } },
        .submitted jobId)

/-- The keys of a `/register` body. -/
structure RegisterBody where
  endpoint : Option String
  /-- The JSON text of the `capabilities` value. -/
  capabilities : Option String
  deriving DecidableEq, Repr

/-- `register_node`; `nodeIdOf` is `hashlib.sha256(endpoint).hexdigest()[:16]`.
`INSERT OR REPLACE` replaces the whole row, so the counters start again at their
default 0. -/
def registerNode (nodeIdOf : String → String) (body : RegisterBody) (now : Nat) (db : Db) :
    Db × Reply :=
  match body.endpoint with
  | none => (db, .error "Missing endpoint" 400)
  | some endpoint =>
    ({ db with
      nodes := db.nodes.set (nodeIdOf endpoint)
        ⟨endpoint, body.capabilities.getD "\x7b\x7d", now, 0, 0, true⟩ },
      .registered (nodeIdOf endpoint))

/-- `heartbeat`, given the body's `node_id`. -/
def heartbeat (nodeId : Option String) (now : Nat) (db : Db) : Db × Reply :=
  match nodeId with
  | none => (db, .error "Missing node_id" 400)
  | some n =>
    ({ db with nodes := db.nodes.modify n fun node => { node with lastHeartbeat := now, active := true } },
      .ok)

/-! ### Claiming -/

/-- The jobs that `SELECT ... WHERE status = 'pending' ORDER BY created_at ASC LIMIT 1`
may return: the pending jobs created no later than any other pending job.  SQLite orders
jobs created in the same second as it likes. -/
def oldestPending (db : Db) : List String :=
  let pending := db.jobs.items.filter fun e => e.2.status = "pending"
  (pending.filter fun e => pending.all fun e' => e.2.createdAt ≤ e'.2.createdAt).map Prod.fst

/-- Whether `fetchone()` may return the row of `pick` (`none`: no row). -/
def answers (db : Db) : Option String → Bool
  | none => oldestPending db = []
  | some j => j ∈ oldestPending db

/-- A `/claim` call between its `SELECT` and its `UPDATE`. -/
structure Claim where
  nodeId : String
  /-- The row the `SELECT` returned. -/
  job : ClaimedJob
  deriving DecidableEq, Repr

/-- Where a `/claim` call is after its `SELECT`. -/
inductive ClaimCall
  | done (reply : Reply)
  | selected (c : Claim)

/-- `claim_job` up to its `UPDATE`; `row` is what `fetchone()` returned. -/
def claimSelect (nodeId : Option String) (row : Option (String × JobRow)) : ClaimCall :=
  match nodeId, row with
  | none, _ => .done (.error "Missing node_id" 400)
  | some _, none => .done (.job none)
  | some n, some (j, r) => .selected ⟨n, ⟨j, r.code, r.interpreter, r.args⟩⟩

/-- `claim_job` from its `UPDATE ... WHERE id = ? AND status = 'pending'`: the job is
handed out if it is still pending. -/
def claimUpdate (c : Claim) (now : Nat) (db : Db) : Db × Reply :=
  match db.jobs.get? c.job.id with
  | some row =>
    if row.status = "pending" then
      ({ db with
        jobs := db.jobs.set c.job.id
          { row with status := "assigned", nodeId := some c.nodeId, assignedAt := some now } },
        .job (some c.job))
    else (db, .job none)
  | none => (db, .job none)

/-! ### Reporting and cleaning up -/

/-- The keys of a `/complete` body: `none` where a key is missing, `some none` where its
value is `null`. -/
structure CompleteBody where
  nodeId : Option (Option String)
  jobId : Option (Option String)
  output : Option (Option String)
  error : Option (Option String)
  exitCode : Option (Option Int)
  deriving DecidableEq, Repr

/-- Whether the body has every key `complete_job` requires; `k in data` holds for a key
whose value is `null`. -/
def CompleteBody.hasRequired (b : CompleteBody) : Bool :=
  b.nodeId.isSome && b.jobId.isSome && b.output.isSome && b.error.isSome && b.exitCode.isSome

/-- The values of a body with every required key and a `node_id` that is not `null`; the
other values may be `null`. -/
structure Report where
  nodeId : String
  jobId : Option String
  output : Option String
  error : Option String
  exitCode : Option Int
  deriving DecidableEq, Repr

/-- The report a body carries, if it has every required key and a `node_id` that is not
`null`: a `null` one matches no row of either table, since `NULL = NULL` is not true in
SQL. -/
def CompleteBody.report? (b : CompleteBody) : Option Report :=
  match b.nodeId, b.jobId, b.output, b.error, b.exitCode with
  | some (some n), some j, some output, some error, some exitCode => some ⟨n, j, output, error, exitCode⟩
  | _, _, _, _, _ => none

theorem CompleteBody.hasRequired_of_report? {b : CompleteBody} {r : Report} (h : b.report? = some r) :
    b.hasRequired = true := by
  unfold CompleteBody.report? at h
  split at h
  · simp_all [CompleteBody.hasRequired]
  · cases h

/-- The status a report writes: `'completed' if data['exit_code'] == 0 else 'failed'`, and
`None == 0` is false. -/
def Report.status (r : Report) : String := if r.exitCode = some 0 then "completed" else "failed"

/-- The job's row after the report's `UPDATE`, which matches only the row of the reporting
node: the status follows the exit code, and the result and the time are written. -/
def JobRow.record (r : Report) (now : Nat) (row : JobRow) : JobRow :=
  if row.nodeId = some r.nodeId then
    { row with
      status := r.status, output := r.output, error := r.error, exitCode := r.exitCode,
      completedAt := some now }
  else row

/-- The table after the report's `UPDATE jobs ... WHERE id = ? AND node_id = ?`; a `null`
`job_id` matches no row. -/
def Report.update (r : Report) (now : Nat) (jobs : PyDict String JobRow) : PyDict String JobRow :=
  match r.jobId with
  | some j => jobs.modify j (JobRow.record r now)
  | none => jobs

/-- The node's counter that a report with this exit code increments. -/
def NodeRow.tally (exitCode : Option Int) (node : NodeRow) : NodeRow :=
  if exitCode = some 0 then { node with jobsCompleted := node.jobsCompleted + 1 }
  else { node with jobsFailed := node.jobsFailed + 1 }

/-- `complete_job`: a body without every required key is refused; otherwise the job's row
takes the result if the job is assigned to the reporting node, and the node's counter goes
up whatever the job. -/
def completeJob (body : CompleteBody) (now : Nat) (db : Db) : Db × Reply :=
  if body.hasRequired then
    match body.report? with
    | some r =>
      ({ jobs := r.update now db.jobs,
         nodes := db.nodes.modify r.nodeId (NodeRow.tally r.exitCode) }, .ok)
    | none => (db, .ok)
  else (db, .error "Missing required fields" 400)

/-- The cleanup's first `UPDATE`: an active node silent since `deadTime` becomes inactive. -/
def NodeRow.expire (deadTime : Nat) (node : NodeRow) : NodeRow :=
  if node.lastHeartbeat < deadTime ∧ node.active then { node with active := false } else node

/-- The cleanup's second `UPDATE`: a job assigned to or running on an inactive node goes
back to pending. -/
def JobRow.requeue (nodes : PyDict String NodeRow) (row : JobRow) : JobRow :=
  if row.status ∈ ["assigned", "running"] ∧ row.nodeId.any fun k => (nodes.get? k).any (!·.active)
  then { row with status := "pending", nodeId := none } else row

/-- Whether a row survives the cleanup's `DELETE` of the results completed before
`oldTime`. -/
def JobRow.kept (oldTime : Nat) (row : JobRow) : Bool :=
  !(row.status ∈ ["completed", "failed"] ∧ row.completedAt.any (· < oldTime))

/-- `cleanup_stale_data`, with `dead_time` and `old_time`. -/
def cleanupStaleData (deadTime oldTime : Nat) (db : Db) : Db :=
  let nodes := db.nodes.map fun _ => NodeRow.expire deadTime
  { jobs := (db.jobs.map fun _ => JobRow.requeue nodes).filter fun _ => JobRow.kept oldTime,
    nodes }

/-! ### Reading a job -/

/-- What `/status/<job_id>` answers. -/
inductive StatusReply
  /-- `jsonify({'error': 'Job not found'}), 404`. -/
  | notFound
  /-- The job's `status`, `node_id`, `created_at` and `completed_at`. -/
  | status (jobId status : String) (nodeId : Option String) (createdAt : Nat)
      (completedAt : Option Nat)
  deriving DecidableEq

/-- `get_status`. -/
def getStatus (db : Db) (jobId : String) : StatusReply :=
  match db.jobs.get? jobId with
  | none => .notFound
  | some row => .status jobId row.status row.nodeId row.createdAt row.completedAt

/-- What `/results/<job_id>` answers. -/
inductive ResultsReply
  /-- `jsonify({'error': message}), code`: 404 for a missing job, 202 for an unfinished one. -/
  | error (message : String) (code : Nat)
  /-- The job's `status`, `output`, `error` and `exit_code`. -/
  | results (jobId status : String) (output error : Option String) (exitCode : Option Int)
  deriving DecidableEq

/-- `get_results`. -/
def getResults (db : Db) (jobId : String) : ResultsReply :=
  match db.jobs.get? jobId with
  | none => .error "Job not found" 404
  | some row =>
    if row.status ∉ ["completed", "failed"] then .error "Job not completed" 202
    else .results jobId row.status row.output row.error row.exitCode

/-! ### What each handler writes -/

section Equations

variable {db : Db} {now : Nat}

/-- A status from a list without `pending` is not `pending`. -/
theorem ne_pending_of_mem {status : String} {l : List String} (h : status ∈ l)
    (hl : "pending" ∉ l) : status ≠ "pending" :=
  fun he => hl (he ▸ h)

/-- A job's result columns. -/
def JobRow.result (row : JobRow) : Option String × Option String × Option Int :=
  (row.output, row.error, row.exitCode)

/-- A node's counters. -/
def NodeRow.counts (node : NodeRow) : Nat × Nat := (node.jobsCompleted, node.jobsFailed)

@[simp] theorem NodeRow.counts_expire (deadTime : Nat) (node : NodeRow) :
    (node.expire deadTime).counts = node.counts := by
  unfold NodeRow.expire; split_ifs <;> rfl

/-- `/submit` writes only the row of the id it inserts. -/
theorem submitJob_get? (j : String) (b : SubmitBody) (k : String) :
    (submitJob j b now db).1.jobs.get? k = db.jobs.get? k ∨
      (k = j ∧ db.jobs.get? k = none ∧ ∃ row, (submitJob j b now db).1.jobs.get? k = some row ∧
        row.status = "pending" ∧ row.nodeId = none) := by
  unfold submitJob
  split
  · exact .inl rfl
  · split_ifs with hj
    · exact .inl rfl
    · by_cases hk : k = j
      · subst hk; exact .inr ⟨rfl, by simpa using hj, by simp⟩
      · simp [hk]

@[simp] theorem submitJob_nodes (j : String) (b : SubmitBody) :
    (submitJob j b now db).1.nodes = db.nodes := by
  unfold submitJob; split <;> [rfl; split <;> rfl]

@[simp] theorem registerNode_jobs (nodeIdOf : String → String) (b : RegisterBody) :
    (registerNode nodeIdOf b now db).1.jobs = db.jobs := by
  unfold registerNode; split <;> rfl

@[simp] theorem heartbeat_jobs (n : Option String) : (heartbeat n now db).1.jobs = db.jobs := by
  unfold heartbeat; split <;> rfl

/-- A heartbeat touches only the time and the flag of a node. -/
theorem heartbeat_nodes (n : Option String) (k : String) :
    ((heartbeat n now db).1.nodes.get? k).map NodeRow.counts = (db.nodes.get? k).map NodeRow.counts ∧
      ((heartbeat n now db).1.nodes.get? k).isSome = (db.nodes.get? k).isSome := by
  unfold heartbeat
  split
  · exact ⟨rfl, rfl⟩
  · simp only [PyDict.get?_modify]
    split_ifs with h
    · subst h; cases db.nodes.get? k <;> simp [NodeRow.counts]
    · exact ⟨rfl, rfl⟩

/-- The `UPDATE` of `/claim` assigns the job if it is pending, and writes nothing else. -/
theorem claimUpdate_get? (c : Claim) (k : String) :
    (claimUpdate c now db).1.jobs.get? k =
      if k = c.job.id then (db.jobs.get? k).map fun row => if row.status = "pending" then
        { row with status := "assigned", nodeId := some c.nodeId, assignedAt := some now } else row
      else db.jobs.get? k := by
  unfold claimUpdate
  split
  · next row hrow =>
    by_cases hp : row.status = "pending"
    · simp only [hp, if_true, PyDict.get?_set]
      split_ifs with hk
      · subst hk; simp [hrow, hp]
      · rfl
    · simp only [hp, if_false]
      split_ifs with hk
      · subst hk; simp [hrow, hp]
      · rfl
  · next hrow =>
    split_ifs with hk
    · subst hk; simp [hrow]
    · rfl

@[simp] theorem claimUpdate_nodes (c : Claim) : (claimUpdate c now db).1.nodes = db.nodes := by
  unfold claimUpdate; split
  · split_ifs <;> rfl
  · rfl

/-- A `/claim` that hands out a job has assigned that job, pending until then, to the
claiming node. -/
theorem claimUpdate_handed {c : Claim} {jc : ClaimedJob} (h : (claimUpdate c now db).2 = .job (some jc)) :
    jc = c.job ∧ ∃ row, db.jobs.get? c.job.id = some row ∧ row.status = "pending" ∧
      (claimUpdate c now db).1.jobs.get? c.job.id =
        some { row with status := "assigned", nodeId := some c.nodeId, assignedAt := some now } := by
  unfold claimUpdate at h ⊢
  split at h
  · next row hrow =>
    split_ifs at h ⊢ with hp
    · cases h; exact ⟨rfl, row, hrow, hp, by simp⟩
    · simp at h
  · simp at h

@[simp] theorem Report.get?_update (r : Report) (jobs : PyDict String JobRow) (k : String) :
    (r.update now jobs).get? k =
      if r.jobId = some k then (jobs.get? k).map (JobRow.record r now) else jobs.get? k := by
  unfold Report.update
  split
  · next j h =>
    by_cases hk : k = j
    · subst hk; simp [h]
    · simp [h, hk, Ne.symm hk]
  · next h => simp [h]

@[simp] theorem Report.isSome_get?_update (r : Report) (jobs : PyDict String JobRow) (k : String) :
    ((r.update now jobs).get? k).isSome = (jobs.get? k).isSome := by
  rw [Report.get?_update]
  split_ifs <;> simp

theorem Report.status_mem (r : Report) : r.status ∈ ["completed", "failed"] := by
  unfold Report.status
  split_ifs <;> simp

theorem completeJob_jobs (b : CompleteBody) :
    (completeJob b now db).1.jobs =
      match b.report? with
      | some r => r.update now db.jobs
      | none => db.jobs := by
  unfold completeJob
  split <;> split <;> simp_all [CompleteBody.hasRequired_of_report?]

theorem completeJob_nodes (b : CompleteBody) :
    (completeJob b now db).1.nodes =
      match b.report? with
      | some r => db.nodes.modify r.nodeId (NodeRow.tally r.exitCode)
      | none => db.nodes := by
  unfold completeJob
  split <;> split <;> simp_all [CompleteBody.hasRequired_of_report?]

@[simp] theorem cleanupStaleData_jobs (deadTime oldTime : Nat) :
    (cleanupStaleData deadTime oldTime db).jobs =
      (db.jobs.map fun _ => JobRow.requeue (db.nodes.map fun _ => NodeRow.expire deadTime)).filter
        fun _ => JobRow.kept oldTime := rfl

@[simp] theorem cleanupStaleData_nodes (deadTime oldTime : Nat) :
    (cleanupStaleData deadTime oldTime db).nodes = db.nodes.map fun _ => NodeRow.expire deadTime :=
  rfl

end Equations

end Sandrun.Broker
