import Sandrun.PyDict

/-!
# The isolated job queue: jobs, state and methods

`JobQueue` of `src/job_queue.py` keeps its jobs in a table guarded by `self.lock`, writes
the whole table to a JSON ledger on every change, and runs each job in a thread pool
under an ephemeral OS user created for it.  This module translates the class method by
method.

A method is what one calling thread does: starting from the queue's state it returns,
raises, or blocks for ever.  It blocks when it acquires a lock it already holds and the
lock is a `threading.Lock`; the queue's own lock is one, and the analysis of that is in
`Sandrun.JobQueue.Lock`.  The same methods run with a `threading.RLock` complete, and the
step relation of `Sandrun.JobQueue.Step` takes their effects from that run.

The operating system is part of the state: the users `useradd` created and `userdel` has
not removed, and the job directories.  What the system calls answer beyond that (whether
`useradd` is allowed, whether `pkill` found a process, whether `userdel` succeeded, how
the job's process ends) is an argument of the method.  `uuid.uuid4()` is a counter, so a
drawn value is never drawn again; a name the code renders from a uuid (`str(uuid)`,
`job_<hex>`, `./jobs/job_<hex>`) is kept as the number itself, since the code only stores
and compares names.

## Main definitions

* `Job`, `St` — a job object and the queue's state.
* `JQ` — a method run by one thread, with `withLock` for `with self.lock:`.
* `saveJobs`, `loadJobs`, `enqueue`, `runJob`, `cancelJob`, `restartJob`, `deleteJob`,
  `getJob` — the methods.
* `runStart`, `runBody`, `runSave`, `deleteUser` — the phases of `_run_job`.

## References

`src/job_queue.py`.
-/

namespace Sandrun.JobQueue

/-- A `Job` object.  `jobId`, `ephemeralUser` and `directory` are the uuids the three
names are rendered from. -/
structure Job where
  jobId : Nat
  ephemeralUser : Nat
  directory : Nat
  command : List (Option String)
  status : String
  logs : String
  hashedSecret : Option String
  deriving DecidableEq, Repr

/-- The kind of lock guarding the table: `threading.Lock`, which a thread cannot acquire
again while holding it, or `threading.RLock`, which it can. -/
inductive LockKind
  | lock
  | rlock
  deriving DecidableEq, Repr

/-- The state of the queue as one thread sees it. -/
structure St where
  /-- `self.jobs`. -/
  jobs : PyDict Nat Job
  /-- The storage file, as the table it decodes to. -/
  ledger : PyDict Nat Job
  /-- The ids submitted to `self.pool` whose `_run_job` has not started. -/
  pool : List Nat
  /-- The OS users that exist. -/
  users : List Nat
  /-- The job directories that exist. -/
  dirs : List Nat
  /-- The next value of `uuid.uuid4()`. -/
  uuid : Nat
  /-- Whether the thread holds `self.lock`. -/
  held : Bool

/-- A queue started on a missing storage file: `_load_jobs` creates it empty. -/
def St.init : St := ⟨.empty, .empty, [], [], [], 0, false⟩

/-- An exception a method raises. -/
inductive Exc
  | valueError (msg : String)
  | keyError (key : Nat)
  /-- `subprocess.CalledProcessError` of `useradd`. -/
  | calledProcessError
  deriving DecidableEq, Repr

/-- `str(e)`, as the `except` clauses of `cancel_job` and `delete_job` format it. -/
def Exc.str : Exc → String
  | .valueError msg => msg
  | .keyError _ => "KeyError"
  | .calledProcessError => "CalledProcessError"

/-- How a method call ends. -/
inductive Outcome (α : Type) where
  | ok (a : α) (s : St)
  | error (e : Exc) (s : St)
  /-- The thread waits for ever on a lock. -/
  | blocked (s : St)

/-- The state a call ends in. -/
def Outcome.state {α : Type} : Outcome α → St
  | .ok _ s => s
  | .error _ s => s
  | .blocked s => s

@[simp] theorem Outcome.state_ok {α : Type} (a : α) (s : St) : (Outcome.ok a s).state = s := rfl

@[simp] theorem Outcome.state_error {α : Type} (e : Exc) (s : St) :
    (Outcome.error e s : Outcome α).state = s := rfl

/-- A method run by one thread, given the kind of `self.lock`. -/
def JQ (α : Type) : Type := LockKind → St → Outcome α

namespace JQ

instance : Monad JQ where
  pure a := fun _ s => .ok a s
  bind m f := fun k s =>
    match m k s with
    | .ok a s' => f a k s'
    | .error e s' => .error e s'
    | .blocked s' => .blocked s'

variable {α β : Type}

@[simp] theorem pure_apply (a : α) (k : LockKind) (s : St) :
    (pure a : JQ α) k s = .ok a s := rfl

theorem bind_apply (m : JQ α) (f : α → JQ β) (k : LockKind) (s : St) :
    (m >>= f) k s = match m k s with
      | .ok a s' => f a k s'
      | .error e s' => .error e s'
      | .blocked s' => .blocked s' := rfl

end JQ

open JQ

variable {α : Type}

/-- `raise e`. -/
def raise (e : Exc) : JQ α := fun _ s => .error e s

/-- A change of the state. -/
def update (f : St → St) : JQ Unit := fun _ s => .ok () (f s)

/-- `with self.lock:` around `body`.  The lock is released however `body` ends. -/
def withLock (body : JQ α) : JQ α := fun k s =>
  if s.held = true ∧ k = .lock then .blocked s
  else
    match body k { s with held := true } with
    | .ok a s' => .ok a { s' with held := s.held }
    | .error e s' => .error e { s' with held := s.held }
    | .blocked s' => .blocked s'

/-- `try: body except Exception as e: handler(e)`. -/
def tryExcept (body : JQ α) (handler : Exc → JQ α) : JQ α := fun k s =>
  match body k s with
  | .error e s' => handler e k s'
  | o => o

/-- `try: body finally: fin`. -/
def tryFinally (body : JQ α) (fin : JQ Unit) : JQ α := fun k s =>
  match body k s with
  | .ok a s' => (fin >>= fun _ => pure a) k s'
  | .error e s' => (fin >>= fun _ => raise e) k s'
  | .blocked s' => .blocked s'

@[simp] theorem raise_apply (e : Exc) (k : LockKind) (s : St) :
    (raise e : JQ α) k s = .error e s := rfl

@[simp] theorem update_apply (f : St → St) (k : LockKind) (s : St) :
    update f k s = .ok () (f s) := rfl

/-! ### The job table and the operating system -/

/-- `self.jobs.get(job_id)`. -/
def lookup (jobId : Nat) : JQ (Option Job) := fun _ s => .ok (s.jobs.get? jobId) s

/-- `self.jobs[job_id]`, a `KeyError` if it is gone. -/
def getItem (jobId : Nat) : JQ Job := fun _ s =>
  match s.jobs.get? jobId with
  | some job => .ok job s
  | none => .error (.keyError jobId) s

/-- `self.jobs[job_id] = job`. -/
def setItem (jobId : Nat) (job : Job) : JQ Unit :=
  update fun s => { s with jobs := s.jobs.set jobId job }

/-- `del self.jobs[job_id]`, on a present key. -/
def delItem (jobId : Nat) : JQ Unit :=
  update fun s => { s with jobs := s.jobs.erase jobId }

/-- A write to the job object stored under `jobId`.  Job ids are never reused, so
writing through the table is writing through the object a thread holds; once the job is
deleted the write reaches nothing that is read again. -/
def modifyJob (jobId : Nat) (f : Job → Job) : JQ Unit :=
  update fun s => { s with jobs := s.jobs.modify jobId f }

/-- `job.status = status`. -/
def setStatus (jobId : Nat) (status : String) : JQ Unit :=
  modifyJob jobId fun j => { j with status := status }

/-- `self.pool.submit(self._run_job, job_id)`. -/
def submit (jobId : Nat) : JQ Unit :=
  update fun s => { s with pool := s.pool ++ [jobId] }

/-- `uuid.uuid4()`. -/
def uuid4 : JQ Nat := fun _ s => .ok s.uuid { s with uuid := s.uuid + 1 }

/-- `os.makedirs(directory, exist_ok=True)`. -/
def makedirs (dir : Nat) : JQ Unit :=
  update fun s => { s with dirs := if dir ∈ s.dirs then s.dirs else dir :: s.dirs }

/-- `shutil.rmtree(directory, ignore_errors=True)` when the directory exists. -/
def rmtree (dir : Nat) : JQ Unit :=
  update fun s => { s with dirs := s.dirs.erase dir }

/-- `_create_user`: `useradd -M -s /usr/sbin/nologin` with `check=True`.  It fails on a
name that exists; `allowed` says whether the system lets it succeed otherwise. -/
def createUser (user : Nat) (allowed : Bool) : JQ Unit := fun _ s =>
  if allowed = true ∧ user ∉ s.users then .ok () { s with users := user :: s.users }
  else .error .calledProcessError s

/-- `_delete_user`: `userdel -r` with `check=False`, so a failure is ignored; `removed`
says whether it removed the user. -/
def deleteUser (user : Nat) (removed : Bool) : JQ Unit :=
  update fun s => { s with users := if removed then s.users.erase user else s.users }

/-- The return code of `pkill -u user`: `2` for a user that does not exist, otherwise
`0` or `1` as `matched` says whether a process of the user was signalled. -/
def pkill (user : Nat) (matched : Bool) : JQ Nat := fun _ s =>
  .ok (if user ∈ s.users then (if matched then 0 else 1) else 2) s

/-! ### The methods -/

/-- `hash_secret(secret) if secret else None`: an absent or empty secret is not kept. -/
def hashedSecretOf (hashSecret : String → String) : Option String → Option String
  | some secret => if secret = "" then none else some (hashSecret secret)
  | none => none

/-- `Job(command, secret)`: three fresh uuids, status `queued`, empty logs. -/
def newJob (hashSecret : String → String) (command : List (Option String))
    (secret : Option String) : JQ Job := do
  let jobId ← uuid4
  let user ← uuid4
  let dir ← uuid4
  pure ⟨jobId, user, dir, command, "queued", "", hashedSecretOf hashSecret secret⟩

/-- `Job.from_dict`: the constructor draws three uuids, then every field is overwritten
from the stored record. -/
def fromDict (data : Job) : JQ Job := do
  let _ ← newJob id data.command none
  pure data

/-- `_save_jobs`: the table is written to the ledger, under the lock. -/
def saveJobs : JQ Unit := withLock (update fun s => { s with ledger := s.jobs })

/-- The loop of `_load_jobs` over the ledger's items. -/
def loadEach : List (Nat × Job) → JQ Unit
  | [] => pure ()
  | (jobId, data) :: rest => do
    let job ← fromDict data
    setItem jobId job
    if job.status = "queued" ∨ job.status = "running" then submit jobId
    loadEach rest

/-- `_load_jobs` once the storage file exists: every job of the ledger is loaded, and the
queued and running ones are resubmitted. -/
def loadJobs : JQ Unit := withLock do
  let ledger ← fun _ s => .ok s.ledger s
  loadEach ledger.items

/-- `enqueue`: the job is stored and saved under the lock; then its directory, its user,
and its run are created. -/
def enqueue (hashSecret : String → String) (command : List (Option String))
    (secret : Option String) (allowed : Bool) : JQ Nat := do
  let job ← newJob hashSecret command secret
  withLock do
    setItem job.jobId job
    saveJobs
  makedirs job.directory
  createUser job.ephemeralUser allowed
  submit job.jobId
  pure job.jobId

/-- How the job's process ends: it exits with a code and its output, or `Popen` raises. -/
inductive ProcOutcome
  | exited (code : Int) (stdout : String)
  | raised (e : String)
  deriving DecidableEq, Repr

/-- The first block of `_run_job(job_id)`: the job is looked up, marked running and
saved. -/
def runStart (jobId : Nat) : JQ Job := withLock do
  let job ← getItem jobId
  setStatus jobId "running"
  saveJobs
  pure job

/-- The `try` and `except` blocks of `_run_job(job_id)` once the process is over; they
write to the job object the first block read. -/
def runBody (jobId : Nat) : ProcOutcome → JQ Unit
  | .exited code stdout => do
    modifyJob jobId fun j => { j with logs := stdout }
    if code = 0 then setStatus jobId "completed"
    else do
      setStatus jobId "failed"
      modifyJob jobId fun j => { j with logs := j.logs ++ "\n[Error] Non-zero return code." }
  | .raised e => do
    setStatus jobId "failed"
    modifyJob jobId fun j => { j with logs := j.logs ++ "\n[Exception] " ++ e }

/-- The save in the `finally` block of `_run_job`. -/
def runSave : JQ Unit := withLock saveJobs

/-- `_run_job`. -/
def runJob (jobId : Nat) (proc : ProcOutcome) (removed : Bool) : JQ Unit := do
  let job ← runStart jobId
  tryFinally (runBody jobId proc) (do runSave; deleteUser job.ephemeralUser removed)

/-- `get_job`. -/
def getJob (jobId : Nat) : JQ (Option Job) := withLock (lookup jobId)

/-- `delete_job`. -/
def deleteJob (jobId : Nat) : JQ Unit := withLock do
  match ← lookup jobId with
  | none => raise (.valueError "Job not found.")
  | some job =>
    if job.status = "running" then
      raise (.valueError "Cannot delete a running job. Cancel it first.")
    else
      tryExcept (do delItem jobId; saveJobs; rmtree job.directory)
        fun e => raise (.valueError ("Error deleting job: " ++ e.str))

/-- `cancel_job`. -/
def cancelJob (jobId : Nat) (matched : Bool) : JQ Unit := withLock do
  match ← lookup jobId with
  | none => raise (.valueError "Job not found.")
  | some job =>
    if job.status ≠ "running" then raise (.valueError "Job is not running.")
    else
      tryExcept
        (do
          let rc ← pkill job.ephemeralUser matched
          if rc ≠ 0 then raise (.valueError "Failed to cancel job.")
          else do
            setStatus jobId "cancelled"
            saveJobs)
        fun e => raise (.valueError ("Error canceling job: " ++ e.str))

/-- `restart_job`. -/
def restartJob (jobId : Nat) (allowed : Bool) : JQ Unit := withLock do
  match ← lookup jobId with
  | none => raise (.valueError "Job not found.")
  | some job =>
    if job.status ≠ "cancelled" then raise (.valueError "Job is not cancelled.")
    else do
      setStatus jobId "queued"
      saveJobs
      makedirs job.directory
      createUser job.ephemeralUser allowed
      submit job.jobId

end Sandrun.JobQueue
