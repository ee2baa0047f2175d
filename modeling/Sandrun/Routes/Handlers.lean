import Sandrun.JobQueue.Basic

/-!
# The job handlers and a protected job

Six handlers of `routes.py` read one job: `get_job`, `get_job_status`, `get_job_logs`,
`delete_job`, `download_job_tarball` and `cancel_job`.  Each looks the job up through
`queue.get_job`, answers 404 if it is missing, and checks the secret against the stored
hash before doing its own work; a request whose secret does not hash to the stored value
is answered 403, with a detail that depends on the secret alone.  `get_job_status` and
`delete_job` declare the secret with `min_length=8`, so FastAPI answers a shorter one 422
before the handler runs.  `list_jobs` reads every job's status and checks nothing, but it
returns a dictionary where its `response_model` is `List[str]`, so FastAPI's check of the
return value fails and every answer is a 500.

The handlers run on the queue's state through its monad, so a handler that reaches
`queue.delete_job` or `queue.cancel_job` does exactly what the method does.  `Twins` are
two states that hold two records for one job, in the table and in the ledger, and agree
everywhere else; a handler run on twins ends alike, with twin states (`TwinSafe`), unless
its own work reads the job that differs.

`routes.py` imports `FileResponse` from `fastapi`, which exports it only from
`fastapi.responses`; the handlers are modelled as they run once that import succeeds.

## Main definitions

* `Response`, `refusal`, `checkSecret`, `guarded` — the answers, the 403 of the secret
  check, the check, and the shape of the six handlers.
* `getJob`, `getJobStatus`, `getJobLogs`, `deleteJob`, `downloadJobTarball`, `cancelJob`,
  `listJobs` — the handlers.
* `Request`, `Request.validation`, `handle` — a request, FastAPI's check of its query,
  and the route it reaches.
* `Twins`, `OTwins`, `TwinSafe` — two runs on states that differ in one job.

## Main results

* `protected_job_handlers_noninterfering` — the seven handlers neither reveal nor change
  a protected job to a request without its secret.
* `protected_job_refused` — such a request for the protected job is answered 422 or
  403, from the secret alone, and changes nothing.
-/

namespace Sandrun.Routes

open JobQueue JQ

/-- A JSON body a handler returns. -/
inductive Body
  /-- `job.to_dict()`. -/
  | job (j : Job)
  /-- `{"job_id": ..., "status": ...}`. -/
  | status (jobId : Nat) (status : String)
  /-- `{"job_id": ..., "logs": ...}`. -/
  | logs (jobId : Nat) (logs : String)
  /-- `{"message": ..., "job_id": ...}`. -/
  | message (msg : String) (jobId : Nat)
  /-- The dictionary of `list_jobs`, each key with its job's status; `none` stands for the
  `AttributeError` of `None.status`, which no key of the table reaches. -/
  | statuses (entries : List (Nat × Option String))
  deriving DecidableEq, Repr

/-- What a handler answers. -/
inductive Response
  | ok (body : Body)
  /-- An `HTTPException`, or the 500 of an error the handler does not catch. -/
  | httpError (statusCode : Nat) (detail : String)
  /-- The 422 of FastAPI's check of a request: where the parameter is, and the message. -/
  | invalid (loc : List String) (msg : String)
  /-- `FileResponse`: the archive `job.tarball()` makes of directory `dir`, downloaded as
  `<job_id>.tar.gz`. -/
  | file (dir : Nat) (jobId : Nat)
  deriving DecidableEq, Repr

/-! ### The handlers -/

/-- The 403 of the secret check, whose detail depends on the secret alone. -/
def refusal : Option String → Response
  | some x =>
    if x = "" then .httpError 403 "This job is protected by a secret." else .httpError 403 "Invalid secret."
  | none => .httpError 403 "This job is protected by a secret."

/-- The secret check of the job handlers: `none` when the request may go on.  A stored
hash is checked when it is truthy; a missing or empty secret is refused before hashing. -/
def checkSecret (hashSecret : String → String) (job : Job) (secret : Option String) :
    Option Response :=
  match job.hashedSecret with
  | none => none
  | some h =>
    if h = "" then none
    else match secret with
      | none => some (.httpError 403 "This job is protected by a secret.")
      | some x =>
        if x = "" then some (.httpError 403 "This job is protected by a secret.")
        else if hashSecret x ≠ h then some (.httpError 403 "Invalid secret.")
        else none

/-- The shape of the six job handlers: `queue.get_job(job_id)`, 404 if it is missing, the
secret check, then the handler's own `body`. -/
def guarded (hashSecret : String → String) (jobId : Nat) (secret : Option String)
    (body : Job → JQ Response) : JQ Response := do
  match ← JobQueue.getJob jobId with
  | none => pure (.httpError 404 "Job not found")
  | some job =>
    match checkSecret hashSecret job secret with
    | some r => pure r
    | none => body job

section Handlers

variable (hashSecret : String → String) (jobId : Nat) (secret : Option String)

/-- `get_job`. -/
def getJob : JQ Response := guarded hashSecret jobId secret fun job => pure (.ok (.job job))

/-- `get_job_status`. -/
def getJobStatus : JQ Response :=
  guarded hashSecret jobId secret fun job => pure (.ok (.status job.jobId job.status))

/-- `get_job_logs`. -/
def getJobLogs : JQ Response :=
  guarded hashSecret jobId secret fun job => pure (.ok (.logs job.jobId job.logs))

/-- `delete_job`; its `remove_dir` parameter is read by nothing. -/
def deleteJob : JQ Response :=
  guarded hashSecret jobId secret fun _ => do
    JobQueue.deleteJob jobId
    pure (.ok (.message "Job deleted" jobId))

/-- `download_job_tarball`. -/
def downloadJobTarball : JQ Response :=
  guarded hashSecret jobId secret fun job =>
    if job.status = "running" then
      pure (.httpError 400 "Job is still running. Please wait for it to complete.")
    else pure (.file job.directory jobId)

/-- `cancel_job`: `queue.cancel_job` returns `None`, so a cancel that succeeds is answered
500; its `ValueError`s become 400s.  `matched` says whether `pkill` finds a process. -/
def cancelJob (matched : Bool) : JQ Response :=
  guarded hashSecret jobId secret fun _ =>
    tryExcept (do JobQueue.cancelJob jobId matched; pure (.httpError 500 "Failed to cancel job."))
      fun e => match e with
        | .valueError msg => pure (.httpError 400 msg)
        | e => raise e

end Handlers

/-- `{job_id: queue.get_job(job_id).status for job_id in keys}`, in the order of the keys. -/
def listStatuses : List Nat → JQ (List (Nat × Option String))
  | [] => pure []
  | jobId :: rest => do
    let job ← JobQueue.getJob jobId
    let entries ← listStatuses rest
    pure ((jobId, job.map (·.status)) :: entries)

/-- `list_jobs`: every key of the table with the status `queue.get_job` reads for it. -/
def listJobs : JQ Response := do
  let keys ← (fun _ s => .ok s.jobs.keys s : JQ (List Nat))
  let entries ← listStatuses keys
  pure (.ok (.statuses entries))

/-- FastAPI's check of a return value against `response_model=List[str]`: the dictionary
`list_jobs` returns is not a list, and the client gets the 500 of the
`ResponseValidationError`. -/
def validateListStr : Response → Response
  | .ok (.statuses _) => .httpError 500 "Internal Server Error"
  | r => r

/-- The route `GET /jobs`. -/
def listJobsRoute : JQ Response := do
  let r ← listJobs
  pure (validateListStr r)

/-- A request to one of the seven handlers. -/
inductive Request
  | getJob (jobId : Nat) (secret : Option String)
  | getJobStatus (jobId : Nat) (secret : Option String)
  | getJobLogs (jobId : Nat) (secret : Option String)
  | deleteJob (jobId : Nat) (secret : Option String)
  | downloadJobTarball (jobId : Nat) (secret : Option String)
  | cancelJob (jobId : Nat) (secret : Option String) (matched : Bool)
  | listJobs

/-- The secret a request carries. -/
def Request.secret : Request → Option String
  | .getJob _ s | .getJobStatus _ s | .getJobLogs _ s | .deleteJob _ s
  | .downloadJobTarball _ s | .cancelJob _ s _ => s
  | .listJobs => none

/-- The job a request names. -/
def Request.jobId : Request → Option Nat
  | .getJob j _ | .getJobStatus j _ | .getJobLogs j _ | .deleteJob j _
  | .downloadJobTarball j _ | .cancelJob j _ _ => some j
  | .listJobs => none

/-- `Query(None, min_length=n)` on a given secret: a secret shorter than `n` characters is
answered 422. -/
def minLengthError (n : Nat) (x : String) : Option Response :=
  if x.length < n then
    some (.invalid ["query", "secret"] ("String should have at least " ++ toString n ++ " characters"))
  else none

/-- FastAPI's check of a request's query before the handler runs: `get_job_status` and
`delete_job` declare the secret with `min_length=8`. -/
def Request.validation : Request → Option Response
  | .getJobStatus _ (some x) | .deleteJob _ (some x) => minLengthError 8 x
  | _ => none

/-- The handler a request goes to. -/
def handler (hashSecret : String → String) : Request → JQ Response
  | .getJob jobId secret => getJob hashSecret jobId secret
  | .getJobStatus jobId secret => getJobStatus hashSecret jobId secret
  | .getJobLogs jobId secret => getJobLogs hashSecret jobId secret
  | .deleteJob jobId secret => deleteJob hashSecret jobId secret
  | .downloadJobTarball jobId secret => downloadJobTarball hashSecret jobId secret
  | .cancelJob jobId secret matched => cancelJob hashSecret jobId secret matched
  | .listJobs => listJobsRoute

/-- A request as the server answers it: FastAPI's check of the query, then the handler. -/
def handle (hashSecret : String → String) (req : Request) : JQ Response :=
  match req.validation with
  | some r => pure r
  | none => handler hashSecret req

/-! ### Two runs -/

/-- Two queue states that hold the records `a` and `b` for job `j` in the table, and agree
everywhere else.  The ledger holds for `j` the record it held at the start, `la` and `lb`,
or a copy of the table's; for every other job the ledgers agree. -/
structure Twins (j : Nat) (a b : Job) (la lb : Option Job) (s₁ s₂ : St) : Prop where
  left : s₁.jobs.get? j = some a
  right : s₂.jobs.get? j = some b
  other : ∀ k, k ≠ j → s₁.jobs.get? k = s₂.jobs.get? k
  ledger : ∀ k, k ≠ j → s₁.ledger.get? k = s₂.ledger.get? k
  ledgerLeft : s₁.ledger.get? j = la ∨ s₁.ledger.get? j = some a
  ledgerRight : s₂.ledger.get? j = lb ∨ s₂.ledger.get? j = some b
  pool : s₁.pool = s₂.pool
  users : s₁.users = s₂.users
  dirs : s₁.dirs = s₂.dirs
  uuid : s₁.uuid = s₂.uuid
  held : s₁.held = s₂.held

/-- Two runs that end alike: the same value, exception or blocking, in twin states. -/
def OTwins {α : Type} (j : Nat) (a b : Job) (la lb : Option Job) : Outcome α → Outcome α → Prop
  | .ok x s₁, .ok y s₂ => x = y ∧ Twins j a b la lb s₁ s₂
  | .error e s₁, .error e' s₂ => e = e' ∧ Twins j a b la lb s₁ s₂
  | .blocked s₁, .blocked s₂ => Twins j a b la lb s₁ s₂
  | _, _ => False

/-- A method that, run on twins, ends alike. -/
def TwinSafe {α : Type} (j : Nat) (a b : Job) (la lb : Option Job) (m : JQ α) : Prop :=
  ∀ lk s₁ s₂, Twins j a b la lb s₁ s₂ → OTwins j a b la lb (m lk s₁) (m lk s₂)

section TwinSafe

variable {α β : Type} {j : Nat} {a b : Job} {la lb : Option Job}

theorem Twins.with_held {s₁ s₂ : St} (h : Twins j a b la lb s₁ s₂) (held : Bool) :
    Twins j a b la lb { s₁ with held := held } { s₂ with held := held } :=
  { h with held := rfl }

theorem TwinSafe.bind {m : JQ α} {f : α → JQ β} (hm : TwinSafe j a b la lb m)
    (hf : ∀ x, TwinSafe j a b la lb (f x)) : TwinSafe j a b la lb (m >>= f) := by
  intro lk s₁ s₂ ht
  have h := hm lk s₁ s₂ ht
  rw [bind_apply, bind_apply]
  revert h
  cases m lk s₁ <;> cases m lk s₂ <;> simp only [OTwins, false_imp_iff, imp_self]
  rintro ⟨rfl, ht'⟩
  exact hf _ _ _ _ ht'

theorem TwinSafe.withLock {body : JQ α} (h : TwinSafe j a b la lb body) :
    TwinSafe j a b la lb (JobQueue.withLock body) := by
  intro lk s₁ s₂ ht
  simp only [JobQueue.withLock, ht.held]
  split_ifs
  · exact ht
  · have h' := h lk _ _ (ht.with_held true)
    revert h'
    cases body lk { s₁ with held := true } <;> cases body lk { s₂ with held := true } <;>
      simp only [OTwins, false_imp_iff, imp_self]
    all_goals exact fun ⟨he, ht'⟩ => ⟨he, ht'.with_held _⟩

theorem TwinSafe.tryExcept {body : JQ α} {handler : Exc → JQ α} (h : TwinSafe j a b la lb body)
    (hh : ∀ e, TwinSafe j a b la lb (handler e)) :
    TwinSafe j a b la lb (JobQueue.tryExcept body handler) := by
  intro lk s₁ s₂ ht
  have h' := h lk s₁ s₂ ht
  simp only [JobQueue.tryExcept]
  revert h'
  cases body lk s₁ <;> cases body lk s₂ <;> simp only [OTwins, false_imp_iff, imp_self]
  rintro ⟨rfl, ht'⟩
  exact hh _ _ _ _ ht'

theorem TwinSafe.pure (x : α) : TwinSafe j a b la lb (Pure.pure x : JQ α) := fun _ _ _ ht => ⟨rfl, ht⟩

theorem TwinSafe.raise (e : Exc) : TwinSafe j a b la lb (JobQueue.raise e : JQ α) :=
  fun _ _ _ ht => ⟨rfl, ht⟩

theorem TwinSafe.update {f : St → St}
    (hf : ∀ s₁ s₂, Twins j a b la lb s₁ s₂ → Twins j a b la lb (f s₁) (f s₂)) :
    TwinSafe j a b la lb (JobQueue.update f) :=
  fun _ s₁ s₂ ht => ⟨rfl, hf s₁ s₂ ht⟩

/-- A read of another job sees the same record in both states. -/
theorem TwinSafe.lookup {k : Nat} (hk : k ≠ j) : TwinSafe j a b la lb (JobQueue.lookup k) :=
  fun _ _ _ ht => ⟨ht.other k hk, ht⟩

theorem TwinSafe.getJob {k : Nat} (hk : k ≠ j) : TwinSafe j a b la lb (JobQueue.getJob k) :=
  (TwinSafe.lookup hk).withLock

theorem TwinSafe.pkill (user : Nat) (matched : Bool) :
    TwinSafe j a b la lb (JobQueue.pkill user matched) :=
  fun _ _ _ ht => ⟨by simp only [JobQueue.pkill, ht.users], ht⟩

/-- A save writes each table to its ledger: the protected job's ledger record becomes a
copy of its table record. -/
theorem TwinSafe.saveJobs : TwinSafe j a b la lb saveJobs :=
  TwinSafe.withLock (TwinSafe.update fun _ _ ht =>
    { ht with ledger := ht.other, ledgerLeft := .inr ht.left, ledgerRight := .inr ht.right })

/-- A write to another job keeps the states twins. -/
theorem Twins.modify {s₁ s₂ : St} (ht : Twins j a b la lb s₁ s₂) {k : Nat} (hk : k ≠ j)
    (f : Job → Job) :
    Twins j a b la lb { s₁ with jobs := s₁.jobs.modify k f } { s₂ with jobs := s₂.jobs.modify k f } :=
  { ht with
    left := by simpa [Ne.symm hk] using ht.left
    right := by simpa [Ne.symm hk] using ht.right
    other := fun k' hk' => by simp only [PyDict.get?_modify, ht.other k' hk', ht.other k hk] }

theorem Twins.erase {s₁ s₂ : St} (ht : Twins j a b la lb s₁ s₂) {k : Nat} (hk : k ≠ j) :
    Twins j a b la lb { s₁ with jobs := s₁.jobs.erase k } { s₂ with jobs := s₂.jobs.erase k } :=
  { ht with
    left := by simpa [Ne.symm hk] using ht.left
    right := by simpa [Ne.symm hk] using ht.right
    other := fun k' hk' => by simp only [PyDict.get?_erase, ht.other k' hk', ht.other k hk] }

/-- `queue.cancel_job` on another job. -/
theorem TwinSafe.cancelJob {k : Nat} (hk : k ≠ j) (matched : Bool) :
    TwinSafe j a b la lb (JobQueue.cancelJob k matched) := by
  refine TwinSafe.withLock ((TwinSafe.lookup hk).bind fun o => ?_)
  rcases o with _ | job
  · exact .raise _
  · dsimp only
    split
    · exact .raise _
    · refine TwinSafe.tryExcept ((TwinSafe.pkill _ _).bind fun rc => ?_) fun _ => .raise _
      split
      · exact .raise _
      · exact (TwinSafe.update fun _ _ ht => ht.modify hk _).bind fun _ => .saveJobs

/-- `queue.delete_job` on another job. -/
theorem TwinSafe.deleteJob {k : Nat} (hk : k ≠ j) : TwinSafe j a b la lb (JobQueue.deleteJob k) := by
  refine TwinSafe.withLock ((TwinSafe.lookup hk).bind fun o => ?_)
  rcases o with _ | job
  · exact .raise _
  · dsimp only
    split
    · exact .raise _
    · refine TwinSafe.tryExcept ((TwinSafe.update fun _ _ ht => ht.erase hk).bind fun _ =>
        TwinSafe.saveJobs.bind fun _ => .update fun _ _ ht => ?_) fun _ => .raise _
      exact { ht with dirs := by simp only [ht.dirs] }

/-- `list_jobs` reads every job, and changes nothing: it blocks at its first key while
another thread holds `threading.Lock`, and otherwise returns every key with its status. -/
theorem listStatuses_apply (keys : List Nat) (lk : LockKind) (s : St) :
    listStatuses keys lk s =
      if s.held = true ∧ lk = .lock ∧ keys ≠ [] then .blocked s
      else .ok (keys.map fun k => (k, (s.jobs.get? k).map (·.status))) s := by
  induction keys with
  | nil => simp [listStatuses]
  | cons k keys ih =>
    by_cases hb : s.held = true ∧ lk = .lock
    · simp [listStatuses, bind_apply, JobQueue.getJob, JobQueue.withLock, hb]
    · simp only [listStatuses, bind_apply, JobQueue.getJob, JobQueue.withLock, if_neg hb,
        JobQueue.lookup, ih]
      split_ifs <;> simp_all

/-- The route `GET /jobs` answers twins alike: a 500 in both, or blocking in both. -/
theorem TwinSafe.listJobsRoute : TwinSafe j a b la lb listJobsRoute := by
  intro lk s₁ s₂ ht
  have hk : ∀ {s : St} {job : Job}, s.jobs.get? j = some job → s.jobs.keys ≠ [] := fun h he => by
    have := (PyDict.mem_keys_iff _ j).2 ⟨_, h⟩
    rw [he] at this; cases this
  simp only [Routes.listJobsRoute, Routes.listJobs, bind_apply, listStatuses_apply, hk ht.left,
    hk ht.right, ht.held, ne_eq, not_false_eq_true, and_true]
  split_ifs
  · exact ht
  · exact ⟨rfl, ht⟩

end TwinSafe

/-! ### The protected job -/

section Protected

variable {hashSecret : String → String} {j : Nat} {a b : Job} {la lb : Option Job} {h : String}

/-- The secret check reads nothing of a job but its hash. -/
theorem checkSecret_congr {a b : Job} (hab : a.hashedSecret = b.hashedSecret) (secret : Option String) :
    checkSecret hashSecret a secret = checkSecret hashSecret b secret := by
  unfold checkSecret; rw [hab]

/-- A secret that does not hash to a job's truthy hash is refused with `refusal`. -/
theorem checkSecret_refused (ha : a.hashedSecret = some h) (hne : h ≠ "") {secret : Option String}
    (hsec : ∀ x, secret = some x → hashSecret x ≠ h) :
    checkSecret hashSecret a secret = some (refusal secret) := by
  unfold checkSecret
  rw [ha]
  rcases secret with _ | x
  · simp [hne, refusal]
  · by_cases hx : x = "" <;> simp [hne, hx, hsec x rfl, refusal]

/-- A guarded handler refuses a request for the protected job, from the secret alone, and
changes nothing; it blocks while another thread holds `threading.Lock`. -/
theorem guarded_refused (ha : a.hashedSecret = some h) (hne : h ≠ "") {secret : Option String}
    (hsec : ∀ x, secret = some x → hashSecret x ≠ h) {s : St} (hs : s.jobs.get? j = some a)
    (body : Job → JQ Response) (lk : LockKind) :
    guarded hashSecret j secret body lk s =
      if s.held = true ∧ lk = .lock then .blocked s else .ok (refusal secret) s := by
  simp only [guarded, bind_apply, JobQueue.getJob, JobQueue.withLock, JobQueue.lookup, hs]
  split_ifs
  · rfl
  · simp only [checkSecret_refused ha hne hsec, pure_apply]

/-- The family lemma: a guarded handler refuses a request for the protected job in both
states alike, and runs its own work on the same record for any other job. -/
theorem guarded_twinSafe (ha : a.hashedSecret = some h) (hb : b.hashedSecret = some h)
    (hne : h ≠ "") {jobId : Nat} {secret : Option String}
    (hsec : ∀ x, secret = some x → hashSecret x ≠ h) {body : Job → JQ Response}
    (hbody : jobId ≠ j → ∀ job, TwinSafe j a b la lb (body job)) :
    TwinSafe j a b la lb (guarded hashSecret jobId secret body) := by
  by_cases hk : jobId = j
  · -- the request names the protected job: both states answer the same refusal
    subst hk
    intro lk s₁ s₂ ht
    rw [guarded_refused ha hne hsec ht.left, guarded_refused hb hne hsec ht.right, ht.held]
    split_ifs
    · exact ht
    · exact ⟨rfl, ht⟩
  · refine (TwinSafe.getJob hk).bind fun o => ?_
    rcases o with _ | job
    · exact .pure _
    · dsimp only
      split
      · exact .pure _
      · exact hbody hk job

/-- **The handlers keep a protected job's secrets.**  Take two queue states that differ
only in the records of one job, in the table and in the ledger, whose stored hash is the
same truthy value in both, and any request to `get_job`, `get_job_status`,
`get_job_logs`, `delete_job`, `download_job_tarball`, `cancel_job` or `list_jobs` whose
secret, if any, does not hash to that value, with either kind of lock.  The server
answers alike in both states: the same response, exception or blocking, in states that
again differ only in that job, whose table record is left as it was in each and whose
ledger record is left as it was or made a copy of the table's. -/
theorem protected_job_handlers_noninterfering (ha : a.hashedSecret = some h)
    (hb : b.hashedSecret = some h) (hne : h ≠ "") (req : Request)
    (hsec : ∀ x, req.secret = some x → hashSecret x ≠ h) {s₁ s₂ : St}
    (ht : Twins j a b la lb s₁ s₂) (lk : LockKind) :
    OTwins j a b la lb (handle hashSecret req lk s₁) (handle hashSecret req lk s₂) := by
  refine (?_ : TwinSafe j a b la lb (handle hashSecret req)) lk s₁ s₂ ht
  unfold handle
  split
  · exact .pure _
  cases req with
  | getJob jobId secret | getJobStatus jobId secret | getJobLogs jobId secret =>
    exact guarded_twinSafe ha hb hne hsec fun _ _ => .pure _
  | deleteJob jobId secret =>
    exact guarded_twinSafe ha hb hne hsec fun hk _ => (TwinSafe.deleteJob hk).bind fun _ => .pure _
  | downloadJobTarball jobId secret =>
    refine guarded_twinSafe ha hb hne hsec fun _ job => ?_
    split <;> exact .pure _
  | cancelJob jobId secret matched =>
    refine guarded_twinSafe ha hb hne hsec fun hk _ =>
      .tryExcept ((TwinSafe.cancelJob hk matched).bind fun _ => .pure _) fun e => ?_
    rcases e with msg | _ | _
    exacts [.pure _, .raise _, .raise _]
  | listJobs => exact .listJobsRoute

/-- Job `0`, protected by the hash `h`, queued in one state and completed in the other:
`GET /jobs` answers both alike. -/
theorem protected_job_handlers_noninterfering_list :
    let a : Job := ⟨0, 1, 2, [some "python"], "queued", "", some "h"⟩
    let b : Job := { a with status := "completed", logs := "done" }
    a.hashedSecret = some "h" ∧ b.hashedSecret = some "h" ∧ "h" ≠ "" ∧
      (∀ x, Request.listJobs.secret = some x → id x ≠ "h") ∧
      Twins 0 a b none none { St.init with jobs := PyDict.empty.set 0 a }
        { St.init with jobs := PyDict.empty.set 0 b } ∧
      OTwins 0 a b none none (handle id .listJobs .lock { St.init with jobs := PyDict.empty.set 0 a })
        (handle id .listJobs .lock { St.init with jobs := PyDict.empty.set 0 b }) :=
  have hsec : ∀ x, Request.listJobs.secret = some x → id x ≠ "h" := by rintro x ⟨⟩
  have ht : Twins 0 ⟨0, 1, 2, [some "python"], "queued", "", some "h"⟩
      ⟨0, 1, 2, [some "python"], "completed", "done", some "h"⟩ none none
      { St.init with jobs := PyDict.empty.set 0 ⟨0, 1, 2, [some "python"], "queued", "", some "h"⟩ }
      { St.init with jobs := PyDict.empty.set 0 ⟨0, 1, 2, [some "python"], "completed", "done", some "h"⟩ } :=
    ⟨by simp, by simp, fun k hk => by simp [hk], fun _ _ => rfl, .inl rfl, .inl rfl, rfl, rfl, rfl,
      rfl, rfl⟩
  ⟨rfl, rfl, by decide, hsec, ht, protected_job_handlers_noninterfering rfl rfl (by decide) _ hsec ht .lock⟩

/-- **A request for a protected job without its secret is refused.**  For a job whose
stored hash is truthy, a request to one of the six job handlers that names it, with a
secret that does not hash to the stored value, is answered 422 when `get_job_status` or
`delete_job` gets a secret shorter than 8 characters, and otherwise 403 with a detail that
depends on the secret alone, or blocks while another thread holds `threading.Lock`; the
state is left as it was. -/
theorem protected_job_refused (ha : a.hashedSecret = some h) (hne : h ≠ "") (req : Request)
    (hj : req.jobId = some j) (hsec : ∀ x, req.secret = some x → hashSecret x ≠ h) {s : St}
    (hs : s.jobs.get? j = some a) (lk : LockKind) :
    handle hashSecret req lk s =
      match req.validation with
      | some r => .ok r s
      | none => if s.held = true ∧ lk = .lock then .blocked s else .ok (refusal req.secret) s := by
  cases hv : req.validation with
  | some r => simp only [handle, hv, pure_apply]
  | none =>
    simp only [handle, hv]
    cases req with
    | listJobs => cases hj
    | _ => cases hj; exact guarded_refused ha hne hsec hs _ lk

/-- `get_job_status` with a wrong secret of ten characters is refused 403 on a queue that
holds only the protected job. -/
theorem protected_job_refused_guess :
    let s : St := { St.init with jobs := PyDict.empty.set 0 ⟨0, 1, 2, [some "python"], "queued", "", some "h"⟩ }
    handle id (.getJobStatus 0 (some "guessguess")) .lock s = .ok (.httpError 403 "Invalid secret.") s :=
  (protected_job_refused (a := ⟨0, 1, 2, [some "python"], "queued", "", some "h"⟩) rfl (by decide)
    (.getJobStatus 0 (some "guessguess")) rfl (by rintro x ⟨⟩; decide) (by simp) .lock).trans rfl

end Protected

end Sandrun.Routes
