import Sandrun.JobQueue.Invariant

/-!
# Commands with a `None` element

`_run_job` runs `["sudo", "-u", user] + job.command` with `subprocess.Popen`, and the
command `create_job` builds is `[interpreter, main, function, args]`, in which `function`
and `args` stay `None` unless the request gives them.  `Popen` converts every element of
its argument list for `exec` and raises `TypeError` on `None` before any process starts,
so the `except` clause of `_run_job` marks such a job failed.

The step relation leaves how a process ends to its `finish` action.
`Act.popenRejectsNone` is the one assumption made here on those actions: an execution of
a command with a `None` element ends with `Popen` raising.  Under it no job whose command
has a `None` element is ever completed, in the table or in the ledger: not by its first
execution, nor by one that `restart_job` or the `_load_jobs` of a restart schedules.

## Main definitions

* `Act.popenRejectsNone` — the assumption on how the processes of such commands end.
* `NoneFails` — the invariant.

## Main results

* `NoneFails.step` — every step the assumption allows keeps the invariant.
* `ReachableBy.noneFails` — every world reached under the assumption satisfies it.
-/

namespace Sandrun.JobQueue

/-- Whether a process outcome is `Popen` raising. -/
def ProcOutcome.raises : ProcOutcome → Bool
  | .raised _ => true
  | .exited _ _ => false

/-- What `Popen` does with a command that has a `None` element: it raises. -/
def Act.popenRejectsNone : Act → Bool
  | .finish r proc => decide (none ∉ r.job.command) || proc.raises
  | _ => true

/-- A job whose command has a `None` element is not completed. -/
def Job.NoneFails (job : Job) : Prop := none ∈ job.command → job.status ≠ "completed"

/-- Every job of a table satisfies `p`. -/
def AllJobs (p : Job → Prop) (d : PyDict Nat Job) : Prop :=
  ∀ j job, d.get? j = some job → p job

section AllJobs

variable {p : Job → Prop} {d : PyDict Nat Job}

theorem AllJobs.set (h : AllJobs p d) (k : Nat) {job : Job} (hp : p job) :
    AllJobs p (d.set k job) := by
  intro j job' hj
  rw [PyDict.get?_set] at hj
  split_ifs at hj
  · cases hj; exact hp
  · exact h j job' hj

theorem AllJobs.erase (h : AllJobs p d) (k : Nat) : AllJobs p (d.erase k) := by
  intro j job' hj
  rw [PyDict.get?_erase] at hj
  split_ifs at hj
  exact h j job' hj

theorem AllJobs.modify (h : AllJobs p d) {k : Nat} {f : Job → Job}
    (hf : ∀ job, d.get? k = some job → p (f job)) : AllJobs p (d.modify k f) := by
  intro j job' hj
  rcases PyDict.get?_modify_eq_some.1 hj with ⟨rfl, job₀, h₀, rfl⟩ | ⟨-, hj⟩
  · exact hf job₀ h₀
  · exact h j job' hj

end AllJobs

@[simp] theorem command_withStatus (status : String) (job : Job) :
    (withStatus status job).command = job.command := rfl

@[simp] theorem command_finishJob (proc : ProcOutcome) (job : Job) :
    (finishJob proc job).command = job.command := by
  cases proc with
  | exited code _ => by_cases hc : code = 0 <;> simp [finishJob, hc]
  | raised _ => rfl

/-- A status write other than `completed` leaves no completed job. -/
theorem noneFails_withStatus {status : String} (hs : status ≠ "completed") (job : Job) :
    (withStatus status job).NoneFails := fun _ => hs

/-- Each execution's job object has the command of the job of its id in the table. -/
def RunsAgree (runs : List Run) (jobs : PyDict Nat Job) : Prop :=
  ∀ r ∈ runs, ∀ job, jobs.get? r.jobId = some job → job.command = r.job.command

/-- A write that keeps commands keeps the executions' agreement. -/
theorem RunsAgree.modify {runs : List Run} {d : PyDict Nat Job} (h : RunsAgree runs d) (k : Nat)
    {f : Job → Job} (hf : ∀ job, (f job).command = job.command) : RunsAgree runs (d.modify k f) := by
  intro r hr job hj
  rcases PyDict.get?_modify_eq_some.1 hj with ⟨he, job₀, h₀, rfl⟩ | ⟨-, hj⟩
  · rw [hf, h r hr job₀ (he ▸ h₀)]
  · exact h r hr job hj

/-- An execution moved to its next phase keeps its job object. -/
theorem RunsAgree.replace {runs : List Run} {d : PyDict Nat Job} (h : RunsAgree runs d)
    {r : Run} (hr : r ∈ runs) (phase : Phase) :
    RunsAgree ({ r with phase := phase } :: runs.erase r) d := by
  intro r' hr' job hj
  rcases List.mem_cons.1 hr' with rfl | hr'
  · exact h r hr job hj
  · exact h r' (List.mem_of_mem_erase hr') job hj

/-- The invariant: no job whose command has a `None` element is completed, in the table
or in the ledger, and each execution runs the command of the job of its id. -/
structure NoneFails (w : World) : Prop where
  jobs : AllJobs Job.NoneFails w.st.jobs
  ledger : AllJobs Job.NoneFails w.st.ledger
  runs : RunsAgree w.runs w.st.jobs

section Preservation

variable {w : World}

/-- A method that leaves the table and the ledger, or writes a status other than
`completed` into both, keeps the invariant. -/
theorem NoneFails.statusWrite (h : NoneFails w) {s' : St}
    (hs' : (s'.jobs = w.st.jobs ∧ s'.ledger = w.st.ledger) ∨
      ∃ k status, status ≠ "completed" ∧ s'.jobs = w.st.jobs.modify k (withStatus status) ∧
        s'.ledger = w.st.jobs.modify k (withStatus status)) :
    NoneFails ⟨s', w.runs⟩ := by
  rcases hs' with ⟨hj, hl⟩ | ⟨k, status, hst, hj, hl⟩
  · exact ⟨hj ▸ h.jobs, hl ▸ h.ledger, hj ▸ h.runs⟩
  · have hw : AllJobs Job.NoneFails (w.st.jobs.modify k (withStatus status)) :=
      h.jobs.modify fun job _ => noneFails_withStatus hst job
    exact ⟨hj ▸ hw, hl ▸ hw, hj ▸ h.runs.modify k (command_withStatus status)⟩

theorem NoneFails.cancel (h : NoneFails w) (jobId : Nat) (matched : Bool) :
    NoneFails ⟨(cancelJob jobId matched .rlock w.st).state, w.runs⟩ := by
  refine h.statusWrite ?_
  rw [cancelJob_state]
  split
  · next job _ =>
    by_cases hc : job.status = "running" ∧ job.ephemeralUser ∈ w.st.users ∧ matched = true
    · rw [if_pos hc]; exact .inr ⟨jobId, "cancelled", by decide, rfl, rfl⟩
    · rw [if_neg hc]; exact .inl ⟨rfl, rfl⟩
  · exact .inl ⟨rfl, rfl⟩

theorem NoneFails.restart (h : NoneFails w) (jobId : Nat) (allowed : Bool) :
    NoneFails ⟨(restartJob jobId allowed .rlock w.st).state, w.runs⟩ := by
  refine h.statusWrite ?_
  rw [restartJob_state]
  split
  · next job _ =>
    by_cases hc : job.status = "cancelled"
    · rw [if_pos hc]; exact .inr ⟨jobId, "queued", by decide, rfl, rfl⟩
    · rw [if_neg hc]; exact .inl ⟨rfl, rfl⟩
  · exact .inl ⟨rfl, rfl⟩

theorem NoneFails.delete (h : NoneFails w) (jobId : Nat) :
    NoneFails ⟨(deleteJob jobId .rlock w.st).state, w.runs⟩ := by
  rw [deleteJob_state]
  split
  · split_ifs
    · exact h
    · refine ⟨h.jobs.erase jobId, h.jobs.erase jobId, fun r hr job hj => ?_⟩
      rw [PyDict.get?_erase] at hj
      split_ifs at hj
      exact h.runs r hr job hj
  · exact h

theorem NoneFails.enqueue (hi : Inv w) (h : NoneFails w) (hashSecret : String → String)
    (command : List (Option String)) (secret : Option String) (allowed : Bool) :
    NoneFails { w with st := (enqueue hashSecret command secret allowed .rlock w.st).state } := by
  rw [enqueue_state]
  -- the new job is queued, and its id is fresh
  have hq : (enqueuedJob hashSecret command secret w.st).NoneFails := fun _ h' => by
    simp [enqueuedJob] at h'
  refine ⟨h.jobs.set _ hq, h.jobs.set _ hq, fun r hr job hj => ?_⟩
  have hlt := (hi.names.lt r.jobId r.job.names (.inr ⟨r, hr, rfl, rfl⟩)).1
  dsimp only at hj
  rw [PyDict.get?_set, if_neg (Nat.ne_of_lt hlt)] at hj
  exact h.runs r hr job hj

theorem NoneFails.start (h : NoneFails w) {hashSecret : String → String} {jobId : Nat} {w' : World}
    (hs : step hashSecret w (.start jobId) = some w') : NoneFails w' := by
  obtain ⟨-, ⟨job₀, h₀, rfl⟩ | ⟨-, rfl⟩⟩ := step_start_cases hs
  · have hw : AllJobs Job.NoneFails (w.st.jobs.modify jobId (withStatus "running")) :=
      h.jobs.modify fun job _ => noneFails_withStatus (by decide) job
    refine ⟨hw, hw, fun r hr job hj => ?_⟩
    rcases List.mem_cons.1 hr with rfl | hr
    · -- the new execution holds the job it marked running
      dsimp only at hj
      rw [PyDict.get?_modify, if_pos rfl, h₀] at hj
      cases hj; rfl
    · exact h.runs.modify jobId (command_withStatus "running") r hr job hj
  · exact ⟨h.jobs, h.ledger, h.runs⟩

/-- The process of an execution ends: a command with a `None` element ends with `Popen`
raising, which marks its job failed. -/
theorem NoneFails.finish (h : NoneFails w) {r : Run} (hr : r ∈ w.runs) {proc : ProcOutcome}
    (ha : (Act.finish r proc).popenRejectsNone) :
    NoneFails ⟨(runBody r.jobId proc .rlock w.st).state,
      { r with phase := .finished } :: w.runs.erase r⟩ := by
  rw [runBody_rlock, Outcome.state_ok]
  refine ⟨h.jobs.modify fun job hj hn => ?_, h.ledger,
    (h.runs.modify r.jobId (command_finishJob proc)).replace hr .finished⟩
  rw [command_finishJob, h.runs r hr job hj] at hn
  cases proc with
  | exited code _ => simp [Act.popenRejectsNone, ProcOutcome.raises, hn] at ha
  | raised e => simp [finishJob]

theorem NoneFails.crash (h : NoneFails w) : NoneFails ⟨(loadJobs .rlock (reboot w.st)).state, []⟩ := by
  rw [loadJobs_rlock, Outcome.state_ok]
  have hget : ∀ j, (loadTable (reboot w.st).ledger.items (reboot w.st).jobs).get? j =
      w.st.ledger.get? j := PyDict.get?_setAll_items w.st.ledger
  exact ⟨fun j job hj => h.ledger j job ((hget j).symm.trans hj), h.ledger,
    fun r hr => by simp at hr⟩

end Preservation

/-- The step lemma. -/
theorem NoneFails.step {hashSecret : String → String} {w w' : World} {a : Act} (hi : Inv w)
    (h : NoneFails w) (ha : a.popenRejectsNone) (hs : step hashSecret w a = some w') :
    NoneFails w' := by
  cases a with
  | enqueue command secret allowed => cases hs; exact h.enqueue hi hashSecret command secret allowed
  | start jobId => exact h.start hs
  | finish r proc =>
    simp only [JobQueue.step, stepWith] at hs
    split_ifs at hs with hr
    cases hs; exact h.finish hr.1 ha
  | save r =>
    obtain ⟨hr₁, -, rfl⟩ := step_save hs
    rw [runSave_rlock, Outcome.state_ok]
    exact ⟨h.jobs, h.jobs, h.runs.replace hr₁ .saved⟩
  | deleteUser r removed =>
    simp only [JobQueue.step, stepWith] at hs
    split_ifs at hs
    cases hs
    exact ⟨h.jobs, h.ledger, fun r' hr' => h.runs r' (List.mem_of_mem_erase hr')⟩
  | cancel jobId matched => cases hs; exact h.cancel jobId matched
  | restart jobId allowed => cases hs; exact h.restart jobId allowed
  | delete jobId => cases hs; exact h.delete jobId
  | crash => cases hs; exact h.crash

/-- The run lemma: every world reached by steps under which `Popen` rejects `None`
satisfies the invariant. -/
theorem ReachableBy.noneFails {hashSecret : String → String} {w : World}
    (hr : ReachableBy hashSecret (fun a => a.popenRejectsNone) w) : NoneFails w := by
  induction hr with
  | init => exact ⟨fun _ _ h => by simp [World.init, St.init] at h,
      fun _ _ h => by simp [World.init, St.init] at h, fun _ h => by simp [World.init] at h⟩
  | step hr' ha hs ih => exact ih.step hr'.inv ha hs

end Sandrun.JobQueue
