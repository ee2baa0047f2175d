import Sandrun.JobQueue.Isolation

/-!
# The lifecycle of a job

Four places of `job_queue.py` write a status: the first block of `_run_job` writes
`running`, its `try` block `completed` or `failed`, `cancel_job` `cancelled` and
`restart_job` `queued`; a crash replaces the table by the ledger.  This module says which
changes of status the steps other than a crash make, from every reachable world of the
repaired program, where `self.lock` is reentrant; the code as written never changes a
status (`Sandrun.JobQueue.AsWritten`).

The status write of `_run_job` is unconditional: it does not look at the status the job
has when the process ends.  `cancel_job` kills the process and writes `cancelled`, and the
execution it killed then writes `failed` over it.  What stays true is that every status
an execution writes is written on a job that is still queued, running or cancelled, so a
completed or failed job keeps its status until a crash.

## Main definitions

* `Job.live` — queued, running or cancelled.
* `StatusStep` — the status changes made by the code paths that write a status.
* `LifeOk` — pending executions and executions in progress belong to live jobs.

## Main results

* `status_steps` — **every change of status** made by a step other than a crash is a
  `StatusStep`; a cancelled job becomes `failed` when its killed process ends.
-/

namespace Sandrun.JobQueue

/-- A job an execution may still write: queued, running or cancelled. -/
def Job.live (job : Job) : Prop :=
  job.status = "queued" ∨ job.status = "running" ∨ job.status = "cancelled"

/-- The status changes of the code paths that write a status. -/
inductive StatusStep : String → String → Prop
  /-- The first block of `_run_job`, on a job that is not yet running. -/
  | run {old : String} : old = "queued" ∨ old = "cancelled" → StatusStep old "running"
  /-- The `try` block of `_run_job`, once the process is over. -/
  | finish {old new : String} : old = "queued" ∨ old = "running" ∨ old = "cancelled" →
      new = "completed" ∨ new = "failed" → StatusStep old new
  /-- `cancel_job`. -/
  | cancel : StatusStep "running" "cancelled"
  /-- `restart_job`. -/
  | restart : StatusStep "cancelled" "queued"

@[simp] theorem live_withStatus_running (job : Job) : (withStatus "running" job).live :=
  .inr (.inl rfl)

/-- The `try` block of `_run_job` leaves the job completed or failed. -/
theorem finishJob_status (proc : ProcOutcome) (job : Job) :
    (finishJob proc job).status = "completed" ∨ (finishJob proc job).status = "failed" := by
  cases proc with
  | exited code _ => by_cases hc : code = 0 <;> simp [finishJob, hc]
  | raised _ => simp [finishJob]

theorem not_live_finishJob (proc : ProcOutcome) (job : Job) : ¬(finishJob proc job).live := by
  rcases finishJob_status proc job with h | h <;> simp [Job.live, h]

/-- Executions pending in the pool and executions whose process runs belong to live jobs. -/
structure LifeOk (w : World) : Prop where
  pending : ∀ j ∈ w.st.pool, ∀ job, w.st.jobs.get? j = some job → job.live
  started : ∀ r ∈ w.runs, r.phase = .started → ∀ job, w.st.jobs.get? r.jobId = some job → job.live

theorem LifeOk.init : LifeOk World.init :=
  ⟨by simp [World.init, St.init], by simp [World.init]⟩

section Preservation

variable {w : World}

/-- A step whose jobs are old ones or live, and whose pending and running executions are
old ones or of live jobs, keeps the invariant. -/
theorem LifeOk.frame (h : LifeOk w) {w' : World}
    (hjobs : ∀ j job, w'.st.jobs.get? j = some job → job.live ∨ w.st.jobs.get? j = some job)
    (hpool : ∀ j ∈ w'.st.pool, j ∈ w.st.pool)
    (hruns : ∀ r ∈ w'.runs, r.phase = .started → r ∈ w.runs) : LifeOk w' where
  pending j hj job hjob := (hjobs j job hjob).elim id (h.pending j (hpool j hj) job)
  started r hr hp job hjob := (hjobs r.jobId job hjob).elim id (h.started r (hruns r hr hp) hp job)

/-- A write of a live status keeps the jobs old or live. -/
theorem live_or_of_modify {d : PyDict Nat Job} {k : Nat} {status : String}
    (hs : ∀ job, (withStatus status job).live) {j : Nat} {job : Job}
    (hj : (d.modify k (withStatus status)).get? j = some job) :
    job.live ∨ d.get? j = some job := by
  rcases PyDict.get?_modify_eq_some.1 hj with ⟨-, job₀, -, rfl⟩ | ⟨-, hj⟩
  · exact .inl (hs job₀)
  · exact .inr hj

theorem LifeOk.enqueue (hi : Inv w) (h : LifeOk w) (hashSecret : String → String)
    (command : List (Option String)) (secret : Option String) (allowed : Bool) :
    LifeOk { w with st := (enqueue hashSecret command secret allowed .rlock w.st).state } := by
  rw [enqueue_state]
  have hnew : ∀ j job, (w.st.jobs.set w.st.uuid (enqueuedJob hashSecret command secret w.st)).get? j =
      some job → j = w.st.uuid ∧ job.live ∨ w.st.jobs.get? j = some job := by
    intro j job hj
    rw [PyDict.get?_set] at hj
    split_ifs at hj with hju
    · cases hj; exact .inl ⟨hju, .inl rfl⟩
    · exact .inr hj
  refine ⟨fun j hj job hjob => ?_, fun r hr hp job hjob => ?_⟩
  · rcases hnew j job hjob with ⟨-, hl⟩ | hjob
    · exact hl
    · -- an old job is pending in the old pool: the new id has no job yet
      dsimp only at hj
      split_ifs at hj
      · rcases List.mem_append.1 hj with hj | hj
        · exact h.pending j hj job hjob
        · rw [List.mem_singleton] at hj
          subst hj
          exact absurd (hi.names.lt _ job.names (.inl (by simp [hjob]))).1 (lt_irrefl _)
      · exact h.pending j hj job hjob
  · rcases hnew r.jobId job hjob with ⟨-, hl⟩ | hjob
    · exact hl
    · exact h.started r hr hp job hjob

theorem LifeOk.start (h : LifeOk w) {hashSecret : String → String} {jobId : Nat} {w' : World}
    (hs : step hashSecret w (.start jobId) = some w') : LifeOk w' := by
  obtain ⟨-, ⟨job, -, rfl⟩ | ⟨-, rfl⟩⟩ := step_start_cases hs
  · refine ⟨fun j hj job' hjob => ?_, fun r hr hp job' hjob => ?_⟩
    · exact (live_or_of_modify live_withStatus_running hjob).elim id
        (h.pending j (List.mem_of_mem_erase hj) job')
    · rcases List.mem_cons.1 hr with rfl | hr
      · rcases PyDict.get?_modify_eq_some.1 hjob with ⟨-, job₀, -, rfl⟩ | ⟨hne, -⟩
        · exact live_withStatus_running job₀
        · exact absurd rfl hne
      · exact (live_or_of_modify live_withStatus_running hjob).elim id
          (h.started r hr hp job')
  · exact h.frame (fun _ _ hj => .inr hj) (fun _ hj => List.mem_of_mem_erase hj) (fun _ hr _ => hr)

theorem LifeOk.finish (hi : Inv w) (h : LifeOk w) {r : Run} (hr : r ∈ w.runs) (proc : ProcOutcome) :
    LifeOk ⟨(runBody r.jobId proc .rlock w.st).state, { r with phase := .finished } :: w.runs.erase r⟩ := by
  rw [runBody_rlock]
  -- the job written has no other execution, pending or in progress
  refine ⟨fun j hj job hjob => ?_, fun r' hr' hp job hjob => ?_⟩
  · rcases PyDict.get?_modify_eq_some.1 hjob with ⟨rfl, -⟩ | ⟨-, hjob⟩
    · have := inflight_two_of_mem hr rfl (.inl hj)
      have := hi.inflight_le r.jobId
      omega
    · exact h.pending j hj job hjob
  · rcases List.mem_cons.1 hr' with rfl | hr'
    · cases hp
    · rcases PyDict.get?_modify_eq_some.1 hjob with ⟨he, -⟩ | ⟨-, hjob⟩
      · exact absurd he (hi.run_ne hr hr').1
      · exact h.started r' (List.mem_of_mem_erase hr') hp job hjob

theorem LifeOk.cancel (h : LifeOk w) (jobId : Nat) (matched : Bool) :
    LifeOk { w with st := (cancelJob jobId matched .rlock w.st).state } := by
  rw [cancelJob_state]
  cases w.st.jobs.get? jobId with
  | none => exact h
  | some job =>
    dsimp only
    split_ifs
    · exact h.frame (fun _ _ hj => live_or_of_modify (fun _ => .inr (.inr rfl)) hj) (fun _ => id)
        (fun _ hr _ => hr)
    · exact h

theorem LifeOk.restart (hi : Inv w) (h : LifeOk w) (jobId : Nat) (allowed : Bool) :
    LifeOk { w with st := (restartJob jobId allowed .rlock w.st).state } := by
  rw [restartJob_state]
  cases hj : w.st.jobs.get? jobId with
  | none => exact h
  | some job =>
    have hkey : job.jobId = jobId := hi.names.key jobId job.names (.inl (by simp [hj]))
    dsimp only
    by_cases hc : job.status = "cancelled"
    swap
    · rw [if_neg hc]; exact h
    rw [if_pos hc]
    -- the job is queued again, and only its own run can be added to the pool
    refine ⟨fun j hj' job' hjob => ?_, fun r hr hp job' hjob =>
      (live_or_of_modify (fun _ => .inl rfl) hjob).elim id (h.started r hr hp job')⟩
    rcases PyDict.get?_modify_eq_some.1 hjob with ⟨-, job₀, -, rfl⟩ | ⟨hne, hjob⟩
    · exact .inl rfl
    · refine h.pending j ?_ job' hjob
      by_cases hu : allowed = true ∧ job.ephemeralUser ∉ w.st.users
      · rw [if_pos hu] at hj'
        rcases List.mem_append.1 hj' with hj' | hj'
        · exact hj'
        · exact absurd ((List.mem_singleton.1 hj').trans hkey) hne
      · rwa [if_neg hu] at hj'

theorem LifeOk.delete (h : LifeOk w) (jobId : Nat) :
    LifeOk { w with st := (deleteJob jobId .rlock w.st).state } := by
  rw [deleteJob_state]
  cases w.st.jobs.get? jobId with
  | none => exact h
  | some job =>
    dsimp only
    split_ifs
    · exact h
    · refine h.frame (fun j job' hj => .inr ?_) (fun _ => id) (fun _ hr _ => hr)
      dsimp only at hj
      rw [PyDict.get?_erase] at hj
      split_ifs at hj
      exact hj

theorem LifeOk.crash : LifeOk ⟨(loadJobs .rlock (reboot w.st)).state, []⟩ := by
  rw [loadJobs_rlock, Outcome.state_ok]
  refine ⟨fun j hj job hjob => ?_, fun r hr => by simp at hr⟩
  dsimp only [reboot] at hj hjob
  rw [loadTable, PyDict.get?_setAll_items] at hjob
  obtain ⟨job', hj', hs⟩ := mem_resubmitted.1 (by simpa using hj)
  rw [hjob] at hj'; cases hj'
  rcases hs with hs | hs
  · exact .inl hs
  · exact .inr (.inl hs)

/-- **Every step keeps the invariant.** -/
theorem LifeOk.step {hashSecret : String → String} {w' : World} {a : Act} (hi : Inv w)
    (h : LifeOk w) (hs : step hashSecret w a = some w') : LifeOk w' := by
  cases a with
  | enqueue command secret allowed => cases hs; exact h.enqueue hi hashSecret command secret allowed
  | start jobId => exact h.start hs
  | finish r proc =>
    simp only [JobQueue.step, stepWith] at hs
    split_ifs at hs with hr
    cases hs; exact h.finish hi hr.1 proc
  | save r =>
    obtain ⟨hr₁, -, rfl⟩ := step_save hs
    rw [runSave_rlock]
    refine h.frame (fun _ _ hj => .inr hj) (fun _ => id) fun r' hr' hp => ?_
    rcases List.mem_cons.1 hr' with rfl | hr'
    · cases hp
    · exact List.mem_of_mem_erase hr'
  | deleteUser r removed =>
    simp only [JobQueue.step, stepWith] at hs
    split_ifs at hs with hr
    cases hs
    exact h.frame (fun _ _ hj => .inr hj) (fun _ => id) fun _ hr' _ => List.mem_of_mem_erase hr'
  | cancel jobId matched => cases hs; exact h.cancel jobId matched
  | restart jobId allowed => cases hs; exact h.restart hi jobId allowed
  | delete jobId => cases hs; exact h.delete jobId
  | crash => cases hs; exact LifeOk.crash

end Preservation

/-- Every reachable world satisfies the invariant. -/
theorem ReachableBy.lifeOk {hashSecret : String → String} {allowed : Act → Prop} {w : World}
    (hr : ReachableBy hashSecret allowed w) : LifeOk w := by
  induction hr with
  | init => exact LifeOk.init
  | step hw _ hs ih => exact ih.step hw.inv hs

/-! ### The status changes -/

section Changes

variable {j : Nat} {job job' : Job}

/-- A table that still holds the job as it was changes nothing. -/
theorem status_same {d : PyDict Nat Job} (hj : d.get? j = some job) (hj' : d.get? j = some job')
    (hne : job.status ≠ job'.status) : False :=
  hne (by rw [hj] at hj'; cases hj'; rfl)

/-- A write through the table changes a status only as the writer does. -/
theorem status_step_of_modify {d : PyDict Nat Job} {k : Nat} {f : Job → Job}
    (hj : d.get? j = some job) (hj' : (d.modify k f).get? j = some job')
    (hne : job.status ≠ job'.status)
    (hf : d.get? k = some job → job.status ≠ (f job).status → StatusStep job.status (f job).status) :
    StatusStep job.status job'.status := by
  rcases PyDict.get?_modify_eq_some.1 hj' with ⟨rfl, job₀, h₀, rfl⟩ | ⟨-, h⟩
  · rw [hj] at h₀; cases h₀; exact hf hj hne
  · exact (status_same hj h hne).elim

/-- What `cancel_job` does to the table: nothing, or it cancels a running job. -/
theorem cancelJob_jobs (jobId : Nat) (matched : Bool) (s : St) :
    (cancelJob jobId matched .rlock s).state.jobs = s.jobs ∨
      ∃ job, s.jobs.get? jobId = some job ∧ job.status = "running" ∧
        (cancelJob jobId matched .rlock s).state.jobs = s.jobs.modify jobId (withStatus "cancelled") := by
  rw [cancelJob_state]
  split
  · next job hj => split_ifs with hc; exacts [.inr ⟨job, hj, hc.1, rfl⟩, .inl rfl]
  · exact .inl rfl

/-- What `restart_job` does to the table: nothing, or it queues a cancelled job again. -/
theorem restartJob_jobs (jobId : Nat) (allowed : Bool) (s : St) :
    (restartJob jobId allowed .rlock s).state.jobs = s.jobs ∨
      ∃ job, s.jobs.get? jobId = some job ∧ job.status = "cancelled" ∧
        (restartJob jobId allowed .rlock s).state.jobs = s.jobs.modify jobId (withStatus "queued") := by
  rw [restartJob_state]
  split
  · next job hj =>
    by_cases hc : job.status = "cancelled"
    · rw [if_pos hc]; exact .inr ⟨job, hj, hc, rfl⟩
    · rw [if_neg hc]; exact .inl rfl
  · exact .inl rfl

/-- What `delete_job` does to the table: nothing, or it removes the entry. -/
theorem deleteJob_jobs (jobId : Nat) (s : St) :
    (deleteJob jobId .rlock s).state.jobs = s.jobs ∨
      (deleteJob jobId .rlock s).state.jobs = s.jobs.erase jobId := by
  rw [deleteJob_state]
  split
  · split_ifs; exacts [.inl rfl, .inr rfl]
  · exact .inl rfl

/-- **Every change of status** that a step other than a crash makes, from a reachable
world, is one of the code's status writes on a job in the status that write expects. -/
theorem status_steps {hashSecret : String → String} {w w' : World} {a : Act}
    (hr : Reachable hashSecret w) (ha : a ≠ .crash) (hs : step hashSecret w a = some w')
    (hj : w.st.jobs.get? j = some job) (hj' : w'.st.jobs.get? j = some job')
    (hne : job.status ≠ job'.status) : StatusStep job.status job'.status := by
  have hi := hr.inv
  have hl := hr.lifeOk
  cases a with
  | enqueue command secret allowed =>
    cases hs
    rw [enqueue_state] at hj'
    dsimp only at hj'
    rw [PyDict.get?_set] at hj'
    split_ifs at hj' with hju
    · -- the new id has no job yet
      subst hju
      exact absurd (hi.names.lt _ job.names (.inl (by simp [hj]))).1 (lt_irrefl _)
    · exact (status_same hj hj' hne).elim
  | start jobId =>
    obtain ⟨hp, ⟨job₀, -, rfl⟩ | ⟨-, rfl⟩⟩ := step_start_cases hs
    · refine status_step_of_modify hj hj' hne fun hk hne' => .run ?_
      rcases hl.pending jobId hp job hk with h | h | h
      · exact .inl h
      · exact absurd h hne'
      · exact .inr h
    · exact (status_same hj hj' hne).elim
  | finish r proc =>
    simp only [JobQueue.step, stepWith] at hs
    split_ifs at hs with hr'
    cases hs
    rw [runBody_rlock, Outcome.state_ok] at hj'
    exact status_step_of_modify hj hj' hne fun hk _ =>
      .finish (hl.started r hr'.1 hr'.2 job hk) (finishJob_status proc job)
  | save r =>
    obtain ⟨-, -, rfl⟩ := step_save hs
    rw [runSave_rlock] at hj'
    exact (status_same hj hj' hne).elim
  | deleteUser r removed =>
    simp only [JobQueue.step, stepWith] at hs
    split_ifs at hs
    cases hs
    exact (status_same hj hj' hne).elim
  | cancel jobId matched =>
    cases hs
    rcases cancelJob_jobs jobId matched w.st with he | ⟨job₀, h₀, hc, he⟩ <;> rw [he] at hj'
    · exact (status_same hj hj' hne).elim
    · exact status_step_of_modify hj hj' hne fun hk _ => by
        rw [h₀] at hk; cases hk; rw [hc]; exact .cancel
  | restart jobId allowed =>
    cases hs
    rcases restartJob_jobs jobId allowed w.st with he | ⟨job₀, h₀, hc, he⟩ <;> rw [he] at hj'
    · exact (status_same hj hj' hne).elim
    · exact status_step_of_modify hj hj' hne fun hk _ => by
        rw [h₀] at hk; cases hk; rw [hc]; exact .restart
  | delete jobId =>
    cases hs
    rcases deleteJob_jobs jobId w.st with he | he <;> rw [he] at hj'
    · exact (status_same hj hj' hne).elim
    · rw [PyDict.get?_erase] at hj'
      split_ifs at hj'
      exact (status_same hj hj' hne).elim
  | crash => exact absurd rfl ha

/-- A cancelled job does not stay cancelled: job `0` is started and cancelled, and when
its killed process ends (`returncode` `-15`) the execution marks it failed. -/
example :
    ∃ w w' r, steps id World.init [.enqueue [some "sleep", some "60"] none true, .start 0,
        .cancel 0 true] = some w ∧ r ∈ w.runs ∧
      step id w (.finish r (.exited (-15) "")) = some w' ∧
      statusOf w 0 = some "cancelled" ∧ statusOf w' 0 = some "failed" :=
  ⟨_, _, _, rfl, List.mem_singleton_self _, rfl, rfl, rfl⟩

end Changes

end Sandrun.JobQueue
