import Sandrun.JobQueue.Invariant

/-!
# Isolation of executions

What `Inv` gives about the executions themselves: at most one execution of a job is
pending or in progress at any time, every execution in progress uses the user and the
directory of its job, and executions of different jobs never share a user or a directory.
Names belong to jobs, not to executions: `restart_job` sets the job back to `queued`
with the user and the directory it had.

## Main results

* `executions_isolated` — **the isolation theorem**, over every reachable world of the
  repaired program.  A restarted job keeps the user and the directory of the execution it
  was cancelled in.
-/

namespace Sandrun.JobQueue

variable {hashSecret : String → String} {w : World}

/-- An execution in progress has the names of its job. -/
theorem World.hasNames_run {r : Run} (hr : r ∈ w.runs) : w.HasNames r.jobId r.job.names :=
  .inr ⟨r, hr, rfl, rfl⟩

/-- Two executions in progress belong to different jobs, and so use different users and
directories. -/
theorem Inv.run_ne (h : Inv w) {r r' : Run} (hr : r ∈ w.runs) (hr' : r' ∈ w.runs.erase r) :
    r'.jobId ≠ r.jobId ∧ r'.job.ephemeralUser ≠ r.job.ephemeralUser ∧
      r'.job.directory ≠ r.job.directory := by
  -- a second execution of the same job would exceed the bound
  have hne : r'.jobId ≠ r.jobId := fun he =>
    absurd (h.inflight_le r.jobId) (by
      have := inflight_two_of_mem hr rfl (.inr ⟨r', hr', he⟩)
      omega)
  have h₁ := World.hasNames_run hr
  have h₂ := World.hasNames_run (List.mem_of_mem_erase hr')
  exact ⟨hne, fun hu => hne ((h.names.user _ _ _ _ h₂ h₁).2 hu),
    fun hd => hne ((h.names.dir _ _ _ _ h₂ h₁).2 hd)⟩

/-- An execution in progress uses the user and the directory of its job. -/
theorem Inv.run_names (h : Inv w) {r : Run} (hr : r ∈ w.runs) {job : Job}
    (hj : w.st.jobs.get? r.jobId = some job) :
    r.job.ephemeralUser = job.ephemeralUser ∧ r.job.directory = job.directory := by
  have h₂ : w.HasNames r.jobId job.names := .inl (by simp [hj])
  exact ⟨(h.names.user _ _ _ _ (World.hasNames_run hr) h₂).1 rfl,
    (h.names.dir _ _ _ _ (World.hasNames_run hr) h₂).1 rfl⟩

/-- Executions are isolated: at most one execution of each job is pending or in
progress; two executions in progress belong to different jobs and use different users and
directories; each uses the user and directory of its job. -/
def Isolated (w : World) : Prop :=
  (∀ j, w.inflight j ≤ 1) ∧
  (∀ r ∈ w.runs, ∀ r' ∈ w.runs.erase r, r'.jobId ≠ r.jobId ∧
    r'.job.ephemeralUser ≠ r.job.ephemeralUser ∧ r'.job.directory ≠ r.job.directory) ∧
  (∀ r ∈ w.runs, ∀ job, w.st.jobs.get? r.jobId = some job →
    r.job.ephemeralUser = job.ephemeralUser ∧ r.job.directory = job.directory)

/-- **Isolation holds in every reachable world.** -/
theorem executions_isolated (hr : Reachable hashSecret w) : Isolated w :=
  have h := hr.inv
  ⟨h.inflight_le, fun _ hr _ hr' => h.run_ne hr hr', fun _ hr _ hj => h.run_names hr hj⟩

/-- `restart_job` does not give the job new names: job `0` is started and cancelled, and
once restarted it is `queued` with the user and the directory of the execution it was
cancelled in, which is still in progress. -/
example :
    ∃ w w' r, steps id World.init [.enqueue [some "sleep", some "60"] none true, .start 0,
        .cancel 0 true] = some w ∧ r ∈ w.runs ∧ step id w (.restart 0 true) = some w' ∧
      statusOf w' 0 = some "queued" ∧
      (w'.st.jobs.get? 0).map (fun j => (j.ephemeralUser, j.directory)) =
        some (r.job.ephemeralUser, r.job.directory) :=
  ⟨_, _, _, rfl, List.mem_singleton_self _, rfl, rfl, rfl⟩

end Sandrun.JobQueue
