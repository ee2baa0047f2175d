import Sandrun.Pool.Invariant

/-!
# How a pool job's status moves

A `PoolJob`'s status is written in two places.  The dispatcher's resumption after a 200
reply to `POST /submit` sets `dispatched`, together with the worker's id and the reply's
`job_id`, which is `None` when the reply has none.  A status poll's resumption after a 200
reply copies the reply's `status` field, whatever it holds, into a job that has a worker.
So a status moves from `queued` to `dispatched`, and from there to any string a worker
reports: `queued` and `cancelled` as well as `running`, `completed` and `failed`.

## Main definitions

* `Coord.Assigned` — a job without a worker is queued; a job's worker is registered.
* `StatusChange` — the two ways a step can change a status.
* `StatusLaw` — both, in a world and in each step from it.

## Main results

* `status_law_holds` — every reachable world satisfies `StatusLaw`.
* `missing_job_id_then_cancelled` — a dispatched job with no remote id, whose status then
  becomes `cancelled`.
-/

namespace Sandrun.Pool

/-- A job without a worker is queued; a job's worker is registered. -/
def Coord.Assigned (s : Coord) (job : PoolJob) : Prop :=
  match job.workerId with
  | none => job.status = "queued"
  | some k => (s.workers.get? k).isSome

/-- How a step `a` from `w` can take job `j` from `job` to `job'` with another status:
the 200 reply to the dispatcher's post of the job, or a 200 reply, with a status, to a
poll of the job made to its own worker. -/
def StatusChange (w : World) (a : Act) (j : String) (job job' : PoolJob) : Prop :=
  (∃ k, w.dispatcher = .posting j k ∧ a = .submitReply (.status 200 job'.remoteJobId) ∧
    job.status = "queued" ∧ job.workerId = none ∧ job'.status = "dispatched" ∧
    job'.workerId = some k) ∨
  (∃ p status, p ∈ w.polls ∧ p.jobId = j ∧ a = .pollReply p (.status 200 (some status)) ∧
    job.workerId = some p.workerId ∧ job'.workerId = job.workerId ∧ job'.status = status)

section Preservation

variable {w : World} (h : Inv w)
include h

/-- The one step lemma: every status change is one of the two `StatusChange`s. -/
theorem Inv.statusChange {w' : World} {a : Act} {j : String} {job job' : PoolJob}
    (hs : Pool.step w a = some w') (hj : w.st.jobs.get? j = some job)
    (hj' : w'.st.jobs.get? j = some job') (hne : job.status ≠ job'.status) :
    StatusChange w a j job job' := by
  -- a segment that writes no job changes no status
  have same : w'.st.jobs = w.st.jobs → StatusChange w a j job job' := fun he => by
    rw [he, hj] at hj'; cases hj'; exact absurd rfl hne
  rcases step_cases hs with ⟨j₀, -, hj₀, rfl⟩ | ⟨_, _, -, -, -, rfl⟩ | ⟨_, -, -, rfl⟩ |
    ⟨j₀, k, r, rfl, hd, rfl⟩ | ⟨_, _, -, rfl⟩ | ⟨_, _, -, -, rfl⟩ | ⟨_, -, rfl⟩ |
    ⟨p, r, rfl, hp, rfl⟩
  -- the take, the backoff, the health checks and the calls' starts write no job
  all_goals try exact same rfl
  · -- a submission adds a fresh job
    have hne' : j ≠ j₀ := by rintro rfl; rw [hj₀] at hj; cases hj
    simp only [submitJob_jobs, PyDict.get?_set, if_neg hne', hj] at hj'
    cases hj'; exact absurd rfl hne
  · -- the worker's reply to the dispatcher
    cases r with
    | raised => exact same rfl
    | status code f =>
      by_cases hc : code = 200
      · subst hc
        simp only [dispatchJobResume, if_true, PyDict.get?_modify] at hj'
        split_ifs at hj' with hjj
        · subst hjj
          rw [hj] at hj'
          cases hj'
          have hn : job.workerId = none := by
            simpa [hj] using (h.mem_entries j).1 (by simp [World.entries, hd])
          exact .inl ⟨k, hd, rfl, h.queued j job hj hn, hn, rfl, rfl⟩
        · rw [hj] at hj'; cases hj'; exact absurd rfl hne
      · exact same (by simp [dispatchJobResume, hc])
  · -- the worker's reply to a poll
    rw [get?_getJobStatusResume] at hj'
    split_ifs at hj' with hjp
    · subst hjp
      rw [hj] at hj'
      cases hj'
      have hw : job.workerId = some p.workerId := by simpa [hj] using h.polls p hp
      cases r with
      | raised => exact absurd rfl hne
      | status code f =>
        by_cases hc : code = 200
        · subst hc
          cases f with
          | none => exact absurd rfl hne
          | some status => exact .inr ⟨p, status, hp, rfl, rfl, hw, rfl, rfl⟩
        · simp [StatusReply.statusAfter, hc] at hne
    · rw [hj] at hj'; cases hj'; exact absurd rfl hne

end Preservation

/-- Every job is `Assigned`, and every step changes statuses only as `StatusChange`
says. -/
def StatusLaw (w : World) : Prop :=
  (∀ j job, w.st.jobs.get? j = some job → w.st.Assigned job) ∧
  ∀ a w' j job job', step w a = some w' → w.st.jobs.get? j = some job →
    w'.st.jobs.get? j = some job' → job.status ≠ job'.status → StatusChange w a j job job'

/-- **How statuses move.**  Under every interleaving and whatever the workers reply, a
job without a worker is queued and a job's worker is registered; a status changes only
from `queued` to `dispatched`, by the 200 reply to the dispatcher's post of the job (which
sets the worker, and the reply's `job_id`, possibly `None`, as `remote_job_id`), or to the
`status` of a 200 reply to a poll of the job made to its own worker. -/
theorem status_law_holds {w : World} (hr : Reachable w) : StatusLaw w := by
  have h := ReachableBy.inv hr
  refine ⟨fun j job hj => ?_, fun _ _ _ _ _ hs hj hj' hne => h.statusChange hs hj hj' hne⟩
  unfold Coord.Assigned
  cases hk : job.workerId with
  | none => exact h.queued j job hj hk
  | some k => exact h.assigned j k (by simp [hj, hk])

/-- A run that dispatches job `a` to worker `w`, whose reply has no `job_id`. -/
def dispatchedRun : List Act :=
  [.healthCheck "w" (.status 200 (some "w")), .submit "a", .take, .submitReply (.status 200 none)]

/-- The law after `dispatchedRun`: job `a` is dispatched, and the next reply to a poll of
it can only copy a status into it. -/
theorem status_law_holds_dispatched :
    ∃ w, steps (World.init [⟨"w", none⟩]) dispatchedRun = some w ∧
      statusOf w "a" = some "dispatched" ∧ StatusLaw w := by
  have hs := show steps (World.init [⟨"w", none⟩]) dispatchedRun = some _ from rfl
  exact ⟨_, hs, by decide, status_law_holds (Reachable.of_steps (.init _) hs)⟩

/-- A worker whose reply to `POST /submit` has no `job_id` leaves a dispatched job with
no remote id, and a worker that reports `cancelled` takes the job from `dispatched` to
`cancelled`, a status the comment on `PoolJob.status` does not list. -/
theorem missing_job_id_then_cancelled :
    ∃ w w', steps (World.init [⟨"w", none⟩]) dispatchedRun = some w ∧
      (w.st.jobs.get? "a").map (fun job => (job.status, job.remoteJobId)) =
        some ("dispatched", none) ∧
      steps w [.pollStart "a", .pollReply ⟨"a", "w"⟩ (.status 200 (some "cancelled"))] = some w' ∧
      Reachable w' ∧ statusOf w' "a" = some "cancelled" := by
  have hs := show steps (World.init [⟨"w", none⟩]) dispatchedRun = some _ from rfl
  have hs' := show steps (World.init [⟨"w", none⟩]) (dispatchedRun ++
    [.pollStart "a", .pollReply ⟨"a", "w"⟩ (.status 200 (some "cancelled"))]) = some _ from rfl
  exact ⟨_, _, hs, by decide, rfl, Reachable.of_steps (.init _) hs', by decide⟩

end Sandrun.Pool
