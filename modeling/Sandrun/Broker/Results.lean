import Sandrun.Broker.Claims

/-!
# What happens to a result

A job is finished once its status is `completed` or `failed`.  No statement of the broker
moves it back: `/claim` updates only pending jobs, and the cleanup requeues only assigned
and running ones.  But `/complete` has no condition on the status: a node that reports a
job of its own again, after a retry or a second run, rewrites the result, the status
following the new exit code, and `completed_at`.  A finished row changes in that way
only, or is deleted by the cleanup once its `completed_at` is older than `RESULT_TTL`.

## Main definitions

* `ResultLaw` — how a step can change a finished job's row.

## Main results

* `result_law` — every step satisfies `ResultLaw`.
* `second_report_rewrites_result` — a job completed with exit code 0 becomes failed, with
  another output, when its node reports it again.
-/

namespace Sandrun.Broker

variable (cfg : Config) (nodeIdOf : String → String)

/-- How a step from `w` can change the row of a finished job: it rewrites it with a report
of the job's own node, or it deletes it in a cleanup later than `completed_at` by more
than `RESULT_TTL`. -/
def ResultLaw (w : World) : Prop :=
  ∀ a w' r j row, step cfg nodeIdOf w a = some (w', r) → w.db.jobs.get? j = some row →
    row.status ∈ ["completed", "failed"] →
    w'.db.jobs.get? j = some row ∨
    (∃ body now rep, a = .complete body now ∧ body.report? = some rep ∧ rep.jobId = j ∧
      row.nodeId = some rep.nodeId ∧ w'.db.jobs.get? j = some (row.record rep now)) ∨
    (∃ now, a = .cleanup now ∧ row.completedAt.any (· < cfg.ago now cfg.resultTtl) ∧
      w'.db.jobs.get? j = none)

/-- The cleanup keeps a finished row as it is, or deletes it once it is old. -/
theorem cleanup_finished {db : Db} {j : String} {row : JobRow} (deadTime oldTime : Nat)
    (hj : db.jobs.get? j = some row) (hf : row.status ∈ ["completed", "failed"]) :
    (cleanupStaleData deadTime oldTime db).jobs.get? j =
      if row.completedAt.any (· < oldTime) then none else some row := by
  -- a finished job is neither assigned nor running, so it is not requeued
  have hr : JobRow.requeue (db.nodes.map fun _ => NodeRow.expire deadTime) row = row :=
    if_neg fun h =>
      (by decide : ∀ s ∈ ["completed", "failed"], s ∉ ["assigned", "running"]) _ hf h.1
  simp only [cleanupStaleData_jobs, PyDict.get?_filter, PyDict.get?_map, hj, Option.map_some', hr,
    Option.filter, JobRow.kept, hf, true_and]
  cases row.completedAt.any (· < oldTime) <;> rfl

/-- **The results of finished jobs.**  From any state, every step leaves the row of a
completed or failed job as it is, rewrites it with a `/complete` of the node it is
assigned to (which keeps it completed or failed, on the same node, and writes the new
status, output, error, exit code and `completed_at`), or deletes it in a
`cleanup_stale_data` whose `completed_at` threshold it is below. -/
theorem result_law (w : World) : ResultLaw cfg nodeIdOf w := by
  intro a w' r j row hs hj hf
  rcases step_cases cfg nodeIdOf hs with ⟨j', b, now, rfl, -, rfl⟩ | ⟨_, _, -, rfl⟩ |
    ⟨_, _, -, rfl⟩ | ⟨_, _, -, rfl | ⟨_, -, rfl⟩⟩ | ⟨c, now, -, -, rfl, -⟩ | ⟨b, now, rfl, rfl⟩ |
    ⟨now, rfl, rfl⟩
  · rcases submitJob_get? j' b j with he | ⟨-, hn, -⟩
    · exact .inl (he.trans hj)
    · simp [hj] at hn
  all_goals try exact .inl (by simpa using hj)
  · -- the `UPDATE` of a claim matches no finished row
    refine .inl ?_
    rw [claimUpdate_get?]
    split_ifs with hk
    · simp [hj, ne_pending_of_mem hf (by decide)]
    · exact hj
  · -- a report rewrites the row only if it comes from the job's node
    simp only [completeJob_jobs]
    split
    · next rep hrep =>
      rw [Report.get?_update]
      split_ifs with hk
      · by_cases hn : row.nodeId = some rep.nodeId
        · exact .inr (.inl ⟨b, now, rep, rfl, hrep, hk, hn, by simp [hj]⟩)
        · exact .inl (by simp [hj, JobRow.record, hn])
      · exact .inl hj
    · exact .inl hj
  · -- the cleanup deletes old results and keeps the others
    simp only
    rw [cleanup_finished _ _ hj hf]
    split_ifs with ho
    · exact .inr (.inr ⟨now, rfl, ho, rfl⟩)
    · exact .inl rfl

/-- A node that reports a job of its own twice rewrites its result: the job, completed
with exit code 0, becomes failed with the second report's output and exit code. -/
theorem second_report_rewrites_result :
    ∃ w w', steps {} id World.init [.submit "a" ⟨some "print(1)", none, none⟩ 0,
        .claimSelect (some "n") (some "a"), .claimUpdate ⟨"n", ⟨"a", "print(1)", "python3", "[]"⟩⟩ 1,
        .complete ⟨some "n", some "a", some "1", some "", some (0 : Int)⟩ 2] = some w ∧
      (w.db.jobs.get? "a").map (·.status) = some "completed" ∧
      steps {} id w [.complete ⟨some "n", some "a", some "", some "killed", some (137 : Int)⟩ 3] =
        some w' ∧
      (w'.db.jobs.get? "a").map (fun row => (row.status, row.output, row.exitCode)) =
        some ("failed", some "", some 137) :=
  ⟨_, _, rfl, rfl, rfl, rfl⟩

end Sandrun.Broker
