import Sandrun.Broker.Step

/-!
# Handing out jobs

`/claim` reads the oldest pending job and then updates it with the condition
`status = 'pending'`, so of two calls that read the same job only the first `UPDATE`
matches, and the second answers `{'job': None}`.  Once handed out, a job is assigned,
completed or failed until `cleanup_stale_data` puts it back to pending or deletes it; its
id is never handed out again by `/submit`, so a deleted job does not come back.  `/complete`
updates a job only with the condition `node_id = ?`, so its result columns are written only
by its own node.

## Main definitions

* `IdsIssued` — the invariant: every job's id came from `generate_job_id`.
* `NoReset` — a run in which no cleanup puts a given job back to pending.
* `ClaimLaw` — what a reachable world guarantees about `/claim` and `/complete`.

## Main results

* `claim_law_holds` — every reachable world satisfies `ClaimLaw`.
-/

namespace Sandrun.Broker

variable (cfg : Config) (nodeIdOf : String → String)

/-! ### Job ids -/

/-- Every job in the table has an id `generate_job_id` returned. -/
def IdsIssued (w : World) : Prop := ∀ k, (w.db.jobs.get? k).isSome → k ∈ w.issued

/-- The steps other than `/submit` add no job. -/
theorem step_jobs_isSome {w w' : World} {a : Act} {r : Option Reply}
    (hs : step cfg nodeIdOf w a = some (w', r)) (hsub : ∀ j b now, a ≠ .submit j b now) (k : String)
    (hk : (w'.db.jobs.get? k).isSome) : (w.db.jobs.get? k).isSome := by
  rcases step_cases cfg nodeIdOf hs with ⟨j, b, now, rfl, -, -⟩ | ⟨b, now, -, rfl⟩ | ⟨n, now, -, rfl⟩ |
    ⟨n, p, -, rfl | ⟨c, -, rfl⟩⟩ | ⟨c, now, -, -, rfl, -⟩ | ⟨b, now, -, rfl⟩ | ⟨now, -, rfl⟩
  · exact absurd rfl (hsub j b now)
  all_goals first
    | simpa using hk
    | skip
  · rw [claimUpdate_get?] at hk; split_ifs at hk <;> simpa using hk
  · rw [completeJob_jobs] at hk
    split at hk
    · rwa [Report.isSome_get?_update] at hk
    · exact hk
  · simp only [cleanupStaleData_jobs, PyDict.get?_filter, PyDict.get?_map] at hk
    cases h : w.db.jobs.get? k <;> simp_all

theorem IdsIssued.step {w w' : World} {a : Act} {r : Option Reply} (h : IdsIssued w)
    (hs : step cfg nodeIdOf w a = some (w', r)) : IdsIssued w' := by
  intro k hk
  by_cases hsub : ∃ j b now, a = .submit j b now
  · obtain ⟨j, b, now, rfl⟩ := hsub
    rcases step_cases cfg nodeIdOf hs with ⟨j, b, now, he, -, rfl⟩ | ⟨_, _, he, -⟩ | ⟨_, _, he, -⟩ |
      ⟨_, _, he, -⟩ | ⟨_, _, he, -⟩ | ⟨_, _, he, -⟩ | ⟨_, he, -⟩ <;> cases he
    rcases submitJob_get? j b k with he | ⟨rfl, -⟩
    · exact List.mem_cons_of_mem _ (h k (he ▸ hk))
    · exact List.mem_cons_self _ _
  · push_neg at hsub
    have := h k (step_jobs_isSome cfg nodeIdOf hs hsub k hk)
    rcases step_cases cfg nodeIdOf hs with ⟨j, b, now, rfl, -, -⟩ | ⟨_, _, -, rfl⟩ | ⟨_, _, -, rfl⟩ |
      ⟨_, _, -, rfl | ⟨_, -, rfl⟩⟩ | ⟨_, _, -, -, rfl, -⟩ | ⟨_, _, -, rfl⟩ | ⟨_, -, rfl⟩
    · exact absurd rfl (hsub j b now)
    all_goals exact this

theorem ReachableBy.idsIssued {allowed : World → Act → Prop} {w : World}
    (hr : ReachableBy cfg nodeIdOf allowed w) : IdsIssued w := by
  induction hr with
  | init => intro k hk; simp [World.init, Db.init] at hk
  | step _ _ hs ih => exact ih.step cfg nodeIdOf hs

/-! ### A job handed out stays out -/

/-- Job `j` cannot be handed out: its id is spent, and its row, if it has one, is not
pending. -/
def Spent (j : String) (w : World) : Prop :=
  j ∈ w.issued ∧ ∀ row, w.db.jobs.get? j = some row → row.status ≠ "pending"

/-- World `w` reaches `w'` by the steps `as`, none of them a `cleanup_stale_data` after
which job `j` is pending. -/
inductive NoReset (j : String) : World → List Act → World → Prop
  | nil (w : World) : NoReset j w [] w
  | cons {w w₁ w₂ : World} {a : Act} {as : List Act} {r : Option Reply} :
      step cfg nodeIdOf w a = some (w₁, r) →
      (∀ now, a = .cleanup now → (w₁.db.jobs.get? j).map (·.status) ≠ some "pending") →
      NoReset j w₁ as w₂ → NoReset j w (a :: as) w₂

/-- The step lemma: only a cleanup can make a spent job pending again. -/
theorem Spent.step {j : String} {w w' : World} {a : Act} {r : Option Reply} (h : Spent j w)
    (hs : step cfg nodeIdOf w a = some (w', r))
    (hc : ∀ now, a = .cleanup now → (w'.db.jobs.get? j).map (·.status) ≠ some "pending") :
    Spent j w' := by
  obtain ⟨hi, hp⟩ := h
  rcases step_cases cfg nodeIdOf hs with ⟨j', b, now, rfl, hj', rfl⟩ | ⟨_, _, -, rfl⟩ |
    ⟨_, _, -, rfl⟩ | ⟨_, _, -, rfl | ⟨_, -, rfl⟩⟩ | ⟨c, now, -, -, rfl, -⟩ | ⟨b, now, -, rfl⟩ |
    ⟨now, rfl, rfl⟩
  · -- a fresh id is not `j`
    refine ⟨List.mem_cons_of_mem _ hi, fun row hrow => hp row ?_⟩
    rcases submitJob_get? j' b j with he | ⟨rfl, -⟩
    · exact he ▸ hrow
    · exact absurd hi hj'
  all_goals try exact ⟨hi, fun row hrow => hp row (by simpa using hrow)⟩
  · -- the `UPDATE` of a claim matches only a pending row
    refine ⟨hi, fun row hrow => ?_⟩
    rw [claimUpdate_get?] at hrow
    split_ifs at hrow with hk
    · obtain ⟨row₀, h₀, rfl⟩ := Option.map_eq_some'.1 hrow
      have := hp row₀ h₀
      simp [this]
    · exact hp row hrow
  · -- a report leaves a job completed or failed
    refine ⟨hi, fun row hrow => ?_⟩
    rw [completeJob_jobs] at hrow
    split at hrow
    · rw [Report.get?_update] at hrow
      split_ifs at hrow
      · obtain ⟨row₀, h₀, rfl⟩ := Option.map_eq_some'.1 hrow
        unfold JobRow.record
        split_ifs
        · exact ne_pending_of_mem (Report.status_mem _) (by decide)
        · exact hp row₀ h₀
      · exact hp row hrow
    · exact hp row hrow
  · exact ⟨hi, fun row hrow hpend => hc now rfl (by rw [hrow, Option.map_some', hpend])⟩

/-- The run lemma. -/
theorem NoReset.spent {j : String} {w w' : World} {as : List Act}
    (h : NoReset cfg nodeIdOf j w as w') (hw : Spent j w) : Spent j w' := by
  induction h with
  | nil => exact hw
  | cons hs hc _ ih => exact ih (hw.step cfg nodeIdOf hs hc)

/-! ### The law -/

/-- What every reachable world guarantees: a `/claim` hands out a job only by assigning it
to the claiming node when it commits; a job handed out is not handed out again unless a
cleanup puts it back to pending in between; and a job's result columns change only by a
`/complete` of its own node. -/
def ClaimLaw (w : World) : Prop :=
  (∀ c now w' jc, step cfg nodeIdOf w (.claimUpdate c now) = some (w', some (.job (some jc))) →
    jc.id = c.job.id ∧
      (w'.db.jobs.get? jc.id).map (fun row => (row.status, row.nodeId)) =
        some ("assigned", some c.nodeId)) ∧
  (∀ c now w₁ jc as w₂ c' now' w₃ jc',
    step cfg nodeIdOf w (.claimUpdate c now) = some (w₁, some (.job (some jc))) →
    NoReset cfg nodeIdOf jc.id w₁ as w₂ →
    step cfg nodeIdOf w₂ (.claimUpdate c' now') = some (w₃, some (.job (some jc'))) →
    jc'.id ≠ jc.id) ∧
  (∀ a w' r j row row', step cfg nodeIdOf w a = some (w', r) → w.db.jobs.get? j = some row →
    w'.db.jobs.get? j = some row' → row'.result ≠ row.result →
    ∃ body now rep, a = .complete body now ∧ body.report? = some rep ∧ rep.jobId = j ∧
      row.nodeId = some rep.nodeId)

/-- A `/claim` that hands out a job assigns it, pending until then, to the claiming node. -/
theorem step_claimUpdate_handed {w w' : World} {c : Claim} {now : Nat} {jc : ClaimedJob}
    (hs : step cfg nodeIdOf w (.claimUpdate c now) = some (w', some (.job (some jc)))) :
    jc = c.job ∧ ∃ row, w.db.jobs.get? c.job.id = some row ∧ row.status = "pending" ∧
      w'.db.jobs.get? c.job.id =
        some { row with status := "assigned", nodeId := some c.nodeId, assignedAt := some now } := by
  rcases step_cases cfg nodeIdOf hs with ⟨_, _, _, he, -⟩ | ⟨_, _, he, -⟩ | ⟨_, _, he, -⟩ |
    ⟨_, _, he, -⟩ | ⟨c', now', he, -, rfl, hr⟩ | ⟨_, _, he, -⟩ | ⟨_, he, -⟩ <;> cases he
  exact claimUpdate_handed (Option.some.inj hr).symm

/-- Only a report of a job's own node writes its result columns. -/
theorem step_result_written {w w' : World} {a : Act} {r : Option Reply} {j : String}
    {row row' : JobRow} (hs : step cfg nodeIdOf w a = some (w', r))
    (hj : w.db.jobs.get? j = some row) (hj' : w'.db.jobs.get? j = some row')
    (hne : row'.result ≠ row.result) :
    ∃ body now rep, a = .complete body now ∧ body.report? = some rep ∧ rep.jobId = j ∧
      row.nodeId = some rep.nodeId := by
  -- a step that leaves the row as it was writes no result
  have same : row' = row → False := fun he => hne (he ▸ rfl)
  rcases step_cases cfg nodeIdOf hs with ⟨j', b, now, rfl, -, rfl⟩ | ⟨_, _, -, rfl⟩ |
    ⟨_, _, -, rfl⟩ | ⟨_, _, -, rfl | ⟨_, -, rfl⟩⟩ | ⟨c, now, -, -, rfl, -⟩ | ⟨b, now, rfl, rfl⟩ |
    ⟨now, -, rfl⟩
  · rcases submitJob_get? j' b j with he | ⟨-, hn, -⟩
    · exact (same (Option.some.inj (hj'.symm.trans (he.trans hj)))).elim
    · simp [hj] at hn
  all_goals try exact (same (Option.some.inj (by simpa [hj] using hj'.symm))).elim
  · rw [claimUpdate_get?] at hj'
    split_ifs at hj'
    · rw [hj, Option.map_some', Option.some.injEq] at hj'
      subst hj'
      exact (hne (by unfold JobRow.result; split_ifs <;> rfl)).elim
    · exact (same (Option.some.inj (hj'.symm.trans hj))).elim
  · rw [completeJob_jobs] at hj'
    split at hj'
    · next rep hrep =>
      rw [Report.get?_update] at hj'
      split_ifs at hj' with hk
      · rw [hj] at hj'
        cases hj'
        by_cases hn : row.nodeId = some rep.nodeId
        · exact ⟨b, now, rep, rfl, hrep, hk, hn⟩
        · simp [JobRow.record, hn] at hne
      · exact (same (Option.some.inj (hj'.symm.trans hj))).elim
    · exact (same (Option.some.inj (hj'.symm.trans hj))).elim
  · simp only [cleanupStaleData_jobs, PyDict.get?_filter, PyDict.get?_map, hj, Option.map_some',
      Option.filter] at hj'
    split_ifs at hj'
    obtain rfl := Option.some.inj hj'
    unfold JobRow.requeue at hne
    split_ifs at hne <;> exact (hne rfl).elim

/-- **How `/claim` and `/complete` share out jobs.**  Under every interleaving of
requests and cleanups, a `/claim` that returns a job has just assigned it, pending until
then, to the claiming node; a job returned by one `/claim` is not returned by another
unless a `cleanup_stale_data` puts it back to pending in between; and a job's `output`,
`error` and `exit_code` change only by a `/complete` naming the node the job is assigned
to. -/
theorem claim_law_holds {w : World} (hr : Reachable cfg nodeIdOf w) : ClaimLaw cfg nodeIdOf w := by
  refine ⟨fun c now w' jc hs => ?_, fun c now w₁ jc as w₂ c' now' w₃ jc' hs hrun hs' => ?_,
    fun a w' r j row row' hs hj hj' hne => step_result_written cfg nodeIdOf hs hj hj' hne⟩
  · obtain ⟨rfl, row, -, -, h⟩ := step_claimUpdate_handed cfg nodeIdOf hs
    exact ⟨rfl, by simp [h]⟩
  · obtain ⟨rfl, row, h₀, -, h₁⟩ := step_claimUpdate_handed cfg nodeIdOf hs
    -- the job is spent once handed out, and stays so along the run
    have hspent : Spent c.job.id w₁ := by
      have hi := ReachableBy.idsIssued cfg nodeIdOf hr c.job.id (by simp [h₀])
      rcases step_cases cfg nodeIdOf hs with ⟨_, _, _, he, -⟩ | ⟨_, _, he, -⟩ | ⟨_, _, he, -⟩ |
        ⟨_, _, he, -⟩ | ⟨_, _, he, -, rfl, -⟩ | ⟨_, _, he, -⟩ | ⟨_, he, -⟩ <;> cases he
      exact ⟨hi, fun row' h => by rw [h₁] at h; cases h; simp⟩
    obtain ⟨rfl, row', h₂, hp, -⟩ := step_claimUpdate_handed cfg nodeIdOf hs'
    intro he
    exact (hrun.spent cfg nodeIdOf hspent).2 row' (he ▸ h₂) hp

/-- The law from a world where a `/claim` of node `n` has read job `a` and not yet run its
`UPDATE`. -/
theorem claim_law_holds_selected :
    ∃ w, steps ({} : Config) id World.init [.submit "a" ⟨some "print(1)", none, none⟩ 0,
        .claimSelect (some "n") (some "a")] = some w ∧
      w.claims = [⟨"n", ⟨"a", "print(1)", "python3", "[]"⟩⟩] ∧
      Reachable ({} : Config) id w ∧ ClaimLaw ({} : Config) id w :=
  have hr := Reachable.of_steps ({} : Config) id (.init : Reachable {} id World.init)
    (show steps {} id World.init [.submit "a" ⟨some "print(1)", none, none⟩ 0,
      .claimSelect (some "n") (some "a")] = some _ from rfl)
  ⟨_, rfl, rfl, hr, claim_law_holds _ _ hr⟩

end Sandrun.Broker
