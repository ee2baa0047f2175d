import Sandrun.JobQueue.Isolation

/-!
# The users of the executions

`enqueue` and `restart_job` create a job's OS user before they schedule its run, and the
run's `finally` block deletes it.  In runs of the repaired program, where `self.lock` is
reentrant, without a crash in which every `userdel`
succeeds, this keeps users and executions in step: every execution in progress has its
user, and the user of a job of the table exists exactly while an execution of the job is
pending in the pool or in progress.

A user can still outlive its job: `delete_job` on a queued job leaves the scheduled run,
which raises `KeyError` in the first block of `_run_job`, before the `try` whose `finally`
deletes the user.

## Main definitions

* `Act.keepsUsers` — the steps of a run with no crash and no failed `userdel`.
* `UsersOk` — the invariant linking users and executions.
* `UsersFollowRuns` — what it says about executions.

## Main results

* `users_follow_runs` — **users follow executions** in every such run of the repaired
  program.
-/

namespace Sandrun.JobQueue

/-- The steps of a run without crashes in which every `userdel` removes its user. -/
def Act.keepsUsers : Act → Prop
  | .crash => False
  | .deleteUser _ removed => removed = true
  | _ => True

/-- Users and executions in step: users are distinct uuids, every execution in progress
has its user, and a job's user exists exactly while an execution of it is pending or in
progress. -/
structure UsersOk (w : World) : Prop where
  nodup : w.st.users.Nodup
  lt : ∀ u ∈ w.st.users, u < w.st.uuid
  run : ∀ r ∈ w.runs, r.job.ephemeralUser ∈ w.st.users
  job : ∀ j job, w.st.jobs.get? j = some job →
    (job.ephemeralUser ∈ w.st.users ↔ 0 < w.inflight j)

theorem UsersOk.init : UsersOk World.init :=
  ⟨List.nodup_nil, by simp [World.init, St.init], by simp [World.init],
    by simp [World.init, St.init]⟩

/-- A write that keeps the names of the job it changes keeps every job's user. -/
theorem user_of_modify {d : PyDict Nat Job} {k : Nat} {f : Job → Job}
    (hf : ∀ job, (f job).names = job.names) {j : Nat} {job : Job}
    (hj : (d.modify k f).get? j = some job) :
    ∃ job₀, d.get? j = some job₀ ∧ job.ephemeralUser = job₀.ephemeralUser := by
  have h := map_names_modify (d := d) (k := k) hf j
  rw [hj, Option.map_some'] at h
  obtain ⟨job₀, hj₀, he⟩ := Option.map_eq_some'.1 h.symm
  exact ⟨job₀, hj₀, congrArg (fun t => t.2.1) he.symm⟩

section Preservation

variable {w : World}

/-- A step that keeps the users and the counts of executions, whose executions have
users, and whose jobs have the users of old ones, keeps the invariant. -/
theorem UsersOk.frame (h : UsersOk w) {w' : World} (hu : w'.st.users = w.st.users)
    (huuid : w.st.uuid ≤ w'.st.uuid) (hinf : ∀ j, w'.inflight j = w.inflight j)
    (hrun : ∀ r ∈ w'.runs, r.job.ephemeralUser ∈ w.st.users)
    (hjob : ∀ j job, w'.st.jobs.get? j = some job →
      ∃ job₀, w.st.jobs.get? j = some job₀ ∧ job.ephemeralUser = job₀.ephemeralUser) :
    UsersOk w' where
  nodup := hu ▸ h.nodup
  lt u hu' := lt_of_lt_of_le (h.lt u (hu ▸ hu')) huuid
  run r hr := hu ▸ hrun r hr
  job j job hj := by
    obtain ⟨job₀, hj₀, he⟩ := hjob j job hj
    rw [hu, he, hinf]; exact h.job j job₀ hj₀

/-- The phases of an execution that replace it by one of the same job keep the invariant. -/
theorem UsersOk.replace (h : UsersOk w) {r : Run} (hr : r ∈ w.runs) (r' : Run) (hid : r'.jobId = r.jobId)
    (hjob : r'.job = r.job) {s : St} (hs : s.users = w.st.users) (hu : s.uuid = w.st.uuid)
    (hp : s.pool = w.st.pool) (hjobs : ∀ j job, s.jobs.get? j = some job →
      ∃ job₀, w.st.jobs.get? j = some job₀ ∧ job.ephemeralUser = job₀.ephemeralUser) :
    UsersOk ⟨s, r' :: w.runs.erase r⟩ := by
  refine h.frame hs hu.ge (fun j => ?_) (fun r₁ hr₁ => ?_) hjobs
  · simp only [World.inflight, hp, count_replace hr r' hid]
  · rcases List.mem_cons.1 hr₁ with rfl | hr₁
    · rw [hjob]; exact h.run r hr
    · exact h.run r₁ (List.mem_of_mem_erase hr₁)

theorem UsersOk.enqueue (hi : Inv w) (h : UsersOk w) (hashSecret : String → String)
    (command : List (Option String)) (secret : Option String) (allowed : Bool) :
    UsersOk { w with st := (enqueue hashSecret command secret allowed .rlock w.st).state } := by
  rw [enqueue_state]
  set u := w.st.uuid
  have hu0 : w.inflight u = 0 := hi.inflight_uuid
  have hfresh : u + 1 ∉ w.st.users := fun hm => by have := h.lt _ hm; omega
  -- the users of the old jobs are below the counter, so none is the new one
  have hold : ∀ j job, w.st.jobs.get? j = some job → job.ephemeralUser ≠ u + 1 := by
    intro j job hj he
    have := (hi.names.lt j job.names (.inl (by simp [hj]))).2.1
    simp only [Job.names] at this; omega
  by_cases hc : allowed = true ∧ u + 1 ∉ w.st.users
  · rw [if_pos hc, if_pos hc]
    refine ⟨h.nodup.cons hc.2, ?_, fun r hr => List.mem_cons_of_mem _ (h.run r hr), ?_⟩
    · intro v hv
      rcases List.mem_cons.1 hv with rfl | hv
      · dsimp only; omega
      · have := h.lt v hv; dsimp only; omega
    · intro j job hj
      dsimp only at hj ⊢
      rw [PyDict.get?_set] at hj
      simp only [World.inflight, List.count_append, List.count_singleton, beq_iff_eq] at hu0 ⊢
      by_cases hju : j = u
      · subst hju
        rw [if_pos rfl] at hj; cases hj
        rw [if_pos rfl]
        exact iff_of_true (List.mem_cons_self _ _) (by omega)
      · rw [if_neg hju] at hj
        rw [if_neg (Ne.symm hju), Nat.add_zero, List.mem_cons, or_iff_right (hold j job hj)]
        exact h.job j job hj
  · rw [if_neg hc, if_neg hc]
    refine ⟨h.nodup, fun v hv => by have := h.lt v hv; dsimp only; omega, h.run, ?_⟩
    intro j job hj
    dsimp only at hj
    rw [PyDict.get?_set] at hj
    split_ifs at hj with hju
    · -- the new job has neither a user nor a run
      cases hj; subst hju
      simp only [enqueuedJob, hfresh, false_iff, not_lt, Nat.le_zero]
      exact hu0
    · exact h.job j job hj

theorem UsersOk.start (h : UsersOk w) {hashSecret : String → String}
    {jobId : Nat} {w' : World} (hs : step hashSecret w (.start jobId) = some w') : UsersOk w' := by
  obtain ⟨hj, ⟨job, hjob, rfl⟩ | ⟨hjob, rfl⟩⟩ := step_start_cases hs
  · -- one pending execution of the job becomes one in progress
    have hinf : ∀ j, World.inflight ⟨{ w.st with
        pool := w.st.pool.erase jobId
        jobs := w.st.jobs.modify jobId (withStatus "running")
        ledger := w.st.jobs.modify jobId (withStatus "running") },
        ⟨jobId, job, .started⟩ :: w.runs⟩ j = w.inflight j := by
      intro j
      simp only [World.inflight, List.map_cons, List.count_cons, beq_iff_eq]
      by_cases hjj : j = jobId
      · subst hjj; rw [List.count_erase_self]; have := List.count_pos_iff.2 hj; simp; omega
      · rw [List.count_erase_of_ne hjj]; simp [hjj, Ne.symm hjj]
    have hpend : 0 < w.inflight jobId := by
      simp only [World.inflight]; have := List.count_pos_iff.2 hj; omega
    refine h.frame rfl le_rfl hinf (fun r hr => ?_) (fun j job' hj' => user_of_modify
      (names_withStatus "running") hj')
    rcases List.mem_cons.1 hr with rfl | hr
    · exact (h.job jobId job hjob).2 hpend
    · exact h.run r hr
  · refine ⟨h.nodup, h.lt, h.run, fun j job hj' => ?_⟩
    have hne : j ≠ jobId := by rintro rfl; simp_all
    have : World.inflight ⟨{ w.st with pool := w.st.pool.erase jobId }, w.runs⟩ j = w.inflight j := by
      simp only [World.inflight, List.count_erase_of_ne hne]
    rw [this]; exact h.job j job hj'

theorem UsersOk.deleteUser (hi : Inv w) (h : UsersOk w) {r : Run} (hr : r ∈ w.runs) :
    UsersOk ⟨(JobQueue.deleteUser r.job.ephemeralUser true .rlock w.st).state, w.runs.erase r⟩ := by
  simp only [JobQueue.deleteUser, update_apply, Outcome.state_ok, if_true]
  have hc := ((List.perm_cons_erase hr).map Run.jobId).count_eq
  simp only [List.map_cons, List.count_cons, beq_iff_eq] at hc
  refine ⟨h.nodup.erase _, fun u hu => h.lt u (List.mem_of_mem_erase hu), fun r' hr' => ?_, ?_⟩
  · exact (List.mem_erase_of_ne (hi.run_ne hr hr').2.1).2 (h.run r' (List.mem_of_mem_erase hr'))
  · intro j job hj
    dsimp only at hj ⊢
    have hjc := hc j
    have hle := hi.inflight_le j
    simp only [World.inflight] at hle ⊢
    by_cases hjr : j = r.jobId
    · -- the execution removes its own job's user, and was the job's only one
      subst hjr
      rw [← (hi.run_names hr hj).1, if_pos rfl] at *
      exact iff_of_false (h.nodup.not_mem_erase) (by omega)
    · have hne : job.ephemeralUser ≠ r.job.ephemeralUser := fun he =>
        hjr ((hi.names.user j job.names r.jobId r.job.names (.inl (by simp [hj]))
          (World.hasNames_run hr)).2 he)
      rw [if_neg (Ne.symm hjr)] at hjc
      rw [List.mem_erase_of_ne hne, h.job j job hj]
      simp only [World.inflight]; omega

theorem UsersOk.cancel (h : UsersOk w) (jobId : Nat) (matched : Bool) :
    UsersOk { w with st := (cancelJob jobId matched .rlock w.st).state } := by
  rw [cancelJob_state]
  cases w.st.jobs.get? jobId with
  | none => exact h
  | some job =>
    dsimp only
    split_ifs
    · exact h.frame rfl le_rfl (fun _ => rfl) h.run fun _ _ hj => user_of_modify
        (names_withStatus _) hj
    · exact h

theorem UsersOk.delete (h : UsersOk w) (jobId : Nat) :
    UsersOk { w with st := (deleteJob jobId .rlock w.st).state } := by
  rw [deleteJob_state]
  cases w.st.jobs.get? jobId with
  | none => exact h
  | some job =>
    dsimp only
    split_ifs
    · exact h
    · refine h.frame rfl le_rfl (fun _ => rfl) h.run fun j job' hj => ⟨job', ?_, rfl⟩
      dsimp only at hj
      rw [PyDict.get?_erase] at hj
      split_ifs at hj
      exact hj

theorem UsersOk.restart (hi : Inv w) (h : UsersOk w) (jobId : Nat) (allowed : Bool) :
    UsersOk { w with st := (restartJob jobId allowed .rlock w.st).state } := by
  rw [restartJob_state]
  cases hj : w.st.jobs.get? jobId with
  | none => exact h
  | some job =>
    dsimp only
    by_cases hr : job.status = "cancelled"
    swap
    · rw [if_neg hr]; exact h
    rw [if_pos hr]
    by_cases hu : allowed = true ∧ job.ephemeralUser ∉ w.st.users
    · have hkey : job.jobId = jobId := hi.names.key jobId job.names (.inl (by simp [hj]))
      rw [if_pos hu, if_pos hu, hkey]
      -- `useradd` succeeded, so the job had no execution; it gets its user and one
      have hzero : w.inflight jobId = 0 := Nat.eq_zero_of_not_pos fun hpos =>
        hu.2 ((h.job jobId job hj).2 hpos)
      refine ⟨h.nodup.cons hu.2, fun v hv => ?_, fun r hr => List.mem_cons_of_mem _ (h.run r hr),
        fun j job' hj' => ?_⟩
      · rcases List.mem_cons.1 hv with rfl | hv
        · exact (hi.names.lt jobId job.names (.inl (by simp [hj]))).2.1
        · exact h.lt v hv
      · obtain ⟨job₀, hj₀, he⟩ := user_of_modify (names_withStatus "queued") hj'
        dsimp only
        rw [he]
        simp only [World.inflight, List.count_append, List.count_singleton, beq_iff_eq] at hzero ⊢
        by_cases hjj : j = jobId
        · subst hjj
          rw [hj] at hj₀; cases hj₀
          rw [if_pos rfl]
          exact iff_of_true (List.mem_cons_self _ _) (by omega)
        · have hne : job₀.ephemeralUser ≠ job.ephemeralUser := fun he' =>
            hjj ((hi.names.user j job₀.names jobId job.names (.inl (by simp [hj₀]))
              (.inl (by simp [hj]))).2 he')
          rw [if_neg (Ne.symm hjj), Nat.add_zero, List.mem_cons, or_iff_right hne]
          exact h.job j job₀ hj₀
    · rw [if_neg hu, if_neg hu]
      exact h.frame rfl le_rfl (fun _ => rfl) h.run fun _ _ hj' => user_of_modify
        (names_withStatus _) hj'

/-- **Every step of a run without crashes and failed `userdel`s keeps the invariant.** -/
theorem UsersOk.step {hashSecret : String → String} {w' : World} {a : Act} (hi : Inv w)
    (h : UsersOk w) (ha : a.keepsUsers) (hs : step hashSecret w a = some w') : UsersOk w' := by
  cases a with
  | enqueue command secret allowed => cases hs; exact h.enqueue hi hashSecret command secret allowed
  | start jobId => exact h.start hs
  | finish r proc =>
    simp only [JobQueue.step, stepWith] at hs
    split_ifs at hs with hr
    cases hs
    rw [runBody_rlock]
    refine h.replace hr.1 { r with phase := .finished } rfl rfl rfl rfl rfl ?_
    exact fun _ _ hj => user_of_modify (names_finishJob proc) hj
  | save r =>
    obtain ⟨hr₁, -, rfl⟩ := step_save hs
    rw [runSave_rlock]
    refine h.replace hr₁ { r with phase := .saved } rfl rfl rfl rfl rfl ?_
    exact fun _ _ hj => ⟨_, hj, rfl⟩
  | deleteUser r removed =>
    simp only [JobQueue.step, stepWith] at hs
    split_ifs at hs with hr
    cases hs
    cases (ha : removed = true)
    exact h.deleteUser hi hr.1
  | cancel jobId matched => cases hs; exact h.cancel jobId matched
  | restart jobId allowed => cases hs; exact h.restart hi jobId allowed
  | delete jobId => cases hs; exact h.delete jobId
  | crash => exact ha.elim

end Preservation

/-- Every world reached without crashes and failed `userdel`s satisfies the invariant. -/
theorem ReachableBy.usersOk {hashSecret : String → String} {w : World}
    (hr : ReachableBy hashSecret Act.keepsUsers w) : UsersOk w := by
  induction hr with
  | init => exact UsersOk.init
  | step hw ha hs ih => exact ih.step hw.inv ha hs

/-- Users follow executions: every execution in progress has its user, and the user of a
job of the table exists exactly while an execution of the job is pending or in progress. -/
def UsersFollowRuns (w : World) : Prop :=
  (∀ r ∈ w.runs, r.job.ephemeralUser ∈ w.st.users) ∧
  ∀ j job, w.st.jobs.get? j = some job → (job.ephemeralUser ∈ w.st.users ↔ 0 < w.inflight j)

/-- **Users follow executions** in every run without crashes and failed `userdel`s. -/
theorem users_follow_runs {hashSecret : String → String} {w : World}
    (hr : ReachableBy hashSecret Act.keepsUsers w) : UsersFollowRuns w :=
  have h := hr.usersOk
  ⟨h.run, h.job⟩

/-- A job deleted while queued leaves its user behind: the pool thread then finds no job,
raises `KeyError` before the `try` block, and never reaches `_delete_user`. -/
example :
    ∃ w₁ w job, steps id World.init [.enqueue [some "sleep", some "60"] none true] = some w₁ ∧
      w₁.st.jobs.get? 0 = some job ∧ job.ephemeralUser ∈ w₁.st.users ∧
      steps id w₁ [.delete 0, .start 0] = some w ∧ job.ephemeralUser ∈ w.st.users ∧
      w.inflight 0 = 0 :=
  ⟨_, _, _, rfl, rfl, by decide, rfl, by decide, by decide⟩

end Sandrun.JobQueue
