import Sandrun.Pool.Invariant
import Mathlib.Algebra.BigOperators.Group.Finset

/-!
# A worker's active-job count

`worker.active_jobs` is what `get_available_worker` compares with `max_concurrent_jobs`.
It goes up by one when a worker accepts a job, and down by one, floored at 0, when a
status poll's reply makes a job `completed` or `failed`.  It should count the jobs
assigned to the worker that are not finished.

It does as long as no two `get_job_status` calls for one job overlap: then a poll finds
its job dispatched or running when it resumes, as it was when it passed the guard, and a
job leaves the count exactly when its slot is given back.  It does not when two calls
overlap.  The guard `job.status in ["dispatched", "running"]` is evaluated before the
call's `await`, so both calls can pass it while the job runs; when the worker has finished
the job, both replies say `completed` and both calls give the slot back.  The count then
falls below the number of running jobs, and the dispatcher gives the worker more jobs than
its limit.

## Main definitions

* `assignedCount` — the jobs assigned to a worker that are not completed or failed.
* `SerialPolls` — no `get_job_status` call for a job starts while another one for it
  awaits the worker.
* `AccOk` — the invariant of serial runs.

## Main results

* `serial_polls_accounted` — in serial runs every worker's `active_jobs` is its
  `assignedCount` and stays within a nonnegative limit.
* `overlapping_polls_overcommit` — two overlapping polls of one job let a worker with a
  limit of 2 hold 3 unfinished jobs.
-/

namespace Sandrun

/-! ### Sums over a dictionary's keys -/

namespace PyDict

variable {κ ν : Type} [DecidableEq κ]

/-- `d[k] = v` changes a sum over the keys by the entry of `k` only. -/
theorem sum_set_add (d : PyDict κ ν) (k : κ) (v : ν) (G : Option ν → ℕ) (hG : G none = 0) :
    (∑ j ∈ (d.set k v).keys.toFinset, G ((d.set k v).get? j)) + G (d.get? k) =
      (∑ j ∈ d.keys.toFinset, G (d.get? j)) + G (some v) := by
  by_cases hk : k ∈ d.keys
  · have hmem : k ∈ d.keys.toFinset := List.mem_toFinset.2 hk
    rw [show (d.set k v).keys = d.keys by simp [set, hk], ← Finset.add_sum_erase _ _ hmem,
      ← Finset.add_sum_erase _ _ hmem,
      Finset.sum_congr rfl fun j hj => by rw [get?_set, if_neg (Finset.ne_of_mem_erase hj)]]
    rw [get?_set, if_pos rfl]
    omega
  · have hnone : d.get? k = none := by simpa [d.mem_keys] using hk
    have hkeys : (d.set k v).keys.toFinset = insert k d.keys.toFinset := by
      ext j; simp [set, hk, or_comm]
    rw [hkeys, Finset.sum_insert (by simpa using hk),
      Finset.sum_congr rfl fun j hj => by
        rw [get?_set, if_neg fun (h : j = k) => hk (h ▸ List.mem_toFinset.1 hj)]]
    simp [hnone, hG, add_comm]

/-- A write through a reference changes a sum over the keys by the entry written. -/
theorem sum_modify_add (d : PyDict κ ν) (k : κ) (f : ν → ν) (G : Option ν → ℕ) (hG : G none = 0) :
    (∑ j ∈ (d.modify k f).keys.toFinset, G ((d.modify k f).get? j)) + G (d.get? k) =
      (∑ j ∈ d.keys.toFinset, G (d.get? j)) + G ((d.get? k).map f) := by
  cases h : d.get? k with
  | none => simp [modify, h]
  | some v => simpa [modify, h] using sum_set_add d k (f v) G hG

end PyDict

namespace Pool

/-! ### The count -/

/-- Whether a job counts against worker `k`: it is assigned to `k` and is not completed or
failed. -/
def PoolJob.holds (k : String) (job : PoolJob) : Bool :=
  job.workerId = some k ∧ job.status ∉ ["completed", "failed"]

/-- The jobs assigned to a worker that are not completed or failed. -/
def assignedCount (s : Coord) (workerId : String) : Nat :=
  (s.jobs.values.filter (PoolJob.holds workerId)).length

/-- One for a job that counts against `k`. -/
def holdsCount (k : String) : Option PoolJob → Nat
  | some job => if job.holds k then 1 else 0
  | none => 0

theorem assignedCount_eq_sum (s : Coord) (k : String) :
    assignedCount s k = ∑ j ∈ s.jobs.keys.toFinset, holdsCount k (s.jobs.get? j) := by
  rw [List.sum_toFinset _ s.jobs.keys_nodup, assignedCount, PyDict.values, PyDict.items,
    List.map_filterMap]
  generalize s.jobs.keys = l
  induction l with
  | nil => rfl
  | cons j l ih =>
    rw [List.map_cons, List.sum_cons, ← ih]
    cases h : s.jobs.get? j with
    | none => simp [h, holdsCount]
    | some job => by_cases hh : job.holds k <;> simp [h, holdsCount, hh, List.filter_cons, add_comm]

/-- A write to one job changes a count by that job only. -/
theorem assignedCount_of_modify {s s' : Coord} {j : String} {f : PoolJob → PoolJob}
    (h : s'.jobs = s.jobs.modify j f) (k : String) :
    assignedCount s' k + holdsCount k (s.jobs.get? j) =
      assignedCount s k + holdsCount k ((s.jobs.get? j).map f) := by
  rw [assignedCount_eq_sum, assignedCount_eq_sum, h]
  exact PyDict.sum_modify_add _ _ _ _ rfl

theorem assignedCount_of_jobs {s s' : Coord} (h : s'.jobs = s.jobs) (k : String) :
    assignedCount s' k = assignedCount s k := by
  rw [assignedCount_eq_sum, assignedCount_eq_sum, h]

/-- A submitted job has no worker, so it counts against none. -/
theorem assignedCount_submitJob {s : Coord} {j : String} (hj : s.jobs.get? j = none) (k : String) :
    assignedCount (submitJob j s) k = assignedCount s k := by
  have := PyDict.sum_set_add s.jobs j { jobId := j } (holdsCount k) rfl
  rw [hj] at this
  simpa [assignedCount_eq_sum, holdsCount, PoolJob.holds] using this

/-- For a job that is not finished, a poll's resumption gives the slot back exactly when
the job is finished after it. -/
theorem getJobStatusResume_workers {p : Poll} {r : StatusReply} {s : Coord} {job : PoolJob}
    (hjob : s.jobs.get? p.jobId = some job) (hlive : job.status ∉ ["completed", "failed"]) :
    (getJobStatusResume p r s).1.workers =
      if r.statusAfter job.status ∈ ["completed", "failed"] then
        s.workers.modify p.workerId fun w => { w with activeJobs := max 0 (w.activeJobs - 1) }
      else s.workers := by
  cases r with
  | raised => simp [getJobStatusResume, hjob, StatusReply.statusAfter, hlive]
  | status code f =>
    by_cases hc : code = 200
    · simp only [getJobStatusResume, hjob, hc, if_true, StatusReply.statusAfter]
      split_ifs <;> rfl
    · simp [getJobStatusResume, hjob, hc, StatusReply.statusAfter, hlive]

/-! ### Serial polling keeps the count -/

/-- A `get_job_status` call for a job starts only while no other call for it awaits the
worker. -/
def SerialPolls (w : World) : Act → Prop
  | .pollStart j => ∀ p ∈ w.polls, p.jobId ≠ j
  | _ => True

/-- Two states give every worker the same count and limit. -/
def Coord.SameSlots (s s' : Coord) : Prop :=
  ∀ k, (s'.workers.get? k).map (fun wk => (wk.activeJobs, wk.maxConcurrentJobs)) =
    (s.workers.get? k).map (fun wk => (wk.activeJobs, wk.maxConcurrentJobs))

theorem Coord.SameSlots.of_eq {s s' : Coord} (h : s'.workers = s.workers) : s.SameSlots s' :=
  fun k => by rw [h]

theorem Coord.SameSlots.of_modify {s s' : Coord} {k : String} {f : Worker → Worker}
    (hs : s'.workers = s.workers.modify k f)
    (hf : ∀ w, (f w).activeJobs = w.activeJobs ∧ (f w).maxConcurrentJobs = w.maxConcurrentJobs) :
    s.SameSlots s' := by
  intro k'
  rw [hs, PyDict.get?_modify]
  split_ifs with h
  · subst h
    cases s.workers.get? k' <;> simp [hf]
  · rfl

/-- A worker of the later state has a twin in the earlier one. -/
theorem Coord.SameSlots.get? {s s' : Coord} (h : s.SameSlots s') {k : String} {wk' : Worker}
    (hk : s'.workers.get? k = some wk') :
    ∃ wk, s.workers.get? k = some wk ∧ wk'.activeJobs = wk.activeJobs ∧
      wk'.maxConcurrentJobs = wk.maxConcurrentJobs := by
  obtain ⟨wk, h₀, he⟩ := Option.map_eq_some'.1 ((h k).symm.trans (by rw [hk]; rfl))
  simp only [Prod.mk.injEq] at he
  exact ⟨wk, h₀, he.1.symm, he.2.symm⟩

/-- What serial runs keep. -/
structure AccOk (w : World) : Prop where
  /-- `active_jobs` is the count. -/
  count : ∀ k wk, w.st.workers.get? k = some wk → wk.activeJobs = assignedCount w.st k
  /-- `active_jobs` is within a nonnegative limit. -/
  bound : ∀ k wk, w.st.workers.get? k = some wk → 0 ≤ wk.maxConcurrentJobs →
    wk.activeJobs ≤ wk.maxConcurrentJobs
  /-- The dispatcher posts to a worker with a free slot. -/
  posting : ∀ j k, w.dispatcher = .posting j k →
    ∃ wk, w.st.workers.get? k = some wk ∧ wk.activeJobs < wk.maxConcurrentJobs
  /-- A suspended call's job is dispatched or running. -/
  polls_live : ∀ p ∈ w.polls, ∃ job, w.st.jobs.get? p.jobId = some job ∧
    job.status ∈ ["dispatched", "running"]
  /-- No two suspended calls are about one job. -/
  polls_nodup : (w.polls.map Poll.jobId).Nodup

theorem AccOk.init (cfgs : List WorkerCfg) : AccOk (World.init cfgs) where
  count k wk h := by
    rcases PyDict.get?_setAll_eq_some _ h with h | h
    · simp at h
    · obtain ⟨cfg, -, hcfg⟩ := List.mem_map.1 h
      simp only [Prod.mk.injEq] at hcfg
      rw [← hcfg.2]; rfl
  bound k wk h hm := by
    rcases PyDict.get?_setAll_eq_some _ h with h | h
    · simp at h
    · obtain ⟨cfg, -, hcfg⟩ := List.mem_map.1 h
      simp only [Prod.mk.injEq] at hcfg
      rw [← hcfg.2] at hm ⊢; exact hm
  posting _ _ h := by cases h
  polls_live _ h := by cases h
  polls_nodup := List.nodup_nil

section Preservation

variable {w : World} (hi : Inv w) (h : AccOk w)
include hi h

omit hi in
/-- A segment that keeps every count and limit and moves no slot. -/
theorem AccOk.frame {w' : World} (hs : w.st.SameSlots w'.st)
    (hc : ∀ k, assignedCount w'.st k = assignedCount w.st k)
    (hd : ∀ j k, w'.dispatcher = .posting j k →
      ∃ wk, w.st.workers.get? k = some wk ∧ wk.activeJobs < wk.maxConcurrentJobs)
    (hl : ∀ p ∈ w'.polls, ∃ job, w'.st.jobs.get? p.jobId = some job ∧
      job.status ∈ ["dispatched", "running"])
    (hn : (w'.polls.map Poll.jobId).Nodup) : AccOk w' where
  count k wk' hk := by
    obtain ⟨wk, h₀, ha, -⟩ := hs.get? hk
    rw [ha, hc, h.count k wk h₀]
  bound k wk' hk := by
    obtain ⟨wk, h₀, ha, hm⟩ := hs.get? hk
    rw [ha, hm]; exact h.bound k wk h₀
  posting j k hp := by
    obtain ⟨wk, h₀, hlt⟩ := hd j k hp
    obtain ⟨wk', h₁, he⟩ := Option.map_eq_some'.1 ((hs k).trans (by rw [h₀]; rfl))
    simp only [Prod.mk.injEq] at he
    exact ⟨wk', h₁, by rw [he.1, he.2]; exact hlt⟩
  polls_live := hl
  polls_nodup := hn

/-- A 200 reply to `POST /submit` takes a slot and assigns the job. -/
theorem AccOk.dispatched {j k : String} (hd : w.dispatcher = .posting j k) (f : Option String) :
    AccOk { w with st := dispatchJobResume j k (.status 200 f) w.st, dispatcher := .waiting } := by
  obtain ⟨job, hjob, hn⟩ := Option.map_eq_some'.1 ((hi.mem_entries j).1 (by simp [World.entries, hd]))
  have hjobs : (dispatchJobResume j k (.status 200 f) w.st).jobs = w.st.jobs.modify j
      fun job => { job with workerId := some k, status := "dispatched", remoteJobId := f } := by
    simp [dispatchJobResume]
  have hc : ∀ k', assignedCount (dispatchJobResume j k (.status 200 f) w.st) k' =
      assignedCount w.st k' + if k = k' then 1 else 0 := fun k' => by
    simpa [hjob, holdsCount, PoolJob.holds, hn] using assignedCount_of_modify hjobs k'
  obtain ⟨wk₀, hwk₀, hlt⟩ := h.posting j k hd
  refine ⟨fun k' wk hk => ?_, fun k' wk hk hm => ?_, by rintro _ _ ⟨⟩, fun p hp => ?_,
    h.polls_nodup⟩
  · simp only [dispatchJobResume, if_true, modifyWorker_workers, PyDict.get?_modify_eq_some] at hk
    rcases hk with ⟨rfl, wk₁, h₁, rfl⟩ | ⟨hne, h₁⟩
    · rw [hwk₀] at h₁; cases h₁
      have := h.count k' wk₀ hwk₀
      rw [hc, if_pos rfl]; simp only; omega
    · rw [hc, if_neg (Ne.symm hne), add_zero, h.count k' wk h₁]
  · simp only [dispatchJobResume, if_true, modifyWorker_workers, PyDict.get?_modify_eq_some] at hk
    rcases hk with ⟨rfl, wk₁, h₁, rfl⟩ | ⟨-, h₁⟩
    · rw [hwk₀] at h₁; cases h₁
      simp only; omega
    · exact h.bound k' wk h₁ hm
  · obtain ⟨job', hjob', hl⟩ := h.polls_live p hp
    have hne : p.jobId ≠ j := by
      rintro he; have := hi.polls p hp; rw [he, hjob] at this; simp [hn] at this
    refine ⟨job', ?_, hl⟩
    simp [dispatchJobResume, hne, hjob']

/-- A reply to a serial poll frees the job's slot exactly when it finishes the job. -/
theorem AccOk.pollReply {p : Poll} (hp : p ∈ w.polls) (r : StatusReply) :
    AccOk { w with st := (getJobStatusResume p r w.st).1, polls := w.polls.erase p } := by
  obtain ⟨job, hjob, hlive⟩ := h.polls_live p hp
  have hw : job.workerId = some p.workerId := by simpa [hjob] using hi.polls p hp
  have hnt : job.status ∉ ["completed", "failed"] :=
    (by decide : ∀ s ∈ ["dispatched", "running"], s ∉ ["completed", "failed"]) _ hlive
  have hcount := assignedCount_of_modify (getJobStatusResume_jobs p r w.st)
  have hworkers := @getJobStatusResume_workers p r w.st job hjob hnt
  -- the other suspended calls are about other jobs
  have hother : ∀ q ∈ w.polls.erase p, q.jobId ≠ p.jobId := fun q hq he => by
    obtain ⟨hne, hq⟩ := (List.Nodup.of_map _ h.polls_nodup).mem_erase_iff.1 hq
    exact hne (List.inj_on_of_nodup_map h.polls_nodup hq hp he)
  have hlive' : ∀ q ∈ w.polls.erase p, ∃ job, (getJobStatusResume p r w.st).1.jobs.get? q.jobId =
      some job ∧ job.status ∈ ["dispatched", "running"] := fun q hq => by
    rw [get?_getJobStatusResume, if_neg (hother q hq)]
    exact h.polls_live q (List.mem_of_mem_erase hq)
  have hnodup : ((w.polls.erase p).map Poll.jobId).Nodup :=
    ((List.erase_sublist p w.polls).map _).nodup h.polls_nodup
  by_cases ht : r.statusAfter job.status ∈ ["completed", "failed"]
  · -- the slot is given back
    rw [if_pos ht] at hworkers
    have hc : ∀ k, assignedCount (getJobStatusResume p r w.st).1 k + (if p.workerId = k then 1 else 0) =
        assignedCount w.st k := fun k => by
      simpa [hjob, holdsCount, PoolJob.holds, hw, hnt, ht] using hcount k
    refine ⟨fun k wk hk => ?_, fun k wk hk hm => ?_, fun j k hd => ?_, hlive', hnodup⟩
    · have hck := hc k
      simp only [hworkers, PyDict.get?_modify_eq_some] at hk
      rcases hk with ⟨rfl, wk₀, h₀, rfl⟩ | ⟨hne, h₀⟩
      · have := h.count p.workerId wk₀ h₀
        simp only [if_true] at hck
        simp only; omega
      · simp only [Ne.symm hne, if_false, add_zero] at hck
        rw [h.count k wk h₀]
        exact congrArg _ hck.symm
    · simp only [hworkers, PyDict.get?_modify_eq_some] at hk
      rcases hk with ⟨rfl, wk₀, h₀, rfl⟩ | ⟨-, h₀⟩
      · simp only at hm ⊢
        have := h.bound p.workerId wk₀ h₀ hm
        omega
      · exact h.bound k wk h₀ hm
    · obtain ⟨wk₀, h₀, hlt⟩ := h.posting j k hd
      simp only [hworkers, PyDict.get?_modify]
      split_ifs with hk
      · subst hk
        have := h.count p.workerId wk₀ h₀
        exact ⟨_, by rw [h₀]; rfl, by simp only; omega⟩
      · exact ⟨wk₀, h₀, hlt⟩
  · -- the job still runs
    rw [if_neg ht] at hworkers
    have hc : ∀ k, assignedCount (getJobStatusResume p r w.st).1 k = assignedCount w.st k :=
      fun k => by simpa [hjob, holdsCount, PoolJob.holds, hw, hnt, ht] using hcount k
    exact h.frame (.of_eq hworkers) hc h.posting hlive' hnodup

/-- **Every serial segment keeps the accounting.** -/
theorem AccOk.step {w' : World} {a : Act} (ha : SerialPolls w a) (hs : Pool.step w a = some w') :
    AccOk w' := by
  rcases step_cases hs with ⟨j, -, hj, rfl⟩ | ⟨j, rest, -, hd, hq, rfl⟩ | ⟨j, -, hd, rfl⟩ |
    ⟨j, k, r, -, hd, rfl⟩ | ⟨k, r, -, rfl⟩ | ⟨j, p, rfl, hp, rfl⟩ | ⟨j, -, rfl⟩ | ⟨p, r, -, hp, rfl⟩
  · -- a submission: a fresh job, with no worker
    refine h.frame (.of_eq rfl) (assignedCount_submitJob hj) h.posting (fun p hp => ?_) h.polls_nodup
    obtain ⟨job, hjob, hl⟩ := h.polls_live p hp
    have hne : p.jobId ≠ j := by rintro rfl; rw [hj] at hjob; cases hjob
    exact ⟨job, by simp [hne, hjob], hl⟩
  · -- the dispatcher takes an entry and picks a worker with a free slot
    refine h.frame (.of_eq rfl) (fun _ => rfl) (fun _ _ hp => ?_) h.polls_live h.polls_nodup
    obtain ⟨wk, hwk, rfl⟩ := dispatchJob_posting hp
    obtain ⟨⟨k, hk⟩, -, hlt, -⟩ := getAvailableWorker_spec hwk
    exact ⟨wk, by rw [hi.worker_key k wk hk, hk], hlt⟩
  · exact h.frame (.of_eq rfl) (fun _ => rfl) (by rintro _ _ ⟨⟩) h.polls_live h.polls_nodup
  · -- the worker's reply to the dispatcher
    have requeue : (dispatchJobResume j k r w.st).jobs = w.st.jobs →
        w.st.SameSlots (dispatchJobResume j k r w.st) →
        AccOk { w with st := dispatchJobResume j k r w.st, dispatcher := .waiting } := fun hj hs =>
      h.frame hs (assignedCount_of_jobs hj) (by rintro _ _ ⟨⟩) (by rw [hj]; exact h.polls_live)
        h.polls_nodup
    cases r with
    | raised => exact requeue rfl (.of_modify rfl fun _ => ⟨rfl, rfl⟩)
    | status code f =>
      by_cases hc : code = 200
      · subst hc; exact h.dispatched hi hd f
      · exact requeue (by simp [dispatchJobResume, hc]) (.of_eq (by simp [dispatchJobResume, hc]))
  · exact h.frame (.of_modify rfl fun _ => ⟨rfl, rfl⟩) (fun _ => rfl) h.posting h.polls_live
      h.polls_nodup
  · -- a call suspends, for a job no other call is waiting on
    obtain ⟨rfl, job, hjob, -, hl⟩ := getJobStatus_awaiting hp
    refine h.frame (.of_eq rfl) (fun _ => rfl) h.posting (fun q hq => ?_) ?_
    · rcases List.mem_cons.1 hq with rfl | hq
      · exact ⟨job, hjob, hl⟩
      · exact h.polls_live q hq
    · exact List.nodup_cons.2 ⟨fun hm => by
        obtain ⟨q, hq, he⟩ := List.mem_map.1 hm
        exact ha q hq he, h.polls_nodup⟩
  · exact h
  · exact h.pollReply hi hp r

end Preservation

theorem ReachableBy.accOk {w : World} (hr : ReachableBy SerialPolls w) : AccOk w := by
  induction hr with
  | init cfgs => exact AccOk.init cfgs
  | step hr' ha hs ih => exact ih.step hr'.inv ha hs

/-- Every worker's `active_jobs` is the number of jobs assigned to it that are not
completed or failed, and stays within its `max_concurrent_jobs` when that is nonnegative. -/
def Accounted (w : World) : Prop :=
  ∀ k wk, w.st.workers.get? k = some wk → wk.activeJobs = assignedCount w.st k ∧
    (0 ≤ wk.maxConcurrentJobs → wk.activeJobs ≤ wk.maxConcurrentJobs)

/-- **Serial polling keeps the count.**  In every run in which no `get_job_status` call
for a job starts while another call for that job awaits the worker, whatever the workers
reply, every worker's `active_jobs` is the number of jobs assigned to it that are not
completed or failed, and never exceeds a nonnegative `max_concurrent_jobs`. -/
theorem serial_polls_accounted {w : World} (hr : ReachableBy SerialPolls w) : Accounted w :=
  fun k wk hk => ⟨hr.accOk.count k wk hk, hr.accOk.bound k wk hk⟩

/-- A run that dispatches job `a` to worker `w` and polls it once, to completion. -/
def polledRun : List Act :=
  [.healthCheck "w" (.status 200 (some "w")), .submit "a", .take,
    .submitReply (.status 200 (some "ra")), .pollStart "a",
    .pollReply ⟨"a", "w"⟩ (.status 200 (some "completed"))]

/-- The count after `polledRun`: the poll that finds `a` completed gives its slot back. -/
theorem serial_polls_accounted_polled :
    ∃ w, steps (World.init [⟨"w", some 2⟩]) polledRun = some w ∧
      statusOf w "a" = some "completed" ∧ ReachableBy SerialPolls w ∧ Accounted w := by
  have h₁ := @ReachableBy.step SerialPolls _ _ (.healthCheck "w" (.status 200 (some "w")))
    (.init [⟨"w", some 2⟩]) trivial rfl
  have h₂ := @ReachableBy.step SerialPolls _ _ (.submit "a") h₁ trivial rfl
  have h₃ := @ReachableBy.step SerialPolls _ _ .take h₂ trivial rfl
  have h₄ := @ReachableBy.step SerialPolls _ _ (.submitReply (.status 200 (some "ra"))) h₃ trivial rfl
  have h₅ := @ReachableBy.step SerialPolls _ _ (.pollStart "a") h₄ (fun _ hp => by cases hp) rfl
  have hr := @ReachableBy.step SerialPolls _ _
    (.pollReply ⟨"a", "w"⟩ (.status 200 (some "completed"))) h₅ trivial rfl
  exact ⟨_, rfl, by decide, hr, serial_polls_accounted hr⟩

/-! ### Overlapping polls -/

/-- Four jobs for a worker with `max_concurrent_jobs` 2, where two `get_job_status("a")`
calls both pass the guard before the worker replies. -/
def overcommitRun : List Act :=
  [.healthCheck "w" (.status 200 (some "w")),
    .submit "a", .submit "b", .submit "c", .submit "d",
    .take, .submitReply (.status 200 (some "ra")), .take, .submitReply (.status 200 (some "rb")),
    .pollStart "a", .pollStart "a",
    .pollReply ⟨"a", "w"⟩ (.status 200 (some "completed")),
    .pollReply ⟨"a", "w"⟩ (.status 200 (some "completed")),
    .take, .submitReply (.status 200 (some "rc")),
    .take, .submitReply (.status 200 (some "rd"))]

/-- Two `get_job_status("a")` calls that both pass the guard before the worker replies
give back two slots for one job: the worker, with `max_concurrent_jobs` 2, is then given
`c` and `d` and holds three unfinished jobs while `active_jobs` is 2. -/
theorem overlapping_polls_overcommit :
    ∃ w, steps (World.init [⟨"w", some 2⟩]) overcommitRun = some w ∧ Reachable w ∧
      (w.st.workers.get? "w").map (·.activeJobs) = some 2 ∧ assignedCount w.st "w" = 3 := by
  have hs := show steps (World.init [⟨"w", some 2⟩]) overcommitRun = some _ from rfl
  exact ⟨_, hs, Reachable.of_steps (.init _) hs, by decide, by decide⟩

end Pool

end Sandrun
