import Sandrun.Pool.Step

/-!
# What every interleaving keeps

Whatever the workers reply and however the tasks interleave, the coordinator keeps its
unassigned jobs and its queue in step: a job has an entry, in `job_queue` or in the
dispatcher's hands, exactly when it has no worker, it has only one, and it is queued.  A
job's worker is registered, and a suspended `get_job_status` call asks the job's own
worker.

Only two segments write a job: the dispatcher's resumption after a 200 reply, which
assigns the job it holds (an entry, so unassigned) and takes it out of the entries; and a
status poll's resumption, which writes the status of a job that has a worker.  Every
other segment moves entries around or touches only the workers, as `Inv.frame` says.

## Main definitions

* `Coord.SameWorkers`, `Coord.SameAssignment` — two states register the same workers, and
  assign the same jobs to the same workers.
* `Inv` — the invariant.
* `QueueLaw` — the entries are distinct and are the unassigned jobs, all queued; a queued
  job is not polled.

## Main results

* `ReachableBy.inv` — every reachable world satisfies `Inv`.
* `Inv.steps_keeps_worker` — a job that has a worker keeps it, and is no entry, after
  every run.
* `queue_law_holds` — every reachable world satisfies `QueueLaw`, and its assigned jobs
  are never dispatched again.
* `worker_queued_job_stranded` — a job whose worker reports `queued` is queued with no
  entry, and is no longer polled.
-/

namespace Sandrun.Pool

/-! ### The worker registry and the assignments -/

/-- Two states register the same workers under the same ids. -/
def Coord.SameWorkers (s s' : Coord) : Prop :=
  ∀ k, (s'.workers.get? k).map Worker.workerId = (s.workers.get? k).map Worker.workerId

/-- Two states assign the same jobs to the same workers. -/
def Coord.SameAssignment (s s' : Coord) : Prop :=
  ∀ j, (s'.jobs.get? j).map PoolJob.workerId = (s.jobs.get? j).map PoolJob.workerId

theorem Coord.SameWorkers.of_eq {s s' : Coord} (h : s'.workers = s.workers) : s.SameWorkers s' :=
  fun k => by rw [h]

theorem Coord.SameAssignment.of_eq {s s' : Coord} (h : s'.jobs = s.jobs) : s.SameAssignment s' :=
  fun j => by rw [h]

theorem Coord.SameWorkers.isSome {s s' : Coord} (h : s.SameWorkers s') (k : String) :
    (s'.workers.get? k).isSome = (s.workers.get? k).isSome := by
  simpa using congrArg Option.isSome (h k)

/-- The registry keeps every worker under its own id. -/
theorem Coord.SameWorkers.workerId {s s' : Coord} (h : s.SameWorkers s')
    (hs : ∀ k wk, s.workers.get? k = some wk → wk.workerId = k) {k : String} {wk : Worker}
    (hk : s'.workers.get? k = some wk) : wk.workerId = k := by
  obtain ⟨wk₀, h₀, he₀⟩ := Option.map_eq_some'.1 ((h k).symm.trans (by rw [hk]; rfl))
  rw [← hs k wk₀ h₀, he₀]

/-- A write to worker objects that keeps their ids. -/
theorem Coord.SameWorkers.of_modify {s s' : Coord} {k : String} {f : Worker → Worker}
    (hs : s'.workers = s.workers.modify k f) (hf : ∀ w, (f w).workerId = w.workerId) :
    s.SameWorkers s' := by
  intro k'
  rw [hs, PyDict.get?_modify]
  split_ifs with h
  · subst h
    cases s.workers.get? k' <;> simp [hf]
  · rfl

theorem sameWorkers_dispatchJobResume (j k : String) (r : SubmitReply) (s : Coord) :
    s.SameWorkers (dispatchJobResume j k r s) := by
  cases r with
  | raised => exact .of_modify rfl fun _ => rfl
  | status code f =>
    simp only [dispatchJobResume]
    split_ifs
    · exact .of_modify rfl fun _ => rfl
    · exact .of_eq rfl

/-! ### What a status poll writes -/

/-- The status a job takes from a reply: on 200, `worker_status.get("status", job.status)`. -/
def StatusReply.statusAfter (old : String) : StatusReply → String
  | .status code statusField => if code = 200 then statusField.getD old else old
  | .raised => old

/-- A poll's resumption writes nothing of the jobs but the status of its own. -/
theorem getJobStatusResume_jobs (p : Poll) (r : StatusReply) (s : Coord) :
    (getJobStatusResume p r s).1.jobs =
      s.jobs.modify p.jobId fun job => { job with status := r.statusAfter job.status } := by
  cases hjob : s.jobs.get? p.jobId with
  | none => cases r <;> simp [getJobStatusResume, PyDict.modify, hjob]
  | some job =>
    have hkeep : s.jobs.set p.jobId { job with status := job.status } = s.jobs :=
      PyDict.set_of_get? hjob
    cases r with
    | raised => simpa [getJobStatusResume, PyDict.modify, hjob, StatusReply.statusAfter] using hkeep.symm
    | status code f =>
      by_cases hc : code = 200
      · simp only [getJobStatusResume, hjob, hc, if_true, PyDict.modify, StatusReply.statusAfter]
        split_ifs <;> rfl
      · simpa [getJobStatusResume, PyDict.modify, hjob, hc, StatusReply.statusAfter] using hkeep.symm

theorem get?_getJobStatusResume (p : Poll) (r : StatusReply) (s : Coord) (j : String) :
    (getJobStatusResume p r s).1.jobs.get? j =
      if j = p.jobId then (s.jobs.get? j).map fun job => { job with status := r.statusAfter job.status }
      else s.jobs.get? j := by
  rw [getJobStatusResume_jobs, PyDict.get?_modify]
  split_ifs with h
  · rw [h]
  · rfl

theorem sameWorkers_getJobStatusResume (p : Poll) (r : StatusReply) (s : Coord) :
    s.SameWorkers (getJobStatusResume p r s).1 := by
  cases hjob : s.jobs.get? p.jobId with
  | none => cases r <;> exact .of_eq (by simp [getJobStatusResume, hjob])
  | some job =>
    cases r with
    | raised => exact .of_eq (by simp [getJobStatusResume, hjob])
    | status code f =>
      simp only [getJobStatusResume, hjob]
      split_ifs
      · exact .of_modify rfl fun _ => rfl
      all_goals exact .of_eq rfl

theorem sameAssignment_getJobStatusResume (p : Poll) (r : StatusReply) (s : Coord) :
    s.SameAssignment (getJobStatusResume p r s).1 := by
  intro j
  rw [get?_getJobStatusResume]
  split_ifs
  · cases s.jobs.get? j <;> rfl
  · rfl

@[simp] theorem getJobStatusResume_jobQueue (p : Poll) (r : StatusReply) (s : Coord) :
    (getJobStatusResume p r s).1.jobQueue = s.jobQueue := by
  unfold getJobStatusResume
  split
  · dsimp only; split_ifs <;> rfl
  all_goals rfl

/-- A reply to the dispatcher's `POST /submit` writes only the job it posted. -/
theorem get?_dispatchJobResume_of_ne {j j' k : String} (r : SubmitReply) (s : Coord)
    (hne : j' ≠ j) : (dispatchJobResume j k r s).jobs.get? j' = s.jobs.get? j' := by
  cases r with
  | raised => rfl
  | status code f => simp only [dispatchJobResume]; split_ifs <;> simp [hne]

/-! ### What the dispatcher and the calls hold -/

theorem dispatchJob_entry (s : Coord) (j : String) : (dispatchJob s j).entry = [j] := by
  unfold dispatchJob; split <;> rfl

/-- The dispatcher posts only to a worker `get_available_worker` returned. -/
theorem dispatchJob_posting {s : Coord} {j j' k : String} (h : dispatchJob s j = .posting j' k) :
    ∃ wk, getAvailableWorker s = some wk ∧ wk.workerId = k := by
  unfold dispatchJob at h
  split at h
  · cases h
  · next wk hwk => cases h; exact ⟨wk, hwk, rfl⟩

/-- A call that suspends asks about a job that has a worker, that worker. -/
theorem getJobStatus_awaiting {s : Coord} {j : String} {p : Poll} (h : getJobStatus s j = .awaiting p) :
    p.jobId = j ∧ ∃ job, s.jobs.get? j = some job ∧ job.workerId = some p.workerId ∧
      job.status ∈ ["dispatched", "running"] := by
  unfold getJobStatus at h
  split at h
  · cases h
  · next job hjob =>
    split at h
    · next k hk =>
      split_ifs at h with hg
      cases h
      exact ⟨rfl, job, hjob, hk, hg.1⟩
    · cases h

/-- A queued job is never asked about: `get_job_status` returns its local status. -/
theorem getJobStatus_queued {s : Coord} {j : String} {job : PoolJob} (hj : s.jobs.get? j = some job)
    (hq : job.status = "queued") : getJobStatus s j = .done (some (job.report j)) := by
  simp only [getJobStatus, hj]
  split <;> simp [hq]

/-! ### The invariant -/

/-- What every reachable world satisfies. -/
structure Inv (w : World) : Prop where
  /-- Every worker is registered under its own id. -/
  worker_key : ∀ k wk, w.st.workers.get? k = some wk → wk.workerId = k
  /-- No job has two entries. -/
  entries_nodup : w.entries.Nodup
  /-- A job has an entry exactly when it has no worker. -/
  mem_entries : ∀ j, j ∈ w.entries ↔ (w.st.jobs.get? j).map PoolJob.workerId = some none
  /-- A job without a worker is queued. -/
  queued : ∀ j job, w.st.jobs.get? j = some job → job.workerId = none → job.status = "queued"
  /-- A job's worker is registered. -/
  assigned : ∀ j k, (w.st.jobs.get? j).map PoolJob.workerId = some (some k) →
    (w.st.workers.get? k).isSome
  /-- The dispatcher posts to a registered worker. -/
  posting : ∀ j k, w.dispatcher = .posting j k → (w.st.workers.get? k).isSome
  /-- A suspended call asks the job's own worker. -/
  polls : ∀ p ∈ w.polls, (w.st.jobs.get? p.jobId).map PoolJob.workerId = some (some p.workerId)

theorem Inv.init (cfgs : List WorkerCfg) : Inv (World.init cfgs) where
  worker_key _ _ h := Coord.init_workerId h
  entries_nodup := List.nodup_nil
  mem_entries _ := by simp [World.init, World.entries, Coord.init, DispatchPc.entry_posting, DispatchPc.entry_backoff, DispatchPc.entry_waiting]
  queued _ _ h := by simp [World.init, Coord.init] at h
  assigned _ _ h := by simp [World.init, Coord.init] at h
  posting _ _ h := by cases h
  polls _ h := by cases h

section Preservation

variable {w : World} (h : Inv w)
include h

/-- A segment that keeps the registry and the assignments, writes no unassigned job,
and only moves entries around. -/
theorem Inv.frame {w' : World} (hw : w.st.SameWorkers w'.st) (ha : w.st.SameAssignment w'.st)
    (hq : ∀ j job, w'.st.jobs.get? j = some job → job.workerId = none → w.st.jobs.get? j = some job)
    (he : List.Perm w'.entries w.entries)
    (hd : ∀ j k, w'.dispatcher = .posting j k → (w.st.workers.get? k).isSome)
    (hp : ∀ p ∈ w'.polls, (w.st.jobs.get? p.jobId).map PoolJob.workerId = some (some p.workerId)) :
    Inv w' where
  worker_key _ _ hk := hw.workerId h.worker_key hk
  entries_nodup := he.nodup_iff.2 h.entries_nodup
  mem_entries j := by rw [he.mem_iff, ha]; exact h.mem_entries j
  queued j job hj hn := h.queued j job (hq j job hj hn) hn
  assigned j k hk := by rw [hw.isSome]; exact h.assigned j k (ha j ▸ hk)
  posting j k hpk := by rw [hw.isSome]; exact hd j k hpk
  polls p hp' := by rw [ha]; exact hp p hp'

theorem Inv.submit {j : String} (hj : w.st.jobs.get? j = none) :
    Inv { w with st := submitJob j w.st } := by
  have hperm : List.Perm ((w.st.jobQueue ++ [j]) ++ w.dispatcher.entry) (j :: w.entries) := by
    rw [List.append_assoc, List.singleton_append]; exact List.perm_middle
  have hnew : j ∉ w.entries := fun hm => by simpa [hj] using (h.mem_entries j).1 hm
  have hne : ∀ j' x, (w.st.jobs.get? j').map PoolJob.workerId = some x → j' ≠ j := by
    rintro j' x hg rfl; simp [hj] at hg
  refine ⟨h.worker_key, hperm.nodup_iff.2 (List.nodup_cons.2 ⟨hnew, h.entries_nodup⟩),
    fun j' => ?_, fun j' job hg hn => ?_, fun j' k hk => ?_, h.posting, fun p hp => ?_⟩
  · show j' ∈ (w.st.jobQueue ++ [j]) ++ w.dispatcher.entry ↔ _
    rw [hperm.mem_iff, List.mem_cons, h.mem_entries]
    by_cases hj' : j' = j <;> simp [hj']
  · simp only [submitJob_jobs, PyDict.get?_set] at hg
    split_ifs at hg
    · cases hg; rfl
    · exact h.queued j' job hg hn
  · simp only [submitJob_jobs, PyDict.get?_set] at hk
    split_ifs at hk
    · simp at hk
    · exact h.assigned j' k hk
  · have hp' := h.polls p hp
    simpa [hne _ _ hp'] using hp'

theorem Inv.take {j : String} {rest : List String} (hd : w.dispatcher = .waiting)
    (hq : w.st.jobQueue = j :: rest) :
    Inv { w with st := { w.st with jobQueue := rest }, dispatcher := dispatchJob w.st j } :=
  h.frame (.of_eq rfl) (.of_eq rfl) (fun _ _ hg _ => hg)
    (by
      simp only [World.entries, dispatchJob_entry, hd, hq, DispatchPc.entry_waiting, List.append_nil]
      exact List.perm_append_singleton j rest)
    (fun _ _ hp => by
      obtain ⟨wk, hwk, rfl⟩ := dispatchJob_posting hp
      obtain ⟨⟨k, hk⟩, -⟩ := getAvailableWorker_spec hwk
      rw [h.worker_key k wk hk, hk]; rfl)
    h.polls

theorem Inv.backoffDone {j : String} (hd : w.dispatcher = .backoff j) :
    Inv { w with st := { w.st with jobQueue := w.st.jobQueue ++ [j] }, dispatcher := .waiting } :=
  h.frame (.of_eq rfl) (.of_eq rfl) (fun _ _ hg _ => hg)
    (.of_eq (by simp [World.entries, hd, DispatchPc.entry_posting, DispatchPc.entry_backoff, DispatchPc.entry_waiting])) (by rintro _ _ ⟨⟩) h.polls

/-- A 200 reply to `POST /submit` assigns the job the dispatcher holds. -/
theorem Inv.dispatched {j k : String} (hd : w.dispatcher = .posting j k) (f : Option String) :
    Inv { w with st := dispatchJobResume j k (.status 200 f) w.st, dispatcher := .waiting } := by
  have hw := sameWorkers_dispatchJobResume j k (.status 200 f) w.st
  have hent : w.entries = w.st.jobQueue ++ [j] := by simp [World.entries, hd, DispatchPc.entry_posting, DispatchPc.entry_backoff, DispatchPc.entry_waiting]
  have hnd := h.entries_nodup
  rw [hent, List.nodup_append] at hnd
  have hjq : j ∉ w.st.jobQueue := fun hm => hnd.2.2 hm (List.mem_singleton_self j)
  have hjn : (w.st.jobs.get? j).map PoolJob.workerId = some none :=
    (h.mem_entries j).1 (by simp [hent])
  have hget : ∀ j', (dispatchJobResume j k (.status 200 f) w.st).jobs.get? j' =
      if j' = j then (w.st.jobs.get? j).map fun job =>
        { job with workerId := some k, status := "dispatched", remoteJobId := f }
      else w.st.jobs.get? j' := fun j' => by simp [dispatchJobResume]
  refine ⟨fun _ _ hk => hw.workerId h.worker_key hk, ?_, fun j' => ?_, fun j' job hg hn => ?_,
    fun j' k' hk => ?_, by rintro _ _ ⟨⟩, fun p hp => ?_⟩
  · simpa [World.entries, dispatchJobResume, DispatchPc.entry_posting, DispatchPc.entry_backoff, DispatchPc.entry_waiting] using hnd.1
  · show j' ∈ (dispatchJobResume j k (.status 200 f) w.st).jobQueue ++ [] ↔ _
    rw [hget]
    by_cases hj' : j' = j
    · subst hj'
      obtain ⟨job, hjob, hjn'⟩ := Option.map_eq_some'.1 hjn
      simp [dispatchJobResume, hjq, hjob]
    · simp [dispatchJobResume, hj', ← h.mem_entries, hent]
  · rw [hget] at hg
    split_ifs at hg
    · obtain ⟨_, -, rfl⟩ := Option.map_eq_some'.1 hg; cases hn
    · exact h.queued j' job hg hn
  · rw [hget] at hk
    rw [hw.isSome]
    split_ifs at hk
    · obtain ⟨job, hjob, -⟩ := Option.map_eq_some'.1 hjn
      simp only [hjob, Option.map_some', Option.some.injEq] at hk
      exact hk ▸ h.posting j k hd
    · exact h.assigned j' k' hk
  · have hp' := h.polls p hp
    have hne : p.jobId ≠ j := by rintro he; rw [he, hjn] at hp'; cases hp'
    rw [hget, if_neg hne]; exact hp'

theorem Inv.submitReply {j k : String} (hd : w.dispatcher = .posting j k) (r : SubmitReply) :
    Inv { w with st := dispatchJobResume j k r w.st, dispatcher := .waiting } := by
  -- a reply that puts the entry back
  have requeue : (dispatchJobResume j k r w.st).jobs = w.st.jobs →
      (dispatchJobResume j k r w.st).jobQueue = w.st.jobQueue ++ [j] →
      Inv { w with st := dispatchJobResume j k r w.st, dispatcher := .waiting } := fun hj hq =>
    h.frame (sameWorkers_dispatchJobResume j k r w.st) (.of_eq hj) (fun _ _ hg _ => hj ▸ hg)
      (.of_eq (by simp [World.entries, hq, hd, DispatchPc.entry_posting, DispatchPc.entry_backoff, DispatchPc.entry_waiting])) (by rintro _ _ ⟨⟩) h.polls
  cases r with
  | raised => exact requeue rfl rfl
  | status code f =>
    by_cases hc : code = 200
    · subst hc; exact h.dispatched hd f
    · exact requeue (by simp [dispatchJobResume, hc]) (by simp [dispatchJobResume, hc])

theorem Inv.healthCheck (k : String) (r : HealthReply) :
    Inv { w with st := healthCheckWorker k r w.st } :=
  h.frame (.of_modify rfl fun _ => rfl) (.of_eq rfl) (fun _ _ hg _ => hg) (.of_eq rfl) h.posting
    h.polls

theorem Inv.pollStart {j : String} {p : Poll} (ha : getJobStatus w.st j = .awaiting p) :
    Inv { w with polls := p :: w.polls } :=
  h.frame (.of_eq rfl) (.of_eq rfl) (fun _ _ hg _ => hg) (.of_eq rfl) h.posting fun q hq => by
    rcases List.mem_cons.1 hq with rfl | hq
    · obtain ⟨rfl, job, hjob, hw, -⟩ := getJobStatus_awaiting ha
      simp [hjob, hw]
    · exact h.polls q hq

theorem Inv.pollReply {p : Poll} (hp : p ∈ w.polls) (r : StatusReply) :
    Inv { w with st := (getJobStatusResume p r w.st).1, polls := w.polls.erase p } :=
  h.frame (sameWorkers_getJobStatusResume p r w.st) (sameAssignment_getJobStatusResume p r w.st)
    (fun j job hg hn => by
      rw [get?_getJobStatusResume] at hg
      split_ifs at hg with hj
      · -- the polled job has a worker
        subst hj
        obtain ⟨job₀, h₀, rfl⟩ := Option.map_eq_some'.1 hg
        have hp' := h.polls p hp
        simp only [h₀, Option.map_some', Option.some.injEq] at hp'
        simp [hp'] at hn
      · exact hg)
    (.of_eq (by simp [World.entries])) h.posting fun q hq => h.polls q (List.mem_of_mem_erase hq)

/-- **Every segment keeps the invariant.** -/
theorem Inv.step {w' : World} {a : Act} (hs : step w a = some w') : Inv w' := by
  rcases step_cases hs with ⟨j, -, hj, rfl⟩ | ⟨j, rest, -, hd, hq, rfl⟩ | ⟨j, -, hd, rfl⟩ |
    ⟨j, k, r, -, hd, rfl⟩ | ⟨k, r, -, rfl⟩ | ⟨j, p, -, ha, rfl⟩ | ⟨j, -, rfl⟩ | ⟨p, r, -, hp, rfl⟩
  exacts [h.submit hj, h.take hd hq, h.backoffDone hd, h.submitReply hd r, h.healthCheck k r,
    h.pollStart ha, h, h.pollReply hp r]

/-- A job keeps its worker: the only segment that writes a job's worker is the
dispatcher's resumption after a 200 reply, and the job it holds is an entry, so it had
none. -/
theorem Inv.keeps_worker {w' : World} {a : Act} (hs : Pool.step w a = some w') {j k : String}
    (hk : (w.st.jobs.get? j).map PoolJob.workerId = some (some k)) :
    (w'.st.jobs.get? j).map PoolJob.workerId = some (some k) := by
  rcases step_cases hs with ⟨j', -, hj', rfl⟩ | ⟨j', rest, -, hd, hq, rfl⟩ | ⟨j', -, hd, rfl⟩ |
    ⟨j', k', r, -, hd, rfl⟩ | ⟨k', r, -, rfl⟩ | ⟨j', p, -, ha, rfl⟩ | ⟨j', -, rfl⟩ | ⟨p, r, -, hp, rfl⟩
  case inl =>
    have hne : j ≠ j' := by rintro rfl; simp [hj'] at hk
    simpa [hne] using hk
  case inr.inr.inr.inl =>
    have hne : j ≠ j' := by
      rintro rfl
      have hn := (h.mem_entries j).1 (by simp [World.entries, hd, DispatchPc.entry_posting])
      rw [hn] at hk; cases hk
    rwa [get?_dispatchJobResume_of_ne r _ hne]
  case inr.inr.inr.inr.inr.inr.inr => rwa [sameAssignment_getJobStatusResume p r w.st j]
  all_goals simpa using hk

end Preservation

/-- **Every reachable world satisfies the invariant.** -/
theorem ReachableBy.inv {allowed : World → Act → Prop} {w : World} (hr : ReachableBy allowed w) :
    Inv w := by
  induction hr with
  | init cfgs => exact Inv.init cfgs
  | step _ _ hs ih => exact ih.step hs

/-- A job that has a worker keeps it, and is no entry, after every run. -/
theorem Inv.steps_keeps_worker {w w' : World} {as : List Act} (h : Inv w)
    (hs : steps w as = some w') {j k : String}
    (hk : (w.st.jobs.get? j).map PoolJob.workerId = some (some k)) :
    (w'.st.jobs.get? j).map PoolJob.workerId = some (some k) ∧ j ∉ w'.entries := by
  induction as generalizing w with
  | nil =>
    cases hs
    exact ⟨hk, fun hm => by rw [(h.mem_entries j).1 hm] at hk; cases hk⟩
  | cons a as ih =>
    obtain ⟨w₁, h₁, h₂⟩ := Option.bind_eq_some.1 hs
    exact ih (h.step h₁) h₂ (h.keeps_worker h₁ hk)

/-! ### The queue law -/

/-- The entries are distinct and are the jobs without a worker; a job without a worker is
queued; and a queued job is not asked about, `get_job_status` answers with its local
status. -/
def QueueLaw (w : World) : Prop :=
  w.entries.Nodup ∧
  (∀ j, j ∈ w.entries ↔ ∃ job, w.st.jobs.get? j = some job ∧ job.workerId = none) ∧
  (∀ j job, w.st.jobs.get? j = some job → job.workerId = none → job.status = "queued") ∧
  (∀ j job, w.st.jobs.get? j = some job → job.status = "queued" →
    getJobStatus w.st j = .done (some (job.report j)))

/-- **The queue law.**  Under every interleaving and whatever the workers reply, a job
without a worker is queued and is, once, an entry of `job_queue` or the entry the
dispatcher handles; every entry is such a job.  A job that has a worker keeps it and is no
entry in every later world, so it is never dispatched again; if it is queued,
`get_job_status` no longer asks its worker. -/
theorem queue_law_holds {w : World} (hr : Reachable w) :
    QueueLaw w ∧ ∀ as w' j k, steps w as = some w' →
      (w.st.jobs.get? j).map PoolJob.workerId = some (some k) →
      (w'.st.jobs.get? j).map PoolJob.workerId = some (some k) ∧ j ∉ w'.entries := by
  have h := ReachableBy.inv hr
  refine ⟨⟨h.entries_nodup, fun j => (h.mem_entries j).trans ?_, h.queued,
    fun j job hj hq => getJobStatus_queued hj hq⟩, fun as w' j k hs hk => h.steps_keeps_worker hs hk⟩
  simp [Option.map_eq_some']

/-- A run in which the worker that runs job `a` reports it `queued`. -/
def strandedRun : List Act :=
  [.healthCheck "w" (.status 200 (some "w")), .submit "a", .take,
    .submitReply (.status 200 (some "r")), .pollStart "a",
    .pollReply ⟨"a", "w"⟩ (.status 200 (some "queued"))]

/-- The law at the end of `strandedRun`, where job `a` is queued, has worker `w` and is no
entry. -/
theorem queue_law_holds_stranded :
    ∃ w, steps (World.init [⟨"w", none⟩]) strandedRun = some w ∧
      statusOf w "a" = some "queued" ∧ (w.st.jobs.get? "a").map PoolJob.workerId = some (some "w") ∧
      QueueLaw w ∧ ∀ as w', steps w as = some w' → "a" ∉ w'.entries := by
  have hs := show steps (World.init [⟨"w", none⟩]) strandedRun = some _ from rfl
  have hq := queue_law_holds (Reachable.of_steps (.init _) hs)
  exact ⟨_, hs, by decide, by decide, hq.1, fun as w' hs' => (hq.2 as w' "a" "w" hs' (by decide)).2⟩

/-- A job whose worker reports it `queued` is queued with no entry: nothing dispatches it
again, and `get_job_status` no longer asks the worker about it. -/
theorem worker_queued_job_stranded :
    ∃ w, steps (World.init [⟨"w", none⟩]) strandedRun = some w ∧ Reachable w ∧
      statusOf w "a" = some "queued" ∧ "a" ∉ w.entries ∧
      getJobStatus w.st "a" = .done (some ⟨"a", "queued", some "w"⟩) := by
  have hs := show steps (World.init [⟨"w", none⟩]) strandedRun = some _ from rfl
  exact ⟨_, hs, Reachable.of_steps (.init _) hs, by decide, by decide, by decide⟩

end Sandrun.Pool
