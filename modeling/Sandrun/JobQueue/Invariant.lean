import Sandrun.JobQueue.Step

/-!
# Invariants of the job queue

Every reachable world of the step relation satisfies `Inv`: names are fresh uuids and
determine one another, at most one execution of a job is pending or in progress, a
cancelled job that still has an execution has its user, and an execution past its
process belongs to a completed or failed job.

The one-execution bound rests on the OS: `restart_job` schedules a run only if
`useradd` succeeds, hence only if the job's user is gone, and the user of a cancelled
job with an execution cannot be gone, since `pkill` succeeded on it and only the
execution's own `_delete_user`, after its status write, removes it.

## Main definitions

* `Job.names`, `World.HasNames`, `NamesOk` — the names of the world.
* `World.inflight` — the executions of a job pending or in progress.
* `Inv` — the invariant.

## Main results

* `Inv.step` — every step preserves `Inv`.
* `Reachable.inv` — every reachable world satisfies it.
-/

namespace Sandrun.JobQueue

/-- The names a job carries: its id field, its user and its directory. -/
def Job.names (job : Job) : Nat × Nat × Nat := (job.jobId, job.ephemeralUser, job.directory)

@[simp] theorem names_withStatus (status : String) (job : Job) :
    (withStatus status job).names = job.names := rfl

@[simp] theorem names_finishJob (proc : ProcOutcome) (job : Job) :
    (finishJob proc job).names = job.names := by
  cases proc with
  | exited code stdout => by_cases h : code = 0 <;> simp [finishJob, h, Job.names]
  | raised e => rfl

/-- A write that keeps the names of the job it changes keeps the names of the table. -/
theorem map_names_modify {d : PyDict Nat Job} {k : Nat} {f : Job → Job}
    (hf : ∀ job, (f job).names = job.names) (j : Nat) :
    ((d.modify k f).get? j).map Job.names = (d.get? j).map Job.names := by
  rw [PyDict.get?_modify]
  split_ifs with h
  · subst h; cases d.get? j <;> simp [hf]
  · rfl

/-- World `w` holds names `t` under key `j`: a job of its table, or the job an execution
of `j` holds. -/
def World.HasNames (w : World) (j : Nat) (t : Nat × Nat × Nat) : Prop :=
  (w.st.jobs.get? j).map Job.names = some t ∨ ∃ r ∈ w.runs, r.jobId = j ∧ r.job.names = t

/-- Names come from uuids: they are below the counter, a job's id field is its key, and
key, user and directory determine one another. -/
structure NamesOk (w : World) : Prop where
  lt : ∀ j t, w.HasNames j t → j < w.st.uuid ∧ t.2.1 < w.st.uuid ∧ t.2.2 < w.st.uuid
  key : ∀ j t, w.HasNames j t → t.1 = j
  user : ∀ j t j' t', w.HasNames j t → w.HasNames j' t' → (j = j' ↔ t.2.1 = t'.2.1)
  dir : ∀ j t j' t', w.HasNames j t → w.HasNames j' t' → (j = j' ↔ t.2.2 = t'.2.2)

/-- Names survive a step that brings in none and does not move the counter back. -/
theorem NamesOk.mono {w w' : World} (h : NamesOk w) (hu : w.st.uuid ≤ w'.st.uuid)
    (hn : ∀ j t, w'.HasNames j t → w.HasNames j t) : NamesOk w' where
  lt j t ht := by have := h.lt j t (hn j t ht); omega
  key j t ht := h.key j t (hn j t ht)
  user j t j' t' ht ht' := h.user j t j' t' (hn j t ht) (hn j' t' ht')
  dir j t j' t' ht ht' := h.dir j t j' t' (hn j t ht) (hn j' t' ht')

/-- The executions of `jobId` pending in the pool or in progress. -/
def World.inflight (w : World) (jobId : Nat) : Nat :=
  w.st.pool.count jobId + (w.runs.map Run.jobId).count jobId

/-- The invariant of reachable worlds. -/
structure Inv (w : World) : Prop where
  held : w.st.held = false
  names : NamesOk w
  ledger : ∀ j, (w.st.ledger.get? j).map Job.names = (w.st.jobs.get? j).map Job.names
  pool_lt : ∀ j ∈ w.st.pool, j < w.st.uuid
  inflight_le : ∀ j, w.inflight j ≤ 1
  cancelled : ∀ j job, w.st.jobs.get? j = some job → job.status = "cancelled" →
    0 < w.inflight j → job.ephemeralUser ∈ w.st.users
  finished : ∀ r ∈ w.runs, r.phase ≠ .started → ∀ job, w.st.jobs.get? r.jobId = some job →
    job.status = "completed" ∨ job.status = "failed"

theorem Inv.init : Inv World.init where
  held := rfl
  names := ⟨by simp [World.HasNames, World.init, St.init], by simp [World.HasNames, World.init, St.init],
    by simp [World.HasNames, World.init, St.init], by simp [World.HasNames, World.init, St.init]⟩
  ledger := by simp [World.init, St.init]
  pool_lt := by simp [World.init, St.init]
  inflight_le := by simp [World.inflight, World.init, St.init]
  cancelled := by simp [World.init, St.init]
  finished := by simp [World.init]

/-! ### Counting executions -/

/-- Replacing an execution by one of the same job keeps the counts. -/
theorem count_replace {runs : List Run} {r : Run} (hr : r ∈ runs) (r' : Run)
    (hid : r'.jobId = r.jobId) (j : Nat) : ((r' :: runs.erase r).map Run.jobId).count j = (runs.map Run.jobId).count j := by
  rw [((List.perm_cons_erase hr).map Run.jobId).count_eq j]
  simp [hid]

/-- Two executions of one job in progress, or one and a pending one, exceed the bound. -/
theorem inflight_two_of_mem {w : World} {r : Run} (hr : r ∈ w.runs) {j : Nat} (hj : r.jobId = j)
    (h : j ∈ w.st.pool ∨ ∃ r' ∈ w.runs.erase r, r'.jobId = j) : 2 ≤ w.inflight j := by
  have hc := ((List.perm_cons_erase hr).map Run.jobId).count_eq j
  simp only [List.map_cons, List.count_cons, hj, beq_self_eq_true, if_true] at hc
  rcases h with h | ⟨r', hr', rfl⟩
  · have := List.count_pos_iff.2 h
    simp only [World.inflight, hc]; omega
  · have := List.count_pos_iff.2 (List.mem_map_of_mem Run.jobId hr')
    simp only [World.inflight, hc]; omega

/-! ### Each step keeps the invariant -/

section Preservation

variable {w : World}

theorem Inv.save (h : Inv w) {r : Run} (hr : r ∈ w.runs) (hp : r.phase = .finished) :
    Inv ⟨(runSave .rlock w.st).state, { r with phase := .saved } :: w.runs.erase r⟩ := by
  rw [runSave_rlock]
  refine ⟨h.held, h.names.mono le_rfl ?_, fun _ => rfl, h.pool_lt, ?_, ?_, ?_⟩
  · rintro j t (ht | ⟨r', hr', rfl, rfl⟩)
    · exact .inl ht
    · rcases List.mem_cons.1 hr' with rfl | hr'
      · exact .inr ⟨r, hr, rfl, rfl⟩
      · exact .inr ⟨r', List.mem_of_mem_erase hr', rfl, rfl⟩
  · intro j
    have := h.inflight_le j
    simp only [World.inflight] at this ⊢
    rwa [count_replace hr { r with phase := .saved } rfl]
  · intro j job hj hc hi
    simp only [World.inflight] at hi
    rw [count_replace hr { r with phase := .saved } rfl] at hi
    exact h.cancelled j job hj hc hi
  · intro r' hr' hp' job hj
    rcases List.mem_cons.1 hr' with rfl | hr'
    · exact h.finished r hr (by simp [hp]) job hj
    · exact h.finished r' (List.mem_of_mem_erase hr') hp' job hj

theorem Inv.finish (h : Inv w) {r : Run} (hr : r ∈ w.runs) (proc : ProcOutcome) :
    Inv ⟨(runBody r.jobId proc .rlock w.st).state,
      { r with phase := .finished } :: w.runs.erase r⟩ := by
  rw [runBody_rlock, Outcome.state_ok]
  have hterm : ∀ job, (finishJob proc job).status = "completed" ∨
      (finishJob proc job).status = "failed" := by
    intro job; cases proc with
    | exited code _ => by_cases hc : code = 0 <;> simp [finishJob, hc]
    | raised _ => simp [finishJob]
  have hnames := map_names_modify (d := w.st.jobs) (k := r.jobId) (names_finishJob proc)
  refine ⟨h.held, h.names.mono le_rfl ?_, ?_, h.pool_lt, ?_, ?_, ?_⟩
  · rintro j t (ht | ⟨r', hr', rfl, rfl⟩)
    · exact .inl (by simpa only [hnames] using ht)
    · rcases List.mem_cons.1 hr' with rfl | hr'
      · exact .inr ⟨r, hr, rfl, rfl⟩
      · exact .inr ⟨r', List.mem_of_mem_erase hr', rfl, rfl⟩
  · intro j; simpa only [hnames] using h.ledger j
  · intro j
    have := h.inflight_le j
    simp only [World.inflight] at this ⊢
    rwa [count_replace hr { r with phase := .finished } rfl]
  · intro j job hj hc hi
    simp only [World.inflight] at hi
    rw [count_replace hr { r with phase := .finished } rfl] at hi
    simp only [PyDict.get?_modify] at hj
    split_ifs at hj with hjr
    · obtain ⟨job₀, -, rfl⟩ := Option.map_eq_some'.1 hj
      rcases hterm job₀ with h' | h' <;> simp_all
    · exact h.cancelled j job hj hc hi
  · intro r' hr' hp' job hj
    simp only [PyDict.get?_modify] at hj
    split_ifs at hj with hjr
    · obtain ⟨job₀, -, rfl⟩ := Option.map_eq_some'.1 hj
      exact hterm job₀
    · rcases List.mem_cons.1 hr' with rfl | hr'
      · exact absurd rfl hjr
      · exact h.finished r' (List.mem_of_mem_erase hr') hp' job hj

theorem Inv.deleteUser (h : Inv w) {r : Run} (hr : r ∈ w.runs) (hp : r.phase = .saved)
    (removed : Bool) :
    Inv ⟨(JobQueue.deleteUser r.job.ephemeralUser removed .rlock w.st).state, w.runs.erase r⟩ := by
  simp only [JobQueue.deleteUser, update_apply, Outcome.state_ok]
  have hle : ∀ j, ((w.runs.erase r).map Run.jobId).count j ≤ (w.runs.map Run.jobId).count j :=
    fun j => (List.Sublist.map Run.jobId (List.erase_sublist r w.runs)).count_le j
  refine ⟨h.held, h.names.mono le_rfl ?_, h.ledger, h.pool_lt, ?_, ?_, ?_⟩
  · rintro j t (ht | ⟨r', hr', rfl, rfl⟩)
    · exact .inl ht
    · exact .inr ⟨r', List.mem_of_mem_erase hr', rfl, rfl⟩
  · intro j
    have := h.inflight_le j
    simp only [World.inflight] at this ⊢
    have := hle j; omega
  · intro j job hj hc hi
    dsimp only at hj
    simp only [World.inflight] at hi
    have hu := h.cancelled j job hj hc (by simp only [World.inflight]; have := hle j; omega)
    -- the user the execution removes is its own job's, which is not cancelled
    have hne : job.ephemeralUser ≠ r.job.ephemeralUser := by
      intro he
      have hjr : j = r.jobId := (h.names.user j job.names r.jobId r.job.names
        (.inl (by simp [hj])) (.inr ⟨r, hr, rfl, rfl⟩)).2 he
      subst hjr
      rcases h.finished r hr (by simp [hp]) job hj with h' | h' <;> simp_all
    split <;> simp [List.mem_erase_of_ne hne, hu]
  · intro r' hr' hp' job hj
    exact h.finished r' (List.mem_of_mem_erase hr') hp' job hj

/-- An execution past its process belongs to a completed or failed job, so a job in
another status has none. -/
theorem Inv.no_finished_run (h : Inv w) {jobId : Nat} {job : Job}
    (hj : w.st.jobs.get? jobId = some job) (hs : job.status ≠ "completed" ∧ job.status ≠ "failed")
    {r : Run} (hr : r ∈ w.runs) (hp : r.phase ≠ .started) : r.jobId ≠ jobId := by
  rintro rfl
  rcases h.finished r hr hp job hj with h' | h' <;> simp_all

/-- A step that writes one job of the table, keeping its names, and copies the table to
the ledger or leaves the ledger, keeps the invariant if what it writes keeps the last two
clauses. -/
theorem Inv.statusWrite (h : Inv w) {k : Nat} {f : Job → Job}
    (hf : ∀ job, (f job).names = job.names) {s' : St} (hjobs : s'.jobs = w.st.jobs.modify k f)
    (hledger : s'.ledger = s'.jobs ∨ s'.ledger = w.st.ledger) (hpool : s'.pool = w.st.pool)
    (husers : w.st.users ⊆ s'.users) (huuid : s'.uuid = w.st.uuid) (hheld : s'.held = w.st.held)
    (hc : ∀ job, w.st.jobs.get? k = some job → (f job).status = "cancelled" → 0 < w.inflight k →
      (f job).ephemeralUser ∈ s'.users)
    (hfin : ∀ job, w.st.jobs.get? k = some job → ∀ r ∈ w.runs, r.phase ≠ .started →
      r.jobId = k → (f job).status = "completed" ∨ (f job).status = "failed") :
    Inv ⟨s', w.runs⟩ := by
  have hnames := map_names_modify (d := w.st.jobs) (k := k) hf
  have hinf : ∀ j, World.inflight ⟨s', w.runs⟩ j = w.inflight j := by
    intro j; simp only [World.inflight, hpool]
  refine ⟨hheld.trans h.held, h.names.mono huuid.ge ?_, ?_, ?_, ?_, ?_, ?_⟩
  · rintro j t (ht | ht)
    · exact .inl (by simpa only [hjobs, hnames] using ht)
    · exact .inr ht
  · intro j
    dsimp only
    rcases hledger with hl | hl <;> rw [hl]
    rw [hjobs, hnames, h.ledger]
  · intro j hj; rw [huuid]; exact h.pool_lt j (hpool ▸ hj)
  · intro j; rw [hinf]; exact h.inflight_le j
  · intro j job hj hc' hi
    dsimp only at hj
    rw [hinf] at hi
    rw [hjobs, PyDict.get?_modify] at hj
    split_ifs at hj with hjk
    · subst hjk
      obtain ⟨job₀, hj₀, rfl⟩ := Option.map_eq_some'.1 hj
      exact hc job₀ hj₀ hc' hi
    · exact husers (h.cancelled j job hj hc' hi)
  · intro r hr hp job hj
    dsimp only at hj
    rw [hjobs, PyDict.get?_modify] at hj
    split_ifs at hj with hjk
    · obtain ⟨job₀, hj₀, rfl⟩ := Option.map_eq_some'.1 hj
      exact hfin job₀ hj₀ r hr hp hjk
    · exact h.finished r hr hp job hj

theorem Inv.cancel (h : Inv w) (jobId : Nat) (matched : Bool) :
    Inv { w with st := (cancelJob jobId matched .rlock w.st).state } := by
  rw [cancelJob_state]
  cases hj : w.st.jobs.get? jobId with
  | none => exact h
  | some job =>
    dsimp only
    split_ifs with hr
    · refine h.statusWrite (names_withStatus _) rfl (.inl rfl) rfl (fun _ => id) rfl rfl ?_ ?_
      · intro job' hj' _ _
        rw [hj] at hj'; cases hj'; exact hr.2.1
      · -- the job was running, so none of its executions is past its process
        intro job' hj' r hr' hp hrj
        rw [hj] at hj'; cases hj'
        exact absurd hrj (h.no_finished_run hj (by simp [hr.1]) hr' hp)
    · exact h

theorem Inv.delete (h : Inv w) (jobId : Nat) :
    Inv { w with st := (deleteJob jobId .rlock w.st).state } := by
  rw [deleteJob_state]
  cases hj : w.st.jobs.get? jobId with
  | none => exact h
  | some job =>
    dsimp only
    split_ifs with hr
    · exact h
    · refine ⟨h.held, h.names.mono le_rfl ?_, fun _ => rfl, h.pool_lt, h.inflight_le, ?_, ?_⟩
      · rintro j t (ht | ht)
        · refine .inl ?_
          dsimp only at ht
          rw [PyDict.get?_erase] at ht
          split_ifs at ht
          · simp at ht
          · exact ht
        · exact .inr ht
      · intro j job' hj' hc hi
        dsimp only at hj'
        rw [PyDict.get?_erase] at hj'
        split_ifs at hj'
        exact h.cancelled j job' hj' hc hi
      · intro r hr' hp job' hj'
        dsimp only at hj'
        rw [PyDict.get?_erase] at hj'
        split_ifs at hj'
        exact h.finished r hr' hp job' hj'

theorem Inv.restart (h : Inv w) (jobId : Nat) (allowed : Bool) :
    Inv { w with st := (restartJob jobId allowed .rlock w.st).state } := by
  rw [restartJob_state]
  cases hj : w.st.jobs.get? jobId with
  | none => exact h
  | some job =>
    dsimp only
    by_cases hr : job.status = "cancelled"
    swap
    · rw [if_neg hr]; exact h
    rw [if_pos hr]
    have hkey : job.jobId = jobId := h.names.key jobId job.names (.inl (by simp [hj]))
    have hlt : jobId < w.st.uuid := (h.names.lt jobId job.names (.inl (by simp [hj]))).1
    have hnofin : ∀ r ∈ w.runs, r.phase ≠ .started → r.jobId ≠ jobId :=
      fun r hr' hp => h.no_finished_run hj (by simp [hr]) hr' hp
    by_cases hu : allowed = true ∧ job.ephemeralUser ∉ w.st.users
    · rw [if_pos hu, if_pos hu, hkey]
      -- `useradd` succeeded, so the user was gone and the cancelled job had no execution
      have hzero : w.inflight jobId = 0 :=
        Nat.eq_zero_of_not_pos fun hpos => hu.2 (h.cancelled jobId job hj hr hpos)
      have hnames := map_names_modify (d := w.st.jobs) (k := jobId) (names_withStatus "queued")
      refine ⟨h.held, h.names.mono le_rfl ?_, fun _ => rfl, ?_, ?_, ?_, ?_⟩
      · rintro j t (ht | ht)
        · exact .inl (by simpa only [hnames] using ht)
        · exact .inr ht
      · intro j hj'
        rcases List.mem_append.1 hj' with hj' | hj'
        · exact h.pool_lt j hj'
        · rw [List.mem_singleton] at hj'; subst hj'; exact hlt
      · intro j
        have := h.inflight_le j
        simp only [World.inflight, List.count_append, List.count_singleton, beq_iff_eq] at this hzero ⊢
        split_ifs with hjj
        · subst hjj; omega
        · omega
      · intro j job' hj' hc hi
        dsimp only at hj'
        rw [PyDict.get?_modify] at hj'
        split_ifs at hj' with hjj
        · subst hjj; rw [hj] at hj'; cases hj'; simp [withStatus] at hc
        · refine List.mem_cons_of_mem _ (h.cancelled j job' hj' hc ?_)
          simp only [World.inflight, List.count_append, List.count_singleton, beq_iff_eq,
            if_neg (Ne.symm hjj)] at hi ⊢
          omega
      · intro r hr' hp job' hj'
        dsimp only at hj'
        rw [PyDict.get?_modify, if_neg (hnofin r hr' hp)] at hj'
        exact h.finished r hr' hp job' hj'
    · rw [if_neg hu, if_neg hu]
      refine h.statusWrite (names_withStatus _) rfl (.inl rfl) rfl (fun _ => id) rfl rfl ?_ ?_
      · intro job' _ hc; simp [withStatus] at hc
      · intro job' _ r hr' hp hrj; exact absurd hrj (hnofin r hr' hp)

/-- The next uuid names no execution. -/
theorem Inv.inflight_uuid (h : Inv w) : w.inflight w.st.uuid = 0 := by
  simp only [World.inflight, Nat.add_eq_zero, List.count_eq_zero, List.mem_map, not_exists,
    not_and]
  exact ⟨fun hp => absurd (h.pool_lt _ hp) (lt_irrefl _), fun r hr hrj =>
    absurd (hrj ▸ (h.names.lt r.jobId r.job.names (.inr ⟨r, hr, rfl, rfl⟩)).1) (lt_irrefl _)⟩

theorem Inv.enqueue (h : Inv w) (hashSecret : String → String)
    (command : List (Option String)) (secret : Option String) (allowed : Bool) :
    Inv { w with st := (enqueue hashSecret command secret allowed .rlock w.st).state } := by
  rw [enqueue_state]
  set u := w.st.uuid
  set job := enqueuedJob hashSecret command secret w.st
  have hjob : job.names = (u, u + 1, u + 2) := rfl
  -- every name of the new world is an old one or the new job's, which are all fresh
  have hnew : ∀ j t, World.HasNames ⟨{ w.st with
      jobs := w.st.jobs.set u job, ledger := w.st.jobs.set u job
      dirs := if u + 2 ∈ w.st.dirs then w.st.dirs else (u + 2) :: w.st.dirs, uuid := u + 3
      users := if allowed = true ∧ u + 1 ∉ w.st.users then (u + 1) :: w.st.users else w.st.users
      pool := if allowed = true ∧ u + 1 ∉ w.st.users then w.st.pool ++ [u] else w.st.pool },
      w.runs⟩ j t → w.HasNames j t ∨ (j = u ∧ t = (u, u + 1, u + 2)) := by
    rintro j t (ht | ht)
    · dsimp only at ht
      rw [PyDict.get?_set] at ht
      split_ifs at ht with hj
      · simp only [Option.map_some', Option.some.injEq] at ht
        exact .inr ⟨hj, ht ▸ hjob⟩
      · exact .inl (.inl ht)
    · exact .inl (.inr ht)
  have hold := h.names.lt
  have hrun : ∀ r ∈ w.runs, r.jobId < u := fun r hr =>
    (hold r.jobId r.job.names (.inr ⟨r, hr, rfl, rfl⟩)).1
  refine ⟨h.held, ⟨?_, ?_, ?_, ?_⟩, ?_, ?_, ?_, ?_, ?_⟩
  · intro j t ht
    rcases hnew j t ht with ht | ⟨rfl, rfl⟩
    · have := hold j t ht; dsimp only; omega
    · dsimp only; omega
  · intro j t ht
    rcases hnew j t ht with ht | ⟨rfl, rfl⟩
    · exact h.names.key j t ht
    · rfl
  · intro j t j' t' ht ht'
    rcases hnew j t ht with ht | ⟨rfl, rfl⟩ <;> rcases hnew j' t' ht' with ht' | ⟨rfl, rfl⟩
    · exact h.names.user j t j' t' ht ht'
    · have := hold j t ht; dsimp only; omega
    · have := hold j' t' ht'; dsimp only; omega
    · simp
  · intro j t j' t' ht ht'
    rcases hnew j t ht with ht | ⟨rfl, rfl⟩ <;> rcases hnew j' t' ht' with ht' | ⟨rfl, rfl⟩
    · exact h.names.dir j t j' t' ht ht'
    · have := hold j t ht; dsimp only; omega
    · have := hold j' t' ht'; dsimp only; omega
    · simp
  · intro j; rfl
  · intro j hj
    dsimp only at hj ⊢
    split_ifs at hj
    · rcases List.mem_append.1 hj with hj | hj
      · have := h.pool_lt j hj; omega
      · rw [List.mem_singleton] at hj; omega
    · have := h.pool_lt j hj; omega
  · -- only the new job gains an execution, and it had none
    have hu0 : w.inflight u = 0 := h.inflight_uuid
    intro j
    have := h.inflight_le j
    simp only [World.inflight] at this hu0 ⊢
    split_ifs
    · simp only [List.count_append, List.count_singleton, beq_iff_eq]
      split_ifs with hj
      · subst hj; omega
      · omega
    · exact this
  · intro j job' hj' hc hi
    dsimp only at hj'
    rw [PyDict.get?_set] at hj'
    split_ifs at hj' with hju
    · cases hj'; simp [job, enqueuedJob] at hc
    · have hi' : 0 < w.inflight j := by
        simp only [World.inflight] at hi ⊢
        split_ifs at hi
        · simpa [List.count_append, List.count_singleton, Ne.symm hju] using hi
        · exact hi
      have := h.cancelled j job' hj' hc hi'
      dsimp only; split_ifs
      · exact List.mem_cons_of_mem _ this
      · exact this
  · intro r hr hp job' hj'
    dsimp only at hj'
    rw [PyDict.get?_set, if_neg (Nat.ne_of_lt (hrun r hr))] at hj'
    exact h.finished r hr hp job' hj'

theorem Inv.start (h : Inv w) {jobId : Nat} (hj : jobId ∈ w.st.pool) {w' : World}
    (hw : (match runStart jobId .rlock { w.st with pool := w.st.pool.erase jobId } with
      | .ok job s => some ⟨s, ⟨jobId, job, .started⟩ :: w.runs⟩
      | o => some ⟨o.state, w.runs⟩) = some w') : Inv w' := by
  rw [runStart_rlock] at hw
  have hcount : ∀ j, (w.st.pool.erase jobId).count j + (if j = jobId then 1 else 0) =
      w.st.pool.count j := by
    intro j
    split_ifs with hjj
    · subst hjj; rw [List.count_erase_self]; have := List.count_pos_iff.2 hj; omega
    · rw [List.count_erase_of_ne hjj]; simp
  cases hjob : w.st.jobs.get? jobId with
  | none =>
    -- the job was deleted: the execution raises `KeyError` and leaves
    simp only [hjob, Option.some.injEq] at hw
    subst hw
    have hle : ∀ j, World.inflight ⟨{ w.st with pool := w.st.pool.erase jobId }, w.runs⟩ j ≤
        w.inflight j := by
      intro j; have := hcount j; simp only [World.inflight]; omega
    refine ⟨h.held, h.names.mono le_rfl fun j t ht => ht, h.ledger,
      fun j hj' => h.pool_lt j (List.mem_of_mem_erase hj'),
      fun j => (hle j).trans (h.inflight_le j),
      fun j job hj' hc hi => h.cancelled j job hj' hc (lt_of_lt_of_le hi (hle j)), h.finished⟩
  | some job =>
    simp only [hjob, Option.some.injEq] at hw
    subst hw
    have hnames := map_names_modify (d := w.st.jobs) (k := jobId) (names_withStatus "running")
    have hinf : ∀ j, World.inflight ⟨{ w.st with
        pool := w.st.pool.erase jobId
        jobs := w.st.jobs.modify jobId (withStatus "running")
        ledger := w.st.jobs.modify jobId (withStatus "running") },
        ⟨jobId, job, .started⟩ :: w.runs⟩ j = w.inflight j := by
      intro j
      have := hcount j
      simp only [World.inflight, List.map_cons, List.count_cons, beq_iff_eq]
      split_ifs at this ⊢ <;> omega
    refine ⟨h.held, h.names.mono le_rfl ?_, fun _ => rfl,
      fun j hj' => h.pool_lt j (List.mem_of_mem_erase hj'), fun j => hinf j ▸ h.inflight_le j,
      ?_, ?_⟩
    · rintro j t (ht | ⟨r, hr, rfl, rfl⟩)
      · exact .inl (by simpa only [hnames] using ht)
      · rcases List.mem_cons.1 hr with rfl | hr
        · exact .inl (by simp [hjob])
        · exact .inr ⟨r, hr, rfl, rfl⟩
    · intro j job' hj' hc hi
      dsimp only at hj'
      rw [hinf] at hi
      rw [PyDict.get?_modify] at hj'
      split_ifs at hj' with hjj
      · subst hjj; rw [hjob] at hj'; cases hj'; simp [withStatus] at hc
      · exact h.cancelled j job' hj' hc hi
    · intro r hr hp job' hj'
      rcases List.mem_cons.1 hr with rfl | hr
      · exact absurd rfl hp
      · -- a second execution of the job would exceed the bound
        have hne : r.jobId ≠ jobId := fun he =>
          absurd (h.inflight_le jobId) (by
            have := inflight_two_of_mem (w := w) hr he (.inl hj)
            omega)
        dsimp only at hj'
        rw [PyDict.get?_modify, if_neg hne] at hj'
        exact h.finished r hr hp job' hj'

theorem Inv.crash (h : Inv w) : Inv ⟨(loadJobs .rlock (reboot w.st)).state, []⟩ := by
  rw [loadJobs_rlock, Outcome.state_ok]
  have hget : ∀ j, (loadTable (reboot w.st).ledger.items (reboot w.st).jobs).get? j =
      w.st.ledger.get? j := PyDict.get?_setAll_items w.st.ledger
  refine ⟨rfl, h.names.mono (by dsimp only [reboot]; omega) ?_, ?_, ?_, ?_, ?_, ?_⟩
  · rintro j t (ht | ⟨r, hr, -⟩)
    · refine .inl ?_
      dsimp only at ht
      rwa [hget, h.ledger] at ht
    · simp at hr
  · intro j; dsimp only; rw [hget]; rfl
  · intro j hj
    dsimp only [reboot] at hj ⊢
    obtain ⟨job, hjob, -⟩ := mem_resubmitted.1 (by simpa using hj)
    have : (w.st.jobs.get? j).map Job.names = some job.names := by rw [← h.ledger, hjob]; rfl
    have := (h.names.lt j job.names (.inl this)).1
    omega
  · intro j
    simp only [World.inflight, reboot, List.nil_append, List.map_nil, List.count_nil, Nat.add_zero]
    rw [List.count_eq_of_nodup (resubmitted_nodup _)]
    split_ifs <;> omega
  · intro j job hj hc hi
    dsimp only at hj
    rw [hget] at hj
    simp only [World.inflight, reboot, List.nil_append, List.map_nil, List.count_nil, Nat.add_zero,
      List.count_pos_iff] at hi
    obtain ⟨job', hj', hs⟩ := mem_resubmitted.1 hi
    rw [hj] at hj'; cases hj'
    rcases hs with hs | hs <;> simp_all
  · intro r hr; simp at hr

end Preservation

/-- **Every step keeps the invariant.** -/
theorem Inv.step {hashSecret : String → String} {w w' : World} {a : Act} (h : Inv w)
    (hs : step hashSecret w a = some w') : Inv w' := by
  cases a with
  | enqueue command secret allowed => cases hs; exact h.enqueue hashSecret command secret allowed
  | start jobId =>
    simp only [JobQueue.step, stepWith] at hs
    split_ifs at hs with hj
    exact h.start hj hs
  | finish r proc =>
    simp only [JobQueue.step, stepWith] at hs
    split_ifs at hs with hr
    cases hs; exact h.finish hr.1 proc
  | save r =>
    obtain ⟨hr₁, hr₂, rfl⟩ := step_save hs
    exact h.save hr₁ hr₂
  | deleteUser r removed =>
    simp only [JobQueue.step, stepWith] at hs
    split_ifs at hs with hr
    cases hs; exact h.deleteUser hr.1 hr.2 removed
  | cancel jobId matched => cases hs; exact h.cancel jobId matched
  | restart jobId allowed => cases hs; exact h.restart jobId allowed
  | delete jobId => cases hs; exact h.delete jobId
  | crash => cases hs; exact h.crash

/-- **Every reachable world satisfies the invariant.** -/
theorem ReachableBy.inv {hashSecret : String → String} {allowed : Act → Prop} {w : World}
    (hr : ReachableBy hashSecret allowed w) : Inv w := by
  induction hr with
  | init => exact Inv.init
  | step _ _ hs ih => exact ih.step hs

end Sandrun.JobQueue
