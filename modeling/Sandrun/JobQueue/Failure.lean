import Sandrun.JobQueue.Lock
import Sandrun.JobQueue.Spec

/-!
# What a failed call leaves behind

`enqueue` stores and saves the new job before it creates the job's user, and `restart_job`
marks the job queued and saves before it does; when `useradd` then fails, the
`CalledProcessError` leaves the method with the job saved as queued and no run submitted.
The other exceptions of the four methods are raised before anything is written, or, in
`cancel_job` and `delete_job`, caught and re-raised from a block whose writes come after
the point that fails.

With the queue's `threading.Lock` the two writes that precede `useradd` end in the
self-deadlock of `_save_jobs`; the first section shows that the non-reentrant lock only
ever adds blocking, so every exception raised with it is one the reentrant lock raises
too, from the same state and with the same result.

## Main definitions

* `LockRefines` — with `threading.Lock` a method blocks holding the lock, or ends as with
  `RLock`.

## Main results

* `LockRefines.error` — an exception raised with the non-reentrant lock is raised with
  the reentrant one.
* `failed_useradd_leaves_queued_job` — a failed `useradd` leaves the job saved as queued
  with no run submitted, in `enqueue` and in `restart_job`.
* `failed_call_changes_nothing` — every other exception of the four methods leaves the
  whole state as it was, and with `threading.Lock` each method blocks holding the lock or
  ends as with `RLock`.
-/

namespace Sandrun.JobQueue

open JQ

/-! ### A non-reentrant lock only adds blocking -/

section Refines

variable {α β : Type}

/-- Run with `threading.Lock`, the method blocks for ever, waiting with the lock held, or
ends as it does with `RLock`. -/
def LockRefines (m : JQ α) : Prop :=
  ∀ s, (∃ s', m .lock s = .blocked s' ∧ s'.held = true) ∨ m .lock s = m .rlock s

/-- A step that does not take the lock. -/
theorem LockRefines.of_eq {m : JQ α} (h : ∀ s, m .lock s = m .rlock s) : LockRefines m :=
  fun s => .inr (h s)

theorem LockRefines.bind {m : JQ α} {f : α → JQ β} (hm : LockRefines m)
    (hf : ∀ a, LockRefines (f a)) : LockRefines (m >>= f) := by
  intro s
  rw [bind_apply, bind_apply]
  rcases hm s with ⟨s', hb, hh⟩ | he
  · exact .inl ⟨s', by rw [hb], hh⟩
  · rw [he]
    cases m .rlock s with
    | ok a s' => exact hf a s'
    | error e s' => exact .inr rfl
    | blocked s' => exact .inr rfl

theorem LockRefines.withLock {body : JQ α} (h : LockRefines body) : LockRefines (withLock body) := by
  intro s
  by_cases hs : s.held = true
  · exact .inl ⟨s, by simp [JobQueue.withLock, hs], hs⟩
  · simp only [JobQueue.withLock, hs, false_and, if_false]
    rcases h { s with held := true } with ⟨s', hb, hh⟩ | he
    · exact .inl ⟨s', by simp [hb], hh⟩
    · exact .inr (by simp [he])

theorem LockRefines.tryExcept {body : JQ α} {handler : Exc → JQ α} (h : LockRefines body)
    (hh : ∀ e, LockRefines (handler e)) : LockRefines (JobQueue.tryExcept body handler) := by
  intro s
  simp only [JobQueue.tryExcept]
  rcases h s with ⟨s', hb, hl⟩ | he
  · exact .inl ⟨s', by rw [hb], hl⟩
  · rw [he]
    cases body .rlock s with
    | error e s' => exact hh e s'
    | ok a s' => exact .inr rfl
    | blocked s' => exact .inr rfl

theorem LockRefines.pure (a : α) : LockRefines (Pure.pure a : JQ α) := .of_eq fun _ => rfl

theorem LockRefines.raise (e : Exc) : LockRefines (JobQueue.raise e : JQ α) := .of_eq fun _ => rfl

theorem LockRefines.update (f : St → St) : LockRefines (JobQueue.update f) := .of_eq fun _ => rfl

theorem LockRefines.lookup (jobId : Nat) : LockRefines (JobQueue.lookup jobId) := .of_eq fun _ => rfl

theorem LockRefines.pkill (user : Nat) (matched : Bool) : LockRefines (JobQueue.pkill user matched) :=
  .of_eq fun _ => rfl

theorem LockRefines.createUser (user : Nat) (allowed : Bool) :
    LockRefines (JobQueue.createUser user allowed) :=
  .of_eq fun _ => rfl

/-- An exception raised with the non-reentrant lock is raised with the reentrant one,
from the same state and with the same result. -/
theorem LockRefines.error {m : JQ α} (hm : LockRefines m) {k : LockKind} {s s' : St} {e : Exc}
    (h : m k s = .error e s') : m .rlock s = .error e s' := by
  cases k with
  | rlock => exact h
  | lock =>
    rcases hm s with ⟨_, hb, -⟩ | he
    · rw [h] at hb; cases hb
    · exact he ▸ h

/-- The state a call ends in with the non-reentrant lock: the one it ends in with the
reentrant lock, or one where the lock is held. -/
theorem LockRefines.state {m : JQ α} (hm : LockRefines m) (s : St) :
    (m .lock s).state = (m .rlock s).state ∨ (m .lock s).state.held = true := by
  rcases hm s with ⟨s', hb, hh⟩ | he
  · exact .inr (by rw [hb]; exact hh)
  · exact .inl (by rw [he])

end Refines

/-! #### The four methods -/

section Methods

theorem saveJobs_lockRefines : LockRefines saveJobs := (LockRefines.update _).withLock

theorem setStatus_lockRefines (jobId : Nat) (status : String) : LockRefines (setStatus jobId status) :=
  .update _

theorem newJob_lockRefines (hashSecret : String → String) (command : List (Option String))
    (secret : Option String) : LockRefines (newJob hashSecret command secret) :=
  .of_eq fun _ => rfl

theorem enqueue_lockRefines (hashSecret : String → String) (command : List (Option String))
    (secret : Option String) (allowed : Bool) :
    LockRefines (enqueue hashSecret command secret allowed) :=
  (newJob_lockRefines hashSecret command secret).bind fun _ =>
    ((LockRefines.update _).bind fun _ => saveJobs_lockRefines).withLock.bind fun _ =>
      (LockRefines.update _).bind fun _ =>
        (LockRefines.createUser _ _).bind fun _ =>
          (LockRefines.update _).bind fun _ => .pure _

/-- The first block of `_run_job`. -/
theorem runStart_lockRefines (jobId : Nat) : LockRefines (runStart jobId) :=
  LockRefines.withLock ((LockRefines.of_eq fun _ => rfl : LockRefines (getItem jobId)).bind fun _ =>
    (setStatus_lockRefines _ _).bind fun _ => saveJobs_lockRefines.bind fun _ => .pure _)

/-- The save of `_run_job`'s `finally` block. -/
theorem runSave_lockRefines : LockRefines runSave := saveJobs_lockRefines.withLock

theorem cancelJob_lockRefines (jobId : Nat) (matched : Bool) :
    LockRefines (cancelJob jobId matched) := by
  refine LockRefines.withLock ((LockRefines.lookup jobId).bind fun o => ?_)
  rcases o with _ | job
  · exact .raise _
  · dsimp only
    split
    · exact .raise _
    · refine LockRefines.tryExcept ((LockRefines.pkill _ _).bind fun rc => ?_) fun _ => .raise _
      split
      · exact .raise _
      · exact (setStatus_lockRefines _ _).bind fun _ => saveJobs_lockRefines

theorem restartJob_lockRefines (jobId : Nat) (allowed : Bool) :
    LockRefines (restartJob jobId allowed) := by
  refine LockRefines.withLock ((LockRefines.lookup jobId).bind fun o => ?_)
  rcases o with _ | job
  · exact .raise _
  · dsimp only
    split
    · exact .raise _
    · exact (setStatus_lockRefines _ _).bind fun _ => saveJobs_lockRefines.bind fun _ =>
        (LockRefines.update _).bind fun _ => (LockRefines.createUser _ _).bind fun _ =>
          .update _

theorem deleteJob_lockRefines (jobId : Nat) : LockRefines (deleteJob jobId) := by
  refine LockRefines.withLock ((LockRefines.lookup jobId).bind fun o => ?_)
  rcases o with _ | job
  · exact .raise _
  · dsimp only
    split
    · exact .raise _
    · exact LockRefines.tryExcept ((LockRefines.update _).bind fun _ =>
        saveJobs_lockRefines.bind fun _ => .update _) fun _ => .raise _

end Methods

/-! ### Failures -/

/-- **A failed `useradd` strands the job.**  With the reentrant lock, when `useradd`
fails, `enqueue` raises with its new job in the table and the ledger, queued, and no run
submitted; and `restart_job` raises with the cancelled job in the table and the ledger,
queued, and no run submitted. -/
theorem failed_useradd_leaves_queued_job (hashSecret : String → String)
    (command : List (Option String)) (secret : Option String) (s : St) {jobId : Nat} {job : Job}
    (hj : s.jobs.get? jobId = some job) (hc : job.status = "cancelled") :
    (∃ s', enqueue hashSecret command secret false .rlock s = .error .calledProcessError s' ∧
      (s'.jobs.get? s.uuid).map (·.status) = some "queued" ∧ s'.ledger = s'.jobs ∧
      s'.pool = s.pool) ∧
    (∃ s', restartJob jobId false .rlock s = .error .calledProcessError s' ∧
      (s'.jobs.get? jobId).map (·.status) = some "queued" ∧ s'.ledger = s'.jobs ∧
      s'.pool = s.pool) := by
  constructor
  · simp only [enqueue_rlock, Bool.false_eq_true, false_and, if_false]
    exact ⟨_, rfl, by simp [enqueuedJob], rfl, rfl⟩
  · simp only [restartJob_rlock, hj, hc, ne_eq, not_true_eq_false, if_false, Bool.false_eq_true,
      false_and]
    exact ⟨_, rfl, by simp [hj, withStatus], rfl, rfl⟩

/-- **Every other exception changes nothing.**  With either kind of lock, an exception
of `cancel_job` or `delete_job`, and one of `restart_job` other than `useradd`'s, leaves
the state as it was; `enqueue` raises only `useradd`'s.  With `threading.Lock` each of the
four methods blocks holding the lock, or ends as with a reentrant lock. -/
theorem failed_call_changes_nothing (k : LockKind) (s s' : St) (e : Exc) :
    (∀ jobId matched, cancelJob jobId matched k s = .error e s' → s' = s) ∧
    (∀ jobId, deleteJob jobId k s = .error e s' → s' = s) ∧
    (∀ jobId allowed, restartJob jobId allowed k s = .error e s' →
      s' = s ∨ e = .calledProcessError) ∧
    (∀ hashSecret command secret allowed,
      enqueue hashSecret command secret allowed k s = .error e s' → e = .calledProcessError) ∧
    (∀ jobId matched allowed hashSecret command secret,
      LockRefines (cancelJob jobId matched) ∧ LockRefines (deleteJob jobId) ∧
        LockRefines (restartJob jobId allowed) ∧
        LockRefines (enqueue hashSecret command secret allowed)) := by
  refine ⟨fun jobId matched h => ?_, fun jobId h => ?_, fun jobId allowed h => ?_,
    fun hashSecret command secret allowed h => ?_, fun jobId matched allowed hashSecret command secret =>
      ⟨cancelJob_lockRefines jobId matched, deleteJob_lockRefines jobId,
        restartJob_lockRefines jobId allowed, enqueue_lockRefines hashSecret command secret allowed⟩⟩
  · have h := (cancelJob_lockRefines jobId matched).error h
    rw [cancelJob_rlock] at h
    split at h
    · cases h; rfl
    · split_ifs at h <;> cases h <;> rfl
  · have h := (deleteJob_lockRefines jobId).error h
    rw [deleteJob_rlock] at h
    split at h
    · cases h; rfl
    · split_ifs at h; cases h; rfl
  · have h := (restartJob_lockRefines jobId allowed).error h
    rw [restartJob_rlock] at h
    split at h
    · cases h; exact .inl rfl
    · dsimp only at h
      split_ifs at h <;> cases h <;> simp
  · have h := (enqueue_lockRefines hashSecret command secret allowed).error h
    rw [enqueue_rlock] at h
    dsimp only at h
    split_ifs at h <;> cases h <;> rfl

/-- `cancel_job` of a running job whose `pkill` matches nothing raises with
`threading.Lock`, and leaves the state as it was. -/
theorem failed_call_changes_nothing_unmatched :
    let s : St := { St.init with
      jobs := PyDict.empty.set 0 ⟨0, 1, 2, [], "running", "", none⟩, users := [1] }
    ∃ e s', cancelJob 0 false .lock s = .error e s' ∧ s' = s :=
  ⟨_, _, rfl, (failed_call_changes_nothing .lock _ _ _).1 0 false rfl⟩

end Sandrun.JobQueue
