import Sandrun.RateLimiter.Window

/-!
# Concurrent submissions

A submission from an IP is two calls: `can_submit_job(ip)`, and, when that allows it,
`register_job_start(ip, job_id)`.  Each call takes `self.lock` on its own, so the
submissions of one IP interleave with each other and with `register_job_end`: two checks
can both pass before either submission registers, and then both register.

`Sys` is the limiter with the submissions in progress and, as ghost state, the complete
histories of the IP.  A step is one of the three calls, at a clock value no earlier than
the last one.

## Main definitions

* `Ev`, `Sys`, `Sys.step` — the calls of the submissions and their effect.
* `Reach` — the systems reached by the steps a predicate allows.
* `Serial` — no check while an allowed submission has not registered yet.
* `Bounded` — the concurrency and hourly limits.

## Main results

* `serial_submissions_bounded` — **when every allowed submission registers before the
  next check, the limits hold.**
* `concurrent_checks_exceed` — three interleaved submissions all start under a limit of
  two concurrent jobs.
-/

namespace Sandrun.RateLimiter

/-- A call of a submission, or a job's end, with the clock value it reads. -/
inductive Ev
  /-- Submission `sub` calls `can_submit_job(ip)`. -/
  | check (sub : Nat) (now : ℚ)
  /-- Submission `sub`, allowed, calls `register_job_start(ip, job_id)`. -/
  | start (sub : Nat) (jobId : String) (now : ℚ)
  /-- A job of the IP ends: `register_job_end(ip, job_id, cpu_seconds)`. -/
  | finish (jobId : String) (cpuSeconds : ℚ) (now : ℚ)

/-- The limiter, the submissions of the IP in progress, and the IP's complete histories. -/
structure Sys where
  lim : RL
  /-- Submissions allowed and not registered yet. -/
  granted : List Nat
  /-- Submissions registered. -/
  started : List Nat
  /-- Ghost: every start and sample registered, and the active set. -/
  hist : History
  /-- The clock value of the last call. -/
  clock : ℚ

/-- A new limiter and no submission. -/
def Sys.init : Sys := ⟨RL.init, [], [], ⟨∅, [], []⟩, 0⟩

/-- One call, `none` if it cannot be made. -/
def Sys.step (c : Config) (ip : String) (w : Sys) : Ev → Option Sys
  | .check sub now =>
    if w.clock ≤ now ∧ sub ∉ w.granted ∧ sub ∉ w.started then
      let r := canSubmitJob c ip now w.lim
      some { w with
        lim := r.2
        granted := match r.1 with
          | .ok .allowed => w.granted ++ [sub]
          | _ => w.granted
        clock := now }
    else none
  | .start sub jobId now =>
    if w.clock ≤ now ∧ sub ∈ w.granted then
      some ⟨registerJobStart ip jobId now w.lim, w.granted.erase sub, sub :: w.started,
        ⟨insert jobId w.hist.active, w.hist.starts ++ [now], w.hist.samples⟩, now⟩
    else none
  | .finish jobId cpuSeconds now =>
    if w.clock ≤ now then
      some { w with
        lim := registerJobEnd ip jobId cpuSeconds now w.lim
        hist := ⟨w.hist.active.erase jobId, w.hist.starts, w.hist.samples ++ [(now, cpuSeconds)]⟩
        clock := now }
    else none

/-- The calls in order; `none` if one cannot be made. -/
def Sys.steps (c : Config) (ip : String) (w : Sys) : List Ev → Option Sys
  | [] => some w
  | e :: es => (w.step c ip e).bind fun w' => w'.steps c ip es

/-- The systems reached from a new limiter by calls that `ok` allows. -/
inductive Reach (c : Config) (ip : String) (ok : Sys → Ev → Prop) : Sys → Prop
  | init : Reach c ip ok Sys.init
  | step {w w' : Sys} {e : Ev} : Reach c ip ok w → ok w e → w.step c ip e = some w' →
      Reach c ip ok w'

/-- Serial submissions: a check is made only when no allowed submission is waiting to
register. -/
def Serial (w : Sys) : Ev → Prop
  | .check _ _ => w.granted = []
  | _ => True

/-- The starts in the hour that ends at `T`, the window `(T - 3600, T]`. -/
def startsIn (starts : List ℚ) (T : ℚ) : Nat :=
  (starts.filter fun t => T - 3600 < t ∧ t ≤ T).length

/-- The limits: at most `max_concurrent_jobs` active jobs, and at most
`max_jobs_per_hour` starts in every hour. -/
def Bounded (c : Config) (ip : String) (w : Sys) : Prop :=
  ((w.lim.activeJobs.getD ip ∅).card : Int) ≤ c.maxConcurrentJobs ∧
    ∀ T, (startsIn w.hist.starts T : Int) ≤ c.maxJobsPerHour

/-! ### The hourly window -/

/-- A start at `t₂`, allowed by a check at `t₁ ≤ t₂` that saw fewer than `m` starts in its
hour, keeps every hour at `m` starts or fewer. -/
theorem startsIn_snoc_le {starts : List ℚ} {t₁ t₂ : ℚ} {m : Int}
    (hall : ∀ T, (startsIn starts T : Int) ≤ m) (hrec : ((recentJobs starts t₁).length : Int) < m)
    (h12 : t₁ ≤ t₂) (T : ℚ) : (startsIn (starts ++ [t₂]) T : Int) ≤ m := by
  unfold startsIn
  rw [List.filter_append, List.length_append]
  by_cases hT : T - 3600 < t₂ ∧ t₂ ≤ T
  · -- the hour of `T` holds the new start, and counts only starts after `t₁ - 3600`
    have hle : (starts.filter fun t => T - 3600 < t ∧ t ≤ T).length ≤
        (recentJobs starts t₁).length := by
      rw [recentJobs, ← List.countP_eq_length_filter, ← List.countP_eq_length_filter]
      refine List.countP_mono_left fun x _ hx => ?_
      simp only [decide_eq_true_eq] at hx ⊢
      linarith [hx.1]
    have h1 : ([t₂].filter fun t => T - 3600 < t ∧ t ≤ T).length = 1 := by simp [hT]
    omega
  · have h0 : ([t₂].filter fun t => T - 3600 < t ∧ t ≤ T).length = 0 := by simp [hT]
    rw [h0, Nat.add_zero]
    exact hall T

/-! ### The invariant of serial submissions -/

/-- The limiter simulates the ghost histories, the limits hold, and a waiting allowed
submission is the only one, was allowed below both limits, and nothing has started
since. -/
structure AdmOk (c : Config) (ip : String) (w : Sys) : Prop where
  sim : Sim ip w.clock w.lim w.hist
  active : (w.hist.active.card : Int) ≤ c.maxConcurrentJobs
  hourly : ∀ T, (startsIn w.hist.starts T : Int) ≤ c.maxJobsPerHour
  granted : ∀ sub ∈ w.granted, w.granted = [sub] ∧
    (w.hist.active.card : Int) < c.maxConcurrentJobs ∧
    ∃ t₁ ≤ w.clock, ((recentJobs w.hist.starts t₁).length : Int) < c.maxJobsPerHour

theorem AdmOk.init {c : Config} {ip : String} (hC : 0 ≤ c.maxConcurrentJobs)
    (hH : 0 ≤ c.maxJobsPerHour) : AdmOk c ip Sys.init :=
  ⟨Sim.history ip 0 RL.init, by simpa [Sys.init] using hC, fun T => by simpa [Sys.init, startsIn] using hH,
    by simp [Sys.init]⟩

section Preservation

variable {c : Config} {ip : String} {w w' : Sys}

theorem AdmOk.check (h : AdmOk c ip w) (hg : w.granted = []) {sub : Nat} {now : ℚ}
    (hs : w.step c ip (.check sub now) = some w') : AdmOk c ip w' := by
  simp only [Sys.step] at hs
  split_ifs at hs with hok
  cases hs
  refine ⟨h.sim.canSubmitJob hok.1, h.active, h.hourly, ?_⟩
  dsimp only
  split
  · -- the check allowed the submission: both limits were not reached
    rename_i hr
    obtain ⟨hc₁, hc₂⟩ := canSubmitJob_allowed hr
    rw [h.sim.active] at hc₁
    rw [h.sim.recentJobs_prune_eq hok.1] at hc₂
    intro sub' hsub'
    rw [hg, List.nil_append, List.mem_singleton] at hsub'
    subst hsub'
    exact ⟨by rw [hg, List.nil_append], hc₁, now, le_rfl, hc₂⟩
  · intro sub' hsub'
    rw [hg] at hsub'
    simp at hsub'

theorem AdmOk.start (h : AdmOk c ip w) {sub : Nat} {jobId : String} {now : ℚ}
    (hs : w.step c ip (.start sub jobId now) = some w') : AdmOk c ip w' := by
  simp only [Sys.step] at hs
  split_ifs at hs with hok
  cases hs
  obtain ⟨hone, hlt, t₁, ht₁, hrec⟩ := h.granted sub hok.2
  refine ⟨h.sim.registerJobStart hok.1 jobId, ?_, startsIn_snoc_le h.hourly hrec (ht₁.trans hok.1), ?_⟩
  · have := Finset.card_insert_le jobId w.hist.active
    dsimp only
    omega
  · intro sub' hsub'
    rw [hone, List.erase_cons_head] at hsub'
    simp at hsub'

theorem AdmOk.finish (h : AdmOk c ip w) {jobId : String} {cpuSeconds now : ℚ}
    (hs : w.step c ip (.finish jobId cpuSeconds now) = some w') : AdmOk c ip w' := by
  simp only [Sys.step] at hs
  split_ifs at hs with hok
  cases hs
  have hle : (w.hist.active.erase jobId).card ≤ w.hist.active.card := Finset.card_erase_le
  have hact := h.active
  refine ⟨h.sim.registerJobEnd hok jobId cpuSeconds, by dsimp only; omega, h.hourly, ?_⟩
  intro sub hsub
  obtain ⟨hone, hlt, t₁, ht₁, hrec⟩ := h.granted sub hsub
  exact ⟨hone, by dsimp only; omega, t₁, ht₁.trans hok, hrec⟩

/-- Every serial step keeps the invariant. -/
theorem AdmOk.step (h : AdmOk c ip w) {e : Ev} (he : Serial w e) (hs : w.step c ip e = some w') :
    AdmOk c ip w' := by
  cases e with
  | check sub now => exact h.check he hs
  | start sub jobId now => exact h.start hs
  | finish jobId cpuSeconds now => exact h.finish hs

end Preservation

/-- **Serial submissions keep the limits.**  With nonnegative limits, when every allowed
submission registers before the next check of the IP, the IP never has more than
`max_concurrent_jobs` active jobs, and no hour `(T - 3600, T]` holds more than
`max_jobs_per_hour` starts. -/
theorem serial_submissions_bounded {c : Config} {ip : String} {w : Sys}
    (hC : 0 ≤ c.maxConcurrentJobs) (hH : 0 ≤ c.maxJobsPerHour) (hw : Reach c ip Serial w) :
    Bounded c ip w := by
  have h : AdmOk c ip w := by
    induction hw with
    | init => exact AdmOk.init hC hH
    | step _ he hs ih => exact ih.step he hs
  exact ⟨h.sim.active ▸ h.active, h.hourly⟩

/-- A submission that registers, and the check of the next one: the limits hold with one
job active. -/
theorem serial_submissions_bounded_second_check :
    ∃ w, Sys.init.steps Config.default "10.0.0.1" [.check 0 0, .start 0 "a" 0, .check 1 0] = some w ∧
      w.hist.starts = [0] ∧ w.hist.active = {"a"} ∧
      Bounded Config.default "10.0.0.1" w := by
  have h₁ := @Reach.step Config.default "10.0.0.1" Serial _ _ (.check 0 0) .init rfl rfl
  have h₂ := @Reach.step Config.default "10.0.0.1" Serial _ _ (.start 0 "a" 0) h₁ trivial rfl
  have hr := @Reach.step Config.default "10.0.0.1" Serial _ _ (.check 1 0) h₂ rfl rfl
  exact ⟨_, rfl, rfl, by decide, serial_submissions_bounded (by decide) (by decide) hr⟩

/-- Three submissions from one IP check before any registers: all three are allowed, and
all three start, under the default limit of two concurrent jobs. -/
theorem concurrent_checks_exceed :
    ((Sys.init.steps Config.default "10.0.0.1"
      [.check 0 0, .check 1 0, .check 2 0, .start 0 "a" 0, .start 1 "b" 0, .start 2 "c" 0]).map
        fun w => (w.lim.activeJobs.getD "10.0.0.1" ∅).card) = some 3 := by
  decide

end Sandrun.RateLimiter
