import Sandrun.RateLimiter.Basic

/-!
# Pruning never changes an answer

`_cleanup_old_entries` drops samples and start times from the front of an IP's deques
while they are older than the window.  This module shows that the dropped entries are
never counted again: on calls at nondecreasing clock values, the limiter answers as the
admission policy does on the complete histories, the active set, every start and every
sample ever registered.

The proof is a simulation.  The complete history of an IP is its deque with a prefix put
back, and every entry of that prefix is older than the window at the last clock value
(`Sim`).  A window at a later clock value does not count such an entry, and pruning at
that value only moves entries older than its window into the prefix.

The one exception is a quota of zero CPU seconds or less: then the CPU check rejects an
IP with no sample, and the code raises `IndexError` reading the oldest sample.

## Main definitions

* `Call`, `Answer` — the calls for one IP, and what each answers.
* `History`, `History.policy` — the complete histories and the admission policy on them.
* `Sim` — the simulation relation.

## Main results

* `answers_eq_policy` — **the limiter answers as the policy on complete histories.**
* `zero_quota_raises` — with a zero quota the first check of a new IP raises.
-/

namespace Sandrun.RateLimiter

/-- A call for one IP, with the clock value it reads. -/
inductive Call
  | canSubmit (now : ℚ)
  | start (jobId : String) (now : ℚ)
  | finish (jobId : String) (cpuSeconds : ℚ) (now : ℚ)
  | available (now : ℚ)

/-- The clock value a call reads. -/
def Call.now : Call → ℚ
  | .canSubmit now | .start _ now | .finish _ _ now | .available now => now

/-- Which check of the policy decides. -/
inductive Decision
  | allowed
  | concurrency
  | hourly
  | cpu
  deriving DecidableEq, Repr

/-- The check a verdict comes from. -/
def Verdict.decision : Verdict → Decision
  | .allowed => .allowed
  | .concurrency _ => .concurrency
  | .hourly _ => .hourly
  | .cpu _ => .cpu

/-- What a call answers: a decision, an exception, a number of CPU seconds, or nothing. -/
inductive Answer
  | decision (d : Decision)
  | error (e : Exc)
  | cpu (q : ℚ)
  | none
  deriving DecidableEq

/-- One call of the code for `ip`. -/
def RL.call (c : Config) (ip : String) (s : RL) : Call → Answer × RL
  | .canSubmit now =>
    match canSubmitJob c ip now s with
    | (.ok v, s') => (.decision v.decision, s')
    | (.error e, s') => (.error e, s')
  | .start jobId now => (.none, registerJobStart ip jobId now s)
  | .finish jobId cpuSeconds now => (.none, registerJobEnd ip jobId cpuSeconds now s)
  | .available now =>
    let r := getAvailableCpuSeconds c ip now s
    (.cpu r.1, r.2)

theorem RL.call_canSubmit_snd (c : Config) (ip : String) (now : ℚ) (s : RL) :
    (s.call c ip (.canSubmit now)).2 = (canSubmitJob c ip now s).2 := by
  simp only [RL.call]
  rcases canSubmitJob c ip now s with ⟨_ | _, _⟩ <;> rfl

/-- The answers of the code to a sequence of calls for `ip`. -/
def RL.answers (c : Config) (ip : String) : RL → List Call → List Answer
  | _, [] => []
  | s, call :: calls => (s.call c ip call).1 :: RL.answers c ip (s.call c ip call).2 calls

/-! ### The policy on complete histories -/

/-- Everything registered for one IP. -/
structure History where
  active : Finset String
  starts : List ℚ
  samples : List (ℚ × ℚ)

/-- The admission policy: the three checks in order, on the complete histories. -/
def History.policy (c : Config) (h : History) (now : ℚ) : Decision :=
  if c.maxConcurrentJobs ≤ (h.active.card : Int) then .concurrency
  else if c.maxJobsPerHour ≤ ((recentJobs h.starts now).length : Int) then .hourly
  else if (c.cpuSecondsPerMinute : ℚ) ≤ recentCpu h.samples now then .cpu
  else .allowed

/-- One call on the complete histories. -/
def History.call (c : Config) (h : History) : Call → Answer × History
  | .canSubmit now => (.decision (h.policy c now), h)
  | .start jobId now => (.none, { h with active := insert jobId h.active, starts := h.starts ++ [now] })
  | .finish jobId cpuSeconds now =>
    (.none, { h with active := h.active.erase jobId, samples := h.samples ++ [(now, cpuSeconds)] })
  | .available now => (.cpu (max 0 (c.cpuSecondsPerMinute - recentCpu h.samples now)), h)

/-- The answers of the policy to a sequence of calls. -/
def History.answers (c : Config) : History → List Call → List Answer
  | _, [] => []
  | h, call :: calls => (h.call c call).1 :: History.answers c (h.call c call).2 calls

/-- The histories an IP's entries stand for when nothing is taken as pruned. -/
def RL.history (s : RL) (ip : String) : History :=
  ⟨s.activeJobs.getD ip ∅, s.jobHistory.getD ip [], s.cpuUsage.getD ip []⟩

/-! ### Windows ignore expired entries -/

section Windows

variable {t now : ℚ}

theorem recentJobs_append_of_expired {pre : List ℚ} (hpre : ∀ x ∈ pre, x < t - 3600)
    (ht : t ≤ now) (l : List ℚ) : recentJobs (pre ++ l) now = recentJobs l now := by
  rw [recentJobs, recentJobs, List.filter_append, List.filter_eq_nil_iff.2, List.nil_append]
  intro x hx
  have := hpre x hx
  simp only [decide_eq_true_eq, not_lt]
  linarith

theorem recentCpu_append_of_expired {pre : List (ℚ × ℚ)} (hpre : ∀ e ∈ pre, e.1 < t - 60)
    (ht : t ≤ now) (l : List (ℚ × ℚ)) : recentCpu (pre ++ l) now = recentCpu l now := by
  rw [recentCpu, recentCpu, List.filter_append, List.filter_eq_nil_iff.2, List.nil_append]
  intro e he
  have := hpre e he
  simp only [decide_eq_true_eq, not_lt]
  linarith

/-- Pruning moves only expired entries out of the window. -/
theorem pruneHistory_spec (l : List ℚ) (now : ℚ) :
    ∃ pre, l = pre ++ pruneHistory l now ∧ ∀ x ∈ pre, x < now - 3600 :=
  ⟨l.takeWhile fun x => x < now - 3600, (List.takeWhile_append_dropWhile _ _).symm,
    fun x hx => by simpa using List.mem_takeWhile_imp hx⟩

theorem pruneCpu_spec (l : List (ℚ × ℚ)) (now : ℚ) :
    ∃ pre, l = pre ++ pruneCpu l now ∧ ∀ e ∈ pre, e.1 < now - 60 :=
  ⟨l.takeWhile fun e => e.1 < now - 60, (List.takeWhile_append_dropWhile _ _).symm,
    fun e he => by simpa using List.mem_takeWhile_imp he⟩

end Windows

/-! ### The simulation -/

/-- The code's entries for `ip` are the complete histories with expired prefixes
removed: expired at clock value `t`. -/
structure Sim (ip : String) (t : ℚ) (s : RL) (h : History) : Prop where
  active : s.activeJobs.getD ip ∅ = h.active
  starts : ∃ pre, h.starts = pre ++ s.jobHistory.getD ip [] ∧ ∀ x ∈ pre, x < t - 3600
  samples : ∃ pre, h.samples = pre ++ s.cpuUsage.getD ip [] ∧ ∀ e ∈ pre, e.1 < t - 60

theorem Sim.mono {ip : String} {t t' : ℚ} {s : RL} {h : History} (hs : Sim ip t s h)
    (ht : t ≤ t') : Sim ip t' s h := by
  obtain ⟨ha, ⟨p, hp, hp'⟩, ⟨q, hq, hq'⟩⟩ := hs
  exact ⟨ha, ⟨p, hp, fun x hx => by linarith [hp' x hx]⟩, ⟨q, hq, fun e he => by linarith [hq' e he]⟩⟩

/-- With nothing taken as pruned, an IP's entries simulate themselves. -/
theorem Sim.history (ip : String) (t : ℚ) (s : RL) : Sim ip t s (s.history ip) :=
  ⟨rfl, ⟨[], rfl, by simp⟩, ⟨[], rfl, by simp⟩⟩

section Step

variable {c : Config} {ip : String} {t now : ℚ} {s : RL} {h : History}

/-- Pruning at a later clock value keeps the simulation. -/
theorem Sim.cleanup (hs : Sim ip t s h) (ht : t ≤ now) : Sim ip now (cleanupOldEntries ip now s) h := by
  obtain ⟨ha, ⟨p, hp, hp'⟩, ⟨q, hq, hq'⟩⟩ := hs
  obtain ⟨p₁, hp₁, hp₁'⟩ := pruneHistory_spec (s.jobHistory.getD ip []) now
  obtain ⟨q₁, hq₁, hq₁'⟩ := pruneCpu_spec (s.cpuUsage.getD ip []) now
  refine ⟨ha, ⟨p ++ p₁, ?_, ?_⟩, ⟨q ++ q₁, ?_, ?_⟩⟩
  · simp only [cleanupOldEntries, PyDict.getD_modifyD, if_true, hp, List.append_assoc, ← hp₁]
  · intro x hx
    rcases List.mem_append.1 hx with hx | hx
    · linarith [hp' x hx]
    · exact hp₁' x hx
  · simp only [cleanupOldEntries, PyDict.getD_modifyD, if_true, hq, List.append_assoc, ← hq₁]
  · intro e he
    rcases List.mem_append.1 he with he | he
    · linarith [hq' e he]
    · exact hq₁' e he

/-- The windows the code counts are the policy's. -/
theorem Sim.recentJobs_eq (hs : Sim ip t s h) (ht : t ≤ now) :
    recentJobs (s.jobHistory.getD ip []) now = recentJobs h.starts now := by
  obtain ⟨p, hp, hp'⟩ := hs.starts
  rw [hp, recentJobs_append_of_expired hp' ht]

theorem Sim.recentCpu_eq (hs : Sim ip t s h) (ht : t ≤ now) :
    recentCpu (s.cpuUsage.getD ip []) now = recentCpu h.samples now := by
  obtain ⟨q, hq, hq'⟩ := hs.samples
  rw [hq, recentCpu_append_of_expired hq' ht]

/-- A state change that leaves the entries of `ip` alone keeps the simulation. -/
theorem Sim.of_getD {s' : RL} (hs : Sim ip t s h)
    (ha : s'.activeJobs.getD ip ∅ = s.activeJobs.getD ip ∅)
    (hj : s'.jobHistory.getD ip [] = s.jobHistory.getD ip [])
    (hc : s'.cpuUsage.getD ip [] = s.cpuUsage.getD ip []) : Sim ip t s' h :=
  ⟨ha.trans hs.active, hj ▸ hs.starts, hc ▸ hs.samples⟩

/-- The windows `can_submit_job` counts after pruning are the policy's. -/
theorem Sim.recentJobs_prune_eq (hs : Sim ip t s h) (ht : t ≤ now) :
    recentJobs (pruneHistory (s.jobHistory.getD ip []) now) now = recentJobs h.starts now := by
  obtain ⟨p, hp, hp'⟩ := pruneHistory_spec (s.jobHistory.getD ip []) now
  rw [← hs.recentJobs_eq ht, hp, recentJobs_append_of_expired hp' le_rfl, ← hp]

theorem Sim.recentCpu_prune_eq (hs : Sim ip t s h) (ht : t ≤ now) :
    recentCpu (pruneCpu (s.cpuUsage.getD ip []) now) now = recentCpu h.samples now := by
  obtain ⟨q, hq, hq'⟩ := pruneCpu_spec (s.cpuUsage.getD ip []) now
  rw [← hs.recentCpu_eq ht, hq, recentCpu_append_of_expired hq' le_rfl, ← hq]

/-! #### One lemma per method -/

theorem Sim.canSubmitJob (hs : Sim ip t s h) (ht : t ≤ now) :
    Sim ip now (canSubmitJob c ip now s).2 h := by
  have h₁ : Sim ip now { s with lastSeen := s.lastSeen.set ip now, activeJobs := s.activeJobs.touch ip ∅ } h :=
    (hs.mono ht).of_getD (by simp) rfl rfl
  rw [canSubmitJob_state]
  dsimp only
  split_ifs
  · exact h₁
  · exact h₁.cleanup le_rfl

theorem Sim.registerJobStart (hs : Sim ip t s h) (ht : t ≤ now) (jobId : String) :
    Sim ip now (registerJobStart ip jobId now s) ⟨insert jobId h.active, h.starts ++ [now], h.samples⟩ := by
  obtain ⟨p, hp, hp'⟩ := (hs.mono ht).starts
  refine ⟨by simp [RateLimiter.registerJobStart, hs.active],
    ⟨p, by simp [RateLimiter.registerJobStart, hp], hp'⟩, ?_⟩
  simpa [RateLimiter.registerJobStart] using (hs.mono ht).samples

theorem Sim.registerJobEnd (hs : Sim ip t s h) (ht : t ≤ now) (jobId : String) (cpuSeconds : ℚ) :
    Sim ip now (registerJobEnd ip jobId cpuSeconds now s)
      ⟨h.active.erase jobId, h.starts, h.samples ++ [(now, cpuSeconds)]⟩ := by
  have hs' : Sim ip now s h := hs.mono ht
  obtain ⟨q, hq, hq'⟩ := hs'.samples
  -- the sample is appended to both histories, then the deques are pruned
  have hpre : Sim ip now
      { s with
        activeJobs := s.activeJobs.modifyD ip ∅ fun a => a.erase jobId
        cpuUsage := s.cpuUsage.modifyD ip [] (· ++ [(now, cpuSeconds)])
        lastSeen := s.lastSeen.set ip now }
      ⟨h.active.erase jobId, h.starts, h.samples ++ [(now, cpuSeconds)]⟩ :=
    ⟨by simp [hs.active], by simpa using hs'.starts, ⟨q, by simp [hq], hq'⟩⟩
  exact hpre.cleanup le_rfl

/-- `can_submit_job` decides as the policy. -/
theorem Sim.canSubmit_answer (hc : 0 < c.cpuSecondsPerMinute) (hs : Sim ip t s h) (ht : t ≤ now) :
    (s.call c ip (.canSubmit now)).1 = (h.call c (.canSubmit now)).1 := by
  simp only [RL.call, History.call, History.policy, canSubmitJob_eq, hs.active,
    hs.recentJobs_prune_eq ht, ← hs.recentCpu_prune_eq ht]
  cases pruneCpu (s.cpuUsage.getD ip []) now with
  | nil =>
    -- the CPU check rejects only an IP with a sample in the window
    have h0 : ¬(c.cpuSecondsPerMinute : ℚ) ≤ recentCpu [] now := by
      simpa [recentCpu] using hc
    simp only [h0, if_false]
    split_ifs <;> rfl
  | cons e l => split_ifs <;> rfl

/-- Every call answers as the policy, and keeps the simulation at its clock value. -/
theorem Sim.call (hc : 0 < c.cpuSecondsPerMinute) (hs : Sim ip t s h) (call : Call)
    (ht : t ≤ call.now) :
    (s.call c ip call).1 = (h.call c call).1 ∧ Sim ip call.now (s.call c ip call).2 (h.call c call).2 := by
  cases call with
  | canSubmit now =>
    refine ⟨hs.canSubmit_answer hc ht, ?_⟩
    rw [RL.call_canSubmit_snd]
    exact hs.canSubmitJob ht
  | start jobId now => exact ⟨rfl, hs.registerJobStart ht jobId⟩
  | finish jobId cpuSeconds now => exact ⟨rfl, hs.registerJobEnd ht jobId cpuSeconds⟩
  | available now =>
    have ht' : t ≤ now := ht
    refine ⟨?_, (hs.mono ht').of_getD rfl rfl (by simp [RL.call, getAvailableCpuSeconds])⟩
    simp [RL.call, History.call, getAvailableCpuSeconds, hs.recentCpu_eq ht']

/-- The run lemma: along calls at nondecreasing clock values, from clock value `t` on,
the code answers as the policy. -/
theorem Sim.answers_eq (hc : 0 < c.cpuSecondsPerMinute) (calls : List Call) (hs : Sim ip t s h)
    (hch : List.Chain (· ≤ ·) t (calls.map Call.now)) : s.answers c ip calls = h.answers c calls := by
  induction calls generalizing t s h with
  | nil => rfl
  | cons call calls ih =>
    rw [List.map_cons, List.chain_cons] at hch
    obtain ⟨hans, hsim⟩ := hs.call hc call hch.1
    rw [RL.answers, History.answers, hans, ih hsim hch.2]

end Step

/-- **Pruning never changes an answer.**  On calls for one IP at nondecreasing clock
values, with a positive CPU quota, the limiter answers as the admission policy applied to
the complete histories: the same check decides every `can_submit_job`, and
`get_available_cpu_seconds` returns the same value. -/
theorem answers_eq_policy (c : Config) (hc : 0 < c.cpuSecondsPerMinute) (ip : String) (s : RL)
    (calls : List Call) (hmono : List.Chain' (· ≤ ·) (calls.map Call.now)) :
    s.answers c ip calls = (s.history ip).answers c calls := by
  cases calls with
  | nil => rfl
  | cons call calls =>
    exact (Sim.history ip call.now s).answers_eq hc (call :: calls) (List.chain_cons.2 ⟨le_rfl, hmono⟩)

theorem answers_eq_policy_default :
    0 < Config.default.cpuSecondsPerMinute ∧
      List.Chain' (· ≤ ·) ([.canSubmit 0, .start "job" 0, .canSubmit 3600].map Call.now) ∧
      RL.init.answers Config.default "10.0.0.1" [.canSubmit 0, .start "job" 0, .canSubmit 3600] =
        (RL.init.history "10.0.0.1").answers Config.default
          [.canSubmit 0, .start "job" 0, .canSubmit 3600] :=
  have hm : List.Chain' (· ≤ ·) (([.canSubmit 0, .start "job" 0, .canSubmit 3600] : List Call).map Call.now) := by
    norm_num [Call.now]
  ⟨by decide, hm, answers_eq_policy Config.default (by decide) _ _ _ hm⟩

/-- With a quota of zero CPU seconds the CPU check rejects an IP with no sample, and the
code raises `IndexError` reading `cpu_usage[ip][0]` where the policy rejects. -/
theorem zero_quota_raises :
    RL.init.answers ⟨0, 2, 20, 24⟩ "10.0.0.1" [.canSubmit 0] = [.error .indexError] ∧
      (RL.init.history "10.0.0.1").answers ⟨0, 2, 20, 24⟩ [.canSubmit 0] = [.decision .cpu] := by
  norm_num [RL.answers, RL.call, canSubmitJob_eq, RL.init, History.answers, History.call,
    History.policy, RL.history, PyDict.getD, recentJobs, recentCpu, pruneHistory, pruneCpu]

end Sandrun.RateLimiter
