import Sandrun.RateLimiter.Window

/-!
# The wait time of a CPU rejection

When the CPU check of `can_submit_job` rejects, the code reports
`60 - (now - self.cpu_usage[ip][0][0])`, the age of the oldest sample left in the deque.
On calls at nondecreasing clock values the samples of every IP are appended in time order,
and pruning keeps a suffix, so the deque stays in time order: its head after pruning is
the earliest sample with `t >= now - 60`.  The rejection needs a sample in the window, so
with a positive quota the deque is never empty there, and the wait lies in `[0, 60]`.

The window of the sum is `t > now - 60` but pruning keeps `t = now - 60`: a sample exactly
60 seconds old is the head and counts for nothing, and the wait reported is 0.

## Main definitions

* `Method`, `RL.run` — a call of any method for any IP, and the state it leaves.
* `Clocked` — the states reached by calls at nondecreasing clock values.
* `InOrder`, `RL.SamplesInOrder` — samples in time order, none later than the clock.
* `WaitLaw` — what a CPU rejection reports.

## Main results

* `cpu_rejection_wait` — from every state reached at nondecreasing clock values,
  `WaitLaw` holds.
* `boundary_sample_waits_zero` — a sample exactly 60 seconds old makes the wait 0.
-/

namespace Sandrun.RateLimiter

/-- A call of a method of `RateLimiter`, with the clock value it reads. -/
inductive Method
  | canSubmitJob (ip : String) (now : ℚ)
  | registerJobStart (ip jobId : String) (now : ℚ)
  | registerJobEnd (ip jobId : String) (cpuSeconds now : ℚ)
  | getAvailableCpuSeconds (ip : String) (now : ℚ)
  | cleanupInactiveIps (now : ℚ)

/-- The clock value a call reads. -/
def Method.now : Method → ℚ
  | .canSubmitJob _ now | .registerJobStart _ _ now | .registerJobEnd _ _ _ now
  | .getAvailableCpuSeconds _ now | .cleanupInactiveIps now => now

/-- The state a call leaves, whether it returns or raises. -/
def RL.run (c : Config) (s : RL) : Method → RL
  | .canSubmitJob ip now => (canSubmitJob c ip now s).2
  | .registerJobStart ip jobId now => registerJobStart ip jobId now s
  | .registerJobEnd ip jobId cpuSeconds now => registerJobEnd ip jobId cpuSeconds now s
  | .getAvailableCpuSeconds ip now => (getAvailableCpuSeconds c ip now s).2
  | .cleanupInactiveIps now => (cleanupInactiveIps c now s).2

/-- The states a new limiter reaches by calls at nondecreasing clock values; `t` is the
clock value of the last call, or of the first one to come. -/
inductive Clocked (c : Config) : RL → ℚ → Prop
  | init (t : ℚ) : Clocked c RL.init t
  | call {s : RL} {t : ℚ} (m : Method) : Clocked c s t → t ≤ m.now → Clocked c (s.run c m) m.now

/-! ### Samples in time order -/

/-- Samples in time order, none later than `t`. -/
def InOrder (t : ℚ) (l : List (ℚ × ℚ)) : Prop :=
  l.Pairwise (fun a b => a.1 ≤ b.1) ∧ ∀ e ∈ l, e.1 ≤ t

/-- The samples of every IP are in time order, none later than `t`. -/
def RL.SamplesInOrder (s : RL) (t : ℚ) : Prop :=
  ∀ ip, InOrder t (s.cpuUsage.getD ip [])

section InOrder

variable {t t' : ℚ} {l : List (ℚ × ℚ)}

theorem inOrder_nil (t : ℚ) : InOrder t [] := ⟨.nil, fun _ h => absurd h (List.not_mem_nil _)⟩

theorem InOrder.sublist {l' : List (ℚ × ℚ)} (h : InOrder t l) (hl : List.Sublist l' l) : InOrder t l' :=
  ⟨h.1.sublist hl, fun e he => h.2 e (hl.subset he)⟩

theorem InOrder.mono (h : InOrder t l) (ht : t ≤ t') : InOrder t' l :=
  ⟨h.1, fun e he => (h.2 e he).trans ht⟩

/-- A sample taken at a later clock value goes at the end. -/
theorem InOrder.snoc (h : InOrder t l) (ht : t ≤ t') (cpuSeconds : ℚ) :
    InOrder t' (l ++ [(t', cpuSeconds)]) := by
  refine ⟨List.pairwise_append.2 ⟨h.1, List.pairwise_singleton _ _, ?_⟩, ?_⟩
  · intro a ha b hb
    rw [List.mem_singleton.1 hb]
    exact (h.2 a ha).trans ht
  · intro e he
    rcases List.mem_append.1 he with he | he
    · exact (h.2 e he).trans ht
    · rw [List.mem_singleton.1 he]

theorem InOrder.prune (h : InOrder t l) (now : ℚ) : InOrder t (pruneCpu l now) :=
  h.sublist (List.dropWhile_sublist _)

/-- After pruning, the head of samples in time order is the earliest one with
`t >= now - 60`. -/
theorem InOrder.head_pruneCpu {now : ℚ} {e : ℚ × ℚ} {rest : List (ℚ × ℚ)} (h : InOrder t l)
    (hp : pruneCpu l now = e :: rest) :
    e ∈ l ∧ now - 60 ≤ e.1 ∧ ∀ x ∈ l, now - 60 ≤ x.1 → e.1 ≤ x.1 := by
  have he : e ∈ l := List.dropWhile_subset _ (hp ▸ List.mem_cons_self e rest)
  have hp' : l.dropWhile (fun e : ℚ × ℚ => decide (e.1 < now - 60)) = e :: rest := hp
  have hhead : now - 60 ≤ e.1 := by
    have := List.head_dropWhile_not (fun e : ℚ × ℚ => decide (e.1 < now - 60)) l
      (by rw [hp']; exact List.cons_ne_nil e rest)
    simpa only [hp', List.head_cons, decide_eq_false_iff_not, not_lt] using this
  refine ⟨he, hhead, fun x hx hx' => ?_⟩
  -- `x` is not in the prefix pruning drops, so it is `e` or comes after it
  rw [← List.takeWhile_append_dropWhile (fun e : ℚ × ℚ => decide (e.1 < now - 60)) l] at hx
  rcases List.mem_append.1 hx with hx | hx
  · have := List.mem_takeWhile_imp hx
    simp only [decide_eq_true_eq] at this
    exact absurd this (not_lt.2 hx')
  · have hs : (e :: rest).Pairwise (fun a b => a.1 ≤ b.1) := hp ▸ (h.prune now).1
    rw [hp'] at hx
    rcases List.mem_cons.1 hx with rfl | hx
    · exact le_rfl
    · exact List.rel_of_pairwise_cons hs hx

end InOrder

/-! ### The invariant along calls -/

section Calls

variable {c : Config} {s : RL} {t : ℚ}

theorem RL.SamplesInOrder.mono (h : s.SamplesInOrder t) {t' : ℚ} (ht : t ≤ t') :
    s.SamplesInOrder t' :=
  fun ip => (h ip).mono ht

/-- A call that leaves every IP's samples as they are, or empties them. -/
theorem RL.SamplesInOrder.of_getD {s' : RL} (h : s.SamplesInOrder t)
    (hs : ∀ ip, s'.cpuUsage.getD ip [] = s.cpuUsage.getD ip [] ∨ s'.cpuUsage.getD ip [] = []) :
    s'.SamplesInOrder t := by
  intro ip
  rcases hs ip with he | he <;> rw [he]
  · exact h ip
  · exact inOrder_nil t

theorem RL.SamplesInOrder.cleanupOldEntries (h : s.SamplesInOrder t) (ip : String) (now : ℚ) :
    (RateLimiter.cleanupOldEntries ip now s).SamplesInOrder t := by
  intro ip'
  simp only [cleanupOldEntries_cpuUsage, PyDict.getD_modifyD]
  split_ifs
  · exact (h ip).prune now
  · exact h ip'

/-- The first `del` of `forgetIp` either raises, leaving the state, or removes the IP's
samples; the others leave the samples alone. -/
theorem forgetIp_cpuUsage (ip : String) (s : RL) :
    (forgetIp ip s).2.cpuUsage = s.cpuUsage ∨ (forgetIp ip s).2.cpuUsage = s.cpuUsage.erase ip := by
  unfold forgetIp
  cases hd : delItem s.cpuUsage ip with
  | error e => exact .inl rfl
  | ok d =>
    refine .inr ?_
    obtain rfl : d = s.cpuUsage.erase ip := by
      unfold delItem at hd
      split_ifs at hd
      cases hd
      rfl
    dsimp only
    repeat' split
    all_goals rfl

theorem RL.SamplesInOrder.forgetIp (h : s.SamplesInOrder t) (ip : String) :
    (RateLimiter.forgetIp ip s).2.SamplesInOrder t := by
  refine h.of_getD fun ip' => ?_
  rcases forgetIp_cpuUsage ip s with he | he <;> rw [he]
  · exact .inl rfl
  · by_cases hk : ip' = ip <;> simp [PyDict.getD, hk]

theorem RL.SamplesInOrder.forgetIps : ∀ (l : List String) {s : RL}, s.SamplesInOrder t →
    (RateLimiter.forgetIps l s).2.SamplesInOrder t
  | [], _, h => h
  | ip :: rest, s, h => by
    have h₁ := h.forgetIp ip
    unfold RateLimiter.forgetIps
    rcases hf : RateLimiter.forgetIp ip s with ⟨_ | ⟨⟩, s₁⟩
    · rw [hf] at h₁; exact h₁
    · rw [hf] at h₁; exact RL.SamplesInOrder.forgetIps rest h₁

/-- The step lemma: every call at a clock value no earlier than `t` keeps the samples in
time order, none later than its clock value. -/
theorem RL.SamplesInOrder.run (h : s.SamplesInOrder t) (m : Method) (ht : t ≤ m.now) :
    (s.run c m).SamplesInOrder m.now := by
  have h' := h.mono ht
  cases m with
  | canSubmitJob ip now =>
    simp only [RL.run, canSubmitJob_state]
    split_ifs
    · exact h'
    · exact RL.SamplesInOrder.cleanupOldEntries h' ip now
  | registerJobStart ip jobId now => exact h'
  | registerJobEnd ip jobId cpuSeconds now =>
    refine RL.SamplesInOrder.cleanupOldEntries (fun ip' => ?_) ip now
    simp only [PyDict.getD_modifyD]
    split_ifs
    · exact (h ip).snoc ht cpuSeconds
    · exact h' ip'
  | getAvailableCpuSeconds ip now =>
    exact h'.of_getD fun ip' => .inl (by simp [RL.run, getAvailableCpuSeconds])
  | cleanupInactiveIps now =>
    simp only [RL.run, cleanupInactiveIps]
    have := h'.forgetIps (inactiveIps c now s)
    split <;> next hf => rw [hf] at this; exact this

/-- The run lemma. -/
theorem Clocked.samplesInOrder (hs : Clocked c s t) : s.SamplesInOrder t := by
  induction hs with
  | init t => intro ip; simpa [RL.init, PyDict.getD] using inOrder_nil t
  | call m _ ht ih => exact ih.run m ht

end Calls

/-! ### The wait time -/

/-- What `can_submit_job(ip)` at `now` guarantees: it does not raise, and when the CPU check
rejects, the wait it reports is `60 - (now - t0)` for the earliest sample `(t0, _)` of the
IP with `t0 >= now - 60`, and lies in `[0, 60]`. -/
def WaitLaw (c : Config) (s : RL) (ip : String) (now : ℚ) : Prop :=
  (∃ v, (canSubmitJob c ip now s).1 = .ok v) ∧
  ∀ w, (canSubmitJob c ip now s).1 = .ok (.cpu w) →
    ∃ e ∈ s.cpuUsage.getD ip [], now - 60 ≤ e.1 ∧
      (∀ x ∈ s.cpuUsage.getD ip [], now - 60 ≤ x.1 → e.1 ≤ x.1) ∧
      w = 60 - (now - e.1) ∧ 0 ≤ w ∧ w ≤ 60

/-- **The wait time of a CPU rejection.**  With a positive quota, from every state reached
by calls at nondecreasing clock values, `can_submit_job(ip)` at a clock value no earlier
never raises, and a CPU rejection reports `60 - (now - t0)`, where `t0` is the earliest
timestamp of the IP's samples with `t0 >= now - 60`; the wait lies in `[0, 60]`. -/
theorem cpu_rejection_wait {c : Config} (hc : 0 < c.cpuSecondsPerMinute) {s : RL} {t : ℚ}
    (hs : Clocked c s t) (ip : String) {now : ℚ} (ht : t ≤ now) : WaitLaw c s ip now := by
  have hord : InOrder now (s.cpuUsage.getD ip []) := (hs.samplesInOrder.mono ht) ip
  -- the CPU check rejects only an IP with a sample left after pruning
  have hne : ¬(c.cpuSecondsPerMinute : ℚ) ≤ recentCpu [] now := by simpa [recentCpu] using hc
  rw [WaitLaw, canSubmitJob_eq]
  dsimp only
  split_ifs with h₁ h₂ h₃
  · exact ⟨⟨_, rfl⟩, fun w h => by simp at h⟩
  · exact ⟨⟨_, rfl⟩, fun w h => by simp at h⟩
  · cases hp : pruneCpu (s.cpuUsage.getD ip []) now with
    | nil => rw [hp] at h₃; exact absurd h₃ hne
    | cons e rest =>
      refine ⟨⟨_, rfl⟩, fun w hw => ?_⟩
      obtain rfl : 60 - (now - e.1) = w := by simpa using hw
      obtain ⟨he, hlo, hmin⟩ := hord.head_pruneCpu hp
      have hhi : e.1 ≤ now := hord.2 e he
      exact ⟨e, he, hlo, hmin, rfl, by linarith, by linarith⟩
  · exact ⟨⟨_, rfl⟩, fun w h => by simp at h⟩

theorem cpu_rejection_wait_one_sample :
    0 < Config.default.cpuSecondsPerMinute ∧
      Clocked Config.default (registerJobEnd "10.0.0.1" "job" 10 0 RL.init) 0 ∧ (0 : ℚ) ≤ 30 ∧
      WaitLaw Config.default (registerJobEnd "10.0.0.1" "job" 10 0 RL.init) "10.0.0.1" 30 :=
  have hs : Clocked Config.default (registerJobEnd "10.0.0.1" "job" 10 0 RL.init) 0 :=
    .call (.registerJobEnd "10.0.0.1" "job" 10 0) (.init 0) le_rfl
  ⟨by decide, hs, by norm_num, cpu_rejection_wait (by decide) hs "10.0.0.1" (by norm_num)⟩

/-- A sample exactly 60 seconds old is kept by pruning and ignored by the sum: with samples
of 10 CPU seconds at 0 and at 30 and the default quota of 10, the check at 60 rejects on
the CPU count of the sample at 30 alone and reports a wait of 0. -/
theorem boundary_sample_waits_zero :
    Clocked Config.default
        (registerJobEnd "10.0.0.1" "b" 10 30 (registerJobEnd "10.0.0.1" "a" 10 0 RL.init)) 30 ∧
      (canSubmitJob Config.default "10.0.0.1" 60
        (registerJobEnd "10.0.0.1" "b" 10 30 (registerJobEnd "10.0.0.1" "a" 10 0 RL.init))).1 =
        .ok (.cpu 0) :=
  ⟨.call (.registerJobEnd "10.0.0.1" "b" 10 30)
      (.call (.registerJobEnd "10.0.0.1" "a" 10 0) (.init 0) le_rfl) (by norm_num [Method.now]),
    by norm_num [canSubmitJob_eq, registerJobEnd, cleanupOldEntries, RL.init, PyDict.getD,
      PyDict.modifyD, recentJobs, recentCpu, pruneHistory, pruneCpu, Config.default]⟩

end Sandrun.RateLimiter
