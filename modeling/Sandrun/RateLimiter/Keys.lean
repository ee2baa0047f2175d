import Sandrun.RateLimiter.Basic
import Mathlib.Tactic.NormNum

/-!
# Which IPs the limiter tracks

`cleanup_inactive_ips` forgets an inactive IP with four `del`s, and `del` raises
`KeyError` on a missing key, `defaultdict` or not.  The loop is safe when the four
dictionaries have the same keys.  Whether they do depends on the method that first sees an
IP: `register_job_end` creates all four entries, and `can_submit_job` creates all four as
soon as its concurrency check passes, but `register_job_start` creates no CPU entry and
`get_available_cpu_seconds` creates nothing but one.

## Main definitions

* `RL.KeysAgree` — the four dictionaries have the same keys.
* `RL.forget` — the state after the four `del`s of one IP.

## Main results

* `cleanupInactiveIps_of_keysAgree` — with agreeing keys, `cleanup_inactive_ips` returns,
  forgets every inactive IP and leaves the keys agreeing.
* `keysAgree_canSubmitJob`, `keysAgree_registerJobEnd` — calls that keep the keys agreeing.
* `start_then_cleanup_raises` — an IP first seen by `register_job_start` makes
  `cleanup_inactive_ips` raise `KeyError` once it is inactive.
-/

namespace Sandrun.RateLimiter

/-- The four dictionaries have the same keys. -/
def RL.KeysAgree (s : RL) : Prop :=
  ∀ ip, ((s.cpuUsage.get? ip).isSome ↔ (s.lastSeen.get? ip).isSome) ∧
    ((s.activeJobs.get? ip).isSome ↔ (s.lastSeen.get? ip).isSome) ∧
    ((s.jobHistory.get? ip).isSome ↔ (s.lastSeen.get? ip).isSome)

theorem keysAgree_init : RL.init.KeysAgree := by
  simp [RL.KeysAgree, RL.init]

section Calls

variable {s : RL} {ip : String} {now : ℚ}

/-- A call that creates all four entries of its IP `k` and leaves the other IPs alone
keeps the keys agreeing. -/
theorem RL.KeysAgree.of_all {s' : RL} (h : s.KeysAgree) (k : String)
    (hk : (s'.cpuUsage.get? k).isSome ∧ (s'.activeJobs.get? k).isSome ∧
      (s'.jobHistory.get? k).isSome ∧ (s'.lastSeen.get? k).isSome)
    (hother : ∀ ip', ip' ≠ k → s'.cpuUsage.get? ip' = s.cpuUsage.get? ip' ∧
      s'.activeJobs.get? ip' = s.activeJobs.get? ip' ∧
      s'.jobHistory.get? ip' = s.jobHistory.get? ip' ∧ s'.lastSeen.get? ip' = s.lastSeen.get? ip') :
    s'.KeysAgree := by
  intro ip'
  by_cases h' : ip' = k
  · subst h'
    simp [hk]
  · obtain ⟨h₁, h₂, h₃, h₄⟩ := hother ip' h'
    rw [h₁, h₂, h₃, h₄]
    exact h ip'

theorem keysAgree_registerJobEnd (h : s.KeysAgree) (jobId : String) (cpuSeconds : ℚ) :
    (registerJobEnd ip jobId cpuSeconds now s).KeysAgree :=
  h.of_all ip (by simp [registerJobEnd]) fun ip' h' => by simp [registerJobEnd, h']

/-- `can_submit_job` keeps the keys agreeing when at least one job may run: the IP's
entries are all created unless the concurrency check rejects, and it rejects only an IP
with active jobs, whose entries exist. -/
theorem keysAgree_canSubmitJob {c : Config} (hc : 0 < c.maxConcurrentJobs) (h : s.KeysAgree) :
    (canSubmitJob c ip now s).2.KeysAgree := by
  rw [canSubmitJob_state]
  dsimp only
  split_ifs with h₁
  · -- the IP has active jobs, so it is tracked
    have hact : (s.activeJobs.get? ip).isSome := by
      cases hg : s.activeJobs.get? ip with
      | none => simp [PyDict.getD, hg] at h₁; omega
      | some _ => rfl
    have hseen := (h ip).2.1.1 hact
    refine h.of_all ip ⟨?_, ?_, ?_, ?_⟩ fun ip' h' => by simp [h']
    · exact (h ip).1.2 hseen
    · simp
    · exact (h ip).2.2.2 hseen
    · simp
  · exact h.of_all ip (by simp) fun ip' h' => by simp [h']

end Calls

/-! ### Cleanup -/

/-- The state after the four `del`s of `ip`. -/
def RL.forget (s : RL) (ip : String) : RL :=
  ⟨s.cpuUsage.erase ip, s.activeJobs.erase ip, s.jobHistory.erase ip, s.lastSeen.erase ip⟩

theorem RL.KeysAgree.forget {s : RL} (h : s.KeysAgree) (ip : String) : (s.forget ip).KeysAgree := by
  intro ip'
  by_cases h' : ip' = ip
  · simp [RL.forget, h']
  · simpa [RL.forget, h'] using h ip'

/-- A tracked IP is forgotten without an exception. -/
theorem forgetIp_of_tracked {s : RL} {ip : String} (h : s.KeysAgree) (hip : (s.lastSeen.get? ip).isSome) :
    forgetIp ip s = (.ok (), s.forget ip) := by
  obtain ⟨h₁, h₂, h₃⟩ := h ip
  simp [forgetIp, delItem, h₁.2 hip, h₂.2 hip, h₃.2 hip, hip, RL.forget]

/-- The loop forgets distinct tracked IPs one after the other. -/
theorem forgetIps_of_tracked : ∀ {s : RL} {l : List String}, s.KeysAgree → l.Nodup →
    (∀ ip ∈ l, (s.lastSeen.get? ip).isSome) → forgetIps l s = (.ok (), l.foldl RL.forget s)
  | _, [], _, _, _ => rfl
  | s, ip :: rest, h, hl, hin => by
    rw [List.nodup_cons] at hl
    rw [forgetIps, forgetIp_of_tracked h (hin ip (List.mem_cons_self ip rest))]
    refine forgetIps_of_tracked (h.forget ip) hl.2 fun ip' hip' => ?_
    have hne : ip' ≠ ip := fun he => hl.1 (he ▸ hip')
    simpa [RL.forget, hne] using hin ip' (List.mem_cons_of_mem ip hip')

theorem keysAgree_foldl_forget : ∀ {s : RL} (l : List String), s.KeysAgree →
    (l.foldl RL.forget s).KeysAgree
  | _, [], h => h
  | _, ip :: rest, h => keysAgree_foldl_forget rest (h.forget ip)

theorem lastSeen_foldl_forget : ∀ (s : RL) (l : List String) (ip : String),
    (l.foldl RL.forget s).lastSeen.get? ip = if ip ∈ l then none else s.lastSeen.get? ip
  | _, [], _ => rfl
  | s, ip' :: rest, ip => by
    rw [List.foldl_cons, lastSeen_foldl_forget]
    by_cases h : ip = ip' <;> simp [RL.forget, h]

/-- **With agreeing keys, cleanup works.**  `cleanup_inactive_ips` returns the number of
inactive IPs, the keys still agree, and every IP still tracked was seen at or after the
cutoff. -/
theorem cleanupInactiveIps_of_keysAgree (c : Config) (now : ℚ) {s : RL} (h : s.KeysAgree) :
    ∃ s', cleanupInactiveIps c now s = (.ok (inactiveIps c now s).length, s') ∧ s'.KeysAgree ∧
      ∀ ip t, s'.lastSeen.get? ip = some t → now - c.cleanupAfterHours * 3600 ≤ t := by
  have hnodup : (inactiveIps c now s).Nodup := by
    refine List.Sublist.nodup ?_ s.lastSeen.keys_nodup
    rw [inactiveIps, ← PyDict.items_map_fst]
    exact (List.filter_sublist _).map Prod.fst
  have hin : ∀ ip ∈ inactiveIps c now s, (s.lastSeen.get? ip).isSome := by
    intro ip hip
    obtain ⟨⟨_, t⟩, he, rfl⟩ := List.mem_map.1 hip
    simp [(PyDict.mem_items _ _ _).1 (List.mem_of_mem_filter he)]
  refine ⟨_, by rw [cleanupInactiveIps, forgetIps_of_tracked h hnodup hin],
    keysAgree_foldl_forget _ h, fun ip t ht => ?_⟩
  rw [lastSeen_foldl_forget] at ht
  split_ifs at ht with hip
  -- an IP seen before the cutoff is one of those forgotten
  refine not_lt.1 fun hlt => hip ?_
  exact List.mem_map.2 ⟨(ip, t), List.mem_filter.2 ⟨(PyDict.mem_items _ _ _).2 ht, by simpa using hlt⟩, rfl⟩

/-- An IP first seen by `register_job_start` has no CPU entry, so once it is inactive
`cleanup_inactive_ips` raises `KeyError` at `del self.cpu_usage[ip]`. -/
theorem start_then_cleanup_raises :
    (cleanupInactiveIps Config.default (24 * 3600 + 1)
      (registerJobStart "10.0.0.1" "job" 0 RL.init)).1 = .error (.keyError "10.0.0.1") := by
  norm_num [cleanupInactiveIps, inactiveIps, registerJobStart, RL.init, PyDict.items, PyDict.set,
    PyDict.modifyD, PyDict.getD, forgetIps, forgetIp, delItem, Config.default]

end Sandrun.RateLimiter
