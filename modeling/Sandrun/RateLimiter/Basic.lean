import Sandrun.PyDict
import Mathlib.Algebra.Order.Field.Rat
import Mathlib.Data.Rat.Floor
import Mathlib.Data.Finset.Card

/-!
# The rate limiter

`RateLimiter` keeps four dictionaries keyed by caller IP: the CPU samples of the last
minute, the ids of the active jobs, the start times of the last hour, and the time the IP
was last seen.  The first three are `defaultdict`s, so merely reading an IP's entry
creates it; `last_seen` is a plain `dict`, and `del` on a missing key raises `KeyError`
for both kinds.  Every public method runs under `self.lock` and reads the clock once; a
method is one atomic step here, and the clock value it reads is the argument `now`.

Times and CPU seconds are Python floats; they are modelled as exact rationals.

## Main definitions

* `Config`, `RL` — the limits and the state.
* `Verdict` — the outcome of `can_submit_job`, and `Verdict.result`, the tuple it returns.
* `canSubmitJob`, `registerJobStart`, `registerJobEnd`, `getAvailableCpuSeconds`,
  `cleanupOldEntries`, `cleanupInactiveIps` — the methods.

## References

`src/rate_limiter.py`.
-/

namespace Sandrun.RateLimiter

/-- The constructor's arguments. -/
structure Config where
  cpuSecondsPerMinute : Int
  maxConcurrentJobs : Int
  maxJobsPerHour : Int
  cleanupAfterHours : Int

/-- The defaults, which the module-level `rate_limiter` also uses. -/
def Config.default : Config := ⟨10, 2, 20, 24⟩

/-- The state of a `RateLimiter`. -/
structure RL where
  /-- `self.cpu_usage`: per IP, the `(timestamp, cpu_seconds)` samples in arrival order. -/
  cpuUsage : PyDict String (List (ℚ × ℚ))
  /-- `self.active_jobs`: per IP, the ids of the jobs started and not yet ended. -/
  activeJobs : PyDict String (Finset String)
  /-- `self.job_history`: per IP, the start times in arrival order. -/
  jobHistory : PyDict String (List ℚ)
  /-- `self.last_seen`. -/
  lastSeen : PyDict String ℚ

/-- A new `RateLimiter`. -/
def RL.init : RL := ⟨.empty, .empty, .empty, .empty⟩

/-- An exception a method raises. -/
inductive Exc
  | keyError (key : String)
  /-- `self.cpu_usage[ip][0]` on an empty deque. -/
  | indexError
  deriving DecidableEq, Repr

/-- Python's `format(x, ".0f")`: the nearest integer, halves to even, with a minus sign
for a negative `x` even when it rounds to zero. -/
def formatFixed0 (x : ℚ) : String :=
  let f := ⌊x⌋
  let n := if x - f < 1 / 2 then f else if 1 / 2 < x - f then f + 1
    else if f % 2 = 0 then f else f + 1
  (if x < 0 ∧ n = 0 then "-" else "") ++ toString n

/-- How `can_submit_job` ends. -/
inductive Verdict
  | allowed
  /-- The IP has `max_concurrent_jobs` active jobs. -/
  | concurrency (max : Int)
  /-- The IP started `max_jobs_per_hour` jobs in the last hour. -/
  | hourly (max : Int)
  /-- The IP used its CPU seconds of the last minute; `waitTime` is the reported wait. -/
  | cpu (waitTime : ℚ)

/-- The tuple `can_submit_job` returns. -/
def Verdict.result : Verdict → Bool × Option String
  | .allowed => (true, none)
  | .concurrency n => (false, some ("Max " ++ toString n ++ " concurrent jobs"))
  | .hourly n => (false, some ("Max " ++ toString n ++ " jobs per hour"))
  | .cpu w => (false, some ("CPU quota exceeded, wait " ++ formatFixed0 w ++ "s"))

/-! ### Windows -/

/-- `sum(cpu for t, cpu in samples if t > now - 60)`. -/
def recentCpu (samples : List (ℚ × ℚ)) (now : ℚ) : ℚ :=
  ((samples.filter fun e => now - 60 < e.1).map Prod.snd).sum

/-- `[t for t in history if t > now - 3600]`. -/
def recentJobs (history : List ℚ) (now : ℚ) : List ℚ :=
  history.filter fun t => now - 3600 < t

/-- The loop of `_cleanup_old_entries` on the CPU samples. -/
def pruneCpu (samples : List (ℚ × ℚ)) (now : ℚ) : List (ℚ × ℚ) :=
  samples.dropWhile fun e => e.1 < now - 60

/-- The loop of `_cleanup_old_entries` on the start times. -/
def pruneHistory (history : List ℚ) (now : ℚ) : List ℚ :=
  history.dropWhile fun t => t < now - 3600

/-! ### The methods -/

/-- `_cleanup_old_entries(ip, now)`: both loops read their `defaultdict` entry first. -/
def cleanupOldEntries (ip : String) (now : ℚ) (s : RL) : RL :=
  { s with
    cpuUsage := s.cpuUsage.modifyD ip [] fun l => pruneCpu l now
    jobHistory := s.jobHistory.modifyD ip [] fun l => pruneHistory l now }

/-- `can_submit_job(ip)`, the three checks in order; `Verdict.result` is what it returns. -/
def canSubmitJob (c : Config) (ip : String) (now : ℚ) (s : RL) : Except Exc Verdict × RL :=
  let s := { s with lastSeen := s.lastSeen.set ip now, activeJobs := s.activeJobs.touch ip ∅ }
  if c.maxConcurrentJobs ≤ ((s.activeJobs.getD ip ∅).card : Int) then
    (.ok (.concurrency c.maxConcurrentJobs), s)
  else
    let s := cleanupOldEntries ip now s
    if c.maxJobsPerHour ≤ ((recentJobs (s.jobHistory.getD ip []) now).length : Int) then
      (.ok (.hourly c.maxJobsPerHour), s)
    else if (c.cpuSecondsPerMinute : ℚ) ≤ recentCpu (s.cpuUsage.getD ip []) now then
      match s.cpuUsage.getD ip [] with
      | [] => (.error .indexError, s)
      | e :: _ => (.ok (.cpu (60 - (now - e.1))), s)
    else (.ok .allowed, s)

@[simp] theorem cleanupOldEntries_cpuUsage (ip : String) (now : ℚ) (s : RL) :
    (cleanupOldEntries ip now s).cpuUsage = s.cpuUsage.modifyD ip [] fun l => pruneCpu l now := rfl

@[simp] theorem cleanupOldEntries_jobHistory (ip : String) (now : ℚ) (s : RL) :
    (cleanupOldEntries ip now s).jobHistory =
      s.jobHistory.modifyD ip [] fun l => pruneHistory l now := rfl

@[simp] theorem cleanupOldEntries_activeJobs (ip : String) (now : ℚ) (s : RL) :
    (cleanupOldEntries ip now s).activeJobs = s.activeJobs := rfl

@[simp] theorem cleanupOldEntries_lastSeen (ip : String) (now : ℚ) (s : RL) :
    (cleanupOldEntries ip now s).lastSeen = s.lastSeen := rfl

/-- `can_submit_job` on the IP's entries as they are before the call. -/
theorem canSubmitJob_eq (c : Config) (ip : String) (now : ℚ) (s : RL) :
    canSubmitJob c ip now s =
      let s₁ : RL := { s with lastSeen := s.lastSeen.set ip now, activeJobs := s.activeJobs.touch ip ∅ }
      if c.maxConcurrentJobs ≤ ((s.activeJobs.getD ip ∅).card : Int) then
        (.ok (.concurrency c.maxConcurrentJobs), s₁)
      else if c.maxJobsPerHour ≤
          ((recentJobs (pruneHistory (s.jobHistory.getD ip []) now) now).length : Int) then
        (.ok (.hourly c.maxJobsPerHour), cleanupOldEntries ip now s₁)
      else if (c.cpuSecondsPerMinute : ℚ) ≤ recentCpu (pruneCpu (s.cpuUsage.getD ip []) now) now then
        match pruneCpu (s.cpuUsage.getD ip []) now with
        | [] => (.error .indexError, cleanupOldEntries ip now s₁)
        | e :: _ => (.ok (.cpu (60 - (now - e.1))), cleanupOldEntries ip now s₁)
      else (.ok .allowed, cleanupOldEntries ip now s₁) := by
  simp only [canSubmitJob, PyDict.getD_touch, cleanupOldEntries_jobHistory, cleanupOldEntries_cpuUsage,
    PyDict.getD_modifyD, if_true]

/-- The state `can_submit_job` leaves: the deques are pruned once the concurrency check
passes. -/
theorem canSubmitJob_state (c : Config) (ip : String) (now : ℚ) (s : RL) :
    (canSubmitJob c ip now s).2 =
      let s₁ : RL := { s with lastSeen := s.lastSeen.set ip now, activeJobs := s.activeJobs.touch ip ∅ }
      if c.maxConcurrentJobs ≤ ((s.activeJobs.getD ip ∅).card : Int) then s₁
      else cleanupOldEntries ip now s₁ := by
  rw [canSubmitJob_eq]
  dsimp only
  split_ifs
  · rfl
  · rfl
  · split <;> rfl
  · rfl

/-- `can_submit_job` allows only an IP below its concurrency and hourly limits. -/
theorem canSubmitJob_allowed {c : Config} {ip : String} {now : ℚ} {s : RL}
    (h : (canSubmitJob c ip now s).1 = .ok .allowed) :
    ((s.activeJobs.getD ip ∅).card : Int) < c.maxConcurrentJobs ∧
      ((recentJobs (pruneHistory (s.jobHistory.getD ip []) now) now).length : Int) <
        c.maxJobsPerHour := by
  rw [canSubmitJob_eq] at h
  dsimp only at h
  split_ifs at h with h₁ h₂ h₃
  · simp at h
  · simp at h
  · split at h <;> simp at h
  · exact ⟨not_le.1 h₁, not_le.1 h₂⟩

/-- `register_job_start(ip, job_id)`. -/
def registerJobStart (ip jobId : String) (now : ℚ) (s : RL) : RL :=
  { s with
    activeJobs := s.activeJobs.modifyD ip ∅ (insert jobId)
    jobHistory := s.jobHistory.modifyD ip [] (· ++ [now])
    lastSeen := s.lastSeen.set ip now }

/-- `register_job_end(ip, job_id, cpu_seconds)`. -/
def registerJobEnd (ip jobId : String) (cpuSeconds now : ℚ) (s : RL) : RL :=
  cleanupOldEntries ip now
    { s with
      activeJobs := s.activeJobs.modifyD ip ∅ fun a => a.erase jobId
      cpuUsage := s.cpuUsage.modifyD ip [] (· ++ [(now, cpuSeconds)])
      lastSeen := s.lastSeen.set ip now }

/-- `get_available_cpu_seconds(ip)`. -/
def getAvailableCpuSeconds (c : Config) (ip : String) (now : ℚ) (s : RL) : ℚ × RL :=
  let s := { s with cpuUsage := s.cpuUsage.touch ip [] }
  (max 0 (c.cpuSecondsPerMinute - recentCpu (s.cpuUsage.getD ip []) now), s)

/-- `del d[k]`. -/
def delItem {ν : Type} (d : PyDict String ν) (k : String) : Except Exc (PyDict String ν) :=
  if (d.get? k).isSome then .ok (d.erase k) else .error (.keyError k)

/-- The body of the loop of `cleanup_inactive_ips` for one IP: the four `del`s in order;
an exception leaves the deletions made before it. -/
def forgetIp (ip : String) (s : RL) : Except Exc Unit × RL :=
  match delItem s.cpuUsage ip with
  | .error e => (.error e, s)
  | .ok cpuUsage =>
    let s := { s with cpuUsage }
    match delItem s.activeJobs ip with
    | .error e => (.error e, s)
    | .ok activeJobs =>
      let s := { s with activeJobs }
      match delItem s.jobHistory ip with
      | .error e => (.error e, s)
      | .ok jobHistory =>
        let s := { s with jobHistory }
        match delItem s.lastSeen ip with
        | .error e => (.error e, s)
        | .ok lastSeen => (.ok (), { s with lastSeen })

/-- The loop of `cleanup_inactive_ips`. -/
def forgetIps : List String → RL → Except Exc Unit × RL
  | [], s => (.ok (), s)
  | ip :: rest, s =>
    match forgetIp ip s with
    | (.ok (), s) => forgetIps rest s
    | (.error e, s) => (.error e, s)

/-- The IPs `cleanup_inactive_ips` forgets: those last seen before the cutoff, in the
order of `last_seen`. -/
def inactiveIps (c : Config) (now : ℚ) (s : RL) : List String :=
  (s.lastSeen.items.filter fun e => e.2 < now - c.cleanupAfterHours * 3600).map Prod.fst

/-- `cleanup_inactive_ips()`: the number of IPs forgotten. -/
def cleanupInactiveIps (c : Config) (now : ℚ) (s : RL) : Except Exc Nat × RL :=
  match forgetIps (inactiveIps c now s) s with
  | (.ok (), s') => (.ok (inactiveIps c now s).length, s')
  | (.error e, s') => (.error e, s')

end Sandrun.RateLimiter
