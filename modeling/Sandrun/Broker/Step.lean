import Sandrun.Broker.Basic

/-!
# The broker as a step relation

Flask serves requests on threads, and the cleanup thread runs beside them.  A step is one
handler's transaction, one half of a `/claim` call, or one run of `cleanup_stale_data`;
any step may follow any other.  A `World` is the database with the `/claim` calls between
their two halves, and the job ids handed out so far: `generate_job_id` hashes the time
with 64 random bits, and the model takes its values as never repeating.

## Main definitions

* `World`, `Act`, `step` — the system and its steps, computable; a step answers the reply
  of the request it ends, if any.
* `steps`, `ReachableBy`, `Reachable` — runs and the worlds they reach.

## Main results

* `step_cases` — what each step does, with its guard.
-/

namespace Sandrun.Broker

/-- The broker with its requests in progress. -/
structure World where
  db : Db
  /-- The `/claim` calls between their `SELECT` and their `UPDATE`. -/
  claims : List Claim
  /-- The ids `generate_job_id` has returned. -/
  issued : List String

/-- A broker just started on a new database. -/
def World.init : World := ⟨Db.init, [], []⟩

/-- One step of the broker. -/
inductive Act
  /-- `POST /submit`; `jobId` is the value `generate_job_id` returns. -/
  | submit (jobId : String) (body : SubmitBody) (now : Nat)
  | register (body : RegisterBody) (now : Nat)
  | heartbeat (nodeId : Option String) (now : Nat)
  /-- The first half of `POST /claim`; `pick` is the job whose row the `SELECT` returns. -/
  | claimSelect (nodeId : Option String) (pick : Option String)
  /-- The second half of a `/claim` call. -/
  | claimUpdate (c : Claim) (now : Nat)
  | complete (body : CompleteBody) (now : Nat)
  /-- `cleanup_stale_data`, run at UTC second `now`. -/
  | cleanup (now : Nat)
  deriving DecidableEq, Repr

/-- A request that runs as one transaction. -/
def World.apply (w : World) (f : Db → Db × Reply) : World × Option Reply :=
  ({ w with db := (f w.db).1 }, some (f w.db).2)

variable (cfg : Config) (nodeIdOf : String → String)

/-- The effect of a step and the reply of the request it ends; `none` when it cannot be
taken. -/
def step (w : World) : Act → Option (World × Option Reply)
  | .submit jobId body now =>
    if jobId ∈ w.issued then none
    else some ({ w with db := (submitJob jobId body now w.db).1, issued := jobId :: w.issued },
      some (submitJob jobId body now w.db).2)
  | .register body now => some (w.apply (registerNode nodeIdOf body now))
  | .heartbeat nodeId now => some (w.apply (heartbeat nodeId now))
  | .claimSelect nodeId pick =>
    if answers w.db pick then
      match claimSelect nodeId (pick.bind fun j => (w.db.jobs.get? j).map (j, ·)) with
      | .done r => some (w, some r)
      | .selected c => some ({ w with claims := c :: w.claims }, none)
    else none
  | .claimUpdate c now =>
    if c ∈ w.claims then
      some ({ w with db := (claimUpdate c now w.db).1, claims := w.claims.erase c },
        some (claimUpdate c now w.db).2)
    else none
  | .complete body now => some (w.apply (completeJob body now))
  | .cleanup now =>
    some ({ w with db := cleanupStaleData (cfg.ago now cfg.nodeTimeout) (cfg.ago now cfg.resultTtl) w.db },
      none)

/-- **What a step can do**, its guard included. -/
theorem step_cases {w w' : World} {a : Act} {r : Option Reply} (hs : step cfg nodeIdOf w a = some (w', r)) :
    (∃ j body now, a = .submit j body now ∧ j ∉ w.issued ∧
      w' = { w with db := (submitJob j body now w.db).1, issued := j :: w.issued }) ∨
    (∃ body now, a = .register body now ∧ w' = { w with db := (registerNode nodeIdOf body now w.db).1 }) ∨
    (∃ n now, a = .heartbeat n now ∧ w' = { w with db := (heartbeat n now w.db).1 }) ∨
    (∃ n pick, a = .claimSelect n pick ∧
      (w' = w ∨ ∃ c, n = some c.nodeId ∧ w' = { w with claims := c :: w.claims })) ∨
    (∃ c now, a = .claimUpdate c now ∧ c ∈ w.claims ∧
      w' = { w with db := (claimUpdate c now w.db).1, claims := w.claims.erase c } ∧
      r = some (claimUpdate c now w.db).2) ∨
    (∃ body now, a = .complete body now ∧ w' = { w with db := (completeJob body now w.db).1 }) ∨
    (∃ now, a = .cleanup now ∧
      w' = { w with db := cleanupStaleData (cfg.ago now cfg.nodeTimeout) (cfg.ago now cfg.resultTtl) w.db }) := by
  cases a with
  | submit j body now =>
    simp only [step] at hs
    split_ifs at hs with hj
    cases hs
    exact .inl ⟨j, body, now, rfl, hj, rfl⟩
  | register body now => cases hs; exact .inr (.inl ⟨body, now, rfl, rfl⟩)
  | heartbeat n now => cases hs; exact .inr (.inr (.inl ⟨n, now, rfl, rfl⟩))
  | claimSelect n pick =>
    simp only [step] at hs
    split_ifs at hs
    split at hs <;> cases hs
    · exact .inr (.inr (.inr (.inl ⟨n, pick, rfl, .inl rfl⟩)))
    · next c hc =>
      refine .inr (.inr (.inr (.inl ⟨n, pick, rfl, .inr ⟨c, ?_, rfl⟩⟩)))
      unfold claimSelect at hc
      split at hc <;> cases hc
      rfl
  | claimUpdate c now =>
    simp only [step] at hs
    split_ifs at hs with hc
    cases hs
    exact .inr (.inr (.inr (.inr (.inl ⟨c, now, rfl, hc, rfl, rfl⟩))))
  | complete body now => cases hs; exact .inr (.inr (.inr (.inr (.inr (.inl ⟨body, now, rfl, rfl⟩)))))
  | cleanup now => cases hs; exact .inr (.inr (.inr (.inr (.inr (.inr ⟨now, rfl, rfl⟩)))))

/-- The steps from a world, in order; `none` if one cannot be taken. -/
def steps (w : World) : List Act → Option World
  | [] => some w
  | a :: as => (step cfg nodeIdOf w a).bind fun p => steps p.1 as

/-- The worlds reached from a new database by steps that `allowed` permits. -/
inductive ReachableBy (allowed : World → Act → Prop) : World → Prop
  | init : ReachableBy allowed World.init
  | step {w w' : World} {a : Act} {r : Option Reply} : ReachableBy allowed w → allowed w a →
      Broker.step cfg nodeIdOf w a = some (w', r) → ReachableBy allowed w'

/-- The worlds some interleaving reaches. -/
def Reachable : World → Prop := ReachableBy cfg nodeIdOf fun _ _ => True

theorem Reachable.of_steps {w w' : World} {as : List Act} (hw : Reachable cfg nodeIdOf w)
    (h : steps cfg nodeIdOf w as = some w') : Reachable cfg nodeIdOf w' := by
  induction as generalizing w with
  | nil => cases h; exact hw
  | cons a as ih =>
    obtain ⟨⟨w₁, r⟩, h₁, h₂⟩ := Option.bind_eq_some.1 h
    exact ih (ReachableBy.step hw trivial h₁) h₂

end Sandrun.Broker
