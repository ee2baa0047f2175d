import Sandrun.Broker.Claims

/-!
# Nodes

A node's row is created or replaced by `/register`, whose `INSERT OR REPLACE` starts
`jobs_completed` and `jobs_failed` again at 0; `/heartbeat` and the cleanup touch only its
heartbeat and its flag, and rows are never deleted.  `/complete` increments one of the
counters of the node its body names, with no condition on the job: a report for a job that
is not the node's, or that does not exist, counts as much as one that records a result.

`/claim` does not check that its `node_id` names a node.  A job claimed under an id with no
row is never put back to pending: the cleanup requeues only the jobs of nodes whose row is
inactive.  So the job stays assigned for as long as no node registers under that id and no
report comes from it.  When every claim comes from a registered node, every assigned job's
node has a row, and the cleanup requeues the job once that node has been silent for
`NODE_TIMEOUT`.

## Main definitions

* `reportCounts`, `afterLast` — a run's reports from a node, and the part of a run after
  the node's last registration.
* `RegisteredClaims` — every `/claim` names a node that has a row.
* `Requeueable` — every assigned or running job has a node, which the cleanup requeues the
  job from once it is silent.

## Main results

* `node_counts_since_register` — a node's counters count the reports naming it since its
  last registration, whatever jobs they name.
* `report_for_unknown_job_counted` — a report for a job that does not exist increments the
  counter.
* `claim_by_unregistered_node_strands` — a job claimed under an id with no row stays
  assigned through every later step that neither registers nor reports under that id.
* `registered_claims_requeueable` — with claims from registered nodes, every reachable
  world is `Requeueable`.
-/

namespace Sandrun.Broker

variable (cfg : Config) (nodeIdOf : String → String)

/-! ### The counters -/

/-- Whether a step registers a node under the id `n`. -/
def Act.registers (n : String) : Act → Bool
  | .register ⟨some endpoint, _⟩ _ => nodeIdOf endpoint = n
  | _ => false

/-- The exit code, `none` for `null`, of a step that is a `/complete` with every required
key naming node `n`. -/
def Act.reportedCode (n : String) : Act → Option (Option Int)
  | .complete body _ => body.report?.bind fun r => if r.nodeId = n then some r.exitCode else none
  | _ => none

/-- The reports of a run naming node `n`: those with exit code 0, and the others, `null`
included. -/
def reportCounts (n : String) (as : List Act) : Nat × Nat :=
  ((as.filterMap (Act.reportedCode n)).countP (· = some 0),
    (as.filterMap (Act.reportedCode n)).countP (· ≠ some 0))

/-- Counters moved on by the reports of a run naming node `n`. -/
def addReports (n : String) (as : List Act) (c : Nat × Nat) : Nat × Nat :=
  (c.1 + (reportCounts n as).1, c.2 + (reportCounts n as).2)

/-- The part of a run after its last step that satisfies `p`, if one does. -/
def afterLast (p : Act → Bool) : List Act → Option (List Act)
  | [] => none
  | a :: as => (afterLast p as).orElse fun _ => if p a then some as else none

theorem addReports_cons (n : String) (a : Act) (as : List Act) (c : Nat × Nat) :
    addReports n as (addReports n [a] c) = addReports n (a :: as) c := by
  simp only [addReports, reportCounts, List.filterMap_cons, List.filterMap_nil]
  cases a.reportedCode n with
  | none => simp
  | some x => by_cases hx : x = some 0 <;> simp [hx] <;> omega

/-- The step lemma: a registration starts the counters again, a report naming the node
increments one, and nothing else moves them. -/
theorem step_counts {w w' : World} {a : Act} {r : Option Reply}
    (hs : step cfg nodeIdOf w a = some (w', r)) (n : String) :
    (w'.db.nodes.get? n).map NodeRow.counts =
      if a.registers nodeIdOf n then some (0, 0)
      else ((w.db.nodes.get? n).map NodeRow.counts).map (addReports n [a]) := by
  -- a step that neither registers nor reports under `n` leaves its counters
  have quiet : a.registers nodeIdOf n = false → a.reportedCode n = none →
      (w'.db.nodes.get? n).map NodeRow.counts = (w.db.nodes.get? n).map NodeRow.counts →
      (w'.db.nodes.get? n).map NodeRow.counts =
        if a.registers nodeIdOf n then some (0, 0)
        else ((w.db.nodes.get? n).map NodeRow.counts).map (addReports n [a]) := by
    intro hr hc he
    rw [he, hr, if_neg Bool.false_ne_true]
    cases (w.db.nodes.get? n).map NodeRow.counts <;> simp [addReports, reportCounts, hc]
  rcases step_cases cfg nodeIdOf hs with ⟨j, b, now, rfl, -, rfl⟩ | ⟨⟨e, caps⟩, now, rfl, rfl⟩ |
    ⟨m, now, rfl, rfl⟩ | ⟨m, p, rfl, rfl | ⟨_, -, rfl⟩⟩ | ⟨c, now, rfl, -, rfl, -⟩ | ⟨b, now, rfl, rfl⟩ |
    ⟨now, rfl, rfl⟩
  · exact quiet rfl rfl (by simp)
  · cases e with
    | none => exact quiet rfl rfl rfl
    | some e =>
      by_cases he : nodeIdOf e = n
      · simp [registerNode, World.apply, Act.registers, he, NodeRow.counts]
      · exact quiet (by simp [Act.registers, he]) rfl
          (by simp [World.apply, registerNode, Ne.symm he])
  · exact quiet rfl rfl (heartbeat_nodes m n).1
  · exact quiet rfl rfl rfl
  · exact quiet rfl rfl rfl
  · exact quiet rfl rfl (by simp)
  · cases hrep : b.report? with
    | none =>
      exact quiet rfl (by simp [Act.reportedCode, hrep]) (by simp [World.apply, completeJob_nodes, hrep])
    | some rep =>
      by_cases hk : rep.nodeId = n
      · subst hk
        simp only [World.apply, completeJob_nodes, hrep, PyDict.get?_modify, if_true, Act.registers,
          Bool.false_eq_true, if_false]
        cases w.db.nodes.get? rep.nodeId <;> by_cases hc : rep.exitCode = some 0 <;>
          simp [NodeRow.tally, NodeRow.counts, hrep, hc, addReports, reportCounts, Act.reportedCode]
      · exact quiet rfl (by simp [Act.reportedCode, hrep, hk])
          (by simp [World.apply, completeJob_nodes, hrep, Ne.symm hk])
  · refine quiet rfl rfl ?_
    simp only [cleanupStaleData_nodes, PyDict.get?_map, Option.map_map]
    cases w.db.nodes.get? n <;> simp

/-- The run lemma, from any world. -/
theorem steps_counts {w₀ w : World} {as : List Act} (h : steps cfg nodeIdOf w₀ as = some w)
    (n : String) :
    (w.db.nodes.get? n).map NodeRow.counts =
      match afterLast (Act.registers nodeIdOf n) as with
      | some s => some (reportCounts n s)
      | none => ((w₀.db.nodes.get? n).map NodeRow.counts).map (addReports n as) := by
  induction as generalizing w₀ with
  | nil =>
    obtain rfl := Option.some.inj h
    cases w₀.db.nodes.get? n <;> simp [afterLast, addReports, reportCounts]
  | cons a as ih =>
    simp only [steps, Option.bind_eq_some] at h
    obtain ⟨⟨w₁, r⟩, h₁, h₂⟩ := h
    rw [ih h₂]
    have hc := step_counts cfg nodeIdOf h₁ n
    simp only [afterLast]
    cases afterLast (Act.registers nodeIdOf n) as with
    | some s => rfl
    | none =>
      simp only [Option.orElse]
      split_ifs at hc ⊢ with hr
      · simp [hc, addReports]
      · rw [hc, Option.map_map, Function.comp_def]
        simp only [addReports_cons]

/-- A report whose `exit_code` is `null` passes the check of its keys, and counts as failed. -/
example :
    ∃ w, steps ({} : Config) id World.init [.register ⟨some "n", none⟩ 0,
        .complete ⟨some "n", some "x", some "", some "", some none⟩ 1] = some w ∧
      (w.db.nodes.get? "n").map NodeRow.counts = some (0, 1) :=
  ⟨_, rfl, rfl⟩

/-- Whether a step registers under, or reports as, node `n`. -/
def Act.speaksFor (n : String) (a : Act) : Bool :=
  a.registers nodeIdOf n || (a.reportedCode n).isSome

/-- The step lemma: a job assigned to an id with no row keeps its row, and the id stays
without one, through a step that neither registers nor reports under it. -/
theorem step_stranded {w w' : World} {a : Act} {r : Option Reply} {j n : String} {row : JobRow}
    (hs : step cfg nodeIdOf w a = some (w', r)) (hj : w.db.jobs.get? j = some row)
    (hst : row.status ∈ ["assigned", "running"]) (hn : row.nodeId = some n)
    (hnode : w.db.nodes.get? n = none) (ha : a.speaksFor nodeIdOf n = false) :
    w'.db.jobs.get? j = some row ∧ w'.db.nodes.get? n = none := by
  rcases step_cases cfg nodeIdOf hs with ⟨j', b, now, rfl, -, rfl⟩ | ⟨⟨e, caps⟩, now, rfl, rfl⟩ |
    ⟨m, now, rfl, rfl⟩ | ⟨m, p, rfl, rfl | ⟨_, -, rfl⟩⟩ | ⟨c, now, rfl, -, rfl, -⟩ | ⟨b, now, rfl, rfl⟩ |
    ⟨now, rfl, rfl⟩
  · rcases submitJob_get? j' b j with he | ⟨-, hn', -⟩
    · exact ⟨he.trans hj, by simpa using hnode⟩
    · simp [hj] at hn'
  · cases e with
    | none => exact ⟨hj, hnode⟩
    | some e =>
      have hne : nodeIdOf e ≠ n := by simpa [Act.speaksFor, Act.registers, Act.reportedCode] using ha
      exact ⟨by simpa using hj, by simp [World.apply, registerNode, Ne.symm hne, hnode]⟩
  · have := (@heartbeat_nodes w.db now m n).2
    rw [hnode] at this
    exact ⟨by simpa using hj, by simpa [World.apply] using this⟩
  · exact ⟨hj, hnode⟩
  · exact ⟨hj, hnode⟩
  · refine ⟨?_, by simpa using hnode⟩
    simp only [claimUpdate_get?]
    split_ifs with hk
    · subst hk; simp [hj, ne_pending_of_mem hst (by decide)]
    · exact hj
  · -- a report from another node
    simp only [World.apply, completeJob_jobs, completeJob_nodes]
    cases hrep : b.report? with
    | none => exact ⟨hj, hnode⟩
    | some rep =>
      have hne : rep.nodeId ≠ n := by
        intro he; simp [Act.speaksFor, Act.reportedCode, hrep, he] at ha
      refine ⟨?_, by simp [hnode, Ne.symm hne]⟩
      simp only [Report.get?_update]
      split_ifs with hk
      · simp [hj, JobRow.record, hn, Ne.symm hne]
      · exact hj
  · -- the cleanup sees no inactive row for the id
    refine ⟨?_, by simp [hnode]⟩
    have hkept : row.kept (cfg.ago now cfg.resultTtl) = true := by
      simp [JobRow.kept,
        (by decide : ∀ s ∈ ["assigned", "running"], s ∉ ["completed", "failed"]) _ hst]
    simp [hj, JobRow.requeue, hn, hnode, hkept]

/-- The run lemma. -/
theorem steps_stranded {w w' : World} {as : List Act} {j n : String} {row : JobRow}
    (h : steps cfg nodeIdOf w as = some w') (hj : w.db.jobs.get? j = some row)
    (hst : row.status ∈ ["assigned", "running"]) (hn : row.nodeId = some n)
    (hnode : w.db.nodes.get? n = none) (ha : ∀ a ∈ as, a.speaksFor nodeIdOf n = false) :
    w'.db.jobs.get? j = some row ∧ w'.db.nodes.get? n = none := by
  induction as generalizing w with
  | nil => cases h; exact ⟨hj, hnode⟩
  | cons a as ih =>
    simp only [steps, Option.bind_eq_some] at h
    obtain ⟨⟨w₁, r⟩, h₁, h₂⟩ := h
    obtain ⟨hj₁, hn₁⟩ := step_stranded cfg nodeIdOf h₁ hj hst hn hnode (ha a (List.mem_cons_self a as))
    exact ih h₂ hj₁ hn₁ fun b hb => ha b (List.mem_cons_of_mem a hb)

/-- A claim under an id that no node has: the job, assigned to that id, stays so as long as
no node registers under the id and no report comes from it; every cleanup leaves it. -/
theorem claim_by_unregistered_node_strands :
    ∃ w, steps cfg nodeIdOf World.init [.submit "a" ⟨some "print(1)", none, none⟩ 0,
        .claimSelect (some "ghost") (some "a"),
        .claimUpdate ⟨"ghost", ⟨"a", "print(1)", "python3", "[]"⟩⟩ 1] = some w ∧
      (w.db.jobs.get? "a").map (fun row => (row.status, row.nodeId)) = some ("assigned", some "ghost") ∧
      w.db.nodes.get? "ghost" = none ∧
      ∀ as w', steps cfg nodeIdOf w as = some w' → (∀ a ∈ as, a.speaksFor nodeIdOf "ghost" = false) →
        w'.db.jobs.get? "a" = w.db.jobs.get? "a" :=
  ⟨_, rfl, rfl, rfl, fun _ _ h ha => (@steps_stranded cfg nodeIdOf _ _ _ "a" "ghost" _ h rfl (by decide) rfl rfl ha).1⟩

/-! ### Claims from registered nodes -/

/-- Every `/claim` names a node that has a row when it reads the jobs. -/
def RegisteredClaims (w : World) : Act → Prop
  | .claimSelect (some n) _ => (w.db.nodes.get? n).isSome
  | _ => True

/-- Every assigned or running job has a node with a row, and a cleanup run once that node's
last heartbeat is older than the cleanup's local time less `NODE_TIMEOUT` puts the job back
to pending: once the node has been silent for `NODE_TIMEOUT` less `utcOffset`. -/
def Requeueable (w : World) : Prop :=
  ∀ j row, w.db.jobs.get? j = some row → row.status ∈ ["assigned", "running"] →
    ∃ n node, row.nodeId = some n ∧ w.db.nodes.get? n = some node ∧
      ∀ now, node.lastHeartbeat < cfg.ago now cfg.nodeTimeout →
        ((step cfg nodeIdOf w (.cleanup now)).bind fun p => p.1.db.jobs.get? j).map (·.status) =
          some "pending"

/-- The invariant of runs with claims from registered nodes. -/
structure NodesKnown (w : World) : Prop where
  /-- An assigned or running job's node has a row. -/
  assigned : ∀ j row, w.db.jobs.get? j = some row → row.status ∈ ["assigned", "running"] →
    ∃ n, row.nodeId = some n ∧ (w.db.nodes.get? n).isSome
  /-- A claim in progress comes from a node with a row. -/
  claims : ∀ c ∈ w.claims, (w.db.nodes.get? c.nodeId).isSome

/-- No step deletes a node's row. -/
theorem step_nodes_isSome {w w' : World} {a : Act} {r : Option Reply}
    (hs : step cfg nodeIdOf w a = some (w', r)) {n : String} (hn : (w.db.nodes.get? n).isSome) :
    (w'.db.nodes.get? n).isSome := by
  rcases step_cases cfg nodeIdOf hs with ⟨j, b, now, rfl, -, rfl⟩ | ⟨⟨e, caps⟩, now, rfl, rfl⟩ |
    ⟨m, now, rfl, rfl⟩ | ⟨m, p, rfl, rfl | ⟨_, -, rfl⟩⟩ | ⟨c, now, rfl, -, rfl, -⟩ | ⟨b, now, rfl, rfl⟩ |
    ⟨now, rfl, rfl⟩
  · simpa using hn
  · cases e with
    | none => exact hn
    | some e => simp only [World.apply, registerNode, PyDict.get?_set]; split_ifs <;> simp [hn]
  · exact (heartbeat_nodes m n).2.trans hn
  · exact hn
  · exact hn
  · simpa using hn
  · simp only [World.apply, completeJob_nodes]
    split
    · rwa [PyDict.isSome_get?_modify]
    · exact hn
  · simpa using hn

theorem NodesKnown.step {w w' : World} {a : Act} {r : Option Reply} (h : NodesKnown w)
    (ha : RegisteredClaims w a) (hs : step cfg nodeIdOf w a = some (w', r)) : NodesKnown w' := by
  have keep : ∀ {n}, (w.db.nodes.get? n).isSome → (w'.db.nodes.get? n).isSome :=
    fun hn => step_nodes_isSome cfg nodeIdOf hs hn
  -- a job that was assigned keeps a node with a row
  have old : ∀ {j row}, w.db.jobs.get? j = some row → row.status ∈ ["assigned", "running"] →
      ∃ n, row.nodeId = some n ∧ (w'.db.nodes.get? n).isSome := fun hj hst =>
    let ⟨n, hn, hk⟩ := h.assigned _ _ hj hst
    ⟨n, hn, keep hk⟩
  rcases step_cases cfg nodeIdOf hs with ⟨j', b, now, rfl, -, rfl⟩ | ⟨_, _, rfl, rfl⟩ |
    ⟨m, now, rfl, rfl⟩ | ⟨m, p, rfl, rfl | ⟨c, hc, rfl⟩⟩ | ⟨c, now, rfl, hc, rfl, -⟩ |
    ⟨b, now, rfl, rfl⟩ | ⟨now, rfl, rfl⟩
  · refine ⟨fun j row hj hst => ?_, fun c hc => keep (h.claims c hc)⟩
    rcases submitJob_get? j' b j with he | ⟨-, -, row', hrow', hp, -⟩
    · exact old (he.symm.trans hj) hst
    · rw [hrow'] at hj; cases hj; simp [hp] at hst
  · exact ⟨fun j row hj hst => old (by simpa using hj) hst, fun c hc => keep (h.claims c hc)⟩
  · exact ⟨fun j row hj hst => old (by simpa using hj) hst, fun c hc => keep (h.claims c hc)⟩
  · exact h
  · -- a claim starts from a registered node
    refine ⟨fun j row hj hst => old hj hst, fun c' hc' => ?_⟩
    rcases List.mem_cons.1 hc' with rfl | hc'
    · subst hc; exact ha
    · exact h.claims c' hc'
  · -- a claim assigns a job to its own node
    refine ⟨fun j row' hj hst => ?_, fun c' hc' => keep (h.claims c' (List.mem_of_mem_erase hc'))⟩
    simp only [claimUpdate_get?] at hj
    split_ifs at hj
    · obtain ⟨row, h₀, rfl⟩ := Option.map_eq_some'.1 hj
      by_cases hp : row.status = "pending"
      · simp only [hp, if_true]; exact ⟨c.nodeId, rfl, keep (h.claims c hc)⟩
      · simp only [hp, if_false] at hst ⊢; exact old h₀ hst
    · exact old hj hst
  · -- a report finishes a job or leaves it
    refine ⟨fun j row' hj hst => ?_, fun c hc => keep (h.claims c hc)⟩
    simp only [World.apply, completeJob_jobs] at hj
    split at hj
    · next rep hrep =>
      rw [Report.get?_update] at hj
      split_ifs at hj
      · obtain ⟨row, h₀, rfl⟩ := Option.map_eq_some'.1 hj
        by_cases hn : row.nodeId = some rep.nodeId
        · simp only [JobRow.record, hn, if_true, Report.status] at hst
          split_ifs at hst <;> simp at hst
        · simp only [JobRow.record, hn, if_false] at hst ⊢; exact old h₀ hst
      · exact old hj hst
    · exact old hj hst
  · -- the cleanup requeues a job or leaves it
    refine ⟨fun j row' hj hst => ?_, fun c hc => keep (h.claims c hc)⟩
    simp only [cleanupStaleData_jobs, PyDict.get?_filter, PyDict.get?_map] at hj
    cases h₀ : w.db.jobs.get? j with
    | none => simp [h₀] at hj
    | some row =>
      simp only [h₀, Option.map_some', Option.filter] at hj
      split_ifs at hj
      obtain rfl := Option.some.inj hj
      unfold JobRow.requeue at hst ⊢
      split_ifs at hst ⊢
      · simp at hst
      · exact old h₀ hst

theorem ReachableBy.nodesKnown {w : World} (hr : ReachableBy cfg nodeIdOf RegisteredClaims w) :
    NodesKnown w := by
  induction hr with
  | init => exact ⟨fun j row hj => by simp [World.init, Db.init] at hj, fun c hc => by simp [World.init] at hc⟩
  | step _ ha hs ih => exact ih.step cfg nodeIdOf ha hs

/-- A job whose node has a row goes back to pending in a cleanup whose threshold the node's
last heartbeat is below. -/
theorem NodesKnown.requeueable {w : World} (h : NodesKnown w) : Requeueable cfg nodeIdOf w := by
  intro j row hj hst
  obtain ⟨n, hn, hk⟩ := h.assigned j row hj hst
  obtain ⟨node, hnode⟩ := Option.isSome_iff_exists.1 hk
  refine ⟨n, node, hn, hnode, fun now hold => ?_⟩
  have hexp : (NodeRow.expire (cfg.ago now cfg.nodeTimeout) node).active = false := by
    unfold NodeRow.expire
    split_ifs with h₁
    · rfl
    · simpa [hold] using h₁
  show ((cleanupStaleData _ _ w.db).jobs.get? j).map (·.status) = some "pending"
  simp only [cleanupStaleData_jobs, PyDict.get?_filter, PyDict.get?_map, hj, Option.map_some']
  simp [JobRow.requeue, hst, hn, hnode, hexp, JobRow.kept, Option.filter]

/-- **Claims from registered nodes are requeued.**  In every run in which each `/claim`
names a node that has a row when it reads the jobs, every job that is assigned or running
has a `node_id` that is the id of a row of `nodes`, and a `cleanup_stale_data` run at a
time when that node's last heartbeat, in UTC, is older than `datetime.now()`, in local
time, less `NODE_TIMEOUT` puts the job back to pending. -/
theorem registered_claims_requeueable {w : World}
    (hr : ReachableBy cfg nodeIdOf RegisteredClaims w) : Requeueable cfg nodeIdOf w :=
  (ReachableBy.nodesKnown cfg nodeIdOf hr).requeueable cfg nodeIdOf

/-- Node `n` registers, and its `/claim` is handed job `a`. -/
theorem registered_claims_requeueable_claimed :
    ∃ w, steps ({} : Config) id World.init [.register ⟨some "n", none⟩ 0,
        .submit "a" ⟨some "print(1)", none, none⟩ 1, .claimSelect (some "n") (some "a"),
        .claimUpdate ⟨"n", ⟨"a", "print(1)", "python3", "[]"⟩⟩ 2] = some w ∧
      (w.db.jobs.get? "a").map (·.status) = some "assigned" ∧
      ReachableBy ({} : Config) id RegisteredClaims w ∧ Requeueable ({} : Config) id w :=
  have h₁ := @ReachableBy.step {} id RegisteredClaims _ _ (.register ⟨some "n", none⟩ 0) _ .init
    trivial rfl
  have h₂ := @ReachableBy.step {} id RegisteredClaims _ _
    (.submit "a" ⟨some "print(1)", none, none⟩ 1) _ h₁ trivial rfl
  have h₃ := @ReachableBy.step {} id RegisteredClaims _ _ (.claimSelect (some "n") (some "a")) _
    h₂ rfl rfl
  have hr := @ReachableBy.step {} id RegisteredClaims _ _
    (.claimUpdate ⟨"n", ⟨"a", "print(1)", "python3", "[]"⟩⟩ 2) _ h₃ trivial rfl
  ⟨_, rfl, rfl, hr, registered_claims_requeueable _ _ hr⟩

end Sandrun.Broker
