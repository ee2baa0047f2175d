import Sandrun.Broker.Node
import Sandrun.Broker.Nodes

/-!
# The broker and its node clients

The broker and the node clients of `node.py` talk over HTTP.  A request a client sends is
served by the broker at some later time, or never, and its reply reaches the client or
is lost; a client that gives up on a request (its `timeout`, a connection error) goes on
as its `except` clause says, while the broker may still serve the request.  The broker
serves requests on threads, beside the cleanup thread and beside other clients, which
submit jobs and may register or heartbeat too; only node clients claim jobs and report
results.

A `Net` is the broker's `World`, the clients, and what is on its way between them: the
requests, the `/claim` calls between their two halves, and the replies, each with the
client and the connection it belongs to.  Every step of the broker in a `Net` is a step
of `Sandrun.Broker.step`, so what holds of every reachable `World` holds of the broker
here (`Net.Reachable.broker`).  `handed` is proof-only: the node id of each client that a
`/claim` reply handed a job, with the job's id.

## Main definitions

* `Request`, `Selected`, `Delivery`, `Net` — the system.
* `NetAct`, `Net.step`, `Net.Reachable` — its steps and the states they reach.
* `Net.holds`, `Net.Orphan` — a job some client may still report, and one none will.

## Main results

* `Net.Reachable.broker` — with node clients, every `/claim` names a node with a row.
* `results_from_claimants` — a result the broker serves from `/results` is one
  `execute_job` returned, in a node client that a `/claim` handed the job under the
  job's `node_id`.
* `orphan_stays` — a job assigned to a node whose clients no longer hold it stays assigned,
  and is never handed out again, until a cleanup finds the node silent.
-/

namespace Sandrun.Broker

/-- A request of node client `client` on its way to the broker, on connection `tag`. -/
structure Request where
  client : Nat
  tag : Nat
  call : Call
  deriving DecidableEq, Repr

/-- A `/claim` call of a node client between its `SELECT` and its `UPDATE`. -/
structure Selected where
  client : Nat
  tag : Nat
  claim : Claim
  deriving DecidableEq, Repr

/-- A reply of the broker on its way to node client `client`, on connection `tag`. -/
structure Delivery where
  client : Nat
  tag : Nat
  reply : Reply
  deriving DecidableEq, Repr

/-- The broker, its node clients, and what is on its way between them. -/
structure Net where
  broker : World
  /-- The node clients, by index. -/
  clients : List Client
  requests : List Request
  selected : List Selected
  replies : List Delivery
  /-- The next connection a client opens. -/
  nextTag : Nat
  /-- Proof-only: the node id of each client a `/claim` reply handed a job, with the
  job's id. -/
  handed : List (Option String × String)

/-- A new broker, and a node client created for each sandrun endpoint. -/
def Net.init (endpoints : List String) : Net :=
  ⟨World.init, endpoints.map Client.init, [], [], [], 0, []⟩

/-- The steps of the broker that others than the node clients take: other clients'
requests, which do not claim or report, and the cleanup thread. -/
def Act.byOthers : Act → Bool
  | .submit .. | .register .. | .heartbeat .. | .cleanup _ => true
  | _ => false

/-- The broker's step that serves a call: `pick` is the row a `/claim`'s `SELECT`
returns, `now` the time. -/
def Call.act (pick : Option String) (now : Nat) : Call → Act
  | .register body => .register body now
  | .heartbeat n => .heartbeat n now
  | .claim n => .claimSelect n pick
  | .complete body => .complete body now

/-- One step of the system. -/
inductive NetAct
  /-- A step of the broker that another client or the cleanup thread takes. -/
  | others (a : Act)
  /-- `start()` of client `i` finds sandrun not answering. -/
  | startFailed (i : Nat)
  /-- `start()` of client `i` registers, with its capabilities' JSON text. -/
  | register (i : Nat) (capabilities : String)
  /-- A turn of the heartbeat thread of client `i`. -/
  | heartbeat (i : Nat)
  /-- `job_loop` of client `i` claims a job. -/
  | claim (i : Nat)
  /-- `execute_job` of client `i` returns, given sandrun's replies, and
  `report_completion` posts the result. -/
  | execute (i : Nat) (submit : SubmitReply) (polls : List Poll)
  /-- `execute_job` of client `i` raises before its `try` (writing the job's files):
  `job_loop` catches it and sleeps, and nothing is reported. -/
  | executeRaised (i : Nat)
  /-- Client `i` reads the reply it waits for, or gives up on it (`none`). -/
  | receive (i : Nat) (reply : Option Reply)
  /-- The broker serves a request. -/
  | serve (rq : Request) (pick : Option String) (now : Nat)
  /-- The broker runs the `UPDATE` of a `/claim` call. -/
  | serveUpdate (sel : Selected) (now : Nat)

/-- Client `i` becomes `cl` and sends `call` on a new connection. -/
def Net.send (w : Net) (i : Nat) (cl : Client) (call : Call) : Net :=
  { w with
    clients := w.clients.set i cl
    requests := ⟨i, w.nextTag, call⟩ :: w.requests
    nextTag := w.nextTag + 1 }

/-- The broker served `rq` with the step to `b` and the reply `r`: the reply goes back on
the request's connection, or, for a `/claim` whose `SELECT` returned a row, the call waits
for its `UPDATE`, which the broker has put at the head of its list. -/
def Net.served (w : Net) (rq : Request) (b : World) : Option Reply → Net
  | some r =>
    { w with
      broker := b
      requests := w.requests.erase rq
      replies := ⟨rq.client, rq.tag, r⟩ :: w.replies }
  | none =>
    { w with
      broker := b
      requests := w.requests.erase rq
      selected := (b.claims.head?.map fun c => ⟨rq.client, rq.tag, c⟩).toList ++ w.selected }

section Served

variable (w : Net) (rq : Request) (b : World) (r : Option Reply)

@[simp] theorem Net.served_broker : (w.served rq b r).broker = b := by cases r <;> rfl
@[simp] theorem Net.served_clients : (w.served rq b r).clients = w.clients := by cases r <;> rfl
@[simp] theorem Net.served_requests : (w.served rq b r).requests = w.requests.erase rq := by
  cases r <;> rfl
@[simp] theorem Net.served_handed : (w.served rq b r).handed = w.handed := by cases r <;> rfl
@[simp] theorem Net.served_nextTag : (w.served rq b r).nextTag = w.nextTag := by cases r <;> rfl

theorem Net.served_replies :
    (w.served rq b r).replies = (r.map fun r => ⟨rq.client, rq.tag, r⟩).toList ++ w.replies := by
  cases r <;> rfl

theorem Net.served_selected :
    (w.served rq b r).selected = (if r.isSome then [] else
      (b.claims.head?.map fun c => ⟨rq.client, rq.tag, c⟩).toList) ++ w.selected := by
  cases r <;> rfl

end Served

variable (cfg : Config) (nodeIdOf : String → String)

/-- The effect of a step, `none` when it cannot be taken. -/
def Net.step (w : Net) : NetAct → Option Net
  | .others a =>
    if a.byOthers then (Broker.step cfg nodeIdOf w.broker a).map fun p => { w with broker := p.1 }
    else none
  | .startFailed i => w.clients[i]?.bind fun cl =>
    if cl.phase = .created then some { w with clients := w.clients.set i { cl with phase := .stopped } }
    else none
  | .register i caps => w.clients[i]?.bind fun cl =>
    if cl.phase = .created then
      some (w.send i { cl with phase := .registering w.nextTag } (.register ⟨some cl.endpoint, some caps⟩))
    else none
  | .heartbeat i => w.clients[i]?.bind fun cl =>
    if cl.phase.running then cl.heartbeat?.map (w.send i cl) else none
  | .claim i => w.clients[i]?.bind fun cl =>
    if cl.phase = .idle then some (w.send i { cl with phase := .claiming w.nextTag } (.claim cl.nodeId))
    else none
  | .execute i submit polls => w.clients[i]?.bind fun cl =>
    match cl.phase with
    | .executing job =>
      some (w.send i { cl with phase := .reporting w.nextTag }
        (.complete (cl.report job (executeJob submit polls))))
    | _ => none
  | .executeRaised i => w.clients[i]?.bind fun cl =>
    match cl.phase with
    | .executing _ => some { w with clients := w.clients.set i { cl with phase := .idle } }
    | _ => none
  | .receive i reply => w.clients[i]?.bind fun cl =>
    match cl.phase.waiting with
    | some tag =>
      if reply.all fun r => (⟨i, tag, r⟩ : Delivery) ∈ w.replies then
        some { w with
          clients := w.clients.set i (cl.receive reply)
          replies := match reply with
            | some r => w.replies.erase ⟨i, tag, r⟩
            | none => w.replies
          handed := ((cl.handed reply).map fun job => (cl.nodeId, job.id)).toList ++ w.handed }
      else none
    | none => none
  | .serve rq pick now =>
    if rq ∈ w.requests then
      (Broker.step cfg nodeIdOf w.broker (rq.call.act pick now)).map fun p => w.served rq p.1 p.2
    else none
  | .serveUpdate sel now =>
    if sel ∈ w.selected then
      (Broker.step cfg nodeIdOf w.broker (.claimUpdate sel.claim now)).map fun p =>
        { w with
          broker := p.1
          selected := w.selected.erase sel
          replies := (p.2.map fun r => ⟨sel.client, sel.tag, r⟩).toList ++ w.replies }
    else none

/-- The steps from a state, in order; `none` if one cannot be taken. -/
def Net.steps (w : Net) : List NetAct → Option Net
  | [] => some w
  | a :: as => (Net.step cfg nodeIdOf w a).bind fun w' => Net.steps w' as

/-- The states some run reaches from new clients of the given endpoints. -/
inductive Net.Reachable (endpoints : List String) : Net → Prop
  | init : Net.Reachable endpoints (Net.init endpoints)
  | step {w w' : Net} {a : NetAct} : Net.Reachable endpoints w → Net.step cfg nodeIdOf w a = some w' →
      Net.Reachable endpoints w'

theorem Net.Reachable.of_steps {endpoints : List String} {w w' : Net} {as : List NetAct}
    (hr : Net.Reachable cfg nodeIdOf endpoints w) (h : w.steps cfg nodeIdOf as = some w') :
    Net.Reachable cfg nodeIdOf endpoints w' := by
  induction as generalizing w with
  | nil => cases h; exact hr
  | cons a as ih =>
    obtain ⟨w₁, h₁, h₂⟩ := Option.bind_eq_some.1 h
    exact ih (hr.step h₁) h₂

/-! ### What a step can do -/

/-- The steps of a node client that read no reply: `cl` becomes `cl'`, and sends `call`, if
any, on the new connection `tag`. -/
inductive Client.Moves (tag : Nat) : Client → Client → Option Call → Prop
  | startFailed {cl : Client} : cl.phase = .created → Client.Moves tag cl { cl with phase := .stopped } none
  | register {cl : Client} (caps : String) : cl.phase = .created →
      Client.Moves tag cl { cl with phase := .registering tag }
        (some (.register ⟨some cl.endpoint, some caps⟩))
  | heartbeat {cl : Client} {call : Call} : cl.phase.running → cl.heartbeat? = some call →
      Client.Moves tag cl cl (some call)
  | claim {cl : Client} : cl.phase = .idle →
      Client.Moves tag cl { cl with phase := .claiming tag } (some (.claim cl.nodeId))
  | execute {cl : Client} {job : ClaimedJob} (submit : SubmitReply) (polls : List Poll) :
      cl.phase = .executing job →
      Client.Moves tag cl { cl with phase := .reporting tag }
        (some (.complete (cl.report job (executeJob submit polls))))
  | executeRaised {cl : Client} {job : ClaimedJob} : cl.phase = .executing job →
      Client.Moves tag cl { cl with phase := .idle } none

/-- Client `i` becomes `cl'` and sends `call`, if any, on a new connection. -/
def Net.move (w : Net) (i : Nat) (cl' : Client) : Option Call → Net
  | some call => w.send i cl' call
  | none => { w with clients := w.clients.set i cl' }

section Move

variable (w : Net) (i : Nat) (cl' : Client) (call : Option Call)

@[simp] theorem Net.move_broker : (w.move i cl' call).broker = w.broker := by cases call <;> rfl
@[simp] theorem Net.move_clients : (w.move i cl' call).clients = w.clients.set i cl' := by
  cases call <;> rfl
@[simp] theorem Net.move_selected : (w.move i cl' call).selected = w.selected := by
  cases call <;> rfl
@[simp] theorem Net.move_replies : (w.move i cl' call).replies = w.replies := by cases call <;> rfl
@[simp] theorem Net.move_handed : (w.move i cl' call).handed = w.handed := by cases call <;> rfl

theorem Net.move_requests :
    (w.move i cl' call).requests = (call.map fun c => ⟨i, w.nextTag, c⟩).toList ++ w.requests := by
  cases call <;> rfl

theorem Net.move_nextTag :
    (w.move i cl' call).nextTag = w.nextTag + if call.isSome then 1 else 0 := by
  cases call <;> rfl

end Move

/-- A step of a client's own code keeps its node id. -/
theorem Client.Moves.nodeId {tag : Nat} {cl cl' : Client} {call : Option Call}
    (h : Client.Moves tag cl cl' call) : cl'.nodeId = cl.nodeId := by
  cases h <;> rfl

/-- A step of a client's own code starts running no job. -/
theorem Client.Moves.executing {tag : Nat} {cl cl' : Client} {call : Option Call} {job : ClaimedJob}
    (h : Client.Moves tag cl cl' call) (hp : cl'.phase = .executing job) : cl' = cl := by
  cases h <;> first | rfl | cases hp

/-- A step of a client's own code waits on the new connection, or on none, or leaves the
client as it was. -/
theorem Client.Moves.waiting {tag : Nat} {cl cl' : Client} {call : Option Call}
    (h : Client.Moves tag cl cl' call) :
    cl'.phase.waiting = none ∨ cl'.phase.waiting = some tag ∨ cl' = cl := by
  cases h <;> simp [Phase.waiting]

/-- What a client's own code sends: a claim under its node id, a report of the job it runs
with what `execute_job` returned, or a registration or heartbeat. -/
theorem Client.Moves.call {tag : Nat} {cl cl' : Client} {c : Call}
    (h : Client.Moves tag cl cl' (some c)) :
    (c = .claim cl.nodeId ∧ cl.phase = .idle) ∨
    (∃ job r, c = .complete (cl.report job r) ∧ cl.phase = .executing job ∧
      ∃ submit polls, executeJob submit polls = r) ∨
    (∃ body, c = .register body) ∨ (∃ n, c = .heartbeat n) := by
  cases h with
  | register caps _ => exact .inr (.inr (.inl ⟨_, rfl⟩))
  | heartbeat _ hc =>
    unfold Client.heartbeat? at hc
    split at hc
    · split_ifs at hc; cases hc; exact .inr (.inr (.inr ⟨_, rfl⟩))
    · cases hc
  | claim hp => exact .inl ⟨rfl, hp⟩
  | execute submit polls hp => exact .inr (.inl ⟨_, _, rfl, hp, submit, polls, rfl⟩)

/-- A client that reads a reply keeps its node id, or takes the one a `/register` reply
gives. -/
theorem Client.receive_nodeId (cl : Client) (reply : Option Reply) :
    (cl.receive reply).nodeId = cl.nodeId ∨
      ∃ n, reply = some (.registered n) ∧ (cl.receive reply).nodeId = some n := by
  unfold Client.receive
  split
  · exact .inr ⟨_, rfl, rfl⟩
  all_goals exact .inl rfl

theorem Call.act_eq_complete {c : Call} {pick : Option String} {now now' : Nat} {body : CompleteBody}
    (h : c.act pick now = .complete body now') : c = .complete body := by
  cases c <;> simp only [Call.act, Act.complete.injEq, reduceCtorEq] at h
  rw [h.1]

/-- **What a step can do.** -/
theorem Net.step_cases {w w' : Net} {a : NetAct} (hs : Net.step cfg nodeIdOf w a = some w') :
    (∃ a' b r, a = .others a' ∧ a'.byOthers ∧ Broker.step cfg nodeIdOf w.broker a' = some (b, r) ∧
      w' = { w with broker := b }) ∨
    (∃ i cl cl' call, w.clients[i]? = some cl ∧ Client.Moves w.nextTag cl cl' call ∧
      w' = w.move i cl' call) ∨
    (∃ i cl tag reply, w.clients[i]? = some cl ∧ cl.phase.waiting = some tag ∧
      (∀ r, reply = some r → (⟨i, tag, r⟩ : Delivery) ∈ w.replies) ∧
      w' = { w with
        clients := w.clients.set i (cl.receive reply)
        replies := match reply with
          | some r => w.replies.erase ⟨i, tag, r⟩
          | none => w.replies
        handed := ((cl.handed reply).map fun job => (cl.nodeId, job.id)).toList ++ w.handed }) ∨
    (∃ rq pick now b r, rq ∈ w.requests ∧
      Broker.step cfg nodeIdOf w.broker (rq.call.act pick now) = some (b, r) ∧ w' = w.served rq b r) ∨
    (∃ sel now b r, sel ∈ w.selected ∧
      Broker.step cfg nodeIdOf w.broker (.claimUpdate sel.claim now) = some (b, r) ∧
      w' = { w with
        broker := b
        selected := w.selected.erase sel
        replies := (r.map fun r => ⟨sel.client, sel.tag, r⟩).toList ++ w.replies }) := by
  cases a with
  | others a' =>
    dsimp only [Net.step] at hs
    split_ifs at hs with ho
    obtain ⟨⟨b, r⟩, hb, rfl⟩ := Option.map_eq_some'.1 hs
    exact .inl ⟨a', b, r, rfl, ho, hb, rfl⟩
  | receive i reply =>
    obtain ⟨cl, hcl, hs⟩ := Option.bind_eq_some.1 hs
    split at hs
    · next tag htag =>
      split_ifs at hs with hr
      cases hs
      refine .inr (.inr (.inl ⟨i, cl, tag, reply, hcl, htag, fun r he => ?_, rfl⟩))
      simpa [he] using hr
    · cases hs
  | serve rq pick now =>
    dsimp only [Net.step] at hs
    split_ifs at hs with hrq
    obtain ⟨⟨b, r⟩, hb, rfl⟩ := Option.map_eq_some'.1 hs
    exact .inr (.inr (.inr (.inl ⟨rq, pick, now, b, r, hrq, hb, rfl⟩)))
  | serveUpdate sel now =>
    dsimp only [Net.step] at hs
    split_ifs at hs with hsel
    obtain ⟨⟨b, r⟩, hb, rfl⟩ := Option.map_eq_some'.1 hs
    exact .inr (.inr (.inr (.inr ⟨sel, now, b, r, hsel, hb, rfl⟩)))
  | startFailed i =>
    obtain ⟨cl, hcl, hs⟩ := Option.bind_eq_some.1 hs
    split_ifs at hs with hp
    cases hs
    exact .inr (.inl ⟨i, cl, _, none, hcl, .startFailed hp, rfl⟩)
  | register i caps =>
    obtain ⟨cl, hcl, hs⟩ := Option.bind_eq_some.1 hs
    split_ifs at hs with hp
    cases hs
    exact .inr (.inl ⟨i, cl, _, _, hcl, .register caps hp, rfl⟩)
  | heartbeat i =>
    obtain ⟨cl, hcl, hs⟩ := Option.bind_eq_some.1 hs
    split_ifs at hs with hp
    obtain ⟨call, hc, rfl⟩ := Option.map_eq_some'.1 hs
    exact .inr (.inl ⟨i, cl, cl, some call, hcl, .heartbeat hp hc, rfl⟩)
  | claim i =>
    obtain ⟨cl, hcl, hs⟩ := Option.bind_eq_some.1 hs
    split_ifs at hs with hp
    cases hs
    exact .inr (.inl ⟨i, cl, _, _, hcl, .claim hp, rfl⟩)
  | execute i submit polls =>
    obtain ⟨cl, hcl, hs⟩ := Option.bind_eq_some.1 hs
    split at hs
    · next job hp => cases hs; exact .inr (.inl ⟨i, cl, _, _, hcl, .execute submit polls hp, rfl⟩)
    · cases hs
  | executeRaised i =>
    obtain ⟨cl, hcl, hs⟩ := Option.bind_eq_some.1 hs
    split at hs
    · next job hp => cases hs; exact .inr (.inl ⟨i, cl, _, none, hcl, .executeRaised hp, rfl⟩)
    · cases hs

/-! ### The broker's side -/

/-- Whether a reply hands out job `j`. -/
def Reply.hands (j : String) : Reply → Bool
  | .job (some jc) => jc.id = j
  | _ => false

/-- Whether the cleanup's first `UPDATE`, with `deadTime`, leaves a node active. -/
def NodeRow.live (deadTime : Nat) (node : NodeRow) : Bool :=
  node.active ∧ deadTime ≤ node.lastHeartbeat

section BrokerSide

variable {w w' : World} {a : Act}

/-- **The replies that matter to a node client.**  A `.registered` reply comes from
`/register`, which has written the node's row; a reply that hands out a job comes from the
`UPDATE` of a `/claim`, on a job that was pending. -/
theorem step_reply {r : Reply} (hs : Broker.step cfg nodeIdOf w a = some (w', some r)) :
    (∀ n, r = .registered n → (w'.db.nodes.get? n).isSome) ∧
    (∀ job, r = .job (some job) → ∃ c now, a = .claimUpdate c now ∧ job = c.job ∧
      ∃ row, w.db.jobs.get? c.job.id = some row ∧ row.status = "pending") := by
  cases a with
  | submit j b now =>
    simp only [Broker.step] at hs
    split_ifs at hs
    simp only [Option.some.injEq, Prod.mk.injEq] at hs
    obtain ⟨-, rfl⟩ := hs
    unfold submitJob
    split
    · simp
    · split_ifs <;> simp
  | register b now =>
    simp only [Broker.step, World.apply, Option.some.injEq, Prod.mk.injEq] at hs
    obtain ⟨rfl, rfl⟩ := hs
    unfold registerNode
    split <;> simp
  | heartbeat m now =>
    simp only [Broker.step, World.apply, Option.some.injEq, Prod.mk.injEq] at hs
    obtain ⟨-, rfl⟩ := hs
    unfold heartbeat
    split <;> simp
  | claimSelect m pick =>
    simp only [Broker.step] at hs
    split_ifs at hs
    split at hs
    · next r' hc =>
      simp only [Option.some.injEq, Prod.mk.injEq] at hs
      obtain ⟨-, rfl⟩ := hs
      unfold claimSelect at hc
      split at hc <;> cases hc <;> simp
    · cases hs
  | claimUpdate c now =>
    simp only [Broker.step] at hs
    split_ifs at hs
    simp only [Option.some.injEq, Prod.mk.injEq] at hs
    obtain ⟨-, rfl⟩ := hs
    refine ⟨fun n h => ?_, fun job h => ?_⟩
    · unfold claimUpdate at h
      split at h
      · split_ifs at h
      · cases h
    · obtain ⟨rfl, row, hrow, hp, -⟩ := claimUpdate_handed h
      exact ⟨c, now, rfl, rfl, row, hrow, hp⟩
  | complete b now =>
    simp only [Broker.step, World.apply, Option.some.injEq, Prod.mk.injEq] at hs
    obtain ⟨-, rfl⟩ := hs
    unfold completeJob
    split
    · split <;> simp
    · simp
  | cleanup now => cases hs

/-- A job with a `completed_at`, which only a report writes, is completed for exit code 0
and failed otherwise (a `null` exit code included), and has a node; a job without one is
neither completed nor failed. -/
def FinishedRows (w : World) : Prop :=
  ∀ j row, w.db.jobs.get? j = some row →
    match row.completedAt with
    | some _ => row.status = (if row.exitCode = some 0 then "completed" else "failed") ∧
        row.nodeId.isSome
    | none => row.status ∉ ["completed", "failed"]

/-- A job that is not completed or failed has no `completed_at`. -/
theorem FinishedRows.completedAt_eq_none (hf : FinishedRows w) {j : String} {row : JobRow}
    (hj : w.db.jobs.get? j = some row) (hst : row.status ∉ ["completed", "failed"]) :
    row.completedAt = none := by
  have := hf j row hj
  cases hc : row.completedAt with
  | none => rfl
  | some t =>
    rw [hc] at this
    exact absurd (by rw [this.1]; split_ifs <;> simp) hst

/-- **How a step changes a job's row**, from a world with `FinishedRows`: it leaves it, or
it makes a row that is not finished and has no `completed_at`, or it records a report of
the job's own node. -/
theorem step_row (hf : FinishedRows w) {r : Option Reply}
    (hs : Broker.step cfg nodeIdOf w a = some (w', r)) {j : String} {row' : JobRow}
    (hj : w'.db.jobs.get? j = some row') :
    w.db.jobs.get? j = some row' ∨ (row'.completedAt = none ∧ row'.status ∉ ["completed", "failed"]) ∨
    ∃ body now rep row, a = .complete body now ∧ body.report? = some rep ∧ rep.jobId = j ∧
      w.db.jobs.get? j = some row ∧ row.nodeId = some rep.nodeId ∧ row' = row.record rep now := by
  rcases step_cases cfg nodeIdOf hs with ⟨j', b, now, -, -, rfl⟩ | ⟨_, _, -, rfl⟩ | ⟨_, _, -, rfl⟩ |
    ⟨_, _, -, rfl | ⟨_, -, rfl⟩⟩ | ⟨c, now, -, -, rfl, -⟩ | ⟨b, now, rfl, rfl⟩ | ⟨now, -, rfl⟩
  · -- `/submit` inserts a pending row
    simp only [submitJob] at hj
    split at hj
    · exact .inl hj
    · split_ifs at hj
      · exact .inl hj
      · rw [PyDict.get?_set] at hj
        split_ifs at hj
        · cases hj; exact .inr (.inl ⟨rfl, by simp⟩)
        · exact .inl hj
  all_goals try exact .inl (by simpa using hj)
  · -- the `UPDATE` of `/claim` assigns a pending row, which has no `completed_at`
    rw [claimUpdate_get?] at hj
    split_ifs at hj with hk
    · obtain ⟨row, h₀, rfl⟩ := Option.map_eq_some'.1 hj
      by_cases hp : row.status = "pending"
      · simp only [hp, if_true]
        exact .inr (.inl ⟨(hf.completedAt_eq_none h₀ (by rw [hp]; decide) : row.completedAt = none),
          by simp⟩)
      · simp only [hp, if_false]; exact .inl h₀
    · exact .inl hj
  · -- a report records its result on the row of its own node
    simp only [World.apply, completeJob_jobs] at hj
    split at hj
    · next rep hrep =>
      rw [Report.get?_update] at hj
      split_ifs at hj with hk
      · obtain ⟨row, h₀, rfl⟩ := Option.map_eq_some'.1 hj
        by_cases hn : row.nodeId = some rep.nodeId
        · exact .inr (.inr ⟨b, now, rep, row, rfl, hrep, hk, h₀, hn, rfl⟩)
        · simp only [JobRow.record, hn, if_false]; exact .inl h₀
      · exact .inl hj
    · exact .inl hj
  · -- the cleanup requeues an assigned row, which has no `completed_at`
    simp only [cleanupStaleData_jobs, PyDict.get?_filter, PyDict.get?_map] at hj
    cases h₀ : w.db.jobs.get? j with
    | none => simp [h₀] at hj
    | some row =>
      simp only [h₀, Option.map_some', Option.filter] at hj
      split_ifs at hj
      obtain rfl := Option.some.inj hj
      unfold JobRow.requeue
      split_ifs with hq
      · have hst : row.status ∉ ["completed", "failed"] := fun h =>
          (by decide : ∀ s ∈ ["assigned", "running"], s ∉ ["completed", "failed"]) _ hq.1 h
        exact .inr (.inl ⟨(hf.completedAt_eq_none h₀ hst : row.completedAt = none), by simp⟩)
      · exact .inl rfl

theorem FinishedRows.step (hf : FinishedRows w) {r : Option Reply}
    (hs : Broker.step cfg nodeIdOf w a = some (w', r)) : FinishedRows w' := by
  intro j row' hj
  rcases step_row cfg nodeIdOf hf hs hj with h | ⟨he, hst⟩ | ⟨-, -, rep, row, -, -, -, -, hn, rfl⟩
  · exact hf j row' h
  · rw [he]; exact hst
  · simp [JobRow.record, hn, Report.status]

/-- A reply that hands out job `j` comes from a step on a world where `j` was pending. -/
theorem step_hands {r : Reply} {j : String} (hs : Broker.step cfg nodeIdOf w a = some (w', some r))
    (hh : r.hands j) : ∃ row, w.db.jobs.get? j = some row ∧ row.status = "pending" := by
  cases r with
  | job job =>
    cases job with
    | some job =>
      obtain ⟨c, -, -, rfl, row, hrow, hp⟩ := (step_reply cfg nodeIdOf hs).2 _ rfl
      obtain rfl : c.job.id = j := by simpa [Reply.hands] using hh
      exact ⟨row, hrow, hp⟩
    | none => cases hh
  | _ => cases hh

/-- **An assigned job stays with its node** through a broker step that is no report of that
node on the job and no cleanup that finds the node silent. -/
theorem step_assigned_kept {r : Option Reply} (hs : Broker.step cfg nodeIdOf w a = some (w', r))
    {j n : String} {row : JobRow} (hj : w.db.jobs.get? j = some row) (hst : row.status = "assigned")
    (hn : row.nodeId = some n)
    (hrep : ∀ body now rep, a = .complete body now → body.report? = some rep → rep.nodeId = n →
      rep.jobId ≠ j)
    (hclean : ∀ now, a = .cleanup now → (w.db.nodes.get? n).all (NodeRow.live (cfg.ago now cfg.nodeTimeout))) :
    w'.db.jobs.get? j = some row := by
  rcases step_cases cfg nodeIdOf hs with ⟨j', b, now, rfl, -, rfl⟩ | ⟨b, now, rfl, rfl⟩ |
    ⟨m, now, rfl, rfl⟩ | ⟨m, p, rfl, rfl | ⟨_, -, rfl⟩⟩ | ⟨c, now, rfl, -, rfl, -⟩ | ⟨b, now, rfl, rfl⟩ |
    ⟨now, rfl, rfl⟩
  · rcases submitJob_get? j' b j with he | ⟨-, hn', -⟩
    · exact he.trans hj
    · simp [hj] at hn'
  all_goals try simpa using hj
  · -- the `UPDATE` of `/claim` matches pending rows only
    simp only [claimUpdate_get?]
    split_ifs with hk
    · simp [hj, hst]
    · exact hj
  · -- a report of another node, or on another job, leaves the row
    simp only [World.apply, completeJob_jobs]
    cases hr' : b.report? with
    | none => exact hj
    | some rep =>
      simp only [Report.get?_update]
      split_ifs with hk
      · have hne : rep.nodeId ≠ n := fun he => hrep b now rep rfl hr' he hk
        simp [hj, JobRow.record, hn, Ne.symm hne]
      · exact hj
  · -- the cleanup finds the node active
    have hkept : row.kept (cfg.ago now cfg.resultTtl) = true := by simp [JobRow.kept, hst]
    have hlive := hclean now rfl
    cases hnode : w.db.nodes.get? n with
    | none => simp [hj, JobRow.requeue, hn, hnode, hkept]
    | some node =>
      simp only [hnode, Option.all_some, NodeRow.live, Bool.and_eq_true, decide_eq_true_eq] at hlive
      simp [hj, JobRow.requeue, hn, hnode, hkept, NodeRow.expire, hlive.1, Nat.not_lt.2 hlive.2]

end BrokerSide

/-! ### Node clients claim under registered ids -/

/-- Every node id a client holds, claims under, or is about to read from a `/register`
reply has a row in `nodes`. -/
structure Net.Registered (w : Net) : Prop where
  clients : ∀ cl ∈ w.clients, ∀ n, cl.nodeId = some n → (w.broker.db.nodes.get? n).isSome
  requests : ∀ rq ∈ w.requests, ∀ n, rq.call = .claim (some n) →
    (w.broker.db.nodes.get? n).isSome
  replies : ∀ d ∈ w.replies, ∀ n, d.reply = .registered n → (w.broker.db.nodes.get? n).isSome

theorem Net.Registered.init (endpoints : List String) : (Net.init endpoints).Registered where
  clients cl hcl n hn := by
    simp only [Net.init, List.mem_map] at hcl
    obtain ⟨e, -, rfl⟩ := hcl
    cases hn
  requests rq h := by simp [Net.init] at h
  replies d h := by simp [Net.init] at h

/-- The step lemma: a step keeps `Registered`, and the broker's step in it, if there is
one, claims under a registered id if it claims. -/
theorem Net.Registered.step {w w' : Net} {a : NetAct} (h : w.Registered)
    (hs : Net.step cfg nodeIdOf w a = some w') :
    w'.Registered ∧ (w'.broker = w.broker ∨
      ∃ a' r, RegisteredClaims w.broker a' ∧ Broker.step cfg nodeIdOf w.broker a' = some (w'.broker, r)) := by
  have keep : ∀ {a' b r}, Broker.step cfg nodeIdOf w.broker a' = some (b, r) →
      ∀ {n}, (w.broker.db.nodes.get? n).isSome → (b.db.nodes.get? n).isSome :=
    fun hb _ hn => step_nodes_isSome cfg nodeIdOf hb hn
  -- a new reply of the broker is a `.registered` one only for a node it has a row for
  have fresh : ∀ {a' b} {r : Option Reply} {d : Delivery} {k t : Nat}, Broker.step cfg nodeIdOf w.broker a' = some (b, r) →
      d ∈ (r.map fun r => (⟨k, t, r⟩ : Delivery)).toList → ∀ n, d.reply = .registered n →
      (b.db.nodes.get? n).isSome := fun {_ _ r _ _ _} hb hd n hn => by
    obtain ⟨r, rfl, rfl⟩ := Option.map_eq_some'.1 (Option.mem_toList.1 hd)
    exact (step_reply cfg nodeIdOf hb).1 n hn
  rcases Net.step_cases cfg nodeIdOf hs with ⟨a', b, r, -, ho, hb, rfl⟩ | ⟨i, cl, cl', call, hcl, hm, rfl⟩ |
    ⟨i, cl, tag, reply, hcl, -, hr, rfl⟩ | ⟨rq, pick, now, b, r, hrq, hb, rfl⟩ |
    ⟨sel, now, b, r, -, hb, rfl⟩
  · -- another client's request or the cleanup: it does not claim
    refine ⟨⟨fun cl hc n hn => keep hb (h.clients cl hc n hn),
      fun rq hrq n hn => keep hb (h.requests rq hrq n hn), fun d hd n hn => keep hb (h.replies d hd n hn)⟩,
      .inr ⟨a', r, ?_, hb⟩⟩
    cases a' <;> trivial
  · -- a client's own step keeps its id, and claims under it
    refine ⟨⟨fun c hc n hn => ?_, fun rq hrq n hn => ?_, fun d hd n hn => ?_⟩, .inl (Net.move_broker ..)⟩
    · rw [Net.move_clients] at hc
      rw [Net.move_broker]
      rcases List.mem_or_eq_of_mem_set hc with hc | rfl
      · exact h.clients c hc n hn
      · exact h.clients cl (List.getElem?_mem hcl) n (hm.nodeId ▸ hn)
    · rw [Net.move_requests] at hrq
      rw [Net.move_broker]
      rcases List.mem_append.1 hrq with hrq | hrq
      · obtain ⟨c, rfl, rfl⟩ := Option.map_eq_some'.1 (Option.mem_toList.1 hrq)
        rcases hm.call with ⟨hc, -⟩ | ⟨_, _, hc, -⟩ | ⟨_, hc⟩ | ⟨_, hc⟩ <;> rw [hc] at hn <;>
          simp only [Call.claim.injEq, reduceCtorEq] at hn
        exact h.clients cl (List.getElem?_mem hcl) n hn
      · exact h.requests rq hrq n hn
    · rw [Net.move_replies] at hd
      rw [Net.move_broker]
      exact h.replies d hd n hn
  · -- a client reading a reply takes the id of a `/register` reply
    refine ⟨⟨fun c hc n hn => ?_, fun rq hrq n hn => h.requests rq hrq n hn, fun d hd n hn => ?_⟩, .inl rfl⟩
    · rcases List.mem_or_eq_of_mem_set hc with hc | rfl
      · exact h.clients c hc n hn
      · rcases cl.receive_nodeId reply with he | ⟨m, rfl, he⟩
        · exact h.clients cl (List.getElem?_mem hcl) n (he ▸ hn)
        · rw [he] at hn; cases hn
          exact h.replies _ (hr _ rfl) _ rfl
    · cases reply with
      | none => exact h.replies d hd n hn
      | some r => exact h.replies d (List.mem_of_mem_erase hd) n hn
  · -- the broker serves a request: a claim comes from a registered client
    refine ⟨⟨fun cl hc n hn => ?_, fun rq' hrq' n hn => ?_, fun d hd n hn => ?_⟩, .inr ⟨_, r, ?_, by rwa [Net.served_broker]⟩⟩
    · rw [Net.served_clients] at hc
      rw [Net.served_broker]
      exact keep hb (h.clients cl hc n hn)
    · rw [Net.served_requests] at hrq'
      rw [Net.served_broker]
      exact keep hb (h.requests rq' (List.mem_of_mem_erase hrq') n hn)
    · rw [Net.served_replies] at hd
      rw [Net.served_broker]
      rcases List.mem_append.1 hd with hd | hd
      · exact fresh hb hd n hn
      · exact keep hb (h.replies d hd n hn)
    · rcases hc : rq.call with body | m | (_ | m) | body <;> simp only [Call.act] <;> try trivial
      exact h.requests rq hrq m hc
  · -- the `UPDATE` of a claim
    refine ⟨⟨fun cl hc n hn => keep hb (h.clients cl hc n hn),
      fun rq hrq n hn => keep hb (h.requests rq hrq n hn), fun d hd n hn => ?_⟩,
      .inr ⟨.claimUpdate sel.claim now, r, trivial, hb⟩⟩
    rcases List.mem_append.1 hd with hd | hd
    · exact fresh hb hd n hn
    · exact keep hb (h.replies d hd n hn)

/-- The broker of a system with node clients runs a run of the broker in which every
`/claim` names a node with a row. -/
theorem Net.Reachable.broker {endpoints : List String} {w : Net}
    (hr : Net.Reachable cfg nodeIdOf endpoints w) :
    w.Registered ∧ ReachableBy cfg nodeIdOf RegisteredClaims w.broker := by
  induction hr with
  | init => exact ⟨Net.Registered.init endpoints, .init⟩
  | step _ hs ih =>
    obtain ⟨hreg, hb⟩ := ih.1.step cfg nodeIdOf hs
    refine ⟨hreg, ?_⟩
    rcases hb with he | ⟨a', r, ha, hb⟩
    · exact he ▸ ih.2
    · exact ih.2.step ha hb

/-- **Node clients never strand a job by their id.**  In every run of the broker with
node clients running `node.py`, among other clients' requests and the cleanup thread,
every assigned or running job's `node_id` is the id of a row of `nodes`, and a
`cleanup_stale_data` run once that node's last heartbeat (UTC) is older than the cleanup's
`datetime.now()` (local time) less `NODE_TIMEOUT` puts the job back to pending: a node
client claims only under the id its registration returned. -/
theorem node_clients_requeueable {endpoints : List String} {w : Net}
    (hr : Net.Reachable cfg nodeIdOf endpoints w) : Requeueable cfg nodeIdOf w.broker :=
  (ReachableBy.nodesKnown cfg nodeIdOf (hr.broker cfg nodeIdOf).2).requeueable cfg nodeIdOf

/-- A run in which a node client registers and is handed the job another client
submitted. -/
def claimedRun : List NetAct :=
  [.register 0 "\x7b\x7d",
    .serve ⟨0, 0, .register ⟨some "http://n", some "\x7b\x7d"⟩⟩ none 0,
    .receive 0 (some (.registered "http://n")),
    .others (.submit "a" ⟨some "print(1)", none, none⟩ 1),
    .claim 0,
    .serve ⟨0, 1, .claim (some "http://n")⟩ (some "a") 2,
    .serveUpdate ⟨0, 1, ⟨"http://n", ⟨"a", "print(1)", "python3", "[]"⟩⟩⟩ 3,
    .receive 0 (some (.job (some ⟨"a", "print(1)", "python3", "[]"⟩)))]

theorem node_clients_requeueable_claimed :
    ∃ w, (Net.init ["http://n"]).steps {} id claimedRun = some w ∧
      (w.broker.db.jobs.get? "a").map (·.status) = some "assigned" ∧
      Net.Reachable {} id ["http://n"] w ∧ Requeueable {} id w.broker :=
  have hr := @Net.Reachable.of_steps {} id ["http://n"] _ _ claimedRun .init rfl
  ⟨_, rfl, rfl, hr, node_clients_requeueable {} id hr⟩

/-! ### Connections -/

/-- Every connection in use is older than the next one a client opens. -/
structure Net.TagsFresh (w : Net) : Prop where
  requests : ∀ rq ∈ w.requests, rq.tag < w.nextTag
  selected : ∀ sel ∈ w.selected, sel.tag < w.nextTag
  replies : ∀ d ∈ w.replies, d.tag < w.nextTag

theorem Net.TagsFresh.step {w w' : Net} {a : NetAct} (h : w.TagsFresh)
    (hs : Net.step cfg nodeIdOf w a = some w') : w'.TagsFresh := by
  rcases Net.step_cases cfg nodeIdOf hs with ⟨a', b, r, -, -, -, rfl⟩ | ⟨i, cl, cl', call, -, -, rfl⟩ |
    ⟨i, cl, tag, reply, -, -, -, rfl⟩ | ⟨rq, pick, now, b, r, hrq, -, rfl⟩ | ⟨sel, now, b, r, hsel, -, rfl⟩
  · exact ⟨h.requests, h.selected, h.replies⟩
  · -- a new request takes the next connection
    have hle : w.nextTag ≤ (w.move i cl' call).nextTag := by rw [Net.move_nextTag]; omega
    refine ⟨fun rq hrq => ?_, fun sel hsel => ?_, fun d hd => ?_⟩
    · rw [Net.move_requests] at hrq
      rcases List.mem_append.1 hrq with hrq | hrq
      · obtain ⟨c, rfl, rfl⟩ := Option.map_eq_some'.1 (Option.mem_toList.1 hrq)
        simp [Net.move_nextTag]
      · exact lt_of_lt_of_le (h.requests rq hrq) hle
    · exact lt_of_lt_of_le (h.selected sel (by simpa using hsel)) hle
    · exact lt_of_lt_of_le (h.replies d (by simpa using hd)) hle
  · refine ⟨h.requests, h.selected, fun d hd => h.replies d ?_⟩
    cases reply with
    | none => exact hd
    | some r => exact List.mem_of_mem_erase hd
  · -- the reply or the waiting claim keeps the request's connection
    refine ⟨fun rq' hrq' => ?_, fun sel hsel => ?_, fun d hd => ?_⟩
    · simp only [Net.served_requests, Net.served_nextTag] at hrq' ⊢
      exact h.requests rq' (List.mem_of_mem_erase hrq')
    · rw [Net.served_selected, List.mem_append] at hsel
      simp only [Net.served_nextTag]
      rcases hsel with hsel | hsel
      · split_ifs at hsel
        · cases hsel
        · obtain ⟨c, -, rfl⟩ : ∃ c, _ ∧ _ = sel := by simpa using hsel
          exact h.requests rq hrq
      · exact h.selected sel hsel
    · rw [Net.served_replies, List.mem_append] at hd
      simp only [Net.served_nextTag]
      rcases hd with hd | hd
      · obtain ⟨r, rfl, rfl⟩ := Option.map_eq_some'.1 (Option.mem_toList.1 hd)
        exact h.requests rq hrq
      · exact h.replies d hd
  · refine ⟨h.requests, fun s hs => h.selected s (List.mem_of_mem_erase hs), fun d hd => ?_⟩
    rcases List.mem_append.1 hd with hd | hd
    · obtain ⟨r, rfl, rfl⟩ := Option.map_eq_some'.1 (Option.mem_toList.1 hd)
      exact h.selected sel hsel
    · exact h.replies d hd

theorem Net.Reachable.tagsFresh {endpoints : List String} {w : Net}
    (hr : Net.Reachable cfg nodeIdOf endpoints w) : w.TagsFresh := by
  induction hr with
  | init => exact ⟨fun _ h => by simp [Net.init] at h, fun _ h => by simp [Net.init] at h,
      fun _ h => by simp [Net.init] at h⟩
  | step _ hs ih => exact ih.step cfg nodeIdOf hs

/-! ### Results come from the node that was handed the job -/

/-- The results `execute_job` can return. -/
def Executed (r : Result) : Prop := ∃ submit polls, executeJob submit polls = r

/-- A report body vouched for by the system's history: the report it carries, if it has
every key, is one `execute_job` returned, in a client that a `/claim` reply handed the
report's job while it had the report's node id. -/
def Vouched (handed : List (Option String × String)) (body : CompleteBody) : Prop :=
  ∀ rep, body.report? = some rep →
    (∀ j, rep.jobId = some j → (some rep.nodeId, j) ∈ handed) ∧
      ∃ e, rep.exitCode = some e ∧ Executed ⟨rep.output, rep.error, e⟩

/-- Every finished job has a node that was handed the job, and an output, an error and an
exit code that `execute_job` returned. -/
def ResultsFrom (handed : List (Option String × String)) (w : World) : Prop :=
  ∀ j row, w.db.jobs.get? j = some row → row.completedAt.isSome →
    ∃ n e, row.nodeId = some n ∧ (some n, j) ∈ handed ∧ row.exitCode = some e ∧
      Executed ⟨row.output, row.error, e⟩

section Results

variable {handed : List (Option String × String)} {w w' : World} {a : Act}

theorem ResultsFrom.mono (h : ResultsFrom handed w) {handed' : List (Option String × String)}
    (hh : handed ⊆ handed') : ResultsFrom handed' w := fun j row hj hc => by
  obtain ⟨n, e, hn, hin, he, hx⟩ := h j row hj hc
  exact ⟨n, e, hn, hh hin, he, hx⟩

/-- The step lemma on the broker's side: results are written only by reports, so if the
step's report is vouched for, the results stay so. -/
theorem ResultsFrom.step (h : ResultsFrom handed w) (hf : FinishedRows w) {r : Option Reply}
    (hs : Broker.step cfg nodeIdOf w a = some (w', r))
    (ha : ∀ body now, a = .complete body now → Vouched handed body) : ResultsFrom handed w' := by
  intro j row' hj hc
  rcases step_row cfg nodeIdOf hf hs hj with h₀ | ⟨hn, -⟩ | ⟨body, now, rep, row, rfl, hrep, hk, -, hn, rfl⟩
  · exact h j row' h₀ hc
  · rw [hn] at hc; cases hc
  · obtain ⟨hh, e, he, hx⟩ := ha body now rfl rep hrep
    simp only [JobRow.record, hn, if_true]
    exact ⟨rep.nodeId, e, rfl, hh j hk, he, hx⟩

end Results

/-- The invariant of the system: finished rows are consistent, every client that runs a
job was handed it under its node id, every report in flight is vouched for, and every
result in the broker's table came from a node that was handed its job. -/
structure Net.Provenance (w : Net) : Prop where
  finished : FinishedRows w.broker
  executing : ∀ cl ∈ w.clients, ∀ job, cl.phase = .executing job → (cl.nodeId, job.id) ∈ w.handed
  reports : ∀ rq ∈ w.requests, ∀ body, rq.call = .complete body → Vouched w.handed body
  rows : ResultsFrom w.handed w.broker

theorem Net.Provenance.init (endpoints : List String) : (Net.init endpoints).Provenance where
  finished j row h := by simp [Net.init, World.init, Db.init] at h
  executing cl hcl job hp := by
    simp only [Net.init, List.mem_map] at hcl
    obtain ⟨e, -, rfl⟩ := hcl
    cases hp
  reports rq h := by simp [Net.init] at h
  rows j row h := by simp [Net.init, World.init, Db.init] at h

theorem Net.Provenance.step {w w' : Net} {a : NetAct} (h : w.Provenance)
    (hs : Net.step cfg nodeIdOf w a = some w') : w'.Provenance := by
  rcases Net.step_cases cfg nodeIdOf hs with ⟨a', b, r, -, ho, hb, rfl⟩ | ⟨i, cl, cl', call, hcl, hm, rfl⟩ |
    ⟨i, cl, tag, reply, hcl, -, hr, rfl⟩ | ⟨rq, pick, now, b, r, hrq, hb, rfl⟩ |
    ⟨sel, now, b, r, -, hb, rfl⟩
  · -- another client's request or the cleanup reports nothing
    exact ⟨h.finished.step cfg nodeIdOf hb, h.executing, h.reports,
      h.rows.step cfg nodeIdOf h.finished hb fun body now he => by subst he; cases ho⟩
  · -- a client's own step: a report carries what `execute_job` returned for its job
    refine ⟨by simpa using h.finished, fun c hc job hp => ?_, fun rq hrq body hb => ?_,
      by simpa using h.rows⟩
    · rw [Net.move_clients] at hc
      rw [Net.move_handed]
      rcases List.mem_or_eq_of_mem_set hc with hc | rfl
      · exact h.executing c hc job hp
      · exact hm.executing hp ▸ h.executing cl (List.getElem?_mem hcl) job (hm.executing hp ▸ hp)
    · rw [Net.move_requests] at hrq
      rw [Net.move_handed]
      rcases List.mem_append.1 hrq with hrq | hrq
      · obtain ⟨c, rfl, rfl⟩ := Option.map_eq_some'.1 (Option.mem_toList.1 hrq)
        rcases hm.call with ⟨hc, -⟩ | ⟨job, r, hc, hp, hx⟩ | ⟨_, hc⟩ | ⟨_, hc⟩ <;> rw [hc] at hb <;>
          simp only [Call.complete.injEq, reduceCtorEq] at hb
        subst hb
        intro rep hrep
        rw [Client.report_report?] at hrep
        obtain ⟨n, hn, rfl⟩ := Option.map_eq_some'.1 hrep
        exact ⟨fun j hj => by cases hj; exact hn ▸ h.executing cl (List.getElem?_mem hcl) job hp,
          r.exitCode, rfl, hx⟩
      · exact h.reports rq hrq body hb
  · -- a client reading a reply runs the job a `/claim` reply handed it
    have sub : w.handed ⊆ ((cl.handed reply).map fun job => (cl.nodeId, job.id)).toList ++ w.handed :=
      List.subset_append_right _ _
    refine ⟨h.finished, fun c hc job hp => ?_, fun rq hrq body hb rep hrep => ?_, h.rows.mono sub⟩
    · rcases List.mem_or_eq_of_mem_set hc with hc | rfl
      · exact sub (h.executing c hc job hp)
      · rcases Client.receive_executing hp with he | ⟨hh, hn⟩
        · rw [he] at hp ⊢; exact sub (h.executing cl (List.getElem?_mem hcl) job hp)
        · simp [hh, hn]
    · obtain ⟨hin, hx⟩ := h.reports rq hrq body hb rep hrep
      exact ⟨fun j hj => sub (hin j hj), hx⟩
  · -- the broker serves a request: a report it records is vouched for
    refine ⟨by simpa using h.finished.step cfg nodeIdOf hb, by simpa using h.executing,
      fun rq' hrq' body hb' => ?_, ?_⟩
    · rw [Net.served_requests] at hrq'
      simpa using h.reports rq' (List.mem_of_mem_erase hrq') body hb'
    · simpa using h.rows.step cfg nodeIdOf h.finished hb fun body now he =>
        h.reports rq hrq body (Call.act_eq_complete he)
  · -- the `UPDATE` of a claim reports nothing
    exact ⟨h.finished.step cfg nodeIdOf hb, h.executing, h.reports,
      h.rows.step cfg nodeIdOf h.finished hb fun _ _ he => by cases he⟩

theorem Net.Reachable.provenance {endpoints : List String} {w : Net}
    (hr : Net.Reachable cfg nodeIdOf endpoints w) : w.Provenance := by
  induction hr with
  | init => exact Net.Provenance.init endpoints
  | step _ hs ih => exact ih.step cfg nodeIdOf hs

/-- **A result comes from the node that was handed the job.**  Whatever other clients
submit, register or heartbeat, however requests are delayed, served twice over or lost,
and whatever the cleanup does, a result `/results/<job_id>` serves is one `execute_job`
returned, reported by a node client that a `/claim` reply handed the job while it had the
node id that `/status/<job_id>` shows for the job; the status is `completed` for exit code
0 and `failed` otherwise. -/
theorem results_from_claimants {endpoints : List String} {w : Net}
    (hr : Net.Reachable cfg nodeIdOf endpoints w) {j st : String} {output error : Option String}
    {exitCode : Option Int} (h : getResults w.broker.db j = .results j st output error exitCode) :
    ∃ n r, (some n, j) ∈ w.handed ∧ Executed r ∧ output = r.output ∧ error = r.error ∧
      exitCode = some r.exitCode ∧ st = (if r.exitCode = 0 then "completed" else "failed") ∧
      ∃ createdAt completedAt, getStatus w.broker.db j = .status j st (some n) createdAt completedAt := by
  have hp := hr.provenance cfg nodeIdOf
  unfold getResults at h
  split at h
  · cases h
  · next row hrow =>
    split_ifs at h with hst
    cases h
    have hfin := hp.finished j row hrow
    cases hc : row.completedAt with
    | none => simp only [hc] at hfin; exact absurd hst hfin
    | some t =>
      obtain ⟨n, e, hn, hin, he, hx⟩ := hp.rows j row hrow (by simp [hc])
      simp only [hc, he, Option.some.injEq] at hfin
      exact ⟨n, ⟨row.output, row.error, e⟩, hin, hx, rfl, rfl, he, hfin.1, row.createdAt,
        some t, by simp [getStatus, hrow, hn, hc]⟩

/-- A run in which a node client registers, claims the job another client submitted, runs
it and reports exit code 0. -/
def completedRun : List NetAct :=
  claimedRun ++
  [.execute 0 (.ok "s") [.status "completed" (.ok (some "1\n") none)],
    .serve ⟨0, 2, .complete ⟨some "http://n", some "a", some "1\n", some "", some (0 : Int)⟩⟩ none 4]

theorem results_from_claimants_completedRun :
    ∃ w, (Net.init ["http://n"]).steps {} id completedRun = some w ∧
      getResults w.broker.db "a" = .results "a" "completed" (some "1\n") (some "") (some 0) ∧
      ∃ n r, (some n, "a") ∈ w.handed ∧ Executed r ∧ some "1\n" = r.output ∧
        some "" = r.error ∧ some 0 = some r.exitCode ∧
        "completed" = (if r.exitCode = 0 then "completed" else "failed") ∧
        ∃ createdAt completedAt,
          getStatus w.broker.db "a" = .status "a" "completed" (some n) createdAt completedAt :=
  ⟨_, rfl, by decide, results_from_claimants {} id
    (@Net.Reachable.of_steps {} id ["http://n"] _ _ completedRun .init rfl) (by decide)⟩

/-! ### Jobs no client holds -/

/-- Whether a client runs job `j`. -/
def Phase.executes (j : String) : Phase → Bool
  | .executing job => job.id = j
  | _ => false

theorem Phase.executes_iff {p : Phase} {j : String} :
    p.executes j ↔ ∃ job, p = .executing job ∧ job.id = j := by
  cases p <;> simp [Phase.executes]

/-- Whether a request reports a result of node `n` for job `j`. -/
def Call.reports (n j : String) : Call → Bool
  | .complete body => body.report?.any fun rep => rep.nodeId = n ∧ rep.jobId = some j
  | _ => false

/-- Some client of node `n` may still report job `j`: a client with that node id runs it,
a report of it is on its way, or a reply that hands it out is on its way to a client of
that node id that waits for it. -/
def Net.Holds (w : Net) (n j : String) : Prop :=
  (∃ cl ∈ w.clients, cl.nodeId = some n ∧ cl.phase.executes j) ∨
  (∃ rq ∈ w.requests, rq.call.reports n j) ∨
  (∃ d ∈ w.replies, d.reply.hands j ∧
    w.clients[d.client]?.any fun cl => cl.nodeId = some n ∧ cl.phase.waiting = some d.tag)

instance (w : Net) (n j : String) : Decidable (w.Holds n j) :=
  inferInstanceAs (Decidable (_ ∨ _ ∨ _))

/-- Job `j` is assigned to node `n`, and no client of node `n` holds it: its `/claim`
reply was lost, and no client will run or report it. -/
def Net.Orphan (w : Net) (j n : String) : Prop :=
  (w.broker.db.jobs.get? j).map (fun row => (row.status, row.nodeId)) = some ("assigned", some n) ∧
    ¬ w.Holds n j

instance (w : Net) (j n : String) : Decidable (w.Orphan j n) :=
  inferInstanceAs (Decidable (_ ∧ _))

/-- Whether a step spares node `n`'s jobs: it is no cleanup that finds `n` silent. -/
def Net.spares (n : String) (w : Net) : NetAct → Bool
  | .others (.cleanup now) => (w.broker.db.nodes.get? n).all (NodeRow.live (cfg.ago now cfg.nodeTimeout))
  | _ => true

/-- The steps from a state, in order; `none` if one cannot be taken or does not spare node
`n`'s jobs. -/
def Net.stepsSparing (n : String) (w : Net) : List NetAct → Option Net
  | [] => some w
  | a :: as =>
    if w.spares cfg n a then (Net.step cfg nodeIdOf w a).bind fun w' => Net.stepsSparing n w' as
    else none

/-- A client put in place of client `i` is the one the clients list gives at `i`, or the
list gives what it gave before. -/
theorem getElem?_set_any {cls : List Client} {i k : Nat} {cl' : Client} {p : Client → Bool}
    (h : (cls.set i cl')[k]?.any p) : (k = i ∧ p cl') ∨ cls[k]?.any p := by
  rw [List.getElem?_set] at h
  split_ifs at h with hk hi
  · exact .inl ⟨hk.symm, by simpa using h⟩
  · simp at h
  · exact .inr h

section Holds

variable {w : Net} {n j : String}

/-- A step that changes no client, sends no request, and adds only replies that hand out
no job `j` gives no client of node `n` job `j`. -/
theorem Net.not_holds_frame (hnh : ¬w.Holds n j) {w' : Net} (hc : w'.clients = w.clients)
    (hq : ∀ rq ∈ w'.requests, rq ∈ w.requests)
    (hd : ∀ d ∈ w'.replies, d ∈ w.replies ∨ d.reply.hands j = false) : ¬w'.Holds n j := by
  rintro (⟨c, hc', hx⟩ | ⟨rq, hrq, hx⟩ | ⟨d, hd', hx, hcw⟩)
  · exact hnh (.inl ⟨c, hc ▸ hc', hx⟩)
  · exact hnh (.inr (.inl ⟨rq, hq rq hrq, hx⟩))
  · rcases hd d hd' with hd' | hh
    · exact hnh (.inr (.inr ⟨d, hd', hx, hc ▸ hcw⟩))
    · rw [hh] at hx; cases hx

/-- A client's own step takes no job, reports only the job it runs, and waits on a new
connection, which no reply on its way has. -/
theorem Net.not_holds_move (hf : w.TagsFresh) (hnh : ¬w.Holds n j) {i : Nat} {cl cl' : Client}
    {call : Option Call} (hcl : w.clients[i]? = some cl) (hm : Client.Moves w.nextTag cl cl' call) :
    ¬(w.move i cl' call).Holds n j := by
  rintro (⟨c, hc', hn, hx⟩ | ⟨rq, hrq, hx⟩ | ⟨d, hd', hx, hcw⟩)
  · rw [Net.move_clients] at hc'
    rcases List.mem_or_eq_of_mem_set hc' with hc' | rfl
    · exact hnh (.inl ⟨c, hc', hn, hx⟩)
    · obtain ⟨job, hp, -⟩ := Phase.executes_iff.1 hx
      obtain rfl := hm.executing hp
      exact hnh (.inl ⟨c, List.getElem?_mem hcl, hn, hx⟩)
  · rw [Net.move_requests] at hrq
    rcases List.mem_append.1 hrq with hrq | hrq
    · obtain ⟨c, rfl, rfl⟩ := Option.map_eq_some'.1 (Option.mem_toList.1 hrq)
      rcases hm.call with ⟨hc', -⟩ | ⟨job, r, hc', hp, -⟩ | ⟨_, hc'⟩ | ⟨_, hc'⟩ <;>
        simp only [hc', Call.reports, Bool.false_eq_true] at hx
      rw [Client.report_report?] at hx
      cases hn' : cl.nodeId with
      | none => simp [hn'] at hx
      | some n' =>
        obtain ⟨rfl, hid⟩ : n' = n ∧ job.id = j := by simpa [hn'] using hx
        exact hnh (.inl ⟨cl, List.getElem?_mem hcl, hn', by simp [hp, Phase.executes, hid]⟩)
    · exact hnh (.inr (.inl ⟨rq, hrq, hx⟩))
  · rw [Net.move_replies] at hd'
    rw [Net.move_clients] at hcw
    rcases getElem?_set_any hcw with ⟨rfl, hcw'⟩ | hcw'
    · simp only [Bool.and_eq_true, decide_eq_true_eq] at hcw'
      rcases hm.waiting with hwt | hwt | rfl
      · rw [hwt] at hcw'; cases hcw'.2
      · rw [hwt] at hcw'
        exact absurd (hf.replies d hd') (by simp [Option.some.inj hcw'.2])
      · exact hnh (.inr (.inr ⟨d, hd', hx, by simp [hcl, hcw']⟩))
    · exact hnh (.inr (.inr ⟨d, hd', hx, hcw'⟩))

/-- A client reading a reply runs job `j` only if the reply handed it out, to it; and it
waits no more. -/
theorem Net.not_holds_receive (hnh : ¬w.Holds n j) {i tag : Nat} {cl : Client} {reply : Option Reply}
    (hcl : w.clients[i]? = some cl) (hw : cl.phase.waiting = some tag)
    (hr : ∀ r, reply = some r → (⟨i, tag, r⟩ : Delivery) ∈ w.replies) {replies : List Delivery}
    (hsub : ∀ d ∈ replies, d ∈ w.replies) (handed : List (Option String × String)) :
    ¬({ w with clients := w.clients.set i (cl.receive reply), replies, handed } : Net).Holds n j := by
  rintro (⟨c, hc', hn, hx⟩ | ⟨rq, hrq, hx⟩ | ⟨d, hd', hx, hcw⟩)
  · rcases List.mem_or_eq_of_mem_set hc' with hc' | rfl
    · exact hnh (.inl ⟨c, hc', hn, hx⟩)
    · obtain ⟨job, hp, hid⟩ := Phase.executes_iff.1 hx
      rcases Client.receive_executing hp with he | ⟨hh, hn'⟩
      · rw [he] at hn hx; exact hnh (.inl ⟨cl, List.getElem?_mem hcl, hn, hx⟩)
      · obtain rfl := Client.handed_eq_some hh
        exact hnh (.inr (.inr ⟨_, hr _ rfl, by simp [Reply.hands, hid], by simp [hcl, ← hn', hn, hw]⟩))
  · exact hnh (.inr (.inl ⟨rq, hrq, hx⟩))
  · rcases getElem?_set_any hcw with ⟨rfl, hcw'⟩ | hcw'
    · simp [Client.receive_waiting hw] at hcw'
    · exact hnh (.inr (.inr ⟨d, hsub d hd', hx, hcw'⟩))

end Holds

/-- The step lemma: an orphan stays one through a step that spares its node. -/
theorem Net.Orphan.step {w w' : Net} {a : NetAct} {j n : String} (hf : w.TagsFresh)
    (h : w.Orphan j n) (hs : Net.step cfg nodeIdOf w a = some w') (ha : w.spares cfg n a) :
    w'.Orphan j n := by
  obtain ⟨row, hj, hrow⟩ := Option.map_eq_some'.1 h.1
  simp only [Prod.mk.injEq] at hrow
  -- the row stays through a broker step that spares it
  have kept : ∀ {a' b r}, Broker.step cfg nodeIdOf w.broker a' = some (b, r) →
      (∀ body now rep, a' = .complete body now → body.report? = some rep → rep.nodeId = n →
        rep.jobId ≠ j) →
      (∀ now, a' = .cleanup now → (w.broker.db.nodes.get? n).all (NodeRow.live (cfg.ago now cfg.nodeTimeout))) →
      (b.db.jobs.get? j).map (fun row => (row.status, row.nodeId)) = some ("assigned", some n) :=
    fun hb hrep hclean => by
      simp [step_assigned_kept cfg nodeIdOf hb hj hrow.1 hrow.2 hrep hclean, hrow.1, hrow.2]
  -- a new reply of the broker hands out no job `j`, which is not pending
  have fresh : ∀ {a' b} {r : Option Reply} {k t : Nat}, Broker.step cfg nodeIdOf w.broker a' = some (b, r) →
      ∀ d ∈ (r.map fun r => (⟨k, t, r⟩ : Delivery)).toList ++ w.replies,
        d ∈ w.replies ∨ d.reply.hands j = false := fun {_ _ r _ _} hb d hd => by
    rcases List.mem_append.1 hd with hd | hd
    · obtain ⟨r, rfl, rfl⟩ := Option.map_eq_some'.1 (Option.mem_toList.1 hd)
      refine .inr (Bool.eq_false_iff.2 fun hh => ?_)
      obtain ⟨row', hrow', hp⟩ := step_hands cfg nodeIdOf hb hh
      rw [hj] at hrow'; cases hrow'
      exact absurd (hrow.1.symm.trans hp) (by decide)
    · exact .inl hd
  rcases Net.step_cases cfg nodeIdOf hs with ⟨a', b, r, rfl, ho, hb, rfl⟩ | ⟨i, cl, cl', call, hcl, hm, rfl⟩ |
    ⟨i, cl, tag, reply, hcl, hw, hr, rfl⟩ | ⟨rq, pick, now, b, r, hrq, hb, rfl⟩ |
    ⟨sel, now, b, r, -, hb, rfl⟩
  · -- another client's request reports nothing; the cleanup spares the node
    refine ⟨kept hb (fun body now rep he => by subst he; cases ho) fun now he => ?_, h.2⟩
    subst he; exact ha
  · exact ⟨by rw [Net.move_broker]; exact h.1, Net.not_holds_move hf h.2 hcl hm⟩
  · refine ⟨h.1, Net.not_holds_receive h.2 hcl hw hr (fun d hd => ?_) _⟩
    cases reply with
    | none => exact hd
    | some r => exact List.mem_of_mem_erase hd
  · -- the broker serves a request: no report of node `n` on `j` is on its way
    have hrep : ∀ body now' rep, rq.call.act pick now = .complete body now' → body.report? = some rep →
        rep.nodeId = n → rep.jobId ≠ j := fun body now' rep he hrep hn hid => h.2 (.inr (.inl ⟨rq, hrq, by
      rw [Call.act_eq_complete he]; simp [Call.reports, hrep, hn, hid]⟩))
    have hact : ∀ now', rq.call.act pick now ≠ .cleanup now' := fun now' he => by
      cases hc : rq.call <;> simp [hc, Call.act] at he
    refine ⟨by rw [Net.served_broker]; exact kept hb hrep fun now' he => absurd he (hact now'),
      Net.not_holds_frame h.2 (Net.served_clients ..) (fun rq' hrq' => ?_) ?_⟩
    · rw [Net.served_requests] at hrq'; exact List.mem_of_mem_erase hrq'
    · rw [Net.served_replies]; exact fresh hb
  · -- the `UPDATE` of a claim hands out a pending job, which `j` is not
    exact ⟨kept hb (fun _ _ _ he => by cases he) (fun _ he => by cases he),
      Net.not_holds_frame h.2 rfl (fun _ h => h) (fresh hb)⟩

/-- The run lemma. -/
theorem Net.Orphan.stepsSparing {w w' : Net} {as : List NetAct} {j n : String} (hf : w.TagsFresh)
    (h : w.Orphan j n) (hrun : w.stepsSparing cfg nodeIdOf n as = some w') : w'.Orphan j n := by
  induction as generalizing w with
  | nil => cases hrun; exact h
  | cons a as ih =>
    simp only [Net.stepsSparing] at hrun
    split_ifs at hrun with ha
    obtain ⟨w₁, h₁, h₂⟩ := Option.bind_eq_some.1 hrun
    exact ih (hf.step cfg nodeIdOf h₁) (h.step cfg nodeIdOf hf h₁ ha) h₂

/-- **A job whose `/claim` reply is lost stays assigned.**  When the `UPDATE` of a `/claim`
assigns a job to a node whose client has given up on the call, no client of that node runs
the job or will report it, yet the job stays assigned to the node, and no `/claim` hands it
out again, through every run in which each cleanup finds the node active with a last
heartbeat no older than the cleanup's local time less `NODE_TIMEOUT`.  On a broker that
keeps UTC, or is west of it, the heartbeats the node's client keeps sending ensure that
and hold the job back; east of UTC by more than `NODE_TIMEOUT`, no cleanup spares a node. -/
theorem orphan_stays {endpoints : List String} {w w' : Net} {as : List NetAct} {j n : String}
    (hr : Net.Reachable cfg nodeIdOf endpoints w) (h : w.Orphan j n)
    (hrun : w.stepsSparing cfg nodeIdOf n as = some w') : w'.Orphan j n :=
  h.stepsSparing cfg nodeIdOf (hr.tagsFresh cfg nodeIdOf) hrun

/-- A run in which a node client gives up on its `/claim` between the call's `SELECT` and
its `UPDATE`. -/
def lostClaimRun : List NetAct :=
  [.register 0 "\x7b\x7d",
    .serve ⟨0, 0, .register ⟨some "http://n", some "\x7b\x7d"⟩⟩ none 0,
    .receive 0 (some (.registered "http://n")),
    .others (.submit "a" ⟨some "print(1)", none, none⟩ 1),
    .claim 0,
    .serve ⟨0, 1, .claim (some "http://n")⟩ (some "a") 2,
    .receive 0 none,
    .serveUpdate ⟨0, 1, ⟨"http://n", ⟨"a", "print(1)", "python3", "[]"⟩⟩⟩ 3]

/-- What follows in that run: the node's client heartbeats, claims and finds no job, and a
cleanup runs 50 seconds after the last heartbeat. -/
def heartbeatRun : List NetAct :=
  [.heartbeat 0, .serve ⟨0, 2, .heartbeat (some "http://n")⟩ none 50,
    .claim 0, .serve ⟨0, 3, .claim (some "http://n")⟩ none 51, .receive 0 (some (.job none)),
    .others (.cleanup 100)]

theorem orphan_stays_lostClaimRun :
    ∃ w w', (Net.init ["http://n"]).steps {} id lostClaimRun = some w ∧ w.Orphan "a" "http://n" ∧
      w.stepsSparing {} id "http://n" heartbeatRun = some w' ∧ w'.Orphan "a" "http://n" :=
  ⟨_, _, rfl, by decide, rfl, @orphan_stays {} id ["http://n"] _ _ heartbeatRun "a" "http://n"
    (@Net.Reachable.of_steps {} id ["http://n"] _ _ lostClaimRun .init rfl) (by decide) rfl⟩

end Sandrun.Broker
