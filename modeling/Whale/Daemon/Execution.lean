import Whale.Daemon.Management

/-!
# Publication by a run

The parts of `whale-daemon/src/server.rs` and `interactions.rs` that publish a run. Each of
`publish_stream`, `handle_run_ref`, `finish_response_commit` and `execute_run` changes the run's snapshot
under its lock and commits a copy or an event afterwards. `turn.cancel` keeps the lock until it has
committed; the others release it first, so their commits come in any order.

`Execution.Step` has one step for every place where the lock is taken or a commit is made. The commits
are those of the publication lane, and a step is there only when the lane accepts. The engine hands the
items of a run over in the order in which it appends them to the history; it may stop anywhere.

`Tenure.Step` sees the same session from the lane: between the `Begin` of a run and its terminal event,
which is committed whether or not the lane accepts it, there are calls of every other kind with every
answer.
-/

namespace Whale

open Transaction

namespace RunSnapshot

/-- The event that the snapshot's next sequence number gets. -/
def numbered (s : RunSnapshot) (event : AgentStreamEvent) : RunSnapshot × Option RunEvent :=
  let s := { s with lastSeq := s.lastSeq + 1 }
  (s, some ⟨s.threadId, s.turnId, s.lastSeq, .stream event⟩)

/-- `publish_stream` under the lock: the snapshot, and the event to commit. -/
def streamed (s : RunSnapshot) (toolExecutions : List ToolExecutionRecord) (event : AgentStreamEvent) :
    RunSnapshot × Option RunEvent :=
  let s := { s with toolExecutions }
  match event with
  | .turnCompleted _ _ usage => ({ s with usage }, none)
  | .turnFailed .. => (s, none)
  | .itemCompleted _ item => numbered { s with items := s.items ++ [item] } event
  | .approvalRequested _ requestId toolCall reason =>
    if s.status = .cancelling then (s, none)
    else numbered { s with
      status := .waitingApproval
      pendingApprovals := s.pendingApprovals ++ [⟨requestId, toolCall, reason⟩] } event
  | _ => numbered s event

/-- `handle_run_ref` of a cancel under the lock: the snapshot, and whether it is to be committed
(`request_cancel_locked`). -/
def cancelRequested (s : RunSnapshot) (usage : UsageMetrics)
    (toolExecutions : List ToolExecutionRecord) : RunSnapshot × Bool :=
  let s := { s with usage, toolExecutions }
  if s.status.isTerminal || s.status == .cancelling then (s, false)
  else ({ s with status := .cancelling }, true)

/-- `finish_response_commit` under the lock: the snapshot, and whether it is to be committed. -/
def approvalResolved (s : RunSnapshot) (requestId : String) : RunSnapshot × Bool :=
  let pendingApprovals := s.pendingApprovals.filter (·.requestId != requestId)
  if s.pendingApprovals.length = pendingApprovals.length then (s, false)
  else ({ s with
    pendingApprovals
    status := if pendingApprovals.isEmpty && s.status == .waitingApproval then .running
      else s.status }, true)

/-- What `execute_run` found out before it takes the lock for the last time. -/
structure Outcome where
  usage : UsageMetrics
  toolExecutions : List ToolExecutionRecord
  cancelled : Bool
  result : Except (RunStatus × RunFailure) UsageMetrics

/-- The snapshot `execute_run` hands to the journal. -/
def candidate (s : RunSnapshot) (o : Outcome) (items : List CanonicalItem) : RunSnapshot :=
  let s := { s with usage := o.usage, toolExecutions := o.toolExecutions }
  let result := if s.status = .cancelling ∨ o.cancelled = true then
      .error (.cancelled, ⟨"CANCELLED", "Run cancelled"⟩) else o.result
  let s := match result with
    | .ok usage => { s with status := .completed, usage }
    | .error (status, failure) => { s with status, error := some failure }
  { s with
    items
    pendingApprovals := []
    lastSeq := s.lastSeq + 1
    result := some ⟨s.turnId, s.threadId, s.status.turnStatus, items, s.usage⟩ }

/-- The terminal snapshot, after what the journal of a durable session made of the candidate. -/
def finalized (candidate : RunSnapshot) : Option (Except StoreError FinalizedRun) → RunSnapshot
  | none => candidate
  | some (.ok run) => run.snapshot
  | some (.error _) => { candidate with
      status := .failed
      error := some ⟨"STORE_FAILED",
        "Session storage commit failed; close and reopen the store before recovery"⟩
      result := candidate.result.map ({ · with status := .failed }) }

/-- The terminal event. -/
def terminalEvent (s : RunSnapshot) : RunEvent := ⟨s.threadId, s.turnId, s.lastSeq, .finished s⟩

end RunSnapshot

/-- A run while it is executed. -/
structure RunTask where
  /-- `run.snapshot`, behind its lock. -/
  snapshot : RunSnapshot
  /-- The items of the run in the history. -/
  items : List CanonicalItem := []
  /-- How many of them `publish_stream` has taken. -/
  taken : Nat := 0
  /-- The event of `publish_stream` that is not committed yet. -/
  inFlight : Option RunEvent := none
  /-- The copy of a cancel that holds the lock. -/
  cancelling : Option RunSnapshot := none
  /-- The copies of responses that are not committed yet. -/
  responses : List RunSnapshot := []
  /-- The terminal event, not committed yet. -/
  terminal : Option RunEvent := none

namespace RunTask

/-- The item of the event in flight. -/
def completing (t : RunTask) : Option CanonicalItem :=
  match t.inFlight with
  | some ⟨_, _, _, .stream (.itemCompleted _ item)⟩ => some item
  | _ => none

/-- The items whose events are committed. -/
def published (t : RunTask) : List CanonicalItem :=
  t.items.take (if t.completing.isSome then t.taken - 1 else t.taken)

end RunTask

/-- A session: its projections, its canonical history before the run, and the run. -/
structure Execution where
  projections : Projections
  history : List CanonicalItem
  run : Option RunTask := none

namespace Execution

/-- The lane accepts a mutation and leaves these projections. -/
def Accepts [External] [EventSerde] (p : Projections) (owner : String) (m : RunPublicationMutation)
    (now : Nat) (p' : Projections) : Prop :=
  ∃ r, outcome (Lane.publishRun owner m now) p = (.ok r, p')

/-- The steps, as the conditions on a run see them. -/
inductive Label where
  | local
  /-- The engine appends an item to the history. -/
  | append (item : CanonicalItem)
  /-- A copy of the run is committed. -/
  | changed (snapshot : RunSnapshot)
  | streamed (event : RunEvent)
  | finished (event : RunEvent)

section
variable [External] [EventSerde]

/-- What `publish_stream` may take next: an item only in its turn. -/
def Next (t : RunTask) : AgentStreamEvent → Prop
  | .itemCompleted _ item => t.items[t.taken]? = some item
  | _ => True

/-- How many items an event is. -/
def itemCount : AgentStreamEvent → Nat
  | .itemCompleted .. => 1
  | _ => 0

inductive Step (owner : String) : Execution → Label → Execution → Prop
  /-- The run is accepted: `handle_start_turn` commits its `Begin`. -/
  | begin {s : Execution} {p : Projections} (snapshot : RunSnapshot) (identity now : Nat)
      (idle : s.run = none) (empty : snapshot.items = [])
      (accepted : Accepts s.projections owner (.begin snapshot identity) now p) :
      Step owner s .local { s with projections := p, run := some { snapshot } }
  | append {s : Execution} {t : RunTask} (item : CanonicalItem) (run : s.run = some t)
      (open_ : t.terminal = none) :
      Step owner s (.append item) { s with run := some { t with items := t.items ++ [item] } }
  /-- `publish_stream` takes an event, changes the snapshot and releases the lock. -/
  | take {s : Execution} {t : RunTask} (event : AgentStreamEvent)
      (toolExecutions : List ToolExecutionRecord) (run : s.run = some t)
      (free : t.cancelling = none) (one : t.inFlight = none) (open_ : t.terminal = none)
      (next : Next t event) :
      Step owner s .local { s with run := some { t with
        snapshot := (t.snapshot.streamed toolExecutions event).1
        inFlight := (t.snapshot.streamed toolExecutions event).2
        taken := t.taken + itemCount event } }
  | commitStream {s : Execution} {t : RunTask} {p : Projections} (event : RunEvent) (now : Nat)
      (run : s.run = some t) (flight : t.inFlight = some event)
      (accepted : Accepts s.projections owner (.event event) now p) :
      Step owner s (.streamed event) { s with projections := p, run := some { t with inFlight := none } }
  /-- `turn.cancel` takes the lock, and keeps it when there is something to commit. -/
  | cancel {s : Execution} {t : RunTask} (usage : UsageMetrics)
      (toolExecutions : List ToolExecutionRecord) (run : s.run = some t)
      (free : t.cancelling = none) :
      Step owner s .local { s with run := some { t with
        snapshot := (t.snapshot.cancelRequested usage toolExecutions).1
        cancelling := if (t.snapshot.cancelRequested usage toolExecutions).2 then
          some (t.snapshot.cancelRequested usage toolExecutions).1 else none } }
  | commitCancel {s : Execution} {t : RunTask} {p : Projections} (copy : RunSnapshot) (now : Nat)
      (run : s.run = some t) (held : t.cancelling = some copy)
      (accepted : Accepts s.projections owner (.changed copy) now p) :
      Step owner s (.changed copy)
        { s with projections := p, run := some { t with cancelling := none } }
  /-- A response takes the lock and releases it with a copy in its hands. -/
  | respond {s : Execution} {t : RunTask} (requestId : String) (run : s.run = some t)
      (free : t.cancelling = none) :
      Step owner s .local { s with run := some { t with
        snapshot := (t.snapshot.approvalResolved requestId).1
        responses := if (t.snapshot.approvalResolved requestId).2 then
          t.responses ++ [(t.snapshot.approvalResolved requestId).1] else t.responses } }
  | commitResponse {s : Execution} {t : RunTask} {p : Projections} (copy : RunSnapshot) (now : Nat)
      (run : s.run = some t) (waiting : copy ∈ t.responses)
      (accepted : Accepts s.projections owner (.changed copy) now p) :
      Step owner s (.changed copy)
        { s with projections := p, run := some { t with responses := t.responses.erase copy } }
  /-- `execute_run` takes the lock for the last time. What a journal returns has the items of the run:
  the store appends to them what it must, and so did the engine before. -/
  | finish {s : Execution} {t : RunTask} (o : RunSnapshot.Outcome)
      (journal : Option (Except StoreError FinalizedRun)) (run : s.run = some t)
      (free : t.cancelling = none) (one : t.inFlight = none) (open_ : t.terminal = none)
      (durable : ∀ f, journal = some (.ok f) → f.snapshot.items = t.items) :
      Step owner s .local { s with run := some { t with
        snapshot := (t.snapshot.candidate o t.items).finalized journal
        terminal := some ((t.snapshot.candidate o t.items).finalized journal).terminalEvent } }
  | commitFinish {s : Execution} {t : RunTask} {p : Projections} (event : RunEvent) (now : Nat)
      (run : s.run = some t) (last : t.terminal = some event)
      (accepted : Accepts s.projections owner (.event event) now p) :
      Step owner s (.finished event)
        { projections := p, history := s.history ++ t.items, run := none }

end

end Execution

/-- The check that `handle_start_turn` makes of its parameters. -/
def StartTurnParams.check (p : StartTurnParams) : Except String Unit :=
  Check.refuse (p.turnId.isEmpty || p.maxSteps == 0 || p.timeoutMs == some 0)
    "turn_id and positive run limits are required"

/-! ## Calls to the lane -/

/-- `execute_run` ends a run that it could not complete as failed or cancelled. -/
def RunSnapshot.Outcome.Ends (o : RunSnapshot.Outcome) : Prop :=
  ∀ status failure, o.result = .error (status, failure) → status = .failed ∨ status = .cancelled

/-- What the journal of a durable session answers a candidate: the record has the run, not terminal yet,
and the run began at the end of `history`. -/
def RunSnapshot.Finalizes (candidate : RunSnapshot) (history : List CanonicalItem)
    (journal : Option (Except StoreError FinalizedRun)) : Prop :=
  ∀ f, journal = some (.ok f) → ∃ (r r' : SessionRecord) (run : StoredRun),
    r.finalize candidate.turnId candidate = .ok (f, r') ∧
    r.runs.get? candidate.turnId = some run ∧ run.snapshot.status.isTerminal = false ∧
    run.historyStart ≤ r.history.length ∧ r.history.take run.historyStart = history

/-- A mutation that neither begins nor ends a run. -/
def RunPublicationMutation.Within : RunPublicationMutation → Prop
  | begin .. => False
  | changed _ => True
  | event e => ∃ stream, e.payload = .stream stream

/-- A call that neither begins nor ends a run. -/
def Lane.Call.Within : Lane.Call → Prop
  | publishRun _ mutation _ => mutation.Within
  | replaceMetadata .. | beginClosing .. | completeClosed .. | retireRun .. => True

/-- A run whose acceptance was acknowledged: its turn, and its record. -/
structure AcceptedRun where
  turnId : String
  identity : Nat

/-- A session between calls to its lane: its projections, its canonical history before the run, and the
run. -/
structure Tenure where
  projections : Projections
  history : List CanonicalItem
  run : Option AcceptedRun := none

namespace Tenure

inductive Label where
  | begin
  | call
  | finished (final : RunSnapshot) (now : Nat)

section
variable [External] [EventSerde]

inductive Step (owner : String) : Tenure → Label → Tenure → Prop
  | begin {s : Tenure} {p : Projections} (snapshot : RunSnapshot) (identity now : Nat)
      (idle : s.run = none)
      (accepted : Execution.Accepts s.projections owner (.begin snapshot identity) now p) :
      Step owner s .begin { s with projections := p, run := some ⟨snapshot.turnId, identity⟩ }
  | call {s : Tenure} (call : Lane.Call) (within : call.Within) :
      Step owner s .call { s with projections := (call.perform s.projections).2 }
  /-- The terminal event of `execute_run`; a refusal is only logged. -/
  | finish {s : Tenure} {run : AcceptedRun} (snapshot : RunSnapshot) (o : RunSnapshot.Outcome)
      (items : List CanonicalItem) (journal : Option (Except StoreError FinalizedRun)) (now : Nat)
      (final : RunSnapshot) (running : s.run = some run)
      (thread : snapshot.threadId = s.projections.views.snapshot.summary.threadId)
      (turn : snapshot.turnId = run.turnId) (ends : o.Ends)
      (durable : (snapshot.candidate o items).Finalizes s.history journal)
      (last : final = (snapshot.candidate o items).finalized journal) :
      Step owner s (.finished final now)
        { projections :=
            ((Lane.Call.publishRun owner (.event final.terminalEvent) now).perform s.projections).2
          history := s.history ++ final.items }

end

end Tenure

end Whale
