import Whale.Daemon.Execution
import Whale.Daemon.Interactions
import Whale.Store.Runtime

/-!
# One run, from its start to its terminal status

A `RunRecord` of `whale-daemon/src/server.rs` with everything that acts on it: the engine, which sends its
events through a channel and asks for approvals (`request_approval_with_context`), the loop and the end
of `execute_run`, `turn.cancel` and the other callers of `request_cancel`, the responders of the session's
`InteractionRegistry`, and the journal of a durable session.

Every step of `LiveRun.Step` is what happens while a lock is held, or between two awaits. The projections
are left out; what is handed to them is recorded in its order (`LiveRun.handed`), and so are the events
that got a number (`LiveRun.assigned`).
-/

namespace Whale

/-- Where the tasks of a run are. -/
inductive RunPhase where
  /-- The journal of a durable session is asked to begin the run. -/
  | preparing
  /-- The start was refused; the run is forgotten. -/
  | refused
  /-- `execute_run` waits for the acceptance. -/
  | accepting
  /-- The `select!` loop of `execute_run`. -/
  | executing
  /-- The loop was left; what is in the channel is still published. -/
  | draining (result : Except (RunStatus × RunFailure) UsageMetrics)
  /-- The terminal snapshot is in place. -/
  | finished
  deriving DecidableEq

/-- How `execute_run` leaves its loop, or a run that was not accepted. -/
def rejectedResult : Except (RunStatus × RunFailure) UsageMetrics :=
  .error (.cancelled, ⟨"CONNECTION_CLOSED", "Run acceptance was not delivered"⟩)

def cancelledResult : Except (RunStatus × RunFailure) UsageMetrics :=
  .error (.cancelled, ⟨"CANCELLED", "Run cancelled"⟩)

def deadlineResult : Except (RunStatus × RunFailure) UsageMetrics :=
  .error (.failed, ⟨"DEADLINE_EXCEEDED", "Run deadline exceeded"⟩)

/-- The codes of an engine that failed. -/
def engineFailure (code message : String) : Except (RunStatus × RunFailure) UsageMetrics :=
  .error (.failed, ⟨code, message⟩)

namespace RunSnapshot

/-- The candidate of `execute_run`. Only the cancellation of an accepted run overrides its result. -/
def concluded (s : RunSnapshot) (accepted : Bool) (o : Outcome) (items : List CanonicalItem) :
    RunSnapshot :=
  if accepted then s.candidate o items
  else { s with status := .running }.candidate { o with cancelled := false } items

end RunSnapshot

/-- A run, with the registry of its session and the record of a durable one. -/
structure LiveRun (ρ : Type) where
  turnId : String
  /-- `run.snapshot`, behind its lock. -/
  snapshot : RunSnapshot
  interactions : Interactions ρ
  /-- The record of a durable session, once it has begun the run. -/
  record : Option SessionRecord := none
  acceptance : Option Bool := none
  /-- `run.cancel`. -/
  cancel : Bool := false
  phase : RunPhase
  /-- The approvals that the registry has and that the engine has not sent yet. -/
  requested : List AgentStreamEvent := []
  channel : List AgentStreamEvent := []
  /-- The responses whose `finish_response_commit` has updated the snapshot. -/
  projected : List Nat := []
  /-- The events, in the order in which they got their numbers. -/
  assigned : List RunEvent := []
  /-- What `commit_session_event` was called with. -/
  handed : List RunPublicationMutation := []
  /-- `turn.cancel` has returned a snapshot that is `Cancelling`. -/
  acknowledged : Bool := false
  /-- The journal refused the terminal snapshot. -/
  unstored : Bool := false

namespace LiveRun

variable {ρ : Type} [DecidableEq ρ]

/-- A run that was registered: a durable one is prepared first. -/
def start (snapshot : RunSnapshot) (interactions : Interactions ρ) (durable : Bool) : LiveRun ρ where
  turnId := snapshot.turnId
  snapshot := snapshot
  interactions := interactions
  phase := if durable then .preparing else .accepting

/-- The snapshot that `handle_start_turn` registers a run with. -/
def initialSnapshot (params : StartTurnParams) : RunSnapshot where
  threadId := params.threadId
  turnId := params.turnId
  status := .running
  items := []
  usage := {}
  pendingApprovals := []
  lastSeq := 0

/-- `publish_stream`: the snapshot, and the event if it gets a number. -/
def publishStream (s : LiveRun ρ) (event : AgentStreamEvent) (executions : List ToolExecutionRecord) :
    LiveRun ρ :=
  let (snapshot, numbered) := s.snapshot.streamed executions event
  { s with
    snapshot
    assigned := s.assigned ++ numbered.toList
    handed := s.handed ++ (numbered.map RunPublicationMutation.event).toList }

/-- `request_cancel_locked`, and the copy that `turn.cancel` commits. -/
def requestCancel (s : LiveRun ρ) (usage : UsageMetrics) (executions : List ToolExecutionRecord) :
    LiveRun ρ :=
  let (snapshot, changed) := s.snapshot.cancelRequested usage executions
  { s with
    snapshot
    cancel := s.cancel || changed
    handed := if changed then s.handed ++ [.changed snapshot] else s.handed
    acknowledged := s.acknowledged || snapshot.status == .cancelling }

/-- `request_cancel` of a session that is closed: nothing is returned and nothing is committed. -/
def abandon (s : LiveRun ρ) : LiveRun ρ :=
  let (snapshot, changed) := s.snapshot.cancelRequested s.snapshot.usage s.snapshot.toolExecutions
  { s with snapshot, cancel := s.cancel || changed }

/-- `finish_response_commit` under the lock of the snapshot. -/
def project (s : LiveRun ρ) (g : Nat) (requestId : String) : LiveRun ρ :=
  let (snapshot, changed) := s.snapshot.approvalResolved requestId
  { s with
    snapshot
    projected := s.projected ++ [g]
    handed := if changed then s.handed ++ [.changed snapshot] else s.handed }

/-- What `execute_run` hands to the journal of a durable session. -/
def candidate (s : LiveRun ρ) (o : RunSnapshot.Outcome) (items : List CanonicalItem) : RunSnapshot :=
  s.snapshot.concluded (s.acceptance == some true) { o with cancelled := s.cancel } items

/-- The end of `execute_run`: the terminal snapshot and its event, which an accepted run publishes. -/
def conclude (s : LiveRun ρ) (o : RunSnapshot.Outcome) (items : List CanonicalItem)
    (journal : Option (Except StoreError FinalizedRun)) (record : Option SessionRecord) : LiveRun ρ :=
  let final := (s.candidate o items).finalized journal
  { s with
    snapshot := final
    record
    phase := .finished
    assigned := s.assigned ++ [final.terminalEvent]
    handed := if s.acceptance = some true then s.handed ++ [.event final.terminalEvent] else s.handed
    unstored := match journal with
      | some (.error _) => true
      | _ => false }

/-- A commit of the engine, or another command of the session to its journal: neither ends the run. -/
def Journals : Action → Prop
  | .finalize .. | .detach => False
  | _ => True

/-- The record has the run, which has not ended and has no event. -/
def Begun (turnId : String) (r : SessionRecord) : Prop :=
  ∃ run, r.runs.get? turnId = some run ∧ run.snapshot.status.isTerminal = false ∧
    run.snapshot.lastSeq = 0

/-- What the registry does while the snapshot of a typed response is due: only a response that has
updated the snapshot goes on to its publication (`check`). -/
def Projects (s : LiveRun ρ) (w : Interactions ρ) : Prop :=
  ∀ g t t', s.interactions.transactions g = some t → t.typedApproval = true → t.key.1 = s.turnId →
    t.stage = .staged → w.transactions g = some t' → t'.stage = .checked → g ∈ s.projected

/-- What the answer of a journal to `finalize` leaves. A failure may come after the write. -/
inductive Finalized (candidate : RunSnapshot) :
    Option SessionRecord → Option (Except StoreError FinalizedRun) → Option SessionRecord → Prop
  | ephemeral : Finalized candidate none none none
  | stored {r r' : SessionRecord} {f : FinalizedRun}
      (answer : r.finalize candidate.turnId candidate = .ok (f, r')) :
      Finalized candidate (some r) (some (.ok f)) (some r')
  | failed {r r' : SessionRecord} (error : StoreError) :
      Finalized candidate (some r) (some (.error error)) (some r')

/-- The steps, as the conditions on a run see them. -/
inductive Label where
  /-- A step of the registry. -/
  | registry
  /-- `publish_stream` takes an event. -/
  | took (event : AgentStreamEvent)
  | other

section
variable [External] [InteractionHost]

inductive Step (submit : ρ → ResponseSubmission) : LiveRun ρ → Label → LiveRun ρ → Prop
  /-- `begin_run`. A record that has the run already has it from a start that was refused later. -/
  | prepare {s : LiveRun ρ} {r₀ r : SessionRecord} {fresh : Bool} (params : StartTurnParams)
      (options : Value) (phase : s.phase = .preparing) (turn : params.turnId = s.turnId)
      (begun : r₀.begin params s.snapshot options = .ok (fresh, r))
      (earlier : fresh = false → Begun s.turnId r) :
      Step submit s .other { s with record := some r, phase := .accepting }
  | refuse {s : LiveRun ρ} (phase : s.phase = .preparing) :
      Step submit s .other { s with phase := .refused }
  /-- The start is acknowledged, or its guard is dropped, or its session is closed. -/
  | accept {s : LiveRun ρ} (accepted : Bool) (open_ : s.acceptance = none) :
      Step submit s .other { s with acceptance := some accepted }
  /-- The guard of the acceptance is dropped. -/
  | interrupt {s : LiveRun ρ} : Step submit s .other { s with cancel := true }
  | execute {s : LiveRun ρ} (phase : s.phase = .accepting) (accepted : s.acceptance = some true) :
      Step submit s .other { s with phase := .executing }
  | reject {s : LiveRun ρ} (phase : s.phase = .accepting) (accepted : s.acceptance = some false) :
      Step submit s .other { s with phase := .draining rejectedResult }
  /-- The engine sends an event that is not an approval. -/
  | send {s : LiveRun ρ} (event : AgentStreamEvent)
      (plain : ∀ turnId requestId toolCall reason,
        event ≠ .approvalRequested turnId requestId toolCall reason) :
      Step submit s .other { s with channel := s.channel ++ [event] }
  /-- The engine asks for an approval: `begin` of the bridge. -/
  | request {s : LiveRun ρ} {g : Nat} {r : InteractionRecord} {events : List InteractionEventEnvelope}
      (requestId : String) (toolCall : CanonicalItem) (reason : Option String)
      (request : InteractionRequest) (now : Nat) (kind : request.kind = kindToolApproval)
      (result : s.interactions.record.begin s.turnId requestId request .core now = (.ok g, r, events)) :
      Step submit s .registry { s with
        interactions := { s.interactions with
          record := r
          continuations := Function.update s.interactions.continuations g .waiting
          requests := Function.update s.interactions.requests g (some ((s.turnId, requestId), request)) }
        requested := s.requested ++ [.approvalRequested s.turnId requestId toolCall reason] }
  /-- The event of an approval is sent. -/
  | announce {s : LiveRun ρ} {before after : List AgentStreamEvent} (event : AgentStreamEvent)
      (queued : s.requested = before ++ event :: after) :
      Step submit s .other { s with requested := before ++ after, channel := s.channel ++ [event] }
  | registry {s : LiveRun ρ} {l : Interactions.Label} {w : Interactions ρ}
      (step : Interactions.Step submit s.interactions l w) (projects : s.Projects w) :
      Step submit s .registry { s with interactions := w }
  | journal {s : LiveRun ρ} {r r' : SessionRecord} {response : Response} (inp : Inputs)
      (action : Action) (stored : s.record = some r) (journals : Journals action)
      (applied : apply r inp action = .ok (response, r')) :
      Step submit s .other { s with record := some r' }
  | take {s : LiveRun ρ} {event : AgentStreamEvent} {rest : List AgentStreamEvent}
      (executions : List ToolExecutionRecord) (queued : s.channel = event :: rest)
      (phase : s.phase = .executing ∨ ∃ result, s.phase = .draining result) :
      Step submit s (.took event) ({ s with channel := rest }.publishStream event executions)
  | cancel {s : LiveRun ρ} (usage : UsageMetrics) (executions : List ToolExecutionRecord)
      (known : s.phase ≠ .refused) : Step submit s .other (s.requestCancel usage executions)
  | abandon {s : LiveRun ρ} : Step submit s .other s.abandon
  /-- `turn.get`. -/
  | read {s : LiveRun ρ} (usage : UsageMetrics) (executions : List ToolExecutionRecord) :
      Step submit s .other
        { s with snapshot := { s.snapshot with usage, toolExecutions := executions } }
  | project {s : LiveRun ρ} {t : ResponseCommit} (g : Nat)
      (txn : s.interactions.transactions g = some t) (typed : t.typedApproval = true)
      (turn : t.key.1 = s.turnId) (stage : t.stage = .staged) (due : g ∉ s.projected) :
      Step submit s .other (s.project g t.key.2)
  /-- The loop of `execute_run` is left. -/
  | leave {s : LiveRun ρ} (result : Except (RunStatus × RunFailure) UsageMetrics)
      (phase : s.phase = .executing)
      (cause : result = cancelledResult ∧ s.cancel = true ∨ result = deadlineResult ∨
        (∃ usage, result = .ok usage) ∨ ∃ code message, result = engineFailure code message) :
      Step submit s .other { s with phase := .draining result }
  | finish {s : LiveRun ρ} {journal : Option (Except StoreError FinalizedRun)}
      {record : Option SessionRecord} {result : Except (RunStatus × RunFailure) UsageMetrics}
      (usage : UsageMetrics) (executions : List ToolExecutionRecord) (items : List CanonicalItem)
      (phase : s.phase = .draining result) (drained : s.channel = [])
      (answer : Finalized (s.candidate ⟨usage, executions, s.cancel, result⟩ items) s.record journal
        record) :
      Step submit s .other (s.conclude ⟨usage, executions, s.cancel, result⟩ items journal record)

end

end LiveRun

end Whale
