import Whale.Protocol.Events

/-!
# Session views

`whale-protocol/src/session_views.rs`: the read model of a live session and its reducer.
`SessionSnapshot.apply` is the reducer. It works on a copy that replaces the snapshot at the very end,
so a refused event returns no snapshot at all.
-/

namespace Whale

open Check

/-- `MAX_SESSION_REPLAY_PAGE_LIMIT`. -/
def maxSessionReplayPageLimit : Nat := 256

/-- `MAX_SESSION_HISTORY_LIMIT`. -/
def maxSessionHistoryLimit : Nat := 1024

/-- `validate_history_capacity`. -/
def validateHistoryCapacity (capacity : Nat) : Except String Unit :=
  refuse (capacity == 0 || decide (maxSessionHistoryLimit < capacity))
    "Session history limit must be between 1 and 1024"

/-- `SessionSummary`, and `SessionSummaryV2` with its `view_revision` as `revision`. -/
structure SessionSummary where
  threadId : String
  agentName : Option String := none
  metadata : JsonMap := []
  createdAtMs : Nat
  updatedAtMs : Nat
  revision : Nat := 0
  deriving DecidableEq, Repr

namespace SessionSummary

/-- `SessionSummary::new`. -/
def new (threadId : String) (createdAtMs : Nat) : SessionSummary :=
  { threadId, createdAtMs, updatedAtMs := createdAtMs }

/-- What `validate` checks beside the thread. -/
def validateRest (s : SessionSummary) : Except String Unit := do
  refuse (s.agentName.any fun name => blank name || padded name)
    "agent_name must be nonempty and unpadded when present"
  refuse (decide (s.updatedAtMs < s.createdAtMs)) "updated_at_ms must not precede created_at_ms"

/-- `SessionSummary::validate`. -/
def validate (s : SessionSummary) : Except String Unit := do
  validateIdentity s.threadId "thread_id"
  s.validateRest

/-- `SessionSummaryV2::validate`. -/
def validateV2 (s : SessionSummary) : Except String Unit := do
  validateIdentityV2 s.threadId "thread_id"
  s.validateRest

end SessionSummary

/-- `InProgressItemProjection`. -/
structure InProgressItem where
  itemId : String
  itemType : String
  phase : Option MessagePhase := none
  text : String := ""
  callId : Option String := none
  rawArguments : String := ""
  reasoningSignature : Option String := none
  deriving DecidableEq, Repr

/-- `InProgressItemProjection::validate`. -/
def InProgressItem.validate (i : InProgressItem) : Except String Unit := do
  validateIdentity i.itemId "item_id"
  validateIdentity i.itemType "item_type"
  validateOptionalIdentity i.callId "call_id"
  validateOptionalIdentity i.reasoningSignature "reasoning_signature"

/-- `SessionRunView`. -/
structure SessionRunView where
  snapshot : RunSnapshot
  inProgressItems : List InProgressItem := []
  acceptedAtMs : Nat
  updatedAtMs : Nat
  deriving DecidableEq, Repr

namespace SessionRunView

/-- `SessionRunView::new`. -/
def new (snapshot : RunSnapshot) (acceptedAtMs : Nat) : SessionRunView :=
  { snapshot, acceptedAtMs, updatedAtMs := acceptedAtMs }

/-- `SessionRunView::validate`. -/
def validate (r : SessionRunView) : Except String Unit := do
  validateIdentity r.snapshot.threadId "run thread_id"
  validateIdentity r.snapshot.turnId "turn_id"
  refuse r.snapshot.status.isTerminal "An active Session Run view must not be terminal"
  refuse (decide (r.updatedAtMs < r.acceptedAtMs)) "Run updated_at_ms must not precede accepted_at_ms"
  distinct InProgressItem.validate InProgressItem.itemId
    "In-progress item identities must be unique" [] r.inProgressItems

/-- `draft_mut` and the change made through it: the first draft of the item. -/
def updateDraft (r : SessionRunView) (itemId : String) (f : InProgressItem → InProgressItem) :
    Except String SessionRunView :=
  let rec go : List InProgressItem → Option (List InProgressItem)
    | [] => none
    | i :: is => if i.itemId == itemId then some (f i :: is) else (go is).map (i :: ·)
  match go r.inProgressItems with
  | some inProgressItems => .ok { r with inProgressItems }
  | none => .error ("No in-progress projection exists for item " ++ itemId)

/-- The view after an event of the run at this position and time. -/
def touched (r : SessionRunView) (seq occurredAtMs : Nat) : SessionRunView :=
  { r with
    snapshot := { r.snapshot with lastSeq := max r.snapshot.lastSeq seq }
    updatedAtMs := max r.updatedAtMs occurredAtMs }

end SessionRunView

/-- `SessionRunSummary`. -/
structure SessionRunSummary where
  turnId : String
  status : RunStatus
  usage : UsageMetrics
  error : Option RunFailure := none
  acceptedAtMs : Nat
  completedAtMs : Nat
  deriving DecidableEq, Repr

/-- `SessionRunSummary::validate`. -/
def SessionRunSummary.validate (s : SessionRunSummary) : Except String Unit := do
  validateIdentity s.turnId "turn_id"
  refuse (!s.status.isTerminal) "A Session Run summary must be terminal"
  refuse (decide (s.completedAtMs < s.acceptedAtMs)) "completed_at_ms must not precede accepted_at_ms"

/-- The checks of the last run. -/
def validateLast : Option SessionRunSummary → Except String Unit
  | some run => run.validate
  | none => .ok ()

/-- `SessionHistoryWindow`: the tail of the canonical history. -/
structure SessionHistoryWindow where
  items : List CanonicalItem
  startIndex : Nat
  totalItems : Nat
  capacity : Nat
  deriving DecidableEq, Repr

namespace SessionHistoryWindow

/-- `SessionHistoryWindow::from_history`. -/
def fromHistory (history : List CanonicalItem) (capacity : Nat) :
    Except String SessionHistoryWindow := do
  validateHistoryCapacity capacity
  distinct (validateIdentity ·.id "history item_id") CanonicalItem.id
    "Canonical history item identities must be unique" [] history
  let start := history.length - min history.length capacity
  .ok { items := history.drop start, startIndex := start, totalItems := history.length, capacity }

/-- `SessionHistoryWindow::validate`. -/
def validate (w : SessionHistoryWindow) : Except String Unit := do
  validateHistoryCapacity w.capacity
  refuse (w.items.length != min w.totalItems w.capacity ||
      UsageMetrics.checkedAdd64 w.startIndex w.items.length != some w.totalItems)
    "History window indexes and capacity are inconsistent"
  distinct (validateIdentity ·.id "history item_id") CanonicalItem.id
    "History window item identities must be unique" [] w.items

/-- An item of this id is in the window. -/
def holds (w : SessionHistoryWindow) (id : String) : Bool := w.items.any (·.id == id)

/-- `append_unless_known`; the flag it returns is read nowhere. -/
def appendUnlessKnown (w : SessionHistoryWindow) (item : CanonicalItem) (alreadyKnown : Bool) :
    Except String SessionHistoryWindow :=
  if alreadyKnown || w.holds item.id then .ok w
  else do
    validateIdentity item.id "history item_id"
    let totalItems ← orElse (checkedSucc w.totalItems) "Canonical history item count is exhausted"
    let pushed := w.items ++ [item]
    let items := pushed.drop (pushed.length - w.capacity)
    refuse (decide (totalItems < items.length)) "History window indexes underflowed"
    .ok { w with items, totalItems, startIndex := totalItems - items.length }

end SessionHistoryWindow

/-- `SessionProjectionError`, and `SessionProjectionErrorV2`. -/
inductive SessionProjectionError where
  | invalidState (message : String)
  | streamMismatch (expectedThread expectedStream actualThread actualStream : String)
  | sequenceGap (expected actual : Cursor)
  deriving DecidableEq, Repr

namespace SessionProjectionError

/-- `Display` of `SessionProjectionError`. -/
def display : SessionProjectionError → String
  | invalidState message => "invalid Session projection: " ++ message
  | streamMismatch expectedThread expectedStream actualThread actualStream =>
    "Session projection stream mismatch: expected " ++ expectedThread ++ "/" ++ expectedStream ++
      ", got " ++ actualThread ++ "/" ++ actualStream
  | sequenceGap expected actual =>
    "Session projection sequence gap: expected " ++ expected.threadId ++ "/" ++ expected.streamId ++
      "/" ++ toString expected.seq ++ ", got " ++ actual.threadId ++ "/" ++ actual.streamId ++ "/" ++
      toString actual.seq

/-- `Display` of `SessionProjectionErrorV2`. -/
def displayV2 : SessionProjectionError → String
  | invalidState message => "Invalid V2 Session projection: " ++ message
  | streamMismatch expectedThread expectedStream actualThread actualStream =>
    "V2 Session projection stream mismatch: expected " ++ expectedThread ++ "/" ++ expectedStream ++
      ", got " ++ actualThread ++ "/" ++ actualStream
  | sequenceGap expected actual =>
    "V2 Session projection sequence gap: expected " ++ expected.threadId ++ "/" ++
      expected.streamId ++ "/" ++ toString expected.seq ++ ", got " ++ actual.threadId ++ "/" ++
      actual.streamId ++ "/" ++ toString actual.seq

end SessionProjectionError

/-- `SessionEventPayload`. -/
inductive SessionEventPayload where
  | runChanged (run : SessionRunView)
  | runEvent (event : RunEvent)
  deriving DecidableEq, Repr

/-- `SessionEventEnvelope`. -/
structure SessionEventEnvelope where
  threadId : String
  cursor : Cursor
  occurredAtMs : Nat
  payload : SessionEventPayload
  deriving DecidableEq, Repr

/-- `SessionEventEnvelope::validate`. -/
def SessionEventEnvelope.validate (e : SessionEventEnvelope) : Except String Unit := do
  validateIdentity e.threadId "thread_id"
  e.cursor.validate
  refuse (e.cursor.threadId != e.threadId) "Session event cursor belongs to another thread"
  refuse (e.cursor.seq == 0) "Session event sequence must be positive"
  match e.payload with
  | .runChanged run => do
    run.validate
    refuse (run.snapshot.threadId != e.threadId) "Changed Run belongs to another thread"
  | .runEvent event => do
    validateIdentity event.turnId "turn_id"
    refuse (event.threadId != e.threadId || event.seq == 0) "Run event belongs to another thread"

/-- `SessionSnapshot`. -/
structure SessionSnapshot where
  summary : SessionSummary
  history : SessionHistoryWindow
  activeRun : Option SessionRunView := none
  lastRun : Option SessionRunSummary := none
  cursor : Cursor
  deriving DecidableEq, Repr

/-- `append_canonical_once`. -/
def appendCanonicalOnce (history : List CanonicalItem) (item : CanonicalItem) : List CanonicalItem :=
  if history.any (·.id == item.id) then history else history ++ [item]

/-- The record of a call's arguments: the first one of the call, or a new one. -/
def recordExecution (record : ToolExecutionRecord) :
    List ToolExecutionRecord → List ToolExecutionRecord
  | [] => [record]
  | old :: rest =>
    if old.callId == record.callId then record :: rest else old :: recordExecution record rest

namespace SessionSnapshot

/-- The checks of the active run. -/
def validateActive (s : SessionSnapshot) : Except String Unit :=
  match s.activeRun with
  | some run => do
    run.validate
    refuse (run.snapshot.threadId != s.summary.threadId) "Active Run belongs to another thread"
  | none => .ok ()

/-- `SessionSnapshot::validate`. -/
def validate (s : SessionSnapshot) : Except String Unit := do
  s.summary.validate
  s.cursor.validate
  refuse (s.summary.threadId != s.cursor.threadId)
    "Session snapshot cursor belongs to another thread"
  refuse (s.summary.revision != s.cursor.seq) "Session revision and cursor sequence must match"
  s.history.validate
  s.validateActive
  validateLast s.lastRun

/-- What a stream event does to its run, which is the active one. -/
def applyToRun (s : SessionSnapshot) (run : SessionRunView) :
    AgentStreamEvent → Except String SessionSnapshot
  | .toolProgress .. | .turnCompleted .. | .turnFailed .. => .ok { s with activeRun := some run }
  | .toolExecutionStarted _ callId originalArguments arguments =>
    .ok { s with activeRun := some { run with
      snapshot := { run.snapshot with
        toolExecutions := recordExecution ⟨callId, originalArguments, arguments⟩
          run.snapshot.toolExecutions } } }
  | .turnStarted _ threadId => do
    refuse (threadId != s.summary.threadId) "Turn start belongs to another thread"
    .ok { s with activeRun := some { run with
      snapshot := { run.snapshot with status := .running } } }
  | .itemStarted _ itemId itemType phase =>
    if !s.history.holds itemId && !run.inProgressItems.any (·.itemId == itemId) then
      .ok { s with activeRun := some { run with
        inProgressItems := run.inProgressItems ++ [{ itemId, itemType, phase }] } }
    else .ok { s with activeRun := some run }
  | .textDelta _ itemId delta | .reasoningDelta _ itemId delta => do
    let run ← run.updateDraft itemId fun d => { d with text := d.text ++ delta }
    .ok { s with activeRun := some run }
  | .reasoningSignature _ itemId signature => do
    let run ← run.updateDraft itemId fun d => { d with reasoningSignature := some signature }
    .ok { s with activeRun := some run }
  | .toolCallDelta _ itemId callId delta => do
    let run ← run.updateDraft itemId fun d =>
      { d with callId := some callId, rawArguments := d.rawArguments ++ delta }
    .ok { s with activeRun := some run }
  | .itemCompleted _ item => do
    let alreadyKnown := run.snapshot.items.any (·.id == item.id)
    let history ← s.history.appendUnlessKnown item alreadyKnown
    .ok { s with
      history
      activeRun := some { run with
        inProgressItems := run.inProgressItems.filter (·.itemId != item.id)
        snapshot := { run.snapshot with
          items := appendCanonicalOnce run.snapshot.items item } } }
  | .approvalRequested _ requestId toolCall reason =>
    .ok { s with activeRun := some { run with
      snapshot := { run.snapshot with
        status := .waitingApproval
        pendingApprovals :=
          if run.snapshot.pendingApprovals.any (·.requestId == requestId) then
            run.snapshot.pendingApprovals
          else run.snapshot.pendingApprovals ++ [⟨requestId, toolCall, reason⟩] } } }

/-- `apply_stream_event`. -/
def applyStreamEvent (s : SessionSnapshot) (event : RunEvent) (stream : AgentStreamEvent)
    (occurredAtMs : Nat) : Except String SessionSnapshot := do
  let run ← orElse s.activeRun "Run event has no active Run projection"
  refuse (run.snapshot.turnId != event.turnId) "Run event belongs to another active Run"
  refuse (stream.turnId != event.turnId) "Stream event belongs to another Run"
  s.applyToRun (run.touched event.seq occurredAtMs) stream

/-- The items of a finished run that the active run does not list, appended in order. -/
def appendItems (known : List CanonicalItem) :
    SessionHistoryWindow → List CanonicalItem → Except String SessionHistoryWindow
  | w, [] => .ok w
  | w, item :: items => do
    let w ← w.appendUnlessKnown item (known.any (·.id == item.id))
    appendItems known w items

/-- The summary a finished run leaves. -/
def finishedSummary (active : SessionRunView) (event : RunEvent) (snapshot : RunSnapshot)
    (occurredAtMs : Nat) : SessionRunSummary where
  turnId := event.turnId
  status := snapshot.status
  usage := snapshot.usage
  error := snapshot.error
  acceptedAtMs := active.acceptedAtMs
  completedAtMs := max occurredAtMs active.acceptedAtMs

/-- `apply_payload` of a `Finished` event. -/
def applyFinished (s : SessionSnapshot) (event : RunEvent) (snapshot : RunSnapshot)
    (occurredAtMs : Nat) : Except String SessionSnapshot := do
  refuse (!snapshot.status.isTerminal || snapshot.threadId != s.summary.threadId ||
      snapshot.turnId != event.turnId || snapshot.lastSeq != event.seq)
    "Invalid terminal Run event in Session projection"
  let active ← orElse s.activeRun "Terminal Run event has no matching active Run projection"
  refuse (active.snapshot.turnId != event.turnId) "Terminal Run event belongs to another active Run"
  let history ← appendItems active.snapshot.items s.history snapshot.items
  .ok { s with
    history
    lastRun := some (finishedSummary active event snapshot occurredAtMs)
    activeRun := none }

/-- `apply_payload`. -/
def applyPayload (s : SessionSnapshot) (e : SessionEventEnvelope) : Except String SessionSnapshot :=
  match e.payload with
  | .runChanged run => .ok { s with activeRun := some run }
  | .runEvent event =>
    match event.payload with
    | .stream stream => s.applyStreamEvent event stream e.occurredAtMs
    | .finished snapshot => s.applyFinished event snapshot e.occurredAtMs

/-- The snapshot moved to the event's cursor. -/
def advance (s : SessionSnapshot) (e : SessionEventEnvelope) : SessionSnapshot :=
  { s with
    summary := { s.summary with
      updatedAtMs := max s.summary.updatedAtMs e.occurredAtMs
      revision := e.cursor.seq }
    cursor := e.cursor }

/-- `SessionSnapshot::apply`: the snapshot after the event, and whether the event was applied. -/
def apply (s : SessionSnapshot) (e : SessionEventEnvelope) :
    Except SessionProjectionError (SessionSnapshot × Bool) := do
  s.validate.mapError .invalidState
  e.validate.mapError .invalidState
  refuse (e.threadId != s.summary.threadId || e.cursor.streamId != s.cursor.streamId)
    (.streamMismatch s.summary.threadId s.cursor.streamId e.threadId e.cursor.streamId)
  if e.cursor.seq ≤ s.cursor.seq then .ok (s, false)
  else do
    let expected ← s.cursor.checkedNext.mapError .invalidState
    refuse (decide (e.cursor ≠ expected)) (.sequenceGap expected e.cursor)
    let next ← (s.applyPayload e).mapError .invalidState
    (next.advance e).validate.mapError .invalidState
    .ok (next.advance e, true)

end SessionSnapshot

end Whale
