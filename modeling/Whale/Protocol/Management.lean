import Whale.Protocol.Views

/-!
# Session management

`whale-protocol/src/session_management.rs`: the V2 read model, which adds the lifecycle, the
persistence and replaceable metadata to the V1 one. Run events go through the V1 reducer over a V1
snapshot that is built for the purpose (`SessionSnapshotV2.legacy`).
-/

namespace Whale

open Check

/-- `SessionLifecycleState`. -/
inductive SessionLifecycleState where
  | opened
  | closing
  | closed
  deriving DecidableEq, Repr

/-- `SessionPersistenceV2`. -/
inductive SessionPersistence where
  | ephemeral
  | persistent (recoveryId : String)
  deriving DecidableEq, Repr

/-! ## Persistence and metadata -/

section
variable [External]

/-- `SessionPersistenceV2::validate`. -/
def SessionPersistence.validate : SessionPersistence → Except String Unit
  | ephemeral => .ok ()
  | persistent recoveryId =>
    refuse (!External.parseUuid recoveryId) "Persistent Session recovery_id must be a UUID"

/-- `validate_session_metadata_replacement`. -/
def validateSessionMetadataReplacement (metadata : JsonMap) : Except String Unit := do
  refuse (decide (maxSessionMetadataKeys < metadata.length))
    "Session metadata exceeds 256 top-level keys"
  let bytes ← External.valueBytes (.object metadata)
  refuse (decide (maxSessionMetadataBytes < bytes)) "Session metadata exceeds 65536 serialized bytes"
  refuse (decide (maxSessionMetadataDepth < ((metadata.map fun f => valueDepth f.2 1).max?).getD 1))
    "Session metadata exceeds nesting depth 16"

end

/-! ## Events -/

/-- `SessionEventPayloadV2`. -/
inductive SessionEventPayloadV2 where
  | runChanged (run : SessionRunView)
  | runEvent (event : RunEvent)
  | metadataChanged (metadata : JsonMap)
  | lifecycleChanged (lifecycle : SessionLifecycleState)
  deriving DecidableEq, Repr

/-- `SessionEventEnvelopeV2`. -/
structure SessionEventEnvelopeV2 where
  threadId : String
  cursor : Cursor
  occurredAtMs : Nat
  payload : SessionEventPayloadV2
  deriving DecidableEq, Repr

namespace SessionEventEnvelopeV2

/-- The V1 envelope of the same cursor with this payload. -/
def legacy (e : SessionEventEnvelopeV2) (payload : SessionEventPayload) : SessionEventEnvelope :=
  ⟨e.threadId, e.cursor, e.occurredAtMs, payload⟩

/-- `SessionEventEnvelopeV2::validate`. -/
def validate [External] (e : SessionEventEnvelopeV2) : Except String Unit := do
  validateIdentityV2 e.threadId "thread_id"
  e.cursor.validateV2
  refuse (e.cursor.threadId != e.threadId) "V2 Session event cursor belongs to another thread"
  refuse (e.cursor.seq == 0) "V2 Session event sequence must be positive"
  match e.payload with
  | .runChanged run => do
    run.validate
    refuse (run.snapshot.threadId != e.threadId) "Changed Run belongs to another V2 Session"
  | .runEvent event => (e.legacy (.runEvent event)).validate
  | .metadataChanged metadata => validateSessionMetadataReplacement metadata
  | .lifecycleChanged _ => .ok ()

end SessionEventEnvelopeV2

/-! ## The snapshot -/

/-- `SessionSnapshotV2`. -/
structure SessionSnapshotV2 where
  summary : SessionSummary
  lifecycle : SessionLifecycleState
  persistence : SessionPersistence
  history : SessionHistoryWindow
  activeRun : Option SessionRunView := none
  lastRun : Option SessionRunSummary := none
  cursor : Cursor
  deriving DecidableEq, Repr

namespace SessionSnapshotV2

/-- The checks of the active run. -/
def validateActive (s : SessionSnapshotV2) : Except String Unit :=
  match s.activeRun with
  | some run => do
    run.validate
    refuse (run.snapshot.threadId != s.summary.threadId) "Active Run belongs to another V2 Session"
    refuse (s.lifecycle == .closed) "A Closed V2 Session cannot retain an active Run"
  | none => .ok ()

/-- `SessionSnapshotV2::validate`. -/
def validate [External] (s : SessionSnapshotV2) : Except String Unit := do
  s.summary.validateV2
  s.persistence.validate
  s.history.validate
  s.cursor.validateV2
  refuse (s.summary.threadId != s.cursor.threadId)
    "V2 Session snapshot cursor belongs to another thread"
  refuse (s.summary.revision != s.cursor.seq)
    "V2 Session view revision and cursor sequence must match"
  s.validateActive
  validateLast s.lastRun

/-- The V1 snapshot that `apply_v1_payload` builds. -/
def legacy (s : SessionSnapshotV2) : SessionSnapshot where
  summary := { s.summary with revision := s.cursor.seq }
  history := s.history
  activeRun := s.activeRun
  lastRun := s.lastRun
  cursor := s.cursor

/-- `apply_v1_payload`. -/
def applyV1Payload (s : SessionSnapshotV2) (e : SessionEventEnvelopeV2)
    (payload : SessionEventPayload) : Except String SessionSnapshotV2 := do
  let (snapshot, _) ← (s.legacy.apply (e.legacy payload)).mapError SessionProjectionError.display
  .ok { s with
    history := snapshot.history
    activeRun := snapshot.activeRun
    lastRun := snapshot.lastRun }

/-- The refusals of a `RunChanged` while closing. -/
def checkClosingRun (s : SessionSnapshotV2) (run : SessionRunView) : Except String Unit :=
  match s.lifecycle with
  | .closing => do
    let current ← orElse s.activeRun "Closing V2 Session cannot accept a new active Run"
    refuse (current.snapshot.turnId != run.snapshot.turnId) "Closing V2 Session Run identity changed"
  | _ => .ok ()

/-- `apply_payload` of a `LifecycleChanged` event. -/
def applyLifecycle (s : SessionSnapshotV2) (lifecycle : SessionLifecycleState) :
    Except String SessionSnapshotV2 :=
  match s.lifecycle, lifecycle with
  | .opened, .closing => .ok { s with lifecycle := .closing }
  | .closing, .closed => do
    refuse s.activeRun.isSome "V2 Session cannot become Closed with an active Run"
    .ok { s with lifecycle := .closed }
  | _, _ => .error "Invalid V2 Session lifecycle transition"

/-- `apply_payload`. -/
def applyPayload [External] (s : SessionSnapshotV2) (e : SessionEventEnvelopeV2) :
    Except String SessionSnapshotV2 :=
  match e.payload with
  | .runChanged run => do
    s.checkClosingRun run
    s.applyV1Payload e (.runChanged run)
  | .runEvent event => s.applyV1Payload e (.runEvent event)
  | .metadataChanged metadata => do
    refuse (s.lifecycle != .opened) "Session metadata can change only while Open"
    validateSessionMetadataReplacement metadata
    .ok { s with summary := { s.summary with metadata } }
  | .lifecycleChanged lifecycle => s.applyLifecycle lifecycle

/-- The snapshot moved to the event's cursor. -/
def advance (s : SessionSnapshotV2) (e : SessionEventEnvelopeV2) : SessionSnapshotV2 :=
  { s with
    summary := { s.summary with
      updatedAtMs := max s.summary.updatedAtMs e.occurredAtMs
      revision := e.cursor.seq }
    cursor := e.cursor }

/-- `SessionSnapshotV2::apply`. -/
def apply [External] (s : SessionSnapshotV2) (e : SessionEventEnvelopeV2) :
    Except SessionProjectionError (SessionSnapshotV2 × Bool) := do
  s.validate.mapError .invalidState
  e.validate.mapError .invalidState
  refuse (e.threadId != s.summary.threadId || !s.cursor.sameStream e.cursor)
    (.streamMismatch s.cursor.threadId s.cursor.streamId e.cursor.threadId e.cursor.streamId)
  if e.cursor.seq ≤ s.cursor.seq then .ok (s, false)
  else do
    refuse (s.lifecycle == .closed) (.invalidState "A Closed V2 Session cannot apply another event")
    let expected ← s.cursor.checkedNextV2.mapError .invalidState
    refuse (decide (e.cursor ≠ expected)) (.sequenceGap expected e.cursor)
    let next ← (s.applyPayload e).mapError .invalidState
    (next.advance e).validate.mapError .invalidState
    .ok (next.advance e, true)

end SessionSnapshotV2

end Whale
