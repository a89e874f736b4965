import Whale.Daemon.Views
import Whale.Daemon.History
import Whale.Store.State
import Whale.Lib.Transaction

/-!
# The V2 projection and the publication lane

`whale-daemon/src/session_management.rs`. `Projections` is what a session's publication lane guards:
the V1 record, the V2 projection and the history archive. An operation of the lane (`Lane`) reads the
three, prepares their successors and installs them one after another; the lane is a mutex, so the
checks that a source did not change since it was read always pass and are left out, and so is the
expiry of closed sessions, which removes a whole record. What an operation awaits of the store is an
argument.
-/

namespace Whale

open Check

/-- The failures of `SessionManagementFailure` that the operations below return. -/
inductive SessionManagementFailure where
  | invalidParams (message : String)
  | unavailable
  | notOpen (lifecycle : SessionLifecycleState)
  | revisionConflict (expected current : Nat) (cursor : Cursor)
  | storage (error : StoreError)
  | invalidProjection (message : String)
  deriving DecidableEq, Repr

/-- `ManagementProjection`. -/
structure ManagementProjection where
  snapshot : SessionSnapshotV2
  journal : Journal SessionEventEnvelopeV2
  runIdentities : String → Option Nat

/-- `MAX_SESSION_V2_EVENT_JOURNAL_EVENTS` and `MAX_SESSION_V2_EVENT_JOURNAL_BYTES`. -/
def managementJournalLimits : EventJournalLimits :=
  ⟨1024, 4 * 1024 * 1024, defaultMaxEvents_pos, defaultMaxBytes_pos⟩

/-- `event_turn_id`. -/
def SessionEventEnvelopeV2.turnId? (e : SessionEventEnvelopeV2) : Option String :=
  match e.payload with
  | .runChanged run => some run.snapshot.turnId
  | .runEvent event => some event.turnId
  | .metadataChanged _ | .lifecycleChanged _ => none

namespace ManagementProjection

/-- `ManagementProjection::retain`. -/
def retain (p : ManagementProjection) (envelope : SessionEventEnvelopeV2) (bytes : Nat)
    (runId : Option String) : Journal SessionEventEnvelopeV2 :=
  p.journal.retain managementJournalLimits envelope bytes runId

/-- The envelope of the next cursor. -/
def envelope (p : ManagementProjection) (occurredAtMs : Nat) (payload : SessionEventPayloadV2) :
    Except String SessionEventEnvelopeV2 := do
  let cursor ← p.snapshot.cursor.checkedNextV2
  .ok ⟨p.snapshot.summary.threadId, cursor, occurredAtMs, payload⟩

/-- The run an event is filed under: its own, or the active one. -/
def runOf (p : ManagementProjection) (e : SessionEventEnvelopeV2) : Option String :=
  e.turnId?.orElse fun _ => p.snapshot.activeRun.map (·.snapshot.turnId)

section
variable [External] [EventSerde]

/-- `ManagementProjection::prepare`; every failure is an `InvalidProjection`. -/
def prepare (p : ManagementProjection) (occurredAtMs : Nat) (payload : SessionEventPayloadV2)
    (runIdentity : Option (String × Nat)) :
    Except String (ManagementProjection × SessionEventEnvelopeV2) := do
  let envelope ← p.envelope occurredAtMs payload
  envelope.validate
  let bytes ← EventSerde.eventV2Bytes envelope
  let (snapshot, _) ← (p.snapshot.apply envelope).mapError SessionProjectionError.displayV2
  .ok ({
    snapshot
    journal := p.retain envelope bytes (p.runOf envelope)
    runIdentities :=
      match runIdentity with
      | some (turnId, identity) => setKey p.runIdentities turnId (some identity)
      | none => p.runIdentities }, envelope)

end

/-- `snapshot_with_history_limit`. -/
def snapshotWithHistoryLimit (p : ManagementProjection) (historyLimit : Nat) : SessionSnapshotV2 :=
  { p.snapshot with history := p.snapshot.history.limited historyLimit }

/-- The lifecycle after the last lifecycle event of the entries. -/
def lastLifecycle : List (JournalEntry SessionEventEnvelopeV2) → SessionLifecycleState →
    SessionLifecycleState
  | [], lifecycle => lifecycle
  | e :: es, lifecycle =>
    match e.envelope.payload with
    | .lifecycleChanged next => lastLifecycle es next
    | _ => lastLifecycle es lifecycle

/-- `lifecycle_at`. -/
def lifecycleAt (p : ManagementProjection) (through : Nat) : SessionLifecycleState :=
  if through == p.snapshot.cursor.seq then p.snapshot.lifecycle
  else lastLifecycle (p.journal.entries.takeWhile fun e => decide (Journal.seq e ≤ through)) .opened

/-- What a replay reports of the projection. -/
def head (p : ManagementProjection) : Journal.Head where
  cursor := p.snapshot.cursor
  revision := p.snapshot.summary.revision
  lifecycle := some p.snapshot.lifecycle
  lifecycleAt through := some (p.lifecycleAt through)

/-- `ManagementProjection::replay`; every failure is an `InvalidParams`. -/
def replay (p : ManagementProjection) (params : SubscribeParams) :
    Except String (SubscribeResult SessionEventEnvelopeV2) := do
  params.validateV2
  p.journal.replay ⟨"Replay cursor is ahead of the current V2 Session cursor",
    "Fixed V2 replay high watermark is ahead of the current cursor"⟩ p.head params

/-- `ManagementProjection::prepare_retire_run`. -/
def prepareRetireRun (p : ManagementProjection) (turnId : String) (identity : Nat) :
    Option ManagementProjection :=
  if p.runIdentities turnId != some identity ||
      p.snapshot.activeRun.any (·.snapshot.turnId == turnId) then none
  else some { p with
    journal := p.journal.scrubRun turnId
    runIdentities := setKey p.runIdentities turnId none }

end ManagementProjection

/-- `ManagementRecord`, without its notifier, its place in the catalog and the time it was closed. -/
structure ManagementRecord where
  owner : String
  acceptingMetadata : Bool := true
  projection : ManagementProjection
  history : HistoryArchive

namespace ManagementRecord

/-- `SessionManagementRegistry::owned`, on the record of a thread. -/
def owned (r : ManagementRecord) (threadId owner : String) : Except SessionManagementFailure Unit :=
  refuse (threadId != r.projection.snapshot.summary.threadId || owner != r.owner) .unavailable

/-- `SessionManagementRegistry::insert`, for a thread that has no record. -/
def insert [External] [EventSerde] (owner threadId : String) (agentName : Option String)
    (metadata : JsonMap) (history : List CanonicalItem) (createdAtMs : Nat)
    (persistence : SessionPersistence) (maxHistoryBytes : Option Nat) (streamId : String) :
    Except SessionManagementFailure ManagementRecord := do
  let window ← (SessionHistoryWindow.fromHistory history maxSessionHistoryLimit).mapError
    .invalidProjection
  let cursor : Cursor := ⟨threadId, streamId, 0⟩
  let snapshot : SessionSnapshotV2 := {
    summary := { SessionSummary.new threadId createdAtMs with agentName, metadata }
    lifecycle := .opened, persistence, history := window, cursor }
  snapshot.validate.mapError .invalidProjection
  let archive ← (HistoryArchive.new threadId streamId history maxHistoryBytes).mapError
    .invalidProjection
  .ok { owner, history := archive
        projection := ⟨snapshot, { replayFloor := cursor }, fun _ => none⟩ }

/-- `subscribe_v2`. -/
def subscribe (r : ManagementRecord) (owner : String) (params : SubscribeParams) :
    Except SessionManagementFailure (SubscribeResult SessionEventEnvelopeV2) := do
  r.owned params.threadId owner
  (r.projection.replay params).mapError .invalidParams

end ManagementRecord

/-- `RunPublicationMutation`. -/
inductive RunPublicationMutation where
  | begin (snapshot : RunSnapshot) (identity : Nat)
  | changed (snapshot : RunSnapshot)
  | event (event : RunEvent)
  deriving DecidableEq, Repr

namespace RunPublicationMutation

/-- The thread the mutation belongs to. -/
def threadId : RunPublicationMutation → String
  | begin snapshot _ | changed snapshot => snapshot.threadId
  | event e => e.threadId

/-- The items a terminal event commits to the archive. -/
def committedHistory : RunPublicationMutation → Option (List CanonicalItem)
  | event ⟨_, _, _, .finished snapshot⟩ => some snapshot.items
  | _ => none

end RunPublicationMutation

/-- What the publication lane of one session guards. -/
structure Projections where
  views : SessionViewRecord
  management : ManagementRecord

namespace Projections

section
variable [External] [EventSerde]

omit [External] in
/-- The V1 preparation of a mutation. -/
def prepareView (s : Projections) (owner : String) (mutation : RunPublicationMutation)
    (occurredAtMs : Nat) : Except String (SessionViewRecord × SessionEventEnvelope) :=
  match mutation with
  | .begin snapshot identity => s.views.prepareBeginRun owner snapshot identity occurredAtMs
  | .changed snapshot => s.views.prepareRunChanged owner snapshot occurredAtMs
  | .event event => s.views.prepareRunEvent owner event occurredAtMs

/-- The V2 preparation of a mutation. -/
def prepareManagement (s : Projections) (mutation : RunPublicationMutation) (occurredAtMs : Nat) :
    Except String (ManagementProjection × SessionEventEnvelopeV2) :=
  let projection := s.management.projection
  match mutation with
  | .begin snapshot identity =>
    projection.prepare occurredAtMs (.runChanged (.new snapshot occurredAtMs))
      (some (snapshot.turnId, identity))
  | .changed snapshot => do
    let active ← orElse projection.snapshot.activeRun "V2 Session has no active Run projection"
    refuse (active.snapshot.turnId != snapshot.turnId) "V2 Session active Run identity changed"
    projection.prepare occurredAtMs
      (.runChanged (SessionViewRecord.changedRun active snapshot occurredAtMs)) none
  | .event event => projection.prepare occurredAtMs (.runEvent event) none

omit [External] in
/-- The archive after a mutation. -/
def prepareHistory (s : Projections) (mutation : RunPublicationMutation) :
    Except String (Option HistoryArchive) :=
  match mutation.committedHistory with
  | some items => (s.management.history.append items).map some
  | none => .ok none

end

/-- Put a V1 record in place. -/
def installView (s : Projections) (views : SessionViewRecord) : Projections := { s with views }

/-- Put a V2 projection in place. -/
def installProjection (s : Projections) (projection : ManagementProjection) : Projections :=
  { s with management := { s.management with projection } }

/-- Put an archive in place. -/
def installHistory (s : Projections) (history : Option HistoryArchive) : Projections :=
  match history with
  | some history => { s with management := { s.management with history } }
  | none => s

end Projections

/-- An operation under the lane. The state stays as it was left when the operation fails. -/
abbrev Lane := Transaction SessionManagementFailure Projections

namespace Lane

open Transaction

/-- A preparation; a refusal is an `InvalidProjection`. -/
def prepared {α : Type} (x : Except String α) : Lane α := of (x.mapError .invalidProjection)

section
variable [External] [EventSerde]

/-- `publish_run`. -/
def publishRun (owner : String) (mutation : RunPublicationMutation) (occurredAtMs : Nat) :
    Lane (SessionEventEnvelope × SessionEventEnvelopeV2) := do
  let s ← get
  of (s.management.owned mutation.threadId owner)
  let v1 ← prepared (s.prepareView owner mutation occurredAtMs)
  let v2 ← prepared (s.prepareManagement mutation occurredAtMs)
  let history ← prepared (s.prepareHistory mutation)
  modify (·.installView v1.1)
  modify (·.installProjection v2.1)
  modify (·.installHistory history)
  return (v1.2, v2.2)

/-- `begin_closing`. -/
def beginClosing (owner threadId : String) (now : Nat) : Lane Unit := do
  let s ← get
  of (s.management.owned threadId owner)
  match s.management.projection.snapshot.lifecycle with
  | .opened =>
    let next ← prepared (s.management.projection.prepare now (.lifecycleChanged .closing) none)
    modify (·.installProjection next.1)
  | .closing | .closed => return ()

omit [External] [EventSerde] in
/-- The part of a persistent session's operation that the store does. -/
def store (s : Projections) (journal : Option (Except StoreError Unit)) : Lane Unit :=
  match s.management.projection.snapshot.persistence with
  | .ephemeral => return ()
  | .persistent _ =>
    match journal with
    | none => of (.error (.storage (.poisoned "Persistent Session journal is unavailable")))
    | some result => of (result.mapError .storage)

/-- `complete_closed`. -/
def completeClosed (owner threadId : String) (now : Nat) (journal : Option (Except StoreError Unit)) :
    Lane Unit := do
  let s ← get
  of (s.management.owned threadId owner)
  match s.management.projection.snapshot.lifecycle with
  | .closing =>
    let next ← prepared (s.management.projection.prepare now (.lifecycleChanged .closed) none)
    store s journal
    modify (·.installProjection next.1)
  | .closed => return ()
  | .opened => of (.error (.invalidProjection "Session cannot become Closed before Closing"))

/-- `replace_metadata`; whether the metadata changed. -/
def replaceMetadata (owner threadId : String) (expectedViewRevision : Nat) (metadata : JsonMap)
    (now : Nat) (journal : Option (Except StoreError Unit)) : Lane Bool := do
  of ((validateIdentityV2 threadId "thread_id").mapError .invalidParams)
  of ((validateSessionMetadataReplacement metadata).mapError .invalidParams)
  let s ← get
  of (s.management.owned threadId owner)
  of (refuse (!s.management.acceptingMetadata) .unavailable)
  let snapshot := s.management.projection.snapshot
  of (refuse (snapshot.lifecycle != .opened) (.notOpen snapshot.lifecycle))
  of (refuse (expectedViewRevision != snapshot.summary.revision)
    (.revisionConflict expectedViewRevision snapshot.summary.revision snapshot.cursor))
  if snapshot.summary.metadata = metadata then return false
  else
    let next ← prepared (s.management.projection.prepare now (.metadataChanged metadata) none)
    store s journal
    modify (·.installProjection next.1)
    return true

end

/-- `retire_run`. -/
def retireRun (owner threadId turnId : String) (identity : Nat) : StateM Projections Bool := do
  let s ← get
  match s.management.owned threadId owner, s.views.prepareRetireRun turnId identity,
      s.management.projection.prepareRetireRun turnId identity with
  | .ok (), some v1, some v2 =>
    modify (·.installView v1)
    modify (·.installProjection v2)
    return true
  | _, _, _ => return false

/-- A call to the lane. What the store answers a persistent session is part of the call. -/
inductive Call where
  | publishRun (owner : String) (mutation : RunPublicationMutation) (occurredAtMs : Nat)
  | replaceMetadata (owner threadId : String) (expectedViewRevision : Nat) (metadata : JsonMap)
      (now : Nat) (journal : Option (Except StoreError Unit))
  | beginClosing (owner threadId : String) (now : Nat)
  | completeClosed (owner threadId : String) (now : Nat) (journal : Option (Except StoreError Unit))
  | retireRun (owner threadId turnId : String) (identity : Nat)

/-- What a call answers, and the state it leaves. `replace_metadata` and `retire_run` answer whether
they did anything. -/
def Call.perform [External] [EventSerde] : Call → Projections →
    Except SessionManagementFailure Bool × Projections
  | publishRun owner mutation occurredAtMs =>
    outcome (do let _ ← Lane.publishRun owner mutation occurredAtMs; return true)
  | replaceMetadata owner threadId expectedViewRevision metadata now journal =>
    outcome (Lane.replaceMetadata owner threadId expectedViewRevision metadata now journal)
  | beginClosing owner threadId now =>
    outcome (do Lane.beginClosing owner threadId now; return true)
  | completeClosed owner threadId now journal =>
    outcome (do Lane.completeClosed owner threadId now journal; return true)
  | retireRun owner threadId turnId identity => fun s =>
    let (retired, s) := StateT.run (Lane.retireRun owner threadId turnId identity) s
    (.ok retired, s)

end Lane

end Whale
