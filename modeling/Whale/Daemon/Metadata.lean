import Whale.Daemon.Management
import Whale.Store.Worker
import Whale.Lib.Run

/-!
# The lane across an await

`replace_metadata` and `complete_closed` of `whale-daemon/src/session_management.rs` keep the lane of a
session while they await its journal. `LaneOperation.prepare` is what they do before the store is asked and
`LaneHold.finish` what they do with its answer; in between the other callers of the lane wait, and the
journal worker, the connection and the rest of the store go on. `Lane.replaceMetadata` and
`Lane.completeClosed` are the two parts with nothing in between.

`LaneStep` leaves the behaviour of the store open. Of the commands of the session's journal only those of
`replace_metadata` touch the metadata, and a session is detached by `complete_closed` or, when its close is
over, by the disconnect of its owner. While the lease of the journal holds, no other writer changes its
record.
-/

namespace Whale

open Check

/-- The operations that await the store under the lane, with their arguments. -/
inductive LaneOperation where
  | replaceMetadata (owner threadId : String) (expectedViewRevision : Nat) (metadata : JsonMap)
      (now : Nat)
  | completeClosed (owner threadId : String) (now : Nat)
  deriving DecidableEq

namespace LaneOperation

/-- The metadata that a replacement carries. -/
def metadata? : LaneOperation → Option JsonMap
  | replaceMetadata _ _ _ metadata _ => some metadata
  | completeClosed .. => none

/-- The event that the operation publishes. -/
def payload : LaneOperation → SessionEventPayloadV2
  | replaceMetadata _ _ _ metadata _ => .metadataChanged metadata
  | completeClosed .. => .lifecycleChanged .closed

/-- What the operation asks of the journal of a persistent session. -/
def action : LaneOperation → Action
  | replaceMetadata _ _ _ metadata _ => .replaceMetadata metadata
  | completeClosed .. => .detach

/-- The refusal of an installation over another projection than the prepared one. -/
def sourceChanged : LaneOperation → String
  | replaceMetadata .. => "Metadata projection changed while its publication lane was held"
  | completeClosed .. => "Closed projection changed while its publication lane was held"

section
variable [External] [EventSerde]

/-- The operation before it awaits the store: what it is to install, or none when it is done. -/
def prepare (s : Projections) : LaneOperation →
    Except SessionManagementFailure (Option (ManagementProjection × SessionEventEnvelopeV2))
  | replaceMetadata owner threadId expectedViewRevision metadata now => do
    (validateIdentityV2 threadId "thread_id").mapError .invalidParams
    (validateSessionMetadataReplacement metadata).mapError .invalidParams
    s.management.owned threadId owner
    refuse (!s.management.acceptingMetadata) .unavailable
    let snapshot := s.management.projection.snapshot
    refuse (snapshot.lifecycle != .opened) (.notOpen snapshot.lifecycle)
    refuse (expectedViewRevision != snapshot.summary.revision)
      (.revisionConflict expectedViewRevision snapshot.summary.revision snapshot.cursor)
    if snapshot.summary.metadata = metadata then .ok none
    else
      let next ← (s.management.projection.prepare now (.metadataChanged metadata) none).mapError
        .invalidProjection
      .ok (some next)
  | completeClosed owner threadId now => do
    s.management.owned threadId owner
    match s.management.projection.snapshot.lifecycle with
    | .closing =>
      let next ← (s.management.projection.prepare now (.lifecycleChanged .closed) none).mapError
        .invalidProjection
      .ok (some next)
    | .closed => .ok none
    | .opened => .error (.invalidProjection "Session cannot become Closed before Closing")

end

end LaneOperation

/-- An operation that keeps the lane, and the answer of the store once there is one. -/
structure LaneHold where
  operation : LaneOperation
  source : Cursor
  next : ManagementProjection
  envelope : SessionEventEnvelopeV2
  stored : Option (Except StoreError Unit)

/-- The answer of the store where it is known at once: an ephemeral session asks for nothing, and without
a journal there is nothing to ask. -/
def Projections.storedAtOnce (s : Projections) (journal : Bool) : Option (Except StoreError Unit) :=
  match s.management.projection.snapshot.persistence with
  | .ephemeral => some (.ok ())
  | .persistent _ =>
    if journal then none else some (.error (.poisoned "Persistent Session journal is unavailable"))

/-- The operation after the store: its answer, and the projections it leaves. -/
def LaneHold.finish (h : LaneHold) (stored : Except StoreError Unit) (s : Projections) :
    Except SessionManagementFailure Bool × Projections :=
  match stored with
  | .error e => (.error (.storage e), s)
  | .ok () =>
    if s.management.projection.snapshot.cursor = h.source then (.ok true, s.installProjection h.next)
    else (.error (.invalidProjection h.operation.sourceChanged), s)

/-- The calls of the lane that await nothing. -/
def Lane.Call.brief : Lane.Call → Bool
  | publishRun .. | beginClosing .. | retireRun .. => true
  | replaceMetadata .. | completeClosed .. => false

/-- A session: what its lane guards, who keeps the lane, and the journal with the records of its store. -/
structure LaneState where
  projections : Projections
  hold : Option LaneHold
  worker : Worker

namespace LaneState

/-- The V2 snapshot. -/
def snapshot (s : LaneState) : SessionSnapshotV2 := s.projections.management.projection.snapshot

/-- The projected metadata. -/
def metadata (s : LaneState) : JsonMap := s.snapshot.summary.metadata

/-- The view revision. -/
def revision (s : LaneState) : Nat := s.snapshot.summary.revision

/-- `mark_owner_disconnected`, on the record of the session. -/
def disconnect (s : LaneState) : LaneState :=
  { s with projections :=
      { s.projections with management := { s.projections.management with acceptingMetadata := false } } }

end LaneState

/-- What happens in a step, with the V2 event it commits. A replacement answers whether it changed the
metadata, and a completion whether it closed the session. -/
inductive LaneLabel where
  | call (call : Lane.Call) (answer : Except SessionManagementFailure Bool)
      (event : Option SessionEventEnvelopeV2)
  | take (operation : LaneOperation)
  | stored
  | answer (operation : LaneOperation) (result : Except SessionManagementFailure Bool)
      (event : Option SessionEventEnvelopeV2)
  | serve (command : Command)
  | disconnect
  | elsewhere

namespace LaneLabel

/-- The event of a step. -/
def event : LaneLabel → Option SessionEventEnvelopeV2
  | call _ _ event | answer _ _ event => event
  | take _ | stored | serve _ | disconnect | elsewhere => none

/-- A replacement with this revision answers that it changed the metadata. -/
def changed (expectedViewRevision : Nat) : LaneLabel → Bool
  | answer (.replaceMetadata _ _ expected _ _) (.ok true) _ => expected == expectedViewRevision
  | _ => false

/-- An operation answers. -/
def answers : LaneLabel → Bool
  | answer .. => true
  | _ => false

end LaneLabel

/-- What a step does with the projection: it installs what an event prepared, or it shows no event. -/
inductive Commit [External] [EventSerde] (p p' : ManagementProjection) :
    Option SessionEventEnvelopeV2 → Prop
  | quiet (same : p'.snapshot = p.snapshot) : Commit p p' none
  | event {occurredAtMs : Nat} {payload : SessionEventPayloadV2} {identity : Option (String × Nat)}
      {e : SessionEventEnvelopeV2} (prepared : p.prepare occurredAtMs payload identity = .ok (p', e)) :
      Commit p p' (some e)

/-- A step of a session whose journal has the lease `l`. -/
inductive LaneStep [External] [EventSerde] (l : Lease) : LaneState → LaneLabel → LaneState → Prop
  | call {s : LaneState} {call : Lane.Call} {event : Option SessionEventEnvelopeV2}
      (free : s.hold = none) (brief : call.brief = true)
      (commit : Commit s.projections.management.projection
        (call.perform s.projections).2.management.projection event) :
      LaneStep l s (.call call (call.perform s.projections).1 event)
        { s with projections := (call.perform s.projections).2 }
  | refused {s : LaneState} {operation : LaneOperation} {e : SessionManagementFailure}
      (free : s.hold = none) (prepared : operation.prepare s.projections = .error e) :
      LaneStep l s (.answer operation (.error e) none) s
  | unchanged {s : LaneState} {operation : LaneOperation}
      (free : s.hold = none) (prepared : operation.prepare s.projections = .ok none) :
      LaneStep l s (.answer operation (.ok false) none) s
  | take {s : LaneState} {operation : LaneOperation} {next : ManagementProjection}
      {envelope : SessionEventEnvelopeV2} (journal : Bool)
      (free : s.hold = none) (prepared : operation.prepare s.projections = .ok (some (next, envelope))) :
      LaneStep l s (.take operation) { s with
        hold := some ⟨operation, s.snapshot.cursor, next, envelope, s.projections.storedAtOnce journal⟩ }
  | stored {s : LaneState} {h : LaneHold} {inputs : Inputs} {b : Behaviour}
      (held : s.hold = some h) (awaits : h.stored = none) :
      LaneStep l s .stored { s with
        worker := (s.worker.serve l ⟨h.operation.action, inputs⟩ b).1
        hold := some { h with
          stored := some ((s.worker.serve l ⟨h.operation.action, inputs⟩ b).2.reply.map fun _ => ()) } }
  | installed {s : LaneState} {h : LaneHold} {projections : Projections}
      (held : s.hold = some h) (answered : h.stored = some (.ok ()))
      (finished : h.finish (.ok ()) s.projections = (.ok true, projections)) :
      LaneStep l s (.answer h.operation (.ok true) (some h.envelope)) { s with projections, hold := none }
  | failed {s : LaneState} {h : LaneHold} {stored : Except StoreError Unit}
      {e : SessionManagementFailure} {projections : Projections}
      (held : s.hold = some h) (answered : h.stored = some stored)
      (finished : h.finish stored s.projections = (.error e, projections)) :
      LaneStep l s (.answer h.operation (.error e) none) { s with projections, hold := none }
  | serve {s : LaneState} {c : Command} {b : Behaviour}
      (other : ∀ metadata, c.action ≠ .replaceMetadata metadata)
      (attached : c.action = .detach → ∀ h ∈ s.hold, h.operation.metadata? = none) :
      LaneStep l s (.serve c) { s with worker := (s.worker.serve l c b).1 }
  | disconnect {s : LaneState} : LaneStep l s .disconnect s.disconnect
  | elsewhere {s : LaneState} {records : Records}
      (leased : ∀ r, l.holds r = true →
        (records.get? l.id = some r ↔ s.worker.records.get? l.id = some r)) :
      LaneStep l s .elsewhere { s with worker := { s.worker with records } }

end Whale
