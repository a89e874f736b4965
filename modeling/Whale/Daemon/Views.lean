import Whale.Daemon.Journal

/-!
# The V1 projection

`whale-daemon/src/session_views.rs`: the record of one session, the preparation of its publications
and the replay of its journal. A preparation returns the next record; installing it is the business of
the publication lane.
-/

namespace Whale

open Check

/-- `HashMap::insert`. -/
def setKey {α : Type} (m : String → Option α) (key : String) (value : Option α) :
    String → Option α :=
  fun k => if k == key then value else m k

/-- The window cut to its last `limit` items. -/
def SessionHistoryWindow.limited (w : SessionHistoryWindow) (limit : Nat) : SessionHistoryWindow :=
  let keep := min w.items.length limit
  { items := w.items.drop (w.items.length - keep)
    startIndex := w.totalItems - keep
    totalItems := w.totalItems
    capacity := limit }

/-- `event_turn_id`. -/
def SessionEventEnvelope.turnId (e : SessionEventEnvelope) : String :=
  match e.payload with
  | .runChanged run => run.snapshot.turnId
  | .runEvent event => event.turnId

/-- `SessionViewRecord`. The notifier, which only sends, is left out. -/
structure SessionViewRecord where
  owner : String
  snapshot : SessionSnapshot
  journal : Journal SessionEventEnvelope
  limits : EventJournalLimits
  /-- The record of each run, named by its address. -/
  runIdentities : String → Option Nat

/-- The default limits of the V1 journal. -/
def defaultJournalLimits : EventJournalLimits :=
  ⟨1024, 4 * 1024 * 1024, defaultMaxEvents_pos, defaultMaxBytes_pos⟩

namespace SessionViewRecord

/-- `SessionViewRecord::with_owner`. -/
def withOwner (owner : String) (summary : SessionSummary) (history : SessionHistoryWindow)
    (streamId : String) (limits : EventJournalLimits) : Except String SessionViewRecord := do
  let cursor : Cursor := ⟨summary.threadId, streamId, 0⟩
  let snapshot : SessionSnapshot := { summary, history, cursor }
  snapshot.validate
  .ok { owner, snapshot, journal := { replayFloor := cursor }, limits, runIdentities := fun _ => none }

/-- `SessionViewRegistry::insert`, for a thread that has no record. -/
def insert (owner threadId : String) (agentName : Option String) (metadata : JsonMap)
    (history : List CanonicalItem) (createdAtMs : Nat) (streamId : String)
    (limits : EventJournalLimits) : Except String SessionViewRecord := do
  let history ← SessionHistoryWindow.fromHistory history maxSessionHistoryLimit
  withOwner owner { SessionSummary.new threadId createdAtMs with agentName, metadata } history
    streamId limits

/-- `retain_prepared`. -/
def retainPrepared (r : SessionViewRecord) (envelope : SessionEventEnvelope) (bytes : Nat)
    (runId : Option String) : Journal SessionEventEnvelope :=
  r.journal.retain r.limits envelope bytes runId

/-- The envelope of the next cursor. -/
def envelope (r : SessionViewRecord) (occurredAtMs : Nat) (payload : SessionEventPayload) :
    Except String SessionEventEnvelope := do
  let cursor ← r.snapshot.cursor.checkedNext
  .ok ⟨r.snapshot.summary.threadId, cursor, occurredAtMs, payload⟩

/-- `SessionViewRecord::prepare`. -/
def prepare [EventSerde] (r : SessionViewRecord) (occurredAtMs : Nat) (payload : SessionEventPayload)
    (runIdentity : Option (String × Nat)) :
    Except String (SessionViewRecord × SessionEventEnvelope) := do
  let envelope ← r.envelope occurredAtMs payload
  envelope.validate
  let bytes ← (EventSerde.eventBytes envelope).mapError ("Session event serialization failed: " ++ ·)
  let (snapshot, _) ← (r.snapshot.apply envelope).mapError SessionProjectionError.display
  .ok ({ r with
    snapshot
    journal := r.retainPrepared envelope bytes (some envelope.turnId)
    runIdentities :=
      match runIdentity with
      | some (turnId, identity) => setKey r.runIdentities turnId (some identity)
      | none => r.runIdentities }, envelope)

/-- `snapshot_with_history_limit`. -/
def snapshotWithHistoryLimit (r : SessionViewRecord) (historyLimit : Nat) : SessionSnapshot :=
  { r.snapshot with history := r.snapshot.history.limited historyLimit }

/-- What a replay reports of the record. -/
def head (r : SessionViewRecord) : Journal.Head where
  cursor := r.snapshot.cursor
  revision := r.snapshot.summary.revision

/-- `SessionViewRecord::replay`. -/
def replay (r : SessionViewRecord) (params : SubscribeParams) :
    Except String (SubscribeResult SessionEventEnvelope) := do
  params.validate
  r.journal.replay ⟨"Replay cursor is ahead of the current Session cursor",
    "Fixed replay high watermark is ahead of the current Session cursor"⟩ r.head params

/-- `SessionViewRegistry::owned`, on the record of a thread. -/
def owned (r : SessionViewRecord) (threadId owner : String) : Except String Unit :=
  refuse (threadId != r.snapshot.summary.threadId || owner != r.owner) "SessionNotFound"

/-- `SessionViewRegistry::subscribe`. -/
def subscribe (r : SessionViewRecord) (owner : String) (params : SubscribeParams) :
    Except String (SubscribeResult SessionEventEnvelope) := do
  r.owned params.threadId owner
  r.replay params

/-- `prepare_begin_run`. -/
def prepareBeginRun [EventSerde] (r : SessionViewRecord) (owner : String) (snapshot : RunSnapshot)
    (identity occurredAtMs : Nat) : Except String (SessionViewRecord × SessionEventEnvelope) := do
  r.owned snapshot.threadId owner
  r.prepare occurredAtMs (.runChanged (.new snapshot occurredAtMs)) (some (snapshot.turnId, identity))

/-- `prepare_run_event`. -/
def prepareRunEvent [EventSerde] (r : SessionViewRecord) (owner : String) (event : RunEvent)
    (occurredAtMs : Nat) : Except String (SessionViewRecord × SessionEventEnvelope) := do
  r.owned event.threadId owner
  r.prepare occurredAtMs (.runEvent event) none

/-- The view of the active run with another snapshot. -/
def changedRun (active : SessionRunView) (snapshot : RunSnapshot) (occurredAtMs : Nat) :
    SessionRunView :=
  { active with snapshot, updatedAtMs := max active.updatedAtMs occurredAtMs }

/-- `prepare_run_changed`. -/
def prepareRunChanged [EventSerde] (r : SessionViewRecord) (owner : String) (snapshot : RunSnapshot)
    (occurredAtMs : Nat) : Except String (SessionViewRecord × SessionEventEnvelope) := do
  r.owned snapshot.threadId owner
  let active ← orElse r.snapshot.activeRun "Session has no active Run projection"
  refuse (active.snapshot.turnId != snapshot.turnId) "Session active Run identity changed"
  r.prepare occurredAtMs (.runChanged (changedRun active snapshot occurredAtMs)) none

/-- `prepare_retire_run`: the record without the run, or none when it may not go. -/
def prepareRetireRun (r : SessionViewRecord) (turnId : String) (identity : Nat) :
    Option SessionViewRecord :=
  if r.runIdentities turnId != some identity ||
      r.snapshot.activeRun.any (·.snapshot.turnId == turnId) then none
  else some { r with
    journal := r.journal.scrubRun turnId
    runIdentities := setKey r.runIdentities turnId none }

end SessionViewRecord

end Whale
