import Whale.Daemon.Management
import Whale.Lib.OrdMap

/-!
# The owner catalogs

The registry of `whale-daemon/src/session_management.rs`: the records by thread, and for every owner the
catalog that numbers the owner's sessions. A catalog's lock is held through `insert` and through `prune_owner`,
so each is one step. `Arc::ptr_eq` compares the `identity` of two records.
-/

namespace Whale

open Check

/-- `ManagementLimits`. -/
structure ManagementLimits where
  maxClosedTombstones : Nat := 128
  maxClosedTombstoneBytes : Nat := 64 * 1024 * 1024
  closedTombstoneTtlMs : Nat := 10 * 60 * 1000
  deriving DecidableEq, Repr

/-- The length of a serialized snapshot, or the serializer's error. -/
class SnapshotSerde where
  snapshotBytes : SessionSnapshotV2 → Except String Nat

/-- A `ManagementRecord` in the registry. Only a session that is `Closed` has a time it was closed at. -/
structure CatalogRecord extends ManagementRecord where
  identity : Nat
  catalogOrdinal : Nat
  closedAt : Option Nat := none
  closed : closedAt.isSome = true → projection.snapshot.lifecycle = .closed

/-- `retained_record_bytes`. -/
def CatalogRecord.retainedBytes [SnapshotSerde] (r : CatalogRecord) : Nat :=
  let snapshot := (SnapshotSerde.snapshotBytes r.projection.snapshot).toOption.getD u64Max
  saturatingAdd (saturatingAdd snapshot r.projection.journal.bytes.toNat) r.history.bytes

/-- `OwnerCatalogState`. -/
structure OwnerCatalogState where
  generation : Nat := 0
  generationExhausted : Bool := false
  nextOrdinal : Nat := 1
  entries : OrdMap Nat String := .empty
  expiredTombstones : List String := []
  deriving DecidableEq

/-- `SessionManagementRegistry`. -/
structure SessionManagementRegistry where
  records : OrdMap String CatalogRecord := .empty
  owners : OrdMap String OwnerCatalogState := .empty

/-- A candidate of `prune_owner`. -/
structure ClosedSession where
  ordinal : Nat
  threadId : String
  identity : Nat
  closedAt : Nat
  bytes : Nat
  deriving DecidableEq, Repr

namespace ClosedSession

/-- The order of the candidates. -/
def before (a b : ClosedSession) : Bool :=
  decide (a.closedAt < b.closedAt) || (decide (a.closedAt = b.closedAt) && decide (a.ordinal ≤ b.ordinal))

/-- The record the caller protects. -/
def exempt (protectedRecord : Option Nat) (c : ClosedSession) : Bool := protectedRecord == some c.identity

/-- `saturating_duration_since` against the time to live. -/
def aged (limits : ManagementLimits) (now : Nat) (c : ClosedSession) : Bool :=
  decide (limits.closedTombstoneTtlMs ≤ now - c.closedAt)

/-- The candidates whose time is over. -/
def expired (limits : ManagementLimits) (now : Nat) (protectedRecord : Option Nat) (cs : List ClosedSession) :
    List Nat :=
  (cs.filter fun c => !c.exempt protectedRecord && c.aged limits now).map (·.ordinal)

/-- `retained_bytes` before the loop. -/
def totalBytes (cs : List ClosedSession) : Nat := cs.foldl (fun total c => saturatingAdd total c.bytes) 0

end ClosedSession

/-- The variables of the loop over the candidates. The count is a `usize` of the source, and is decremented
without a check: here it is an integer, so that an underflow would show. -/
structure Pressure where
  remove : List Nat
  retainedCount : Int
  retainedBytes : Nat
  deriving DecidableEq, Repr

namespace Pressure

/-- Before the loop. -/
def start (cs : List ClosedSession) (remove : List Nat) : Pressure where
  remove := remove
  retainedCount := (cs.length - remove.length : Nat)
  retainedBytes := ClosedSession.totalBytes (cs.filter fun c => !remove.contains c.ordinal)

/-- The loop over the candidates. -/
def relieve (limits : ManagementLimits) (protectedRecord : Option Nat) : List ClosedSession → Pressure → Pressure
  | [], p => p
  | c :: cs, p =>
    if p.retainedCount ≤ limits.maxClosedTombstones ∧ p.retainedBytes ≤ limits.maxClosedTombstoneBytes then p
    else if p.remove.contains c.ordinal || c.exempt protectedRecord then relieve limits protectedRecord cs p
    else relieve limits protectedRecord cs
      ⟨p.remove ++ [c.ordinal], p.retainedCount - 1, p.retainedBytes - c.bytes⟩

end Pressure

/-- The ordinals that `prune_owner` removes, from the candidates in their order. -/
def tombstones (limits : ManagementLimits) (now : Nat) (protectedRecord : Option Nat) (closed : List ClosedSession) :
    List Nat :=
  (Pressure.relieve limits protectedRecord closed
    (.start closed (ClosedSession.expired limits now protectedRecord closed))).remove

namespace OwnerCatalogState

/-- The oldest expired tombstones go while there are too many. -/
def remember (s : OwnerCatalogState) (limits : ManagementLimits) (threadId : String) : OwnerCatalogState :=
  let expired := s.expiredTombstones ++ [threadId]
  let bound := max (min (limits.maxClosedTombstones * 2) u64Max) 1
  { s with expiredTombstones := expired.drop (expired.length - bound) }

/-- The generation after a removal. -/
def advance (s : OwnerCatalogState) : OwnerCatalogState :=
  match checkedSucc s.generation with
  | some generation => { s with generation }
  | none => { s with generationExhausted := true }

end OwnerCatalogState

namespace SessionManagementRegistry

/-- `owner_catalog`: an owner without a catalog gets an empty one. -/
def ownerCatalog (r : SessionManagementRegistry) (owner : String) : OwnerCatalogState :=
  (r.owners.get? owner).getD {}

/-- One turn of the loop that removes. -/
def removeTombstone (limits : ManagementLimits) (owner : String)
    (s : OrdMap String CatalogRecord × OwnerCatalogState) (ordinal : Nat) :
    OrdMap String CatalogRecord × OwnerCatalogState :=
  match s.2.entries.get? ordinal with
  | none => s
  | some threadId =>
    if (s.1.get? threadId).any fun record =>
        record.owner == owner && record.catalogOrdinal == ordinal && record.closedAt.isSome then
      (s.1.erase threadId,
        (({ s.2 with entries := s.2.entries.erase ordinal }).remember limits threadId).advance)
    else (s.1, { s.2 with entries := (s.2.entries.erase ordinal).insert ordinal threadId })

section
variable [SnapshotSerde]

/-- A catalog entry as a candidate, when its record is there and closed. -/
def candidate (r : SessionManagementRegistry) (e : Nat × String) : Option ClosedSession := do
  let record ← r.records.get? e.2
  let closedAt ← record.closedAt
  some ⟨e.1, e.2, record.identity, closedAt, record.retainedBytes⟩

/-- The candidates in the order in which they are considered. -/
def candidates (r : SessionManagementRegistry) (entries : OrdMap Nat String) : List ClosedSession :=
  (entries.entries.filterMap r.candidate).mergeSort ClosedSession.before

/-- `prune_owner`. -/
def pruneOwner (r : SessionManagementRegistry) (limits : ManagementLimits) (now : Nat) (owner : String)
    (protectedRecord : Option Nat) : SessionManagementRegistry :=
  match r.owners.get? owner with
  | none => r
  | some state =>
    let (records, state) := (tombstones limits now protectedRecord (r.candidates state.entries)).foldl
      (removeTombstone limits owner) (r.records, state)
    { records, owners := r.owners.insert owner state }

end

/-- `insert`. -/
def insert [External] [EventSerde] (r : SessionManagementRegistry) (owner threadId : String)
    (agentName : Option String) (metadata : JsonMap) (history : List CanonicalItem) (createdAtMs : Nat)
    (persistence : SessionPersistence) (maxHistoryBytes : Option Nat) (streamId : String) (identity : Nat) :
    Except SessionManagementFailure SessionManagementRegistry := do
  let record ← ManagementRecord.insert owner threadId agentName metadata history createdAtMs persistence
    maxHistoryBytes streamId
  let state := r.ownerCatalog owner
  refuse state.generationExhausted (.invalidProjection "Session catalog generation is exhausted")
  refuse (r.records.get? threadId).isSome (.invalidProjection "SessionAlreadyExists")
  let nextOrdinal ← orElse (checkedSucc state.nextOrdinal)
    (.invalidProjection "Session catalog ordinal is exhausted")
  .ok {
    records := r.records.insert threadId
      { record with identity, catalogOrdinal := state.nextOrdinal, closed := by simp }
    owners := r.owners.insert owner { state with
      nextOrdinal, entries := state.entries.insert state.nextOrdinal threadId } }

end SessionManagementRegistry

end Whale
