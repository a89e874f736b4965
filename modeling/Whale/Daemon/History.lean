import Whale.Daemon.Journal

/-!
# The history archive

`whale-daemon/src/session_history.rs`: the retained tail of the canonical history that backward paging
reads. `append` keeps a set of identities beside the items; it is the set of the retained ids, so the
model asks the items themselves.
-/

namespace Whale

open Check

/-- `ArchivedItem`. -/
structure ArchivedItem where
  item : CanonicalItem
  bytes : Nat
  deriving DecidableEq, Repr

/-- `HistoryArchive`. -/
structure HistoryArchive where
  threadId : String
  streamId : String
  floor : Nat := 0
  endIndex : Nat := 0
  items : List ArchivedItem := []
  bytes : Nat := 0
  maxItems : Nat
  maxBytes : Nat
  deriving DecidableEq, Repr

/-- `MAX_SESSION_MANAGEMENT_HISTORY_ITEMS`. -/
def maxSessionManagementHistoryItems : Nat := 16 * 1024

/-- `MAX_SESSION_MANAGEMENT_HISTORY_BYTES`. -/
def maxSessionManagementHistoryBytes : Nat := 32 * 1024 * 1024

namespace HistoryArchive

/-- An item of this id is retained. -/
def holds (a : HistoryArchive) (id : String) : Bool := a.items.any (·.item.id == id)

/-- The loop that evicts from the front while a bound is exceeded. -/
def evict (a : HistoryArchive) : List ArchivedItem → Nat → Nat → Except String HistoryArchive
  | [], bytes, floor => .ok { a with items := [], bytes, floor }
  | i :: is, bytes, floor =>
    if a.maxItems < (i :: is).length ∨ a.maxBytes < bytes then do
      let floor ← orElse (checkedSucc floor) "Canonical history floor is exhausted"
      evict a is (bytes - i.bytes) floor
    else .ok { a with items := i :: is, bytes, floor }

/-- One turn of the loop of `append`. -/
def push [EventSerde] (a : HistoryArchive) (item : CanonicalItem) : Except String HistoryArchive := do
  refuse (blank item.id || a.holds item.id)
    "Canonical history item identities must be nonempty and unique"
  let size ← EventSerde.itemBytes item
  let endIndex ← orElse (checkedSucc a.endIndex) "Canonical history index is exhausted"
  let bytes ← orElse (UsageMetrics.checkedAdd64 a.bytes size)
    "Canonical history byte count is exhausted"
  evict { a with endIndex } (a.items ++ [⟨item, size⟩]) bytes a.floor

/-- `append`, and `prepare_append` on a copy. -/
def append [EventSerde] (a : HistoryArchive) : List CanonicalItem → Except String HistoryArchive
  | [] => .ok a
  | item :: items => do
    let a ← a.push item
    append a items

/-- The empty archive of a session. -/
def empty (threadId streamId : String) (configuredMaxBytes : Option Nat) : HistoryArchive where
  threadId := threadId
  streamId := streamId
  maxItems := maxSessionManagementHistoryItems
  maxBytes := min maxSessionManagementHistoryBytes (configuredMaxBytes.getD u64Max)

/-- `HistoryArchive::new`. -/
def new [EventSerde] (threadId streamId : String) (history : List CanonicalItem)
    (configuredMaxBytes : Option Nat) : Except String HistoryArchive :=
  (empty threadId streamId configuredMaxBytes).append history

end HistoryArchive

end Whale
