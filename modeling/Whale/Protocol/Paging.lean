import Whale.Protocol.Management

/-!
# Pages of the session catalog and of the history

The list and history requests of `whale-protocol/src/session_management.rs`, with the checks a client makes of
the answers.
-/

namespace Whale

open Check

/-- `MAX_SESSION_LIST_PAGE_LIMIT`, `MAX_SESSION_HISTORY_PAGE_LIMIT`, `MAX_SESSION_MANAGEMENT_PAGE_BYTES` and
`MAX_SESSION_CURSOR_TOKEN_BYTES`. -/
def maxSessionListPageLimit : Nat := 256
def maxSessionHistoryPageLimit : Nat := 256
def maxSessionManagementPageBytes : Nat := 1024 * 1024
def maxSessionCursorTokenBytes : Nat := 4096

/-- `validate_token`. -/
def validateToken (value name : String) : Except String Unit := do
  validateIdentityV2 value name
  refuse (decide (maxSessionCursorTokenBytes < value.utf8ByteSize)) (name ++ " exceeds 4096 encoded bytes")

/-- `validate_bounded_limit`, for a maximum of 256. -/
def validateBoundedLimit (value maximum : Nat) (name : String) : Except String Unit :=
  refuse (value == 0 || decide (maximum < value)) (name ++ " must be between 1 and " ++ toString maximum)

/-- `validate_management_page_bytes`, of a page of this length. -/
def validateManagementPageBytes (bytes : Except String Nat) (name : String) : Except String Unit := do
  let bytes ← bytes
  refuse (decide (maxSessionManagementPageBytes < bytes)) (name ++ " exceeds 1048576 serialized bytes")

/-! ## The session list -/

/-- `SessionRunHeadline`. -/
structure SessionRunHeadline where
  turnId : String
  status : RunStatus
  acceptedAtMs : Nat
  updatedAtMs : Nat
  deriving DecidableEq, Repr

/-- `SessionRunHeadline::validate`. -/
def SessionRunHeadline.validate (r : SessionRunHeadline) : Except String Unit := do
  validateIdentityV2 r.turnId "turn_id"
  refuse r.status.isTerminal "Active Run headline cannot be terminal"
  refuse (decide (r.updatedAtMs < r.acceptedAtMs)) "Run headline update precedes acceptance"

/-- `SessionListEntry`. -/
structure SessionListEntry where
  summary : SessionSummary
  lifecycle : SessionLifecycleState
  persistence : SessionPersistence
  cursor : Cursor
  historyTotalItems : Nat
  activeRun : Option SessionRunHeadline := none
  lastRun : Option SessionRunSummary := none
  deriving DecidableEq, Repr

namespace SessionListEntry

/-- The checks of the active run. -/
def validateActive (e : SessionListEntry) : Except String Unit :=
  match e.activeRun with
  | some run => do
    run.validate
    refuse (e.lifecycle == .closed) "Closed Session list entry cannot have an active Run"
  | none => .ok ()

/-- `SessionListEntry::validate`. -/
def validate [External] (e : SessionListEntry) : Except String Unit := do
  e.summary.validateV2
  e.persistence.validate
  e.cursor.validateV2
  refuse (e.summary.threadId != e.cursor.threadId || e.summary.revision != e.cursor.seq)
    "Session list entry summary and cursor disagree"
  e.validateActive
  validateLast e.lastRun

end SessionListEntry

/-- `ListSessionsParams`. -/
structure ListSessionsParams where
  cursor : Option String := none
  limit : Nat
  deriving DecidableEq, Repr

/-- The check of a cursor, if there is one. -/
def validateListCursor : Option String → Except String Unit
  | some cursor => validateToken cursor "Session list cursor"
  | none => .ok ()

/-- `ListSessionsParams::validate`. -/
def ListSessionsParams.validate (p : ListSessionsParams) : Except String Unit := do
  validateListCursor p.cursor
  validateBoundedLimit p.limit maxSessionListPageLimit "Session list page limit"

/-- `ListSessionsResult`. -/
structure ListSessionsResult where
  sessions : List SessionListEntry := []
  nextCursor : Option String := none
  deriving DecidableEq, Repr

/-- The length of a serialized page of the list, or the serializer's error. -/
class ListSerde where
  listBytes : ListSessionsResult → Except String Nat

/-- `ListSessionsResult::validate_for`. -/
def ListSessionsResult.validateFor [External] [ListSerde] (r : ListSessionsResult) (p : ListSessionsParams) :
    Except String Unit := do
  p.validate
  validateManagementPageBytes (ListSerde.listBytes r) "Session list response"
  refuse (decide (p.limit < r.sessions.length)) "Session list response exceeds the requested limit"
  distinct SessionListEntry.validate (·.summary.threadId) "Session list response contains duplicate threads" []
    r.sessions
  validateListCursor r.nextCursor

/-! ## The history -/

/-- `SessionHistoryAnchor`. -/
structure SessionHistoryAnchor where
  threadId : String
  streamId : String
  index : Nat
  deriving DecidableEq, Repr

namespace SessionHistoryAnchor

/-- `SessionHistoryAnchor::validate`. -/
def validate (a : SessionHistoryAnchor) : Except String Unit := do
  validateIdentityV2 a.threadId "thread_id"
  validateIdentityV2 a.streamId "stream_id"

/-- `same_stream`. -/
def sameStream (a b : SessionHistoryAnchor) : Bool := a.threadId == b.threadId && a.streamId == b.streamId

end SessionHistoryAnchor

/-- `GetSessionHistoryParams`. -/
structure GetSessionHistoryParams where
  threadId : String
  before : Option SessionHistoryAnchor := none
  cursor : Option String := none
  limit : Nat
  deriving DecidableEq, Repr

/-- The check of a cursor, if there is one. -/
def validateHistoryCursor : Option String → Except String Unit
  | some cursor => validateToken cursor "Session history page cursor"
  | none => .ok ()

namespace GetSessionHistoryParams

/-- The checks of the anchor, if there is one. -/
def validateBefore (p : GetSessionHistoryParams) : Except String Unit :=
  match p.before with
  | some before => do
    before.validate
    refuse (before.threadId != p.threadId) "History anchor belongs to another thread"
  | none => .ok ()

/-- `GetSessionHistoryParams::validate`. -/
def validate (p : GetSessionHistoryParams) : Except String Unit := do
  validateIdentityV2 p.threadId "thread_id"
  refuse (p.before.isSome && p.cursor.isSome)
    "History before anchor and page cursor are mutually exclusive"
  p.validateBefore
  validateHistoryCursor p.cursor
  validateBoundedLimit p.limit maxSessionHistoryPageLimit "Session history page limit"

end GetSessionHistoryParams

/-- `GetSessionHistoryResult`. -/
structure GetSessionHistoryResult where
  items : List CanonicalItem := []
  startIndex : Nat
  endIndex : Nat
  through : SessionHistoryAnchor
  currentEnd : SessionHistoryAnchor
  nextCursor : Option String := none
  deriving DecidableEq, Repr

/-- The length of a serialized page of the history, or the serializer's error. -/
class HistorySerde where
  pageBytes : GetSessionHistoryResult → Except String Nat

namespace GetSessionHistoryResult

/-- The checks of a first page: it ends at the position it froze, which is the one that was asked for. -/
def validateFirst (r : GetSessionHistoryResult) (p : GetSessionHistoryParams) : Except String Unit :=
  match p.cursor with
  | some _ => .ok ()
  | none => do
    refuse (r.endIndex != r.through.index) "Initial backward history page must end at through"
    let expected := (p.before.map fun before => min before.index r.currentEnd.index).getD r.currentEnd.index
    refuse (r.through.index != expected) "Initial history page froze the wrong high watermark"
    refuse (p.before.any fun before => !before.sameStream r.through)
      "History before anchor belongs to another stream"

/-- `GetSessionHistoryResult::validate_for`. -/
def validateFor [HistorySerde] (r : GetSessionHistoryResult) (p : GetSessionHistoryParams) :
    Except String Unit := do
  p.validate
  validateManagementPageBytes (HistorySerde.pageBytes r) "Session history response"
  r.through.validate
  r.currentEnd.validate
  refuse (r.through.threadId != p.threadId || r.currentEnd.threadId != p.threadId ||
      !r.through.sameStream r.currentEnd)
    "History result belongs to another Session stream"
  refuse (decide (r.endIndex < r.startIndex) || decide (r.through.index < r.endIndex) ||
      decide (r.currentEnd.index < r.through.index))
    "History result indexes are outside the fixed window"
  refuse (r.endIndex - r.startIndex != r.items.length || decide (p.limit < r.items.length))
    "History result items do not match its absolute range"
  distinct (fun item : CanonicalItem => validateIdentityV2 item.id "history item_id") (·.id)
    "History result contains duplicate canonical item identities" [] r.items
  r.validateFirst p
  validateHistoryCursor r.nextCursor

end GetSessionHistoryResult

end Whale
