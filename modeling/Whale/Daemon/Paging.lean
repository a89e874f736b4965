import Whale.Daemon.History
import Whale.Daemon.Listing

/-!
# Paging backward through the history

`HistoryArchive::page` of `session_history.rs`: from a position of a fixed window back towards the floor, as many
items as fit. The archive's lock is held through a call, so a call is one step.
-/

namespace Whale

open Check

/-- `HistoryCursorClaims`. -/
structure HistoryCursorClaims where
  version : Nat := 1
  kind : String := "session_history"
  threadId : String
  streamId : String
  through : Nat
  before : Nat
  expiresAtMs : Nat
  deriving DecidableEq, Repr

/-- `HistoryCursorClaims::valid_shape`. -/
def HistoryCursorClaims.validShape (c : HistoryCursorClaims) : Bool :=
  c.version == 1 && c.kind == "session_history" && decide (c.before ≤ c.through) && !blank c.threadId &&
    !blank c.streamId

/-- What a call reads from the clock: the time the cursor's expiry is compared with, and the times of the cursors
it makes. -/
structure PageClock where
  checked : Nat
  turn : Nat → Nat

namespace HistoryArchive

/-- `anchor`. -/
def anchor (a : HistoryArchive) (index : Nat) : SessionHistoryAnchor := ⟨a.threadId, a.streamId, index⟩

section
variable [CursorCodec HistoryCursorClaims]

/-- The cursor of a result, if there is more behind it. -/
def pageCursor (a : HistoryArchive) (owner : String) (start through now : Nat) :
    Except PageFailure (Option String) :=
  if a.floor < start then do
    let expiresAtMs ← CursorCodec.expiry now
    let token ← CursorCodec.encode owner ({
      threadId := a.threadId, streamId := a.streamId, through, before := start, expiresAtMs } : HistoryCursorClaims)
    (validateToken token "Session history page cursor").mapError .invalidProjection
    .ok (some token)
  else .ok none

/-- `result`. -/
def result (a : HistoryArchive) (owner : String) (start endIndex through now : Nat) (items : List CanonicalItem) :
    Except PageFailure GetSessionHistoryResult := do
  let nextCursor ← a.pageCursor owner start through now
  .ok {
    items
    startIndex := start
    endIndex
    through := a.anchor through
    currentEnd := a.anchor a.endIndex
    nextCursor }

/-- The window of a request: through one position, before another. -/
def window (a : HistoryArchive) (owner : String) (params : GetSessionHistoryParams) (now : Nat) :
    Except PageFailure (Nat × Nat) :=
  match params.cursor, params.before with
  | some cursor, _ => do
    let claims ← orElse (CursorCodec.decode owner cursor : Option HistoryCursorClaims) .historyCursorInvalid
    refuse (!claims.validShape || decide (claims.expiresAtMs ≤ now)) .historyCursorInvalid
    refuse (claims.threadId != a.threadId) .historyCursorInvalid
    refuse (claims.streamId != a.streamId)
      (.historyStreamReset ⟨claims.threadId, claims.streamId, claims.before⟩ (a.anchor a.endIndex))
    refuse (decide (a.endIndex < claims.through)) .historyCursorInvalid
    .ok (claims.through, claims.before)
  | none, some before => do
    refuse (before.threadId != a.threadId || before.streamId != a.streamId)
      (.historyStreamReset before (a.anchor a.endIndex))
    .ok (min before.index a.endIndex, min before.index a.endIndex)
  | none, none => .ok (a.endIndex, a.endIndex)

variable [HistorySerde]

/-- The loop that fills the page: its items and the last result that fits. -/
def fillPage (a : HistoryArchive) (owner : String) (before through limit : Nat) (turn : Nat → Nat) :
    Nat → List CanonicalItem → Option GetSessionHistoryResult →
    Except PageFailure (List CanonicalItem × Option GetSessionHistoryResult)
  | 0, items, accepted => .ok (items, accepted)
  | start + 1, items, accepted =>
    if a.floor < start + 1 ∧ items.length < limit then do
      let candidate ← orElse a.items[start - a.floor]?
        (.invalidProjection "Canonical history archive indexes are inconsistent")
      let result ← a.result owner start before through (turn items.length) (candidate.item :: items)
      let actual ← (HistorySerde.pageBytes result).mapError .invalidProjection
      if maxSessionManagementPageBytes < actual then
        if items.isEmpty then
          .error (.resourceLimit "session_history_page" actual maxSessionManagementPageBytes (some start))
        else .ok (items, accepted)
      else fillPage a owner before through limit turn start (candidate.item :: items) (some result)
    else .ok (items, accepted)

/-- The page behind the loop: without an accepted result it has no items. -/
def lastResult (a : HistoryArchive) (owner : String) (before through now : Nat) (items : List CanonicalItem) :
    Option GetSessionHistoryResult → Except PageFailure GetSessionHistoryResult
  | some result => .ok result
  | none => a.result owner before before through now items

/-- `page`. -/
def page (a : HistoryArchive) (owner : String) (params : GetSessionHistoryParams) (clock : PageClock) :
    Except PageFailure GetSessionHistoryResult := do
  (params.validate).mapError fun message => PageFailure.management (.invalidParams message)
  let (through, before) ← a.window owner params clock.checked
  refuse (decide (before < a.floor)) (.historyGap (a.anchor before) (a.anchor a.floor) (a.anchor a.endIndex))
  refuse (decide (through < before) || decide (a.endIndex < through)) .historyCursorInvalid
  let (items, accepted) ← a.fillPage owner before through params.limit clock.turn before [] none
  let result ← a.lastResult owner before through (clock.turn items.length) items accepted
  (result.validateFor params).mapError .invalidProjection
  .ok result

end

end HistoryArchive

end Whale
