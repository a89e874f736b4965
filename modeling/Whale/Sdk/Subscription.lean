import Whale.Daemon.Management
import Whale.Lib.Run

/-!
# Subscription workers

`run_subscription_worker` and `run_subscription_worker_v2` of the Rust client: each merges the live
notifications of a hub with the pages of a replay and enqueues events for one consumer. The two have
one shape and differ in their texts, in what a gap becomes, in the nudges of the V2 hub and in the end
of a V2 stream.

Every await of a worker is a state (`ViewWorker.Await`), and `ViewWorker.step` is what happens between
two awaits. A `select!` with a `biased` order is modelled by all of its branches.
-/

namespace Whale

open Check

/-- `SdkError`, as far as a subscription reads it. -/
inductive SdkError where
  | rpc (code : Int) (message : String)
  | other (message : String)
  deriving DecidableEq, Repr

/-- `SessionViewError` and `SessionManagementError`, as far as a subscription makes them. -/
inductive SubscriptionError where
  | request (failure : SdkError)
  | invalidCursor (message : String)
  | invalidOptions (field message : String)
  | resyncRequired (gap : ReplayGap)
  | invalidProjection (message : String)
  deriving DecidableEq, Repr

/-- `is_next_cursor` and `is_next_cursor_v2`. -/
def isNextCursor (previous next : Cursor) : Bool :=
  previous.sameStream next && (checkedSucc previous.seq).any fun expected => expected == next.seq

/-- What the two versions of a worker have of their own. -/
class SubscriptionVersion (ε : Type) [Envelope ε] where
  /-- `subscribe_from`, before it asks for the first page. -/
  checkCursor : String → Cursor → Except SubscriptionError Unit
  /-- `get_session_replay_page`, on what the request returned. -/
  getReplayPage : SubscribeParams → Except SdkError (SubscribeResult ε) →
    Except SubscriptionError (SubscribeResult ε)
  /-- `validate_for` of a page. -/
  validateFor : SubscribeResult ε → SubscribeParams → Except String Unit
  /-- What a gap is reported as. -/
  gapError : ReplayGap → SubscriptionError
  /-- The text for a page that claims more without an event. -/
  stalled : String
  /-- The text for an event that is not the next one. -/
  notContiguous : Nat → String
  /-- Whether an event closes the session; a V1 event never does. -/
  isClosed : ε → Bool
  /-- Whether the worker holds its hub, and so its channels, and listens for nudges. -/
  holdsHub : Bool

/-! ## V1 -/

/-- `subscribe_session_from`, before it asks for the first page. -/
def checkCursor (threadId : String) (cursor : Cursor) : Except SubscriptionError Unit := do
  cursor.validate.mapError .invalidCursor
  refuse (cursor.threadId != threadId) (.invalidCursor "Session cursor belongs to another thread")

/-- `get_session_replay_page`. -/
def getSessionReplayPage (params : SubscribeParams)
    (answer : Except SdkError (SubscribeResult SessionEventEnvelope)) :
    Except SubscriptionError (SubscribeResult SessionEventEnvelope) :=
  match answer with
  | .ok result => do
    (result.validateFor params).mapError .invalidProjection
    .ok result
  | .error (.rpc (-32602) message) => .error (.invalidCursor message)
  | .error failure => .error (.request failure)

instance sessionViewVersion : SubscriptionVersion SessionEventEnvelope where
  checkCursor := checkCursor
  getReplayPage := getSessionReplayPage
  validateFor := SubscribeResult.validateFor
  gapError := .resyncRequired
  stalled := "Replay page claimed more events without advancing its cursor"
  notContiguous seq := s!"Replay event is not contiguous after Session cursor {seq}"
  isClosed _ := false
  holdsHub := false

/-! ## V2 -/

/-- `SessionViewHandle::subscribe_from`, before it asks for the first page. -/
def checkCursorV2 (threadId : String) (cursor : Cursor) : Except SubscriptionError Unit := do
  cursor.validateV2.mapError (.invalidOptions "cursor")
  refuse (cursor.threadId != threadId)
    (.invalidOptions "cursor" "V2 Session cursor belongs to another thread")

/-- `get_session_replay_page_v2`. What `map_request_error` makes of a failure is a failed request. -/
def getSessionReplayPageV2 [External] (params : SubscribeParams)
    (answer : Except SdkError (SubscribeResult SessionEventEnvelopeV2)) :
    Except SubscriptionError (SubscribeResult SessionEventEnvelopeV2) := do
  params.validateV2.mapError (.invalidOptions "cursor")
  let result ← answer.mapError .request
  (result.validateForV2 params).mapError .invalidProjection
  .ok result

/-- The `Debug` text of a reason. -/
def ReplayGapReason.debug : ReplayGapReason → String
  | retention => "Retention"
  | streamReset => "StreamReset"

/-- `replay_gap_error`. -/
def replayGapError (gap : ReplayGap) : SubscriptionError :=
  .invalidProjection s!"V2 Session replay requires a fresh snapshot ({gap.reason.debug})"

/-- `is_closed_event_v2`. -/
def isClosedEventV2 (event : SessionEventEnvelopeV2) : Bool :=
  match event.payload with
  | .lifecycleChanged .closed => true
  | _ => false

instance managementVersion [External] : SubscriptionVersion SessionEventEnvelopeV2 where
  checkCursor := checkCursorV2
  getReplayPage := getSessionReplayPageV2
  validateFor := SubscribeResult.validateForV2
  gapError := replayGapError
  stalled := "V2 replay page claimed more events without advancing its cursor"
  notContiguous seq := s!"V2 replay event is not contiguous after Session cursor {seq}"
  isClosed := isClosedEventV2
  holdsHub := true

/-! ## The worker -/

namespace ViewWorker

/-- Why a worker, or the call that was to start it, is over. -/
inductive End where
  /-- `subscribe_from` returned the error; there is no worker. -/
  | refused (error : SubscriptionError)
  /-- The hub terminated. -/
  | terminated
  /-- The channels of the hub were dropped. -/
  | hubDropped
  /-- The consumer dropped its stream. -/
  | consumerGone
  /-- The error was enqueued. -/
  | reported
  /-- The stream of a closed session is complete. -/
  | closed
  deriving DecidableEq, Repr

/-- What a worker waits for. -/
inductive Await (ε : Type) where
  /-- `subscribe_from` waits for the first page. -/
  | opening (params : SubscribeParams)
  /-- `request_replay_page`. -/
  | requesting (params : SubscribeParams)
  /-- `enqueue_event` in a page, of which the later events are still to come. -/
  | sending (event : ε) (page : SubscribeResult ε)
  /-- The `select!` of the main loop. -/
  | waiting
  /-- `enqueue_event` of a live event. -/
  | sendingLive (event : ε)
  /-- `send_worker_error`. -/
  | reporting (error : SubscriptionError)
  | ended (why : End)

/-- What reaches a worker at an await. -/
inductive Input (ε : Type) where
  | terminated
  | hubDropped
  | consumerGone
  /-- The counter of the hub changed. -/
  | nudged
  | received (event : ε)
  | lagged
  /-- What the request of a page returned. -/
  | answered (answer : Except SdkError (SubscribeResult ε))
  /-- The consumer's buffer took what is being sent. -/
  | accepted

end ViewWorker

/-- A subscription worker, with everything it has enqueued. -/
structure ViewWorker (ε : Type) where
  threadId : String
  pageSize : Nat
  lastEnqueued : Cursor
  await : ViewWorker.Await ε
  output : List (Except SubscriptionError ε) := []
  /-- Whether the V2 worker took its hub out of the client's map. -/
  hubRemoved : Bool := false

namespace ViewWorker

section
variable {ε : Type} [Envelope ε]

/-- The worker of `watch`: it has no first page. -/
def watch (threadId : String) (cursor : Cursor) (pageSize : Nat) : ViewWorker ε where
  threadId := threadId
  pageSize := pageSize
  lastEnqueued := cursor
  await := .requesting ⟨threadId, cursor, none, pageSize⟩

/-- `subscribe_from` and its worker. -/
def subscribeFrom [SubscriptionVersion ε] (threadId : String) (cursor : Cursor) (pageSize : Nat) :
    Except SubscriptionError (ViewWorker ε) := do
  SubscriptionVersion.checkCursor ε threadId cursor
  .ok { threadId, pageSize, lastEnqueued := cursor
        await := .opening ⟨threadId, cursor, none, pageSize⟩ }

/-- The worker, or the call that was to start it, is over. -/
def stop (w : ViewWorker ε) (why : End) : ViewWorker ε := { w with await := .ended why }

/-- A window failed. -/
def report (w : ViewWorker ε) (error : SubscriptionError) : ViewWorker ε :=
  { w with await := .reporting error }

/-- Ask for the page after a cursor. -/
def request (w : ViewWorker ε) (after : Cursor) (through : Option Cursor) : ViewWorker ε :=
  { w with await := .requesting ⟨w.threadId, after, through, w.pageSize⟩ }

/-- A new window from the last event. -/
def replay (w : ViewWorker ε) : ViewWorker ε := w.request w.lastEnqueued none

/-- The consumer's buffer took an event. -/
def push (w : ViewWorker ε) (event : ε) : ViewWorker ε :=
  { w with lastEnqueued := Envelope.cursor event, output := w.output ++ [.ok event] }

/-- The stream of a closed session is complete: the hub goes. -/
def close (w : ViewWorker ε) : ViewWorker ε :=
  { w with await := .ended .closed, hubRemoved := true }

section
variable [SubscriptionVersion ε]

/-- The end of a window. -/
def finishWindow (w : ViewWorker ε) (page : SubscribeResult ε) : ViewWorker ε :=
  if SubscriptionVersion.holdsHub ε && page.lifecycle == some .closed then w.close
  else { w with await := .waiting }

/-- The events of a page, and then the next page, to the next await. -/
def feed (w : ViewWorker ε) (page : SubscribeResult ε) : ViewWorker ε :=
  match page.events with
  | event :: rest =>
    if isNextCursor w.lastEnqueued (Envelope.cursor event) then
      { w with await := .sending event { page with events := rest } }
    else w.report (.invalidProjection (SubscriptionVersion.notContiguous ε w.lastEnqueued.seq))
  | [] =>
    if page.hasMore then w.request page.resumeAfter (some page.through)
    else w.finishWindow page

/-- The checks of a page. -/
def checkPage (params : SubscribeParams) (page : SubscribeResult ε) :
    Except SubscriptionError Unit := do
  (SubscriptionVersion.validateFor page params).mapError .invalidProjection
  match page.gap with
  | some gap => .error (SubscriptionVersion.gapError ε gap)
  | none =>
    refuse (page.hasMore && decide (page.resumeAfter = params.after))
      (.invalidProjection (SubscriptionVersion.stalled ε))

/-- One turn of the loop of `replay_fixed_window`, on a page. -/
def readPage (w : ViewWorker ε) (params : SubscribeParams) (page : SubscribeResult ε) : ViewWorker ε :=
  match checkPage params page with
  | .error error => w.report error
  | .ok () => w.feed page

/-- The first page of `subscribe_from`: an error or a gap is returned, and there is no worker. -/
def openWith (w : ViewWorker ε) (params : SubscribeParams)
    (answer : Except SdkError (SubscribeResult ε)) : ViewWorker ε :=
  match SubscriptionVersion.getReplayPage params answer with
  | .error error => w.stop (.refused error)
  | .ok page =>
    match page.gap with
    | some gap => w.stop (.refused (SubscriptionVersion.gapError ε gap))
    | none => w.readPage params page

/-- A requested page. -/
def answered (w : ViewWorker ε) (params : SubscribeParams)
    (answer : Except SdkError (SubscribeResult ε)) : ViewWorker ε :=
  match SubscriptionVersion.getReplayPage params answer with
  | .error error => w.report error
  | .ok page => w.readPage params page

/-- A live event: an old one is ignored, the next one is sent, and anything else starts a window. -/
def receive (w : ViewWorker ε) (event : ε) : ViewWorker ε :=
  let cursor := Envelope.cursor event
  if cursor.sameStream w.lastEnqueued && decide (cursor.seq ≤ w.lastEnqueued.seq) then w
  else if isNextCursor w.lastEnqueued cursor then { w with await := .sendingLive event }
  else w.replay

/-- After a live event was taken. -/
def afterLive (w : ViewWorker ε) (event : ε) : ViewWorker ε :=
  if SubscriptionVersion.isClosed event then w.close else { w with await := .waiting }

/-- `run_subscription_worker` and `run_subscription_worker_v2`, from one await to the next. The channels
of a hub that the worker holds are not dropped. -/
def step (w : ViewWorker ε) (input : Input ε) : Option (ViewWorker ε) :=
  match w.await, input with
  | .ended _, _ => none
  | _, .consumerGone => some (w.stop .consumerGone)
  | .opening params, .answered answer => some (w.openWith params answer)
  | .opening _, _ => none
  | _, .terminated => some (w.stop .terminated)
  | _, .hubDropped => if SubscriptionVersion.holdsHub ε then none else some (w.stop .hubDropped)
  | .requesting params, .answered answer => some (w.answered params answer)
  | .sending event page, .accepted => some ((w.push event).feed page)
  | .waiting, .nudged => if SubscriptionVersion.holdsHub ε then some w.replay else none
  | .waiting, .received event => some (w.receive event)
  | .waiting, .lagged => some w.replay
  | .sendingLive event, .accepted => some ((w.push event).afterLive event)
  | .reporting error, .accepted =>
    some { w with output := w.output ++ [.error error], await := .ended .reported }
  | _, _ => none

/-- The steps of a worker. -/
def Step (w : ViewWorker ε) (input : Input ε) (w' : ViewWorker ε) : Prop := w.step input = some w'

end

end

end ViewWorker

end Whale
