import Whale.Protocol.Management

/-!
# Bounded replay

`session.subscribe` and its V2: the request, the page or gap that answers it, and `validate_for`, with
which a client checks the answer. The two versions differ in their texts, in the identities they admit
and in the revision of a V2 gap.
-/

namespace Whale

open Check

/-- `SubscribeSessionParams` and `SubscribeSessionV2Params`. -/
structure SubscribeParams where
  threadId : String
  after : Cursor
  /-- The high watermark of the pages after the first. -/
  through : Option Cursor := none
  limit : Nat
  deriving DecidableEq, Repr

/-- `ReplayGapReason` and `ReplayGapReasonV2`. -/
inductive ReplayGapReason where
  | retention
  | streamReset
  deriving DecidableEq, Repr

/-- `ReplayGap` and `ReplayGapV2`. -/
structure ReplayGap where
  reason : ReplayGapReason
  requested : Cursor
  replayFloor : Cursor
  current : Cursor
  revision : Nat
  deriving DecidableEq, Repr

/-- `SubscribeSessionResult` and `SubscribeSessionV2Result`; V1 has no lifecycle. -/
structure SubscribeResult (ε : Type) where
  events : List ε
  resumeAfter : Cursor
  through : Cursor
  lifecycle : Option SessionLifecycleState := none
  hasMore : Bool
  gap : Option ReplayGap := none
  deriving DecidableEq, Repr

/-- An envelope, as far as its journal and its replay read it. -/
class Envelope (ε : Type) where
  cursor : ε → Cursor

instance : Envelope SessionEventEnvelope := ⟨SessionEventEnvelope.cursor⟩

instance : Envelope SessionEventEnvelopeV2 := ⟨SessionEventEnvelopeV2.cursor⟩

/-- The contiguity loop of `validate_for`: every event is valid and the next one. -/
def checkEvents {ε : Type} [Envelope ε] (validate : ε → Except String Unit)
    (next : Cursor → Except String Cursor) (through : Nat) (gap : String) :
    Cursor → List ε → Except String Cursor
  | expected, [] => .ok expected
  | expected, event :: events => do
    validate event
    let expected ← next expected
    refuse (decide (Envelope.cursor event ≠ expected) ||
      decide (through < (Envelope.cursor event).seq)) gap
    checkEvents validate next through gap expected events

/-! ## V1 -/

/-- The checks of a fixed high watermark. -/
def SubscribeParams.validateThrough (p : SubscribeParams) : Except String Unit :=
  match p.through with
  | some through => do
    through.validate
    refuse (!p.after.sameStream through) "Replay window cursors belong to different streams"
    refuse (decide (through.seq < p.after.seq)) "Replay cursor is ahead of the fixed replay window"
  | none => .ok ()

/-- `SubscribeSessionParams::validate`. -/
def SubscribeParams.validate (p : SubscribeParams) : Except String Unit := do
  validateIdentity p.threadId "thread_id"
  p.after.validate
  refuse (p.after.threadId != p.threadId) "Replay cursor belongs to another thread"
  p.validateThrough
  refuse (p.limit == 0 || decide (maxSessionReplayPageLimit < p.limit))
    "Replay page limit must be between 1 and 256"

/-- `ReplayGap::validate`. -/
def ReplayGap.validate (g : ReplayGap) : Except String Unit := do
  g.requested.validate
  g.replayFloor.validate
  g.current.validate
  refuse (g.requested.threadId != g.current.threadId)
    "Replay gap cursors belong to different threads"
  refuse (!g.replayFloor.sameStream g.current || decide (g.current.seq < g.replayFloor.seq))
    "Replay floor is outside the current stream"
  match g.reason with
  | .retention =>
    refuse (!g.requested.sameStream g.current || decide (g.replayFloor.seq ≤ g.requested.seq))
      "Retention gap requires a cursor below the replay floor"
  | .streamReset =>
    refuse (g.requested.streamId == g.current.streamId)
      "Stream reset requires a different stream identity"

/-- The high watermark of a gap: the requested one, or the current cursor. -/
def ReplayGap.checkThrough (g : ReplayGap) (requested : Option Cursor) (through : Cursor)
    (changed initial reset : String) : Except String Unit :=
  match g.reason, requested with
  | .retention, some fixed => refuse (decide (through ≠ fixed)) changed
  | .retention, none => refuse (decide (through ≠ g.current)) initial
  | .streamReset, _ => refuse (decide (through ≠ g.current)) reset

/-- `SubscribeSessionResult::validate_for`. -/
def SubscribeResult.validateFor (r : SubscribeResult SessionEventEnvelope) (p : SubscribeParams) :
    Except String Unit := do
  p.validate
  r.resumeAfter.validate
  r.through.validate
  refuse (r.resumeAfter.threadId != p.threadId || r.through.threadId != p.threadId)
    "Replay result belongs to another thread"
  match r.gap with
  | some gap => do
    gap.validate
    refuse (decide (gap.requested ≠ p.after)) "Replay gap does not match the requested cursor"
    gap.checkThrough p.through r.through "Replay response changed the fixed high watermark"
      "Initial replay response did not freeze the current cursor"
      "Stream-reset response must expose the new current cursor"
    refuse (!r.events.isEmpty || r.hasMore || decide (r.resumeAfter ≠ p.after))
      "A replay gap cannot contain an applicable event page"
  | none => do
    refuse (p.through.any fun through => decide (r.through ≠ through))
      "Replay response changed the fixed high watermark"
    refuse (!p.after.sameStream r.through) "A changed stream requires a stream_reset gap"
    refuse (decide (r.through.seq < p.after.seq)) "Replay cursor is ahead of the fixed high watermark"
    refuse (!r.resumeAfter.sameStream r.through) "Replay resume cursor belongs to another stream"
    refuse (decide (p.limit < r.events.length)) "Replay page exceeds the requested limit"
    let expected ← checkEvents SessionEventEnvelope.validate Cursor.checkedNext r.through.seq
      "Replay events must be contiguous and in Session cursor order" p.after r.events
    refuse (decide (r.resumeAfter ≠ expected))
      "Replay resume cursor must identify the last returned event"
    refuse (r.hasMore != decide (r.resumeAfter.seq < r.through.seq))
      "Replay has_more does not match the high watermark"

/-! ## V2 -/

/-- The checks of a fixed high watermark. -/
def SubscribeParams.validateThroughV2 (p : SubscribeParams) : Except String Unit :=
  match p.through with
  | some through => do
    through.validateV2
    refuse (!p.after.sameStream through) "V2 replay window cursors belong to different streams"
    refuse (decide (through.seq < p.after.seq)) "V2 replay cursor is ahead of the fixed window"
  | none => .ok ()

/-- `SubscribeSessionV2Params::validate`. -/
def SubscribeParams.validateV2 (p : SubscribeParams) : Except String Unit := do
  validateIdentityV2 p.threadId "thread_id"
  p.after.validateV2
  refuse (p.after.threadId != p.threadId) "V2 replay cursor belongs to another thread"
  p.validateThroughV2
  refuse (p.limit == 0 || decide (maxSessionReplayPageLimit < p.limit))
    "V2 replay page limit must be between 1 and 256"

/-- `ReplayGapV2::validate`. -/
def ReplayGap.validateV2 (g : ReplayGap) : Except String Unit := do
  g.requested.validateV2
  g.replayFloor.validateV2
  g.current.validateV2
  refuse (g.requested.threadId != g.current.threadId)
    "V2 replay gap cursors belong to different threads"
  refuse (!g.replayFloor.sameStream g.current || decide (g.current.seq < g.replayFloor.seq))
    "V2 replay floor is outside the current stream"
  refuse (g.revision != g.current.seq) "V2 replay gap revision must match current cursor"
  match g.reason with
  | .retention =>
    refuse (!g.requested.sameStream g.current || decide (g.replayFloor.seq ≤ g.requested.seq))
      "V2 retention gap requires a cursor below the floor"
  | .streamReset =>
    refuse (g.requested.streamId == g.current.streamId)
      "V2 stream reset requires a new stream identity"

/-- `SubscribeSessionV2Result::validate_for`. -/
def SubscribeResult.validateForV2 [External] (r : SubscribeResult SessionEventEnvelopeV2)
    (p : SubscribeParams) : Except String Unit := do
  p.validateV2
  r.resumeAfter.validateV2
  r.through.validateV2
  refuse (r.resumeAfter.threadId != p.threadId || r.through.threadId != p.threadId)
    "V2 replay result belongs to another thread"
  match r.gap with
  | some gap => do
    gap.validateV2
    refuse (decide (gap.requested ≠ p.after)) "V2 replay gap does not match the request"
    gap.checkThrough p.through r.through "V2 replay changed the fixed high watermark"
      "Initial V2 gap did not expose current cursor" "V2 stream reset must expose current cursor"
    refuse (!r.events.isEmpty || r.hasMore || decide (r.resumeAfter ≠ p.after))
      "V2 replay gap cannot contain an event page"
  | none => do
    refuse (p.through.any fun through => decide (r.through ≠ through))
      "V2 replay changed the fixed high watermark"
    refuse (!p.after.sameStream r.through || !r.resumeAfter.sameStream r.through)
      "V2 replay result changed stream without a gap"
    refuse (decide (r.through.seq < p.after.seq)) "V2 replay cursor is ahead of the high watermark"
    refuse (decide (p.limit < r.events.length)) "V2 replay page exceeds the requested limit"
    let expected ← checkEvents SessionEventEnvelopeV2.validate Cursor.checkedNextV2 r.through.seq
      "V2 replay events must be contiguous and ordered" p.after r.events
    refuse (decide (r.resumeAfter ≠ expected))
      "V2 replay resume cursor is not the last returned event"
    refuse (r.hasMore != decide (r.resumeAfter.seq < r.through.seq))
      "V2 replay has_more disagrees with the fixed window"

end Whale
