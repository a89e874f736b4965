import Whale.Protocol.Subscribe

/-!
# Event journals

The bounded journal that the V1 record, the V2 projection and the Interaction record each keep
(`retain_prepared`, `ManagementProjection::retain`, `retain`, and the copies of `scrub_run`, `replay` and
`gap`).
The byte counter is a `usize` of the source. Here it is an integer, so that a subtraction that would
underflow shows as a negative counter.
-/

namespace Whale

open Check

/-- `EventJournalLimits`: both are positive. -/
structure EventJournalLimits where
  maxEvents : Nat
  maxBytes : Nat
  events_pos : 0 < maxEvents
  bytes_pos : 0 < maxBytes

/-- The defaults of the three journals are positive. -/
theorem defaultMaxEvents_pos : 0 < 1024 := by decide

theorem defaultMaxBytes_pos : 0 < 4 * 1024 * 1024 := by decide

/-- `JournalEntry` and `JournalEntryV2`. -/
structure JournalEntry (ε : Type) where
  envelope : ε
  bytes : Nat
  runId : Option String
  deriving DecidableEq, Repr

/-- A journal with its byte counter and its replay floor. -/
structure Journal (ε : Type) where
  entries : List (JournalEntry ε) := []
  bytes : Int := 0
  replayFloor : Cursor
  deriving DecidableEq, Repr

namespace Journal

variable {ε : Type} [Envelope ε]

/-- The position of an entry. -/
def seq (e : JournalEntry ε) : Nat := (Envelope.cursor e.envelope).seq

/-- The loop that evicts from the front while a limit is exceeded. -/
def evict (limits : EventJournalLimits) : List (JournalEntry ε) → Int → Cursor → Journal ε
  | [], bytes, floor => ⟨[], bytes, floor⟩
  | e :: es, bytes, floor =>
    if limits.maxEvents < (e :: es).length ∨ (limits.maxBytes : Int) < bytes then
      evict limits es (bytes - e.bytes) (Envelope.cursor e.envelope)
    else ⟨e :: es, bytes, floor⟩

/-- `retain`: an event larger than the whole journal empties it. -/
def retain (limits : EventJournalLimits) (j : Journal ε) (envelope : ε) (bytes : Nat)
    (runId : Option String) : Journal ε :=
  if limits.maxBytes < bytes then ⟨[], 0, Envelope.cursor envelope⟩
  else evict limits (j.entries ++ [⟨envelope, bytes, runId⟩]) (j.bytes + bytes) j.replayFloor

/-- The last position of a run. -/
def lastOf (j : Journal ε) (turnId : String) : Option Nat :=
  ((j.entries.filter (·.runId == some turnId)).map seq).max?

/-- `scrub_run`: everything up to the last event of the run goes. -/
def scrubRun (j : Journal ε) (turnId : String) : Journal ε :=
  match j.lastOf turnId with
  | none => j
  | some through =>
    { entries := j.entries.dropWhile fun e => decide (seq e ≤ through)
      bytes := j.bytes -
        ((j.entries.takeWhile fun e => decide (seq e ≤ through)).map (·.bytes)).sum
      replayFloor := { j.replayFloor with seq := max j.replayFloor.seq through } }

/-- The events of a replay page. -/
def page (j : Journal ε) (after through limit : Nat) : List ε :=
  ((j.entries.filter fun e => decide (after < seq e) && decide (seq e ≤ through)).take limit).map
    (·.envelope)

/-- The current state of a record, as far as a replay reports it. -/
structure Head where
  cursor : Cursor
  revision : Nat
  /-- The lifecycle now, and the lifecycle at a position. -/
  lifecycle : Option SessionLifecycleState := none
  lifecycleAt : Nat → Option SessionLifecycleState := fun _ => none

/-- The texts of the two refusals of a replay. -/
structure AheadTexts where
  after : String
  through : String

/-- `gap`. -/
def gap (j : Journal ε) (head : Head) (params : SubscribeParams) (through : Cursor)
    (reason : ReplayGapReason) : SubscribeResult ε where
  events := []
  resumeAfter := params.after
  through := through
  lifecycle := head.lifecycle
  hasMore := false
  gap := some ⟨reason, params.after, j.replayFloor, head.cursor, head.revision⟩

/-- The answer to a request inside the journal. -/
def answer (j : Journal ε) (head : Head) (params : SubscribeParams) (through : Cursor) :
    SubscribeResult ε :=
  let events := j.page params.after.seq through.seq params.limit
  let resumeAfter := (events.getLast?.map Envelope.cursor).getD params.after
  { events, resumeAfter, through
    lifecycle := head.lifecycleAt through.seq
    hasMore := decide (resumeAfter.seq < through.seq) }

/-- `replay`, for a request that is valid. -/
def replay (texts : AheadTexts) (j : Journal ε) (head : Head) (params : SubscribeParams) :
    Except String (SubscribeResult ε) :=
  let responseThrough := params.through.getD head.cursor
  if params.after.streamId != head.cursor.streamId then .ok (j.gap head params head.cursor .streamReset)
  else do
    refuse (decide (head.cursor.seq < params.after.seq)) texts.after
    if params.through.any fun through => through.streamId != head.cursor.streamId then
      .ok (j.gap head params head.cursor .streamReset)
    else do
      refuse (params.through.any fun through => decide (head.cursor.seq < through.seq)) texts.through
      if params.after.seq < j.replayFloor.seq then
        .ok (j.gap head params responseThrough .retention)
      else .ok (j.answer head params responseThrough)

end Journal

/-- The lengths of serialized events and items, or the serializer's error. -/
class EventSerde where
  eventBytes : SessionEventEnvelope → Except String Nat
  eventV2Bytes : SessionEventEnvelopeV2 → Except String Nat
  itemBytes : CanonicalItem → Except String Nat

end Whale
