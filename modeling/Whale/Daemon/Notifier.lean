import Whale.Daemon.Management
import Whale.Lib.KeyMap
import Whale.Lib.Run

/-!
# The notifier of a session

`ManagementNotifier` of `whale-daemon/src/session_management.rs`, with the task of `spawn_notifier` and the
activation by `subscribe_v2`. A publication commits an envelope to the projection and later hands it to `publish` or
`publish_confirmed`, which put the envelopes in order under a lock (`NotificationOrder.ordered`) and then write the
bounded queue, or the single slot `latest` when a `try_send` finds the queue full: a step for each.

A sender that waits for the queue is granted a slot before it sends, and a `try_send` finds the queue full while all
slots are taken or granted. Of the queue and the slot `latest` the task takes whichever is ready. A notification is
sent when `send_line` returns; a transport error is ignored.
-/

namespace Whale

/-- `is_closed`. -/
def SessionEventEnvelopeV2.isClosed (envelope : SessionEventEnvelopeV2) : Bool :=
  match envelope.payload with
  | .lifecycleChanged .closed => true
  | _ => false

/-- `NotificationWork`; `completed` says whether it has a sender. -/
structure NotificationWork where
  envelope : SessionEventEnvelopeV2
  completed : Bool

/-- `terminal`. -/
def NotificationWork.terminal (work : NotificationWork) : Bool := work.envelope.isClosed

/-- `NotificationOrder`. -/
structure NotificationOrder where
  enabled : Bool := false
  nextSeq : Option Nat := none
  pending : KeyMap Nat SessionEventEnvelopeV2 := .empty

namespace NotificationOrder

/-- `activate`. -/
def activate (order : NotificationOrder) (currentSeq : Nat) : NotificationOrder :=
  if order.enabled then order
  else { enabled := true, nextSeq := checkedSucc currentSeq, pending := order.pending.filter (currentSeq < ·.1) }

/-- The loop of `ordered`, which takes an entry in every round. -/
def drain : Nat → NotificationOrder → NotificationOrder × List SessionEventEnvelopeV2
  | 0, order => (order, [])
  | rounds + 1, order =>
    match order.nextSeq with
    | none => (order, [])
    | some next =>
      match order.pending.get? next with
      | none => (order, [])
      | some envelope =>
        let (order, ready) := drain rounds
          { order with nextSeq := checkedSucc next, pending := order.pending.erase next }
        (order, envelope :: ready)

/-- `ordered`. -/
def ordered (order : NotificationOrder) (envelope : SessionEventEnvelopeV2) :
    NotificationOrder × List SessionEventEnvelopeV2 :=
  if !order.enabled then (order, [])
  else match order.nextSeq with
    | none => (order, [])
    | some next =>
      if envelope.cursor.seq < next then (order, [])
      else
        let pending := order.pending.insert envelope.cursor.seq envelope
        drain pending.entries.length { order with pending }

end NotificationOrder

/-- Where a call stands: what it does next. -/
inductive PublishStage where
  /-- It sends the first of its envelopes, if there is one. -/
  | sending
  /-- The queue was full: it writes `latest`. -/
  | full (fallback : SessionEventEnvelopeV2)
  /-- It has a slot of the queue. -/
  | granted
  /-- It waits for the confirmation. -/
  | waiting (envelope : SessionEventEnvelopeV2)

/-- A call of `publish`, or of `publish_confirmed` with its cursor, behind `ordered`. -/
structure Publishing where
  confirmed : Option Cursor
  ready : List SessionEventEnvelopeV2
  stage : PublishStage := .sending

/-- The slot of the queue is granted. -/
def Publishing.isGranted (call : Publishing) : Bool :=
  match call.stage with
  | .granted => true
  | _ => false

/-- The call has returned. -/
def Publishing.isDone (call : Publishing) : Bool :=
  match call.stage with
  | .sending => call.ready.isEmpty
  | _ => false

/-- `ManagementNotifier` with its task, its session and the calls on it. -/
structure Notifier where
  projection : ManagementProjection
  /-- What was committed since the start, and of that what is still to be published. -/
  committed : List SessionEventEnvelopeV2 := []
  unpublished : List SessionEventEnvelopeV2 := []
  order : NotificationOrder := {}
  calls : List Publishing := []
  queue : List NotificationWork := []
  latest : Option SessionEventEnvelopeV2 := none
  /-- `latest` has changed since the task read it. -/
  unread : Bool := false
  /-- `close` was called. -/
  closed : Bool := false
  /-- The item the task sends. -/
  current : Option NotificationWork := none
  lastSent : Nat := 0
  /-- The task has ended. -/
  stopped : Bool := false
  /-- The confirmations. -/
  completions : List Nat := []
  /-- The cursor at the activation. -/
  activatedAt : Option Nat := none
  /-- The cursors that were sent. -/
  sent : List Nat := []

namespace Notifier

/-- The newest cursor. -/
def newest (s : Notifier) : Nat := s.projection.snapshot.cursor.seq

/-- The slots that are taken or granted. -/
def slots (s : Notifier) : Nat := s.queue.length + s.calls.countP (·.isGranted)

/-- `activate`, under the lock of the projection. -/
def activate (s : Notifier) : Notifier :=
  { s with
    order := s.order.activate s.newest
    activatedAt := if s.order.enabled then s.activatedAt else some s.newest }

/-- A call and its `ordered`. -/
def publish (s : Notifier) (envelope : SessionEventEnvelopeV2) (confirmed : Bool) : Notifier :=
  let (order, ready) := s.order.ordered envelope
  { s with
    order
    unpublished := s.unpublished.erase envelope
    calls := s.calls ++ [{ confirmed := if confirmed then some envelope.cursor else none, ready }] }

/-- Call `i` becomes `call`. -/
def put (s : Notifier) (i : Nat) (call : Publishing) : Notifier := { s with calls := s.calls.set i call }

/-- An item is done. -/
def complete (s : Notifier) (work : NotificationWork) : Notifier :=
  { s with
    current := none
    completions := if work.completed then s.completions ++ [work.envelope.cursor.seq] else s.completions }

/-- The task sends an item; behind the terminal one it ends, and the queue with it. -/
def deliver (s : Notifier) (work : NotificationWork) : Notifier :=
  let s := { s.complete work with
    lastSent := work.envelope.cursor.seq, sent := s.sent ++ [work.envelope.cursor.seq] }
  if work.terminal then { s with stopped := true, queue := [] } else s

/-- An older envelope is about to take the place of one that was not read. -/
def Overtakes (s : Notifier) (envelope : SessionEventEnvelopeV2) : Prop :=
  s.unread = true ∧ ∃ unread, s.latest = some unread ∧ envelope.cursor.seq < unread.cursor.seq

/-- Everything is published and the task idle. -/
structure Quiet (s : Notifier) : Prop where
  published : s.unpublished = []
  calls : ∀ call ∈ s.calls, call.isDone = true
  queue : s.queue = []
  unread : s.unread = false
  current : s.current = none

variable [External] [EventSerde]

/-- One access to what is shared, or one thing from outside; the label is the envelope that is written to `latest`. -/
inductive Step (capacity : Nat) : Notifier → Option SessionEventEnvelopeV2 → Notifier → Prop
  /-- A publication is committed. -/
  | commit {s : Notifier} {occurredAtMs : Nat} {payload : SessionEventPayloadV2}
      {runIdentity : Option (String × Nat)} {projection : ManagementProjection}
      {envelope : SessionEventEnvelopeV2}
      (h : s.projection.prepare occurredAtMs payload runIdentity = .ok (projection, envelope)) :
      Step capacity s none { s with
        projection, committed := s.committed ++ [envelope], unpublished := s.unpublished ++ [envelope] }
  | activate {s : Notifier} : Step capacity s none s.activate
  | publish {s : Notifier} {envelope : SessionEventEnvelopeV2} (h : envelope ∈ s.unpublished)
      (confirmed : Bool) : Step capacity s none (s.publish envelope confirmed)
  /-- A `try_send` that succeeds. -/
  | queued {s : Notifier} {i : Nat} {envelope : SessionEventEnvelopeV2} {ready : List SessionEventEnvelopeV2}
      (hcall : s.calls[i]? = some { confirmed := none, ready := envelope :: ready })
      (hopen : s.stopped = false) (hslots : s.slots < capacity) :
      Step capacity s none { s.put i { confirmed := none, ready } with queue := s.queue ++ [⟨envelope, false⟩] }
  /-- A `try_send` that finds the queue full. -/
  | full {s : Notifier} {i : Nat} {envelope : SessionEventEnvelopeV2} {ready : List SessionEventEnvelopeV2}
      (hcall : s.calls[i]? = some { confirmed := none, ready := envelope :: ready })
      (hopen : s.stopped = false) (hslots : capacity ≤ s.slots) :
      Step capacity s none (s.put i { confirmed := none, ready, stage := .full envelope })
  /-- `latest.send_replace`. -/
  | replace {s : Notifier} {i : Nat} {envelope : SessionEventEnvelopeV2} {ready : List SessionEventEnvelopeV2}
      (hcall : s.calls[i]? = some { confirmed := none, ready, stage := .full envelope }) :
      Step capacity s (some envelope)
        { s.put i { confirmed := none, ready } with latest := some envelope, unread := true }
  /-- A `try_send` behind the end of the task. -/
  | dropped {s : Notifier} {i : Nat} {envelope : SessionEventEnvelopeV2} {ready : List SessionEventEnvelopeV2}
      (hcall : s.calls[i]? = some { confirmed := none, ready := envelope :: ready })
      (hstopped : s.stopped = true) : Step capacity s none (s.put i { confirmed := none, ready })
  /-- A `send` is granted a slot. -/
  | grant {s : Notifier} {i : Nat} {cursor : Cursor} {envelope : SessionEventEnvelopeV2}
      {ready : List SessionEventEnvelopeV2}
      (hcall : s.calls[i]? = some { confirmed := some cursor, ready := envelope :: ready })
      (hopen : s.stopped = false) (hslots : s.slots < capacity) :
      Step capacity s none
        (s.put i { confirmed := some cursor, ready := envelope :: ready, stage := .granted })
  /-- A `send` that succeeds. -/
  | send {s : Notifier} {i : Nat} {cursor : Cursor} {envelope : SessionEventEnvelopeV2}
      {ready : List SessionEventEnvelopeV2}
      (hcall : s.calls[i]? =
        some { confirmed := some cursor, ready := envelope :: ready, stage := .granted })
      (hopen : s.stopped = false) :
      Step capacity s none
        { s.put i { confirmed := some cursor, ready,
                    stage := if envelope.cursor = cursor then .waiting envelope else .sending } with
          queue := s.queue ++ [⟨envelope, envelope.cursor == cursor⟩] }
  /-- A `send` behind the end of the task: the call returns. -/
  | refused {s : Notifier} {i : Nat} {cursor : Cursor} {ready : List SessionEventEnvelopeV2} {stage : PublishStage}
      (hcall : s.calls[i]? = some { confirmed := some cursor, ready, stage })
      (hstage : stage = .sending ∨ stage = .granted) (hstopped : s.stopped = true) :
      Step capacity s none (s.put i { confirmed := some cursor, ready := [] })
  /-- The confirmation is there, or never will be. -/
  | resume {s : Notifier} {i : Nat} {cursor : Cursor} {envelope : SessionEventEnvelopeV2}
      {ready : List SessionEventEnvelopeV2}
      (hcall : s.calls[i]? = some { confirmed := some cursor, ready, stage := .waiting envelope })
      (hdone : envelope.cursor.seq ∈ s.completions ∨ s.stopped = true) :
      Step capacity s none (s.put i { confirmed := some cursor, ready })
  | take {s : Notifier} {work : NotificationWork} {queue : List NotificationWork} (hidle : s.current = none)
      (hopen : s.stopped = false) (hqueue : s.queue = work :: queue) :
      Step capacity s none { s with current := some work, queue }
  | takeLatest {s : Notifier} {envelope : SessionEventEnvelopeV2} (hidle : s.current = none)
      (hopen : s.stopped = false) (hunread : s.unread = true) (hlatest : s.latest = some envelope) :
      Step capacity s none { s with current := some ⟨envelope, false⟩, unread := false }
  /-- An item that is not newer than the last one. -/
  | skip {s : Notifier} {work : NotificationWork} (hcurrent : s.current = some work) (hopen : s.stopped = false)
      (hle : work.envelope.cursor.seq ≤ s.lastSent) : Step capacity s none (s.complete work)
  | deliver {s : Notifier} {work : NotificationWork} (hcurrent : s.current = some work)
      (hopen : s.stopped = false) (hlt : s.lastSent < work.envelope.cursor.seq) :
      Step capacity s none (s.deliver work)
  | close {s : Notifier} : Step capacity s none { s with closed := true }
  /-- The task is aborted, or sees that it is cancelled. -/
  | abort {s : Notifier} (hclosed : s.closed = true) :
      Step capacity s none { s with stopped := true, queue := [], current := none }

end Notifier

end Whale
