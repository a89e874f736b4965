import Whale.Protocol.Events
import Whale.Lib.Run

/-!
# The state of an accepted turn

`whale-sdk-rust/src/run.rs`: `RunState`, which the client's reader feeds with the events of a run, and the one
`RunEventStream` of its handle. They share the sequence number seen last, a lag flag, a bounded channel and the
terminal outcome, all written and read at different points.

Between two of its accesses to shared state a call is at a point: `AcceptPoint` for `accept`, `Receiving` for `recv`.
Only the reader calls `accept`, one event after another. A `fail` is its write of the outcome and, later, its drop of
the sender; `accept` holds the lock of the sender in some of its points (`AcceptPoint.holdsSender`). A sequence
number is a natural number: `previous + 1` is only computed for a `previous` below another `u64`.
-/

namespace Whale

/-- `SdkError`, as far as a run state makes it. -/
inductive RunError where
  | eventLagged
  | channelClosed (message : String)
  | internal (message : String)
  deriving DecidableEq, Repr

/-- `EVENT_CAPACITY`. -/
def eventCapacity : Nat := 256

/-- `QueryOwnership`. -/
structure QueryOwnership where
  waiters : Nat := 0
  observedLive : Bool := false
  observedTerminal : Bool := false
  deriving DecidableEq, Repr

/-- `RunState`. -/
structure RunState where
  threadId : String
  turnId : String
  /-- The sender is there. -/
  sender : Bool := true
  /-- The events in the channel. -/
  channel : List RunEvent := []
  /-- The receiver is there, here or in its stream. -/
  receiver : Bool := true
  terminal : Option (Except String RunSnapshot) := none
  lastSeq : Nat := 0
  lagged : Bool := false
  legacyEvents : Option (List RunEvent) := none
  query : Option QueryOwnership := none

/-- Where a call of `accept` stands: what it does next. -/
inductive AcceptPoint where
  /-- It notes a live event in the query ownership. -/
  | fetched (event : RunEvent) (previous : Nat)
  /-- It pushes to the legacy buffer. -/
  | noted (event : RunEvent) (previous : Nat)
  /-- It locks the sender and compares the sequence numbers. -/
  | recorded (event : RunEvent) (previous : Nat)
  /-- Behind a gap, it drops the sender. -/
  | gap (event : RunEvent)
  /-- It sends. -/
  | sending (event : RunEvent)
  /-- The channel was full: it sets the lag flag. -/
  | full (event : RunEvent)
  /-- The event was not sent: it drops the sender. -/
  | dropping (event : RunEvent)
  /-- It looks for the end of the run. -/
  | sent (event : RunEvent)
  /-- It settles the outcome of a finished run. -/
  | finishing (event : RunEvent) (snapshot : RunSnapshot)
  /-- It calls `fail`, which writes the outcome. -/
  | failing (event : RunEvent) (message : String) (ended : Bool)
  /-- In `fail`, it drops the sender. -/
  | failed (event : RunEvent) (ended : Bool)
  /-- It returns. -/
  | returning (event : RunEvent) (ended : Bool)

/-- Where a call of `recv` stands. -/
inductive Receiving where
  /-- There is no call. -/
  | idle
  /-- It waits for the channel. -/
  | waiting
  /-- The channel gave an event, or none. -/
  | received (event : Option RunEvent)
  /-- At the end, it reads the outcome. -/
  | closed

def RunEventPayload.isFinished : RunEventPayload → Bool
  | stream _ => false
  | finished _ => true

/-- The event is of the run. -/
def RunEvent.isOf (threadId turnId : String) (e : RunEvent) : Bool :=
  e.threadId == threadId && e.turnId == turnId

/-- `observe`, of `QueryRouteLease`, for a snapshot of the run. -/
def QueryOwnership.observe (q : QueryOwnership) (status : RunStatus) : QueryOwnership :=
  if status.isTerminal then { q with observedTerminal := true } else { q with observedLive := true }

/-- The drop of a `QueryRouteLease`, and whether it calls `finish_snapshot_only`. -/
def QueryOwnership.release (q : QueryOwnership) : QueryOwnership × Bool :=
  ({ q with waiters := q.waiters - 1 }, q.waiters - 1 == 0 && !q.observedLive && q.observedTerminal)

namespace RunState

/-- `new`, and `new_query`. -/
def new (threadId turnId : String) (query : Bool) : RunState :=
  { threadId, turnId, query := if query then some {} else none }

/-- `send_if_modified` of an outcome: the first one stays. -/
def settle (s : RunState) (outcome : Except String RunSnapshot) : RunState :=
  match s.terminal with
  | some _ => s
  | none => { s with terminal := some outcome }

/-- `sender.lock().take()`. -/
def dropSender (s : RunState) : RunState := { s with sender := false }

/-- `complete`, or the message of the `fail` that it calls. -/
def complete (s : RunState) (snapshot : RunSnapshot) : Except String RunState :=
  if snapshot.threadId != s.threadId || snapshot.turnId != s.turnId then
    .error "Snapshot belongs to another run"
  else if snapshot.status.isTerminal then
    if snapshot.result.isNone then .error "Terminal snapshot has no result"
    else .ok (s.settle (.ok snapshot))
  else .ok s

/-- `accept`, to its first point. -/
def accept (s : RunState) (event : RunEvent) : RunState × AcceptPoint :=
  if !event.isOf s.threadId s.turnId then (s, .failing event "Event belongs to another run" false)
  else
    let previous := s.lastSeq
    let s := { s with lastSeq := max previous event.seq }
    if event.seq ≤ previous then (s, .returning event false) else (s, .fetched event previous)

/-- What `accept` makes of a `Finished` event. -/
def finish (s : RunState) (event : RunEvent) (snapshot : RunSnapshot) : RunState × AcceptPoint :=
  if snapshot.lastSeq != event.seq || !snapshot.status.isTerminal then
    (s, .failing event "Invalid terminal event" true)
  else match s.complete snapshot with
    | .ok s => (s, .returning event true)
    | .error message => (s, .failing event message true)

/-- `accept`, from one point to the next. -/
def advance (s : RunState) : AcceptPoint → RunState × AcceptPoint
  | .fetched event previous =>
    let query := if event.payload.isFinished then s.query
      else s.query.map fun q => { q with observedLive := true }
    ({ s with query }, .noted event previous)
  | .noted event previous =>
    ({ s with legacyEvents := s.legacyEvents.map fun buffer => buffer ++ [event] }, .recorded event previous)
  | .recorded event previous =>
    if event.seq != previous + 1 then ({ s with lagged := true }, .gap event) else (s, .sending event)
  | .gap event => (s.dropSender, .sending event)
  | .sending event =>
    if !s.sender then (s, .sent event)
    else if !s.receiver then (s, .dropping event)
    else if s.channel.length < eventCapacity then ({ s with channel := s.channel ++ [event] }, .sent event)
    else (s, .full event)
  | .full event => ({ s with lagged := true }, .dropping event)
  | .dropping event => (s.dropSender, .sent event)
  | .sent event =>
    match event.payload with
    | .stream _ => (s, .returning event false)
    | .finished snapshot => (s.dropSender, .finishing event snapshot)
  | .finishing event snapshot => s.finish event snapshot
  | .failing event message ended => (s.settle (.error message), .failed event ended)
  | .failed event ended => (s.dropSender, .returning event ended)
  | .returning event ended => (s, .returning event ended)

/-- `result`, once there is an outcome. -/
def result (s : RunState) : Option (Except RunError RunTurnResult) :=
  s.terminal.map fun
    | .ok snapshot => match snapshot.result with
      | some result => .ok result
      | none => .error (.internal "Terminal snapshot has no result")
    | .error message => .error (.channelClosed message)

end RunState

/-- `accept` holds the lock of the sender. -/
def AcceptPoint.holdsSender : AcceptPoint → Bool
  | gap _ | sending _ | full _ | dropping _ | sent _ => true
  | _ => false

/-- `accept` is about to call `fail`. -/
def AcceptPoint.isFailing : AcceptPoint → Bool
  | failing _ _ _ => true
  | _ => false

/-- A run state with the calls on it, and what they were given and have returned. -/
structure RunCalls where
  state : RunState
  accepting : Option (AcceptPoint) := none
  /-- The calls of `fail`, but for that of `accept`, that have still to drop the sender. -/
  failing : Nat := 0
  /-- `ended` of the stream. -/
  ended : Bool := false
  receiving : Receiving := .idle
  /-- The events that `accept` was given. -/
  given : List RunEvent := []
  /-- What `accept` has returned for them. -/
  answers : List (RunEvent × Bool) := []
  /-- The snapshots of queries that `complete` was given. -/
  queried : List RunSnapshot := []
  /-- What `recv` has returned. -/
  received : List (Except RunError (Option RunEvent)) := []
  /-- `fail` was called. -/
  hasFailed : Bool := false
  /-- The sender was dropped for a legacy buffer, or by the last query of an archived run. -/
  detached : Bool := false

namespace RunCalls

/-- The sender's lock is free. -/
def free (c : RunCalls) : Bool := c.accepting.all fun point => !point.holdsSender

/-- A call of `fail`, to its drop of the sender. -/
def fail (c : RunCalls) (message : String) : RunCalls :=
  { c with state := c.state.settle (.error message), failing := c.failing + 1, hasFailed := true }

/-- `complete`, with what a query returned. -/
def complete (c : RunCalls) (snapshot : RunSnapshot) : RunCalls :=
  match c.state.complete snapshot with
  | .ok state => { c with state, queried := c.queried ++ [snapshot] }
  | .error message => c.fail message

/-- `recv`, up to its wait. -/
def recv (c : RunCalls) : RunCalls :=
  if c.ended then { c with received := c.received ++ [.ok none] }
  else if c.state.lagged then { c with ended := true, received := c.received ++ [.error .eventLagged] }
  else { c with receiving := .waiting }

/-- `recv`, behind its wait. -/
def check (c : RunCalls) (event : Option RunEvent) : RunCalls :=
  if c.state.lagged then
    { c with ended := true, receiving := .idle, received := c.received ++ [.error .eventLagged] }
  else match event with
    | some event => { c with receiving := .idle, received := c.received ++ [.ok (some event)] }
    | none => { c with ended := true, receiving := .closed }

/-- `recv`, at the end of the channel. -/
def report (c : RunCalls) : RunCalls :=
  let outcome := match c.state.terminal with
    | some (.error message) => .error (.channelClosed message)
    | _ => .ok none
  { c with receiving := .idle, received := c.received ++ [outcome] }

/-- The drop of a `QueryRouteLease`. -/
def release (c : RunCalls) (q : QueryOwnership) : RunCalls :=
  let (q, archived) := q.release
  let state := { c.state with query := some q }
  if archived then { c with state := state.dropSender, detached := true } else { c with state }

/-- The steps of all calls, in any order. -/
inductive Step : RunCalls → RunCalls → Prop
  | accept {c : RunCalls} (event : RunEvent) (idle : c.accepting = none) :
      Step c { c with
        state := (c.state.accept event).1
        accepting := some (c.state.accept event).2
        given := c.given ++ [event] }
  | advance {c : RunCalls} {point : AcceptPoint} (accepting : c.accepting = some point) :
      Step c { c with
        state := (c.state.advance point).1
        accepting := some (c.state.advance point).2
        hasFailed := c.hasFailed || point.isFailing }
  | answer {c : RunCalls} {event : RunEvent} {ended : Bool}
      (returning : c.accepting = some (.returning event ended)) :
      Step c { c with accepting := none, answers := c.answers ++ [(event, ended)] }
  | fail {c : RunCalls} (message : String) : Step c (c.fail message)
  | complete {c : RunCalls} (snapshot : RunSnapshot) : Step c (c.complete snapshot)
  /-- A `fail` drops the sender. -/
  | failed {c : RunCalls} (pending : 0 < c.failing) (free : c.free = true) :
      Step c { c with state := c.state.dropSender, failing := c.failing - 1 }
  | recv {c : RunCalls} (idle : c.receiving = .idle) (taken : c.state.receiver = true) : Step c c.recv
  /-- The channel gives its first event. -/
  | take {c : RunCalls} {event : RunEvent} {rest : List RunEvent} (waiting : c.receiving = .waiting)
      (first : c.state.channel = event :: rest) :
      Step c { c with state := { c.state with channel := rest }, receiving := .received (some event) }
  /-- The channel is empty and has no sender. -/
  | close {c : RunCalls} (waiting : c.receiving = .waiting) (empty : c.state.channel = [])
      (dropped : c.state.sender = false) : Step c { c with receiving := .received none }
  /-- The future of `recv` is dropped. -/
  | cancel {c : RunCalls} (waiting : c.receiving = .waiting) : Step c { c with receiving := .idle }
  | check {c : RunCalls} {event : Option RunEvent} (received : c.receiving = .received event) :
      Step c (c.check event)
  | report {c : RunCalls} (closed : c.receiving = .closed) : Step c c.report
  /-- The stream is dropped. -/
  | dropStream {c : RunCalls} (idle : c.receiving = .idle) :
      Step c { c with state := { c.state with receiver := false } }
  /-- `buffer_legacy_events`; its caller calls it before the state is shared. -/
  | bufferLegacyEvents {c : RunCalls} (free : c.free = true) :
      Step c { c with state := { c.state.dropSender with legacyEvents := some [] }, detached := true }
  | takeLegacyEvents {c : RunCalls} : Step c { c with state := { c.state with legacyEvents := none } }
  /-- `acquire`, of `QueryRouteLease`. -/
  | acquire {c : RunCalls} {q : QueryOwnership} (query : c.state.query = some q) :
      Step c { c with state := { c.state with query := some { q with waiters := q.waiters + 1 } } }
  | observe {c : RunCalls} {q : QueryOwnership} (query : c.state.query = some q) (status : RunStatus) :
      Step c { c with state := { c.state with query := some (q.observe status) } }
  | release {c : RunCalls} {q : QueryOwnership} (query : c.state.query = some q) (free : c.free = true) :
      Step c (c.release q)

/-- The calls on a new state. -/
def start (threadId turnId : String) (query : Bool) : RunCalls := { state := .new threadId turnId query }

/-- A run of the system. -/
abbrev Run (c : RunCalls) (labels : List Unit) (c' : RunCalls) : Prop :=
  Lts.Run (fun c (_ : Unit) c' => Step c c') c labels c'

end RunCalls

end Whale
