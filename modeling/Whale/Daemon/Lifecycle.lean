import Mathlib.Logic.Function.Basic
import Whale.Lib.KeyMap
import Whale.Lib.Run

/-!
# The lifecycle of sessions

`whale-daemon/src/session_lifecycle.rs`: the phases of the sessions under one lock, the preparations of
recovered sessions, and the tasks that close sessions.

`Lifecycle.Step` is an operation under the lock, or a result that is sent outside of it. A preparation is
held by its handler, which publishes it, fails it or drops it. A caller that is told to run a close spawns
a task, and `complete` is called by that task only. `forget_owner` ends `disconnect_connection`, which
starts with `begin_disconnect`. How long each of them takes, and whether a close completes at all, is left
open.
-/

namespace Whale

/-- `JSONRPCError`; no error of the lifecycle has data. -/
structure JSONRPCError where
  code : Int
  message : String
  deriving DecidableEq, Repr

namespace JSONRPCError

def invalidParams (message : String) : JSONRPCError := ⟨-32602, message⟩

def internalError (message : String) : JSONRPCError := ⟨-32603, message⟩

/-- `RECOVERY_REJECTED`. -/
def recoveryRejected (message : String) : JSONRPCError := ⟨-32021, message⟩

end JSONRPCError

/-- The result that a close is waited for with. -/
abbrev CloseOutcome := Except JSONRPCError Unit

/-- `CloseCompletion`: a channel, named by the operation that made it and by its thread. -/
structure CloseCompletion where
  serial : Nat
  thread : String
  deriving DecidableEq, Repr

/-- `SessionPhase`; a preparation remembers that a close was requested. -/
inductive SessionPhase where
  | preparing (completion : CloseCompletion) (cancelled : Bool)
  | open
  | closing (completion : CloseCompletion)
  | closed
  deriving DecidableEq, Repr

/-- `SessionOwner`. -/
structure SessionOwner where
  owner : String
  phase : SessionPhase
  deriving DecidableEq, Repr

/-- `LifecycleState`, with the serial of the next channel. -/
structure LifecycleState where
  sessions : KeyMap String SessionOwner := .empty
  disconnected : String → Bool := fun _ => false
  serial : Nat := 0

/-- What a caller is told about a thread: to run its close, or to wait for a completion. -/
structure CloseAction where
  thread : String
  first : Bool
  completion : Option CloseCompletion
  deriving DecidableEq, Repr

/-- `Preparation`. -/
structure Preparation where
  thread : String
  owner : String
  completion : CloseCompletion
  deriving DecidableEq, Repr

/-- `mark_closing`, with the channel that it makes for an open session. -/
def SessionPhase.markClosing (fresh : CloseCompletion) :
    SessionPhase → SessionPhase × Bool × Option CloseCompletion
  | preparing completion _ => (preparing completion true, false, some completion)
  | .open => (closing fresh, true, some fresh)
  | closing completion => (closing completion, false, some completion)
  | closed => (closed, false, none)

namespace LifecycleState

/-- `connection_closed`. -/
def connectionClosed (s : LifecycleState) (owner : String) : Bool := s.disconnected owner

/-- `is_foreign`. -/
def isForeign (s : LifecycleState) (thread owner : String) : Bool :=
  (s.sessions.get? thread).any (·.owner != owner)

/-- `guard_open`. -/
def guardOpen (s : LifecycleState) (thread owner : String) : Except String Unit :=
  if s.disconnected owner then .error "ConnectionClosed"
  else match s.sessions.get? thread with
    | some session =>
      if session.owner = owner then
        match session.phase with
        | .open => .ok ()
        | _ => .error "SessionClosed"
      else .error "SessionNotFound"
    | none => .error "SessionNotFound"

/-- The state with a session in a phase. -/
def put (s : LifecycleState) (thread owner : String) (phase : SessionPhase) : LifecycleState :=
  { s with sessions := s.sessions.insert thread ⟨owner, phase⟩ }

/-- `publish`, with the result of the publication inside of it. -/
def publish (s : LifecycleState) (thread owner : String) (inner : CloseOutcome) :
    Except JSONRPCError LifecycleState :=
  if s.disconnected owner then .error (.invalidParams "ConnectionClosed")
  else if (s.sessions.get? thread).isSome then .error (.invalidParams "SessionAlreadyExists")
  else match inner with
    | .error e => .error e
    | .ok () => .ok (s.put thread owner .open)

/-- `begin_close`. -/
def beginClose (s : LifecycleState) (thread owner : String) :
    Except String (CloseAction × LifecycleState) :=
  match s.sessions.get? thread with
  | none => .ok (⟨thread, false, none⟩, s)
  | some session =>
    if session.owner ≠ owner then .error "SessionNotFound"
    else
      let (phase, first, completion) := session.phase.markClosing ⟨s.serial, thread⟩
      .ok (⟨thread, first, completion⟩, { s.put thread owner phase with serial := s.serial + 1 })

/-- `begin_disconnect`, in some order of the map. -/
def beginDisconnect (s : LifecycleState) (owner : String) : List CloseAction × LifecycleState :=
  (s.sessions.entries.filterMap fun (thread, session) =>
      if session.owner = owner then
        let (_, first, completion) := session.phase.markClosing ⟨s.serial, thread⟩
        some ⟨thread, first, completion⟩
      else none,
    { sessions := s.sessions.mapValues fun thread session =>
        if session.owner = owner then
          { session with phase := (session.phase.markClosing ⟨s.serial, thread⟩).1 }
        else session
      disconnected := Function.update s.disconnected owner true
      serial := s.serial + 1 })

/-- `complete`. -/
def complete (s : LifecycleState) (thread owner : String) : LifecycleState :=
  match s.sessions.get? thread with
  | some session => if session.owner = owner then s.put thread owner .closed else s
  | none => s

/-- `forget_owner`. -/
def forgetOwner (s : LifecycleState) (owner : String) : LifecycleState :=
  { s with sessions := s.sessions.filter fun e => e.2.owner != owner }

/-- `reserve`. -/
def reserve (s : LifecycleState) (thread owner : String) : Except String (Preparation × LifecycleState) :=
  if s.disconnected owner then .error "ConnectionClosed"
  else if (s.sessions.get? thread).isSome then .error "SessionAlreadyExists"
  else
    let completion : CloseCompletion := ⟨s.serial, thread⟩
    .ok (⟨thread, owner, completion⟩,
      { s.put thread owner (.preparing completion false) with serial := s.serial + 1 })

end LifecycleState

/-- `Preparation::publish`, with the result of the publication inside of it. -/
def Preparation.publish (p : Preparation) (s : LifecycleState) (inner : CloseOutcome) :
    Except JSONRPCError LifecycleState :=
  if s.disconnected p.owner then .error (.recoveryRejected "ConnectionClosed")
  else match s.sessions.get? p.thread with
    | none => .error (.recoveryRejected "SessionClosed")
    | some session =>
      if session.owner ≠ p.owner then .error (.recoveryRejected "SessionClosed")
      else match session.phase with
        | .preparing _ false =>
          match inner with
          | .error e => .error e
          | .ok () => .ok (s.put p.thread p.owner .open)
        | _ => .error (.recoveryRejected "SessionClosed")

/-- How far the holder of a preparation has got. -/
inductive PreparationStage where
  | held
  /-- `fail` has completed the entry, and sends the error next. -/
  | failing (error : JSONRPCError)
  /-- `drop` has completed the entry, and sends next. -/
  | dropping
  | finished
  deriving DecidableEq, Repr

/-- How far the task of a close has got. -/
inductive CloserStage where
  | running
  | completed
  | ended
  deriving DecidableEq, Repr

/-- The task that was spawned for a close. -/
structure Closer where
  thread : String
  owner : String
  stage : CloserStage := .running
  deriving DecidableEq, Repr

/-- The lifecycle with those who hold a part of it. -/
structure Lifecycle where
  state : LifecycleState := {}
  outcomes : CloseCompletion → Option CloseOutcome := fun _ => none
  preparations : CloseCompletion → Option (Preparation × PreparationStage) := fun _ => none
  closers : CloseCompletion → Option Closer := fun _ => none

namespace Lifecycle

inductive Label where
  | silent
  /-- A thread was opened, by a preparation or without one. -/
  | opened (thread : String) (preparation : Option CloseCompletion)
  | close (action : CloseAction)
  | disconnect (owner : String) (actions : List CloseAction)

/-- What callers were told in a step. -/
def Label.actions : Label → List CloseAction
  | close action => [action]
  | disconnect _ actions => actions
  | silent | opened .. => []

/-- The threads whose close a step tells its caller to run. -/
def Label.told (l : Label) : List String := (l.actions.filter (·.first)).map (·.thread)

/-- The tasks that a caller spawns. -/
def spawn (owner : String) (actions : List CloseAction) (closers : CloseCompletion → Option Closer) :
    CloseCompletion → Option Closer := fun c =>
  match actions.find? fun a => a.first && a.completion == some c with
  | some a => some { thread := a.thread, owner }
  | none => closers c

/-- The lifecycle with a preparation in a stage. -/
def prepared (w : Lifecycle) (c : CloseCompletion) (p : Preparation) (stage : PreparationStage) :
    Lifecycle :=
  { w with preparations := Function.update w.preparations c (some (p, stage)) }

/-- The lifecycle with a result sent. -/
def send (w : Lifecycle) (c : CloseCompletion) (outcome : CloseOutcome) : Lifecycle :=
  { w with outcomes := Function.update w.outcomes c (some outcome) }

/-- A step of one of the parties. A refused call changes nothing, and is no step. -/
inductive Step : Lifecycle → Label → Lifecycle → Prop
  | reserve {w : Lifecycle} {p : Preparation} {s : LifecycleState} (thread owner : String)
      (result : w.state.reserve thread owner = .ok (p, s)) :
      Step w .silent ({ w with state := s }.prepared p.completion p .held)
  | publish {w : Lifecycle} {s : LifecycleState} (thread owner : String) (inner : CloseOutcome)
      (result : w.state.publish thread owner inner = .ok s) :
      Step w (.opened thread none) { w with state := s }
  | publishPrepared {w : Lifecycle} {c : CloseCompletion} {p : Preparation} {s : LifecycleState}
      (inner : CloseOutcome) (held : w.preparations c = some (p, .held))
      (result : p.publish w.state inner = .ok s) :
      Step w (.opened p.thread (some c)) (({ w with state := s }.prepared c p .finished).send c (.ok ()))
  | fail {w : Lifecycle} {c : CloseCompletion} {p : Preparation} (error : JSONRPCError)
      (held : w.preparations c = some (p, .held)) :
      Step w .silent
        ({ w with state := w.state.complete p.thread p.owner }.prepared c p (.failing error))
  | failed {w : Lifecycle} {c : CloseCompletion} {p : Preparation} {error : JSONRPCError}
      (failing : w.preparations c = some (p, .failing error)) :
      Step w .silent ((w.prepared c p .finished).send c (.error error))
  | drop {w : Lifecycle} {c : CloseCompletion} {p : Preparation}
      (held : w.preparations c = some (p, .held)) :
      Step w .silent ({ w with state := w.state.complete p.thread p.owner }.prepared c p .dropping)
  | dropped {w : Lifecycle} {c : CloseCompletion} {p : Preparation}
      (dropping : w.preparations c = some (p, .dropping)) :
      Step w .silent ((w.prepared c p .finished).send c (.ok ()))
  | beginClose {w : Lifecycle} {action : CloseAction} {s : LifecycleState} (thread owner : String)
      (result : w.state.beginClose thread owner = .ok (action, s)) :
      Step w (.close action) { w with state := s, closers := spawn owner [action] w.closers }
  | beginDisconnect {w : Lifecycle} (owner : String) :
      Step w (.disconnect owner (w.state.beginDisconnect owner).1) { w with
        state := (w.state.beginDisconnect owner).2
        closers := spawn owner (w.state.beginDisconnect owner).1 w.closers }
  | complete {w : Lifecycle} {c : CloseCompletion} {k : Closer} (task : w.closers c = some k)
      (running : k.stage = .running) :
      Step w .silent { w with
        state := w.state.complete k.thread k.owner
        closers := Function.update w.closers c (some { k with stage := .completed }) }
  /-- A close ends; one that could not be stored was not completed. -/
  | finish {w : Lifecycle} {c : CloseCompletion} {k : Closer} (outcome : CloseOutcome)
      (task : w.closers c = some k) (going : k.stage ≠ .ended) :
      Step w .silent ({ w with
        closers := Function.update w.closers c (some { k with stage := .ended }) }.send c outcome)
  | forget {w : Lifecycle} (owner : String) (disconnected : w.state.disconnected owner = true) :
      Step w .silent { w with state := w.state.forgetOwner owner }

end Lifecycle

end Whale
