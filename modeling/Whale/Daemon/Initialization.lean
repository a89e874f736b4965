import Mathlib.Logic.Function.Basic
import Whale.Daemon.Lifecycle
import Whale.Protocol.Initialization

/-!
# Bootstrap of connections

`whale-daemon/src/initialization.rs`, with the part of `handle_message` around it: every line of a connection is
handled by a task of its own, the first successful `protocol.initialize` of a connection takes its phase, and the
other requests wait at `ready` until the answer is delivered. The SDK's side is
`whale-sdk-rust/src/initialization.rs`: one shared handshake for a connection, and no other request before it.

`Bootstrap.Step` is one step of a task of the daemon, of a client, or of a peer that is no SDK client and may send
any line at any time. A line on its way to the daemon is a task that did not start. Each look at a phase and each
change of it is a step of its own.
-/

namespace Whale

open Check

def capabilitySessionRecovery : String := "session_recovery.v1"

def capabilityRunRetention : String := "run_retention.v1"

/-- `JSONRPCError`s with the codes of the bootstrap. -/
def JSONRPCError.notInitialized : JSONRPCError := ⟨-32010, "ProtocolNotInitialized"⟩

def JSONRPCError.incompatible (message : String) : JSONRPCError := ⟨-32011, message⟩

def JSONRPCError.alreadyInitialized : JSONRPCError := ⟨-32012, "ProtocolAlreadyInitialized"⟩

def JSONRPCError.connectionClosed : JSONRPCError := .internalError "ConnectionClosed"

namespace Bootstrap

/-- `Phase`. -/
inductive Phase where
  | new
  | initializing
  | ready
  | failed
  | closed
  deriving DecidableEq, Repr

/-- The version of the workspace. -/
def packageVersion : String := "0.1.0-beta.1"

/-- The daemon's `PeerInfo`. -/
def server : PeerInfo := ⟨"whale-daemon", packageVersion⟩

/-- What the daemon has besides the capabilities of the protocol, and besides recovery. -/
def extensions (retention : Bool) : List String :=
  ["session_limits.v1", "session_views.v1", "session_event_replay.v1", "session_catalog.v1", "session_history.v1",
    "session_metadata_cas.v1", "session_lifecycle_replay.v1", "interactions.v1"] ++
  if retention then [capabilityRunRetention] else []

section
variable [DebugText]

/-- What `begin` does between its two looks at the phase. -/
def negotiate (params : Except String InitializeParams) (recovery retention : Bool) :
    Except JSONRPCError InitializeResult := do
  let params ← params.mapError .invalidParams
  params.validate.mapError .invalidParams
  let capabilities := extensions retention
  let required := params.requiredCapabilities.filter fun cap => !capabilities.contains cap
  let required := if recovery then required.filter (· != capabilitySessionRecovery) else required
  let baseline : InitializeParams := { params with requiredCapabilities := required }
  let result ← (InitializeResult.negotiate baseline server).mapError .incompatible
  let recovered := if recovery then result.capabilities ++ [capabilitySessionRecovery] else result.capabilities
  let result := { result with capabilities := recovered ++ capabilities }
  (result.validateFor params).mapError .incompatible
  .ok result

end

/-- A line of a connection: `protocol.initialize`, with what its parameters parse to, or another request. -/
inductive Line where
  | initialization (params : Except String InitializeParams)
  | request
  deriving DecidableEq

/-- How far the task of a line has got. -/
inductive Stage where
  | received
  /-- The negotiation succeeded; the phase was `new` before it. -/
  | negotiated (result : InitializeResult)
  /-- The task holds the `InitializationAck`, and sends the result next. -/
  | accepted (result : InitializeResult)
  /-- The result is on the wire. -/
  | sent (result : InitializeResult)
  /-- `send_line` returned, and `InitializationAck::delivered` ran. -/
  | delivered (result : InitializeResult)
  /-- The `InitializationAck` was dropped before that, with the result on the wire or not. -/
  | abandoned (result : InitializeResult) (written : Bool)
  /-- `ready` let the request pass. -/
  | admitted
  | refused (error : JSONRPCError)
  deriving DecidableEq

namespace Stage

/-- The result of the task that took the phase of its connection. -/
def taken : Stage → Option InitializeResult
  | accepted r | sent r | delivered r | abandoned r _ => some r
  | _ => none

/-- Whether the `InitializationAck` is held. -/
def holdsAck : Stage → Bool
  | accepted _ | sent _ => true
  | _ => false

/-- Whether the result is on the wire. -/
def written : Stage → Bool
  | sent _ | delivered _ => true
  | abandoned _ written => written
  | _ => false

/-- What a client can read. -/
def answer : Stage → Option (Except JSONRPCError InitializeResult)
  | sent r | delivered r | abandoned r true => some (.ok r)
  | refused e => some (.error e)
  | _ => none

end Stage

/-- The task of a line. -/
structure Task where
  owner : String
  line : Line
  stage : Stage := .received
  deriving DecidableEq

/-- The handshake of an SDK client. -/
inductive Handshake where
  | idle
  /-- The request was sent; its task is known by its index. -/
  | waiting (task : Nat)
  | ready (result : InitializeResult)
  | failed
  deriving DecidableEq

end Bootstrap

/-- The phases of the connections, the tasks of the daemon and the clients. -/
structure Bootstrap where
  phase : String → Bootstrap.Phase := fun _ => .new
  tasks : List Bootstrap.Task := []
  clients : String → Bootstrap.Handshake := fun _ => .idle

namespace Bootstrap

/-- `InitializeParams::sdk` of the Rust client. -/
def sdkParams : InitializeParams := .sdk "whale-rust" packageVersion

/-- `initialize_until`, on the answer. -/
def Handshake.settle [DebugText] : Except JSONRPCError InitializeResult → Handshake
  | .ok result => match result.validateFor sdkParams with
    | .ok () => .ready result
    | .error _ => .failed
  | .error _ => .failed

def spawn (s : Bootstrap) (owner : String) (line : Line) : Bootstrap :=
  { s with tasks := s.tasks ++ [{ owner, line }] }

def put (s : Bootstrap) (i : Nat) (t : Task) (stage : Stage) : Bootstrap :=
  { s with tasks := s.tasks.set i { t with stage } }

def setPhase (s : Bootstrap) (owner : String) (phase : Phase) : Bootstrap :=
  { s with phase := Function.update s.phase owner phase }

def setClient (s : Bootstrap) (owner : String) (client : Handshake) : Bootstrap :=
  { s with clients := Function.update s.clients owner client }

/-- `InitializationAck::delivered`, and its `drop`: only a phase that is still `Initializing` changes. -/
def settlePhase (s : Bootstrap) (owner : String) (phase : Phase) : Bootstrap :=
  if s.phase owner = .initializing then s.setPhase owner phase else s

/-- What `ready` returns at once, if it does not wait. -/
def gate : Phase → Option (Except JSONRPCError Unit)
  | .ready => some (.ok ())
  | .initializing => none
  | .new => some (.error .notInitialized)
  | .failed | .closed => some (.error .connectionClosed)

/-- One step. The label is the connection for which `ready` let a request pass. -/
inductive Step [DebugText] (recovery retention : Bool) (sdk : String → Prop) :
    Bootstrap → Option String → Bootstrap → Prop
  /-- A client starts its handshake. -/
  | join {s : Bootstrap} {owner : String} (client : sdk owner) (idle : s.clients owner = .idle) :
      Step recovery retention sdk s none
        ((s.spawn owner (.initialization (.ok sdkParams))).setClient owner (.waiting s.tasks.length))
  /-- The client reads the answer. -/
  | answer {s : Bootstrap} {owner : String} {i : Nat} {t : Task} {outcome : Except JSONRPCError InitializeResult}
      (waiting : s.clients owner = .waiting i) (task : s.tasks[i]? = some t)
      (sent : t.stage.answer = some outcome) :
      Step recovery retention sdk s none (s.setClient owner (.settle outcome))
  /-- The handshake of the client times out, or its connection ends. -/
  | giveUp {s : Bootstrap} (owner : String) :
      Step recovery retention sdk s none (s.setClient owner .failed)
  /-- A request of a client. -/
  | request {s : Bootstrap} {owner : String} {result : InitializeResult} (ready : s.clients owner = .ready result) :
      Step recovery retention sdk s none (s.spawn owner .request)
  /-- A line of a peer that is no SDK client. -/
  | foreign {s : Bootstrap} {owner : String} (line : Line) (other : ¬ sdk owner) :
      Step recovery retention sdk s none (s.spawn owner line)
  /-- The first look of `begin`, and the negotiation. -/
  | begin {s : Bootstrap} {i : Nat} {t : Task} {params : Except String InitializeParams} {result : InitializeResult}
      (task : s.tasks[i]? = some t) (line : t.line = .initialization params) (stage : t.stage = .received)
      (phase : s.phase t.owner = .new) (negotiated : negotiate params recovery retention = .ok result) :
      Step recovery retention sdk s none (s.put i t (.negotiated result))
  | incompatible {s : Bootstrap} {i : Nat} {t : Task} {params : Except String InitializeParams} {error : JSONRPCError}
      (task : s.tasks[i]? = some t) (line : t.line = .initialization params) (stage : t.stage = .received)
      (phase : s.phase t.owner = .new) (negotiated : negotiate params recovery retention = .error error) :
      Step recovery retention sdk s none (s.put i t (.refused error))
  | again {s : Bootstrap} {i : Nat} {t : Task} {params : Except String InitializeParams}
      (task : s.tasks[i]? = some t) (line : t.line = .initialization params) (stage : t.stage = .received)
      (phase : s.phase t.owner ≠ .new) :
      Step recovery retention sdk s none (s.put i t (.refused .alreadyInitialized))
  /-- The second look of `begin`. -/
  | accept {s : Bootstrap} {i : Nat} {t : Task} {result : InitializeResult} (task : s.tasks[i]? = some t)
      (stage : t.stage = .negotiated result) (phase : s.phase t.owner = .new) :
      Step recovery retention sdk s none ((s.put i t (.accepted result)).setPhase t.owner .initializing)
  | overtaken {s : Bootstrap} {i : Nat} {t : Task} {result : InitializeResult} (task : s.tasks[i]? = some t)
      (stage : t.stage = .negotiated result) (phase : s.phase t.owner ≠ .new) :
      Step recovery retention sdk s none (s.put i t (.refused .alreadyInitialized))
  | send {s : Bootstrap} {i : Nat} {t : Task} {result : InitializeResult} (task : s.tasks[i]? = some t)
      (stage : t.stage = .accepted result) : Step recovery retention sdk s none (s.put i t (.sent result))
  | deliver {s : Bootstrap} {i : Nat} {t : Task} {result : InitializeResult} (task : s.tasks[i]? = some t)
      (stage : t.stage = .sent result) :
      Step recovery retention sdk s none ((s.put i t (.delivered result)).settlePhase t.owner .ready)
  /-- The task ends without `delivered`. -/
  | abandon {s : Bootstrap} {i : Nat} {t : Task} {result : InitializeResult} (task : s.tasks[i]? = some t)
      (taken : t.stage.taken = some result) (held : t.stage.holdsAck = true) :
      Step recovery retention sdk s none ((s.put i t (.abandoned result t.stage.written)).settlePhase t.owner .failed)
  /-- A look of `ready` at the phase. -/
  | pass {s : Bootstrap} {i : Nat} {t : Task} (task : s.tasks[i]? = some t) (line : t.line = .request)
      (stage : t.stage = .received) (passes : gate (s.phase t.owner) = some (.ok ())) :
      Step recovery retention sdk s (some t.owner) (s.put i t .admitted)
  | refuse {s : Bootstrap} {i : Nat} {t : Task} {error : JSONRPCError} (task : s.tasks[i]? = some t)
      (line : t.line = .request) (stage : t.stage = .received)
      (refused : gate (s.phase t.owner) = some (.error error)) :
      Step recovery retention sdk s none (s.put i t (.refused error))
  /-- `Initializations::close`. -/
  | close {s : Bootstrap} (owner : String) : Step recovery retention sdk s none (s.setPhase owner .closed)

end Bootstrap

end Whale
