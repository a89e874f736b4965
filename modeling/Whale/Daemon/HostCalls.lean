import Whale.Lib.KeyMap
import Whale.Lib.Run
import Whale.Lib.Slots
import Whale.Protocol.Rpc

/-!
# Calls of the host

The reverse calls of the daemon: `HostToolBridge::execute_host` with its guard (`server.rs`) and
`HostContextPolicy::build` with its guard (`context_bridge.rs`); the messages that answer them
(`handle_incoming_response`, `handle_tool_execute_host_result`); and what `disconnect_connection` does to the three
tables (`session_lifecycle.rs`).

The two tables of senders are one here, by `Table`. A call goes through the points of `Stage`, and a message that has
taken a sender through those of XX
-/

namespace Whale.HostCalls

variable {Output Context : Type}

/-! ## Answers -/

/-- The types that the answers are read as: the output and `is_error` of a `ToolExecuteHostResult`, a
`CanonicalToolOutput`, and a `ModelContext`. -/
class HostTypes (Output Context : Type) where
  readResult : Value → Option (Output × Bool)
  readOutput : Value → Option Output
  readContext : Value → Except String Context

/-- What is sent to a call. -/
inductive Answer (Output Context : Type) where
  | tool (result : Except String (Output × Bool))
  | context (result : Except String Context)

/-- The tables `pending_host_tool_calls` and `pending_contexts`. -/
inductive Table where
  | tools
  | contexts
  deriving DecidableEq, Repr

/-- `str::starts_with`. -/
def startsWith (p s : String) : Bool := p.toList.isPrefixOf s.toList

/-- `s.strip_prefix("reverse_")`, or `s`. -/
def stripReverse (s : String) : String :=
  if startsWith "reverse_" s then String.ofList (s.toList.drop 8) else s

/-- The id of a connection, a UUID. -/
structure Connection where
  id : String
  plain : ':' ∉ id.toList
  deriving DecidableEq, Repr

/-- A call id of the connection. -/
def owned (connection : Connection) (key : String) : Option (Table × String) :=
  if startsWith (connection.id ++ ":") key then some (.tools, key) else none

/-- What a connection sends: a response, or the parameters of `tool.execute_host_result`. -/
inductive Message (Output : Type) where
  | response (connection : Connection) (response : JSONRPCResponse)
  | result (connection : Connection) (callId : String) (output : Output) (isError : Bool)

namespace Message

def connection : Message Output → Connection
  | response owner _ | result owner _ _ _ => owner

/-- The entry that a message looks for. -/
def target : Message Output → Option (Table × String)
  | response connection r =>
    match r.id with
    | .string s =>
      if startsWith ("context_" ++ connection.id ++ ":") s then some (.contexts, s)
      else owned connection (stripReverse s)
    | .number n => owned connection (toString n.toInt)
  | result connection callId _ _ => owned connection callId

/-- The answer of a response to a tool call. -/
def toolAnswer (Context : Type) [HostTypes Output Context] (response : JSONRPCResponse) :
    Except String (Output × Bool) :=
  let read := response.result.bind fun value =>
    (HostTypes.readResult Context value).or ((HostTypes.readOutput Context value).map fun output => (output, false))
  match read with
  | some read => .ok read
  | none =>
    match response.error with
    | some error => .error ("Host error: " ++ error.message)
    | none => .error "Host returned invalid output"

/-- The answer of a response to a context call. -/
def contextAnswer (Output : Type) [HostTypes Output Context] (response : JSONRPCResponse) : Except String Context :=
  match response.result, response.error with
  | _, some error => .error ("Host context error: " ++ error.message)
  | some value, none =>
    match HostTypes.readContext Output value with
    | .ok context => .ok context
    | .error e => .error ("Invalid host model context: " ++ e)
  | none, none => .error "Host returned no model context"

def answer [HostTypes Output Context] : Message Output → Table → Answer Output Context
  | response _ r, .tools => .tool (toolAnswer Context r)
  | response _ r, .contexts => .context (contextAnswer Output r)
  | result _ _ output isError, _ => .tool (.ok (output, isError))

end Message

/-! ## Calls -/

/-- What a call comes to. -/
inductive Outcome (Output Context : Type) where
  | answered (answer : Answer Output Context)
  | failed (message : String)
  /-- The future was dropped. -/
  | dropped

/-- What a call does next. -/
inductive Stage (Output Context : Type) where
  | started
  /-- It saw that its run was over. -/
  | refused (message : String)
  /-- The sender is in its table. -/
  | registered
  /-- So is the context, if there is one: the request. -/
  | ready
  /-- In `send_line`. -/
  | sending
  /-- In `rx.await`. -/
  | waiting
  /-- The guard: `active.remove`. -/
  | leaving (outcome : Outcome Output Context)
  /-- The guard: `pending.remove`. -/
  | cleaning (outcome : Outcome Output Context)
  | ended (outcome : Outcome Output Context)

/-- The sender of the call was put into its table, and the guard has not come to it. -/
def Stage.listed : Stage Output Context → Bool
  | registered | ready | sending | waiting | leaving _ | cleaning _ => true
  | started | refused _ | ended _ => false

/-- The failures of a tool call before it waits, with the text of the error. -/
def Stage.toolFailures (e : String) : Stage Output Context → List String
  | ready => ["Failed to construct host tool request: " ++ e, "Failed to serialize host tool request: " ++ e]
  | sending => ["Failed to send reverse RPC tool request: " ++ e]
  | _ => []

/-- The channel of a call. -/
inductive Slot (Output Context : Type) where
  | empty
  | sent (answer : Answer Output Context)
  /-- The sender was dropped. -/
  | closed

/-- A call of `execute_host` or `build`. -/
structure Call (Output Context : Type) where
  table : Table
  /-- Whether there is a `ToolContext`. -/
  withContext : Bool
  connection : Connection
  uuid : String
  stage : Stage Output Context := .started
  slot : Slot Output Context := .empty

namespace Call

/-- The id, with the table that it is in. -/
def key (c : Call Output Context) : Table × String :=
  match c.table with
  | .tools => (.tools, c.connection.id ++ ":call_" ++ c.uuid)
  | .contexts => (.contexts, "context_" ++ c.connection.id ++ ":" ++ c.uuid)

end Call

/-- How far a message has got that has taken a sender. -/
inductive HandlerStage where
  /-- `active_invocations.remove`. -/
  | taken
  /-- `sender.send`. -/
  | finished
  | sent
  deriving DecidableEq, Repr

/-- A message that has taken the sender of a call. -/
structure Handler (Output : Type) where
  call : Nat
  message : Message Output
  stage : HandlerStage

end HostCalls

open HostCalls

/-- The reverse calls of the daemon. -/
structure HostCalls (Output Context : Type) where
  calls : List (Call Output Context) := []
  pending : KeyMap (Table × String) Nat := .empty
  active : KeyMap String Nat := .empty
  handlers : List (Handler Output) := []
  /-- The calls that `send_cancel` was called for. -/
  cancels : List (Table × String) := []
  finished : List Nat := []
  /-- The connections that `disconnect_connection` is at. -/
  disconnecting : List Connection := []

namespace HostCalls

variable {Output Context : Type}

def put (s : HostCalls Output Context) (i : Nat) (c : Call Output Context) : HostCalls Output Context :=
  { s with calls := s.calls.set i c }

/-- `active.remove(&id)`, with the `finish` of what was there. -/
def finish (s : HostCalls Output Context) (id : String) : HostCalls Output Context :=
  match s.active.get? id with
  | none => s
  | some i => { s with active := s.active.erase id, finished := s.finished ++ [i] }

/-- An entry of the table is of a connection. -/
def ofConnection (connection : Connection) : Table × String → Bool
  | (.tools, id) => startsWith (connection.id ++ ":") id
  | (.contexts, id) => startsWith ("context_" ++ connection.id ++ ":") id

/-- What a tool call says when its sender is gone. -/
def hungUp : String := "Host client disconnected or dropped reverse tool execution channel"

variable [HostTypes Output Context]

/-- One access to a table, or one thing from outside. The label is a message that came in. -/
inductive Step : HostCalls Output Context → Option (Message Output) → HostCalls Output Context → Prop
  /-- The id of a call is a UUID. -/
  | call {s : HostCalls Output Context} (c : Call Output Context) (started : c.stage = .started)
      (empty : c.slot = .empty) (fresh : ∀ d ∈ s.calls, d.key ≠ c.key) :
      Step s none { s with calls := s.calls ++ [c] }
  /-- The run of the call is over. -/
  | refuse {s : HostCalls Output Context} {i : Nat} {c : Call Output Context} (hc : s.calls[i]? = some c)
      (stage : c.stage = .started) (context : c.table = .contexts ∨ c.withContext = true) :
      Step s none (s.put i { c with stage := .refused (match c.table with
        | .tools => "Host invocation cancelled before dispatch"
        | .contexts => "Context construction cancelled") })
  | register {s : HostCalls Output Context} {i : Nat} {c : Call Output Context} (hc : s.calls[i]? = some c)
      (stage : c.stage = .started) :
      Step s none { s.put i { c with stage := .registered } with pending := s.pending.insert c.key i }
  | activate {s : HostCalls Output Context} {i : Nat} {c : Call Output Context} (hc : s.calls[i]? = some c)
      (stage : c.stage = .registered) (tools : c.table = .tools) (context : c.withContext = true) :
      Step s none { s.put i { c with stage := .ready } with active := s.active.insert c.key.2 i }
  | skip {s : HostCalls Output Context} {i : Nat} {c : Call Output Context} (hc : s.calls[i]? = some c)
      (stage : c.stage = .registered) (plain : c.table = .contexts ∨ c.withContext = false) :
      Step s none (s.put i { c with stage := .ready })
  /-- The request cannot be made, or not written: a tool call takes its sender back. -/
  | toolFails {s : HostCalls Output Context} {i : Nat} {c : Call Output Context} {e message : String}
      (hc : s.calls[i]? = some c) (tools : c.table = .tools) (fails : message ∈ c.stage.toolFailures e) :
      Step s none { s.put i { c with stage := .leaving (.failed message) } with pending := s.pending.erase c.key }
  | contextFails {s : HostCalls Output Context} {i : Nat} {c : Call Output Context} (e : String)
      (hc : s.calls[i]? = some c) (contexts : c.table = .contexts) (stage : c.stage = .ready ∨ c.stage = .sending) :
      Step s none (s.put i { c with stage := .leaving (.failed e) })
  | dispatch {s : HostCalls Output Context} {i : Nat} {c : Call Output Context} (hc : s.calls[i]? = some c)
      (stage : c.stage = .ready) : Step s none (s.put i { c with stage := .sending })
  | sent {s : HostCalls Output Context} {i : Nat} {c : Call Output Context} (hc : s.calls[i]? = some c)
      (stage : c.stage = .sending) : Step s none (s.put i { c with stage := .waiting })
  | drop {s : HostCalls Output Context} {i : Nat} {c : Call Output Context} (hc : s.calls[i]? = some c)
      (stage : c.stage = .sending ∨ c.stage = .waiting) : Step s none (s.put i { c with stage := .leaving .dropped })
  | cancelled {s : HostCalls Output Context} {i : Nat} {c : Call Output Context} (hc : s.calls[i]? = some c)
      (contexts : c.table = .contexts) (stage : c.stage = .waiting) :
      Step s none (s.put i { c with stage := .leaving (.failed "Context construction cancelled") })
  | answered {s : HostCalls Output Context} {i : Nat} {c : Call Output Context} {answer : Answer Output Context}
      (hc : s.calls[i]? = some c) (stage : c.stage = .waiting) (slot : c.slot = .sent answer) :
      Step s none (s.put i { c with stage := .leaving (.answered answer) })
  | toolCut {s : HostCalls Output Context} {i : Nat} {c : Call Output Context} (hc : s.calls[i]? = some c)
      (tools : c.table = .tools) (stage : c.stage = .waiting) (slot : c.slot = .closed) :
      Step s none { s.put i { c with stage := .leaving (.failed hungUp) } with pending := s.pending.erase c.key }
  | contextCut {s : HostCalls Output Context} {i : Nat} {c : Call Output Context} (hc : s.calls[i]? = some c)
      (contexts : c.table = .contexts) (stage : c.stage = .waiting) (slot : c.slot = .closed) :
      Step s none (s.put i { c with stage := .leaving (.failed "Host context callback disconnected") })
  | leave {s : HostCalls Output Context} {i : Nat} {c : Call Output Context} {outcome : Outcome Output Context}
      (hc : s.calls[i]? = some c) (stage : c.stage = .leaving outcome) :
      Step s none (match c.table with
        | .tools => (s.put i { c with stage := .cleaning outcome }).finish c.key.2
        | .contexts => s.put i { c with stage := .cleaning outcome })
  | clean {s : HostCalls Output Context} {i : Nat} {c : Call Output Context} {outcome : Outcome Output Context}
      (hc : s.calls[i]? = some c) (stage : c.stage = .cleaning outcome) :
      Step s none { s.put i { c with stage := .ended outcome } with
        pending := s.pending.erase c.key,
        cancels := if (s.pending.get? c.key).isSome then s.cancels ++ [c.key] else s.cancels }
  /-- A message without an entry of its connection is left aside. -/
  | ignore {s : HostCalls Output Context} (m : Message Output) (none : m.target.bind s.pending.get? = none) :
      Step s (some m) s
  | take {s : HostCalls Output Context} {i : Nat} {key : Table × String} (m : Message Output)
      (target : m.target = some key) (entry : s.pending.get? key = some i) :
      Step s (some m) { s with
        pending := s.pending.erase key,
        handlers := s.handlers ++
          [{ call := i, message := m, stage := if key.1 = .tools then .taken else .finished }] }
  | finished {s : HostCalls Output Context} {h : Nat} {handler : Handler Output} {key : Table × String}
      (hh : s.handlers[h]? = some handler) (stage : handler.stage = .taken)
      (target : handler.message.target = some key) :
      Step s none (({ s with handlers := s.handlers.set h { handler with stage := .finished } }).finish key.2)
  | answer {s : HostCalls Output Context} {h : Nat} {handler : Handler Output} {key : Table × String}
      {c : Call Output Context} (hh : s.handlers[h]? = some handler) (stage : handler.stage = .finished)
      (target : handler.message.target = some key) (hc : s.calls[handler.call]? = some c)
      (live : c.stage.listed = true) :
      Step s none { s.put handler.call { c with slot := .sent (handler.message.answer key.1) } with
        handlers := s.handlers.set h { handler with stage := .sent } }
  /-- The receiver is gone. -/
  | lost {s : HostCalls Output Context} {h : Nat} {handler : Handler Output} {c : Call Output Context}
      (hh : s.handlers[h]? = some handler) (stage : handler.stage = .finished)
      (hc : s.calls[handler.call]? = some c) (left : c.stage.listed = false) :
      Step s none { s with handlers := s.handlers.set h { handler with stage := .sent } }
  | disconnect {s : HostCalls Output Context} (connection : Connection) :
      Step s none { s with disconnecting := s.disconnecting ++ [connection] }
  /-- `pending_host_tool_calls.retain` and `pending_contexts.retain`, at an entry of the connection. -/
  | hangUp {s : HostCalls Output Context} {connection : Connection} {key : Table × String} {i : Nat}
      {c : Call Output Context} (disconnecting : connection ∈ s.disconnecting)
      (of : ofConnection connection key = true) (entry : s.pending.get? key = some i) (hc : s.calls[i]? = some c) :
      Step s none { s.put i { c with slot := .closed } with pending := s.pending.erase key }
  /-- `active_invocations.retain`. -/
  | deactivate {s : HostCalls Output Context} {connection : Connection} {id : String}
      (disconnecting : connection ∈ s.disconnecting) (of : startsWith (connection.id ++ ":") id = true) :
      Step s none (s.finish id)

end HostCalls

end Whale
