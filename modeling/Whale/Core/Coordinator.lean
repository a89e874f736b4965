import Whale.Core.Session
import Whale.Lib.Run

/-!
# The tool execution coordinator

`whale-core/src/coordinator.rs`. The calls of a batch run concurrently, each from one await point to
the next: its approval, the registry's barrier, the commit of its intent, the delivery of its start
event, its handler, the commit of its outcome. `CallStep` is one such segment of
`execute_single_call`, `Batch.Step` interleaves the calls of one batch with cancellation and with the
other users of the barrier. What a call awaits is an argument: the approval's answer, whether the
event was delivered, the handler's outcome, the commit's receipt; so are the ids drawn for results.
-/

namespace Whale

open Check

/-- `ToolHandler`, as far as the coordinator reads it. -/
structure ToolHandler where
  parameters : Value
  supportsParallel : Bool := true
  requireApproval : Bool := false
  deriving DecidableEq, Repr

/-- `ToolRegistry::get`. -/
abbrev ToolRegistry := String → Option ToolHandler

/-- JSON parsing and schema validation. -/
class ToolJson where
  /-- `serde_json::from_str::<Value>`. -/
  parse : String → Except String Value
  /-- `jsonschema::options().with_retriever(NoExternalSchemas).build(schema)`: the validator. -/
  build : Value → Except String (Value → Except String Unit)

/-- `ApprovalDecision`. -/
inductive ApprovalDecision where
  | accept
  | deny (reason : Option String)
  | modifyArguments (arguments : Value)
  deriving DecidableEq, Repr

/-- What a batch is executed with. -/
structure Coordinator where
  registry : ToolRegistry
  sessionRegistry : Option ToolRegistry
  /-- An event channel was given. -/
  events : Bool
  /-- A journal was given. -/
  journalled : Bool

/-- A call that may reach its handler. -/
structure Invocation where
  callId : String
  handler : ToolHandler
  original : Value
  arguments : Value
  deriving DecidableEq, Repr

/-- The record of an execution. -/
def Invocation.record (inv : Invocation) : ToolExecutionRecord :=
  ⟨inv.callId, inv.original, inv.arguments⟩

/-- `error_result`. -/
def errorResult (id callId message : String) : CanonicalItem :=
  .toolResult id callId (.text message) true

/-- Where a call stands: the await point it is at. -/
inductive CallPhase where
  | waiting
  /-- At the approval gate. -/
  | approving (inv : Invocation)
  /-- At the barrier. -/
  | queued (inv : Invocation)
  /-- Holding the barrier, at the commit of the intent. -/
  | intending (inv : Invocation)
  /-- Holding the barrier, at the delivery of `ToolExecutionStarted`. -/
  | announcing (inv : Invocation)
  /-- Holding the barrier, in the handler. -/
  | executing (inv : Invocation)
  /-- `execute_single_call` has returned. -/
  | settled (result : CanonicalItem)
  | done (result : CanonicalItem)
  deriving DecidableEq, Repr

/-- A call of a batch. The last three fields keep what happened to it: the answer of its approval, its
entry in the progress and the arguments its handler was called with. -/
structure CallState where
  item : CanonicalItem
  phase : CallPhase := .waiting
  answer : Option (Except String ApprovalDecision) := none
  execution : Option ToolExecutionRecord := none
  dispatched : List Value := []

/-- What a segment of a call does outside the call. -/
structure CallEffect where
  /-- A successful journal commit and the item its receipt returned. -/
  commit : Option (RunMutation × Option CanonicalItem) := none
  recorded : Option ToolExecutionRecord := none
  /-- The handler is called, for the call and with the arguments. -/
  dispatched : Option (String × Value) := none
  finished : Option CanonicalItem := none

section
variable [ToolJson]

/-- `compile_tool_schema`. -/
def compileToolSchema (schema : Value) : Except String (Value → Except String Unit) :=
  match ToolJson.build schema with
  | .error e => .error ("Invalid tool parameter schema: " ++ e)
  | .ok validator => .ok validator

/-- Validate arguments against a handler's schema; `label` starts the error. -/
def validateArguments (handler : ToolHandler) (label : String) (arguments : Value) :
    Except String Unit := do
  let validator ← compileToolSchema handler.parameters
  match validator arguments with
  | .error e => .error (label ++ e)
  | .ok () => .ok ()

/-- The arguments of a call: as given, or parsed from the raw text. -/
def toolArguments (arguments : Option Value) (rawArguments : String) : Except String Value :=
  match arguments with
  | some arguments => .ok arguments
  | none =>
    match ToolJson.parse rawArguments with
    | .error e => .error ("Failed to parse tool arguments: " ++ e)
    | .ok arguments => .ok arguments

namespace Coordinator

omit [ToolJson] in
/-- The session's registry first, then the global one. -/
def lookup (c : Coordinator) (name : String) : Option ToolHandler :=
  match c.sessionRegistry.bind (· name) with
  | some handler => some handler
  | none => c.registry name

/-- `execute_single_call` up to the approval: the invocation, or the text of the error result. -/
def admitCall (c : Coordinator) (callId name : String) (arguments : Option Value)
    (rawArguments : String) : Except String Invocation := do
  let handler ← orElse (c.lookup name) s!"Tool '{name}' not found in registry"
  let original ← toolArguments arguments rawArguments
  validateArguments handler "Invalid tool arguments: " original
  .ok ⟨callId, handler, original, original⟩

end Coordinator

/-- The second validation, after the approval. -/
def Invocation.confirm (inv : Invocation) (id : String) : CallPhase :=
  match validateArguments inv.handler "Invalid approved tool arguments: " inv.arguments with
  | .error message => .settled (errorResult id inv.callId message)
  | .ok () => .queued inv

/-- The first segment of `execute_single_call`. -/
def Coordinator.prepare (c : Coordinator) (id : String) : CanonicalItem → CallPhase
  | .toolCall _ callId _ name arguments rawArguments =>
    match c.admitCall callId name arguments rawArguments with
    | .error message => .settled (errorResult id callId message)
    | .ok inv =>
      if inv.handler.requireApproval then
        if c.events then .approving inv
        else .settled (errorResult id callId "Approval required but event stream is closed")
      else inv.confirm id
  | _ => .settled (errorResult id "unknown" "Item was not a ToolCall")

omit [ToolJson] in
/-- The decision on a call: the invocation to go on with, or the text of the error result. -/
def Invocation.decide (inv : Invocation) : Except String ApprovalDecision → Except String Invocation
  | .ok .accept => .ok inv
  | .ok (.modifyArguments arguments) => .ok { inv with arguments }
  | .ok (.deny reason) =>
    .error ("Execution denied by user: " ++ reason.getD "User denied execution")
  | .error e => .error ("Approval failed: " ++ e)

/-- The segment after the approval. -/
def Invocation.answered (inv : Invocation) (id : String)
    (answer : Except String ApprovalDecision) : CallPhase :=
  match inv.decide answer with
  | .error message => .settled (errorResult id inv.callId message)
  | .ok inv => inv.confirm id

end

/-- The result of a handler's outcome. -/
def Invocation.result (inv : Invocation) (id : String) :
    Except String (CanonicalToolOutput × Bool) → CanonicalItem
  | .ok (output, isError) => .toolResult id inv.callId output isError
  | .error e => errorResult id inv.callId e

/-- The result of a call that is cancelled before its handler is called. -/
def Invocation.cancelled (inv : Invocation) (id : String) : CanonicalItem :=
  errorResult id inv.callId "Execution cancelled before dispatch"

namespace CallPhase

/-- The guard a call holds: whether it is a shared one. -/
def guard : CallPhase → Option Bool
  | intending inv => some inv.handler.supportsParallel
  | announcing inv => some inv.handler.supportsParallel
  | executing inv => some inv.handler.supportsParallel
  | _ => none

end CallPhase

/-- One segment of a call. `cancelled` is the token's state, `free` whether a guard of the given kind
can be had. -/
inductive CallStep [ToolJson] (c : Coordinator) (cancelled : Bool) (free : Bool → Bool) :
    CallState → CallEffect → CallState → Prop
  | prepare {s : CallState} (id : String) (phase : s.phase = .waiting) :
      CallStep c cancelled free s {} { s with phase := c.prepare id s.item }
  | answer {s : CallState} {inv : Invocation} (id : String)
      (answer : Except String ApprovalDecision) (phase : s.phase = .approving inv) :
      CallStep c cancelled free s {}
        { s with phase := inv.answered id answer, answer := some answer }
  | acquireCancelled {s : CallState} {inv : Invocation} (id : String) (phase : s.phase = .queued inv)
      (guard : free inv.handler.supportsParallel = true) (token : cancelled = true) :
      CallStep c cancelled free s {} { s with phase := .settled (inv.cancelled id) }
  | acquireJournalled {s : CallState} {inv : Invocation} (phase : s.phase = .queued inv)
      (guard : free inv.handler.supportsParallel = true) (token : cancelled = false)
      (journal : c.journalled = true) :
      CallStep c cancelled free s {} { s with phase := .intending inv }
  | acquire {s : CallState} {inv : Invocation} (phase : s.phase = .queued inv)
      (guard : free inv.handler.supportsParallel = true) (token : cancelled = false)
      (journal : c.journalled = false) :
      CallStep c cancelled free s { recorded := some inv.record }
        { s with phase := .announcing inv, execution := some inv.record }
  | intent {s : CallState} {inv : Invocation} (receipt : Option CanonicalItem)
      (phase : s.phase = .intending inv) :
      CallStep c cancelled free s
        { commit := some (.dispatchIntent inv.callId inv.record, receipt)
          recorded := some inv.record }
        { s with phase := .announcing inv, execution := some inv.record }
  | closed {s : CallState} {inv : Invocation} (id : String) (phase : s.phase = .announcing inv)
      (channel : c.events = true) :
      CallStep c cancelled free s {} { s with
        phase := .settled (errorResult id inv.callId "Run event stream closed before dispatch") }
  | announcedCancelled {s : CallState} {inv : Invocation} (id : String)
      (phase : s.phase = .announcing inv) (token : cancelled = true) :
      CallStep c cancelled free s {} { s with phase := .settled (inv.cancelled id) }
  | dispatch {s : CallState} {inv : Invocation} (phase : s.phase = .announcing inv)
      (token : cancelled = false) :
      CallStep c cancelled free s { dispatched := some (inv.callId, inv.arguments) }
        { s with phase := .executing inv, dispatched := s.dispatched ++ [inv.arguments] }
  | execute {s : CallState} {inv : Invocation} (id : String)
      (outcome : Except String (CanonicalToolOutput × Bool)) (phase : s.phase = .executing inv) :
      CallStep c cancelled free s {} { s with phase := .settled (inv.result id outcome) }
  | finish {s : CallState} {result : CanonicalItem} (phase : s.phase = .settled result)
      (journal : c.journalled = false) :
      CallStep c cancelled free s { finished := some result } { s with phase := .done result }
  /-- The receipt of a tool outcome repeats it under the id the ledger reserved. -/
  | outcome {s : CallState} {id resultId callId : String} {output : CanonicalToolOutput}
      {isError : Bool} (phase : s.phase = .settled (.toolResult id callId output isError))
      (journal : c.journalled = true) :
      CallStep c cancelled free s
        { commit := some (.toolOutcome callId (.toolResult id callId output isError),
            some (.toolResult resultId callId output isError))
          finished := some (.toolResult resultId callId output isError) }
        { s with phase := .done (.toolResult resultId callId output isError) }

/-! ## A batch -/

/-- A batch under way. `completed` is in order of completion; `readers` and `writer` are the guards
that other users of the barrier hold. -/
structure Batch where
  calls : List CallState
  cancelled : Bool := false
  progress : List ToolExecutionRecord := []
  completed : List (Nat × CanonicalItem) := []
  readers : Nat := 0
  writer : Bool := false

namespace Batch

/-- The batch as it is started. -/
def start (items : List CanonicalItem) : Batch where
  calls := items.map fun item => { item }

/-- The guards the calls hold. -/
def guards (b : Batch) : List Bool := b.calls.filterMap (·.phase.guard)

/-- Whether the barrier grants a guard: a shared one beside shared ones, an exclusive one alone. -/
def free (b : Batch) (shared : Bool) : Bool :=
  if shared then !b.writer && b.guards.all id
  else !b.writer && b.readers == 0 && b.guards.isEmpty

/-- Every future has completed. -/
def complete (b : Batch) : Bool := b.calls.all fun s => match s.phase with
  | .done _ => true
  | _ => false

/-- What `execute_calls_with_journal` returns: the results sorted by the index of their call. -/
def results (b : Batch) : List CanonicalItem :=
  (b.completed.mergeSort fun x y => x.1 ≤ y.1).map (·.2)

/-- The next segment of one of the calls, a cancellation, or another user of the barrier. -/
inductive Step [ToolJson] (c : Coordinator) : Batch → CallEffect → Batch → Prop
  | call {b : Batch} {before after : List CallState} {s s' : CallState} {e : CallEffect}
      (which : b.calls = before ++ s :: after) (segment : CallStep c b.cancelled b.free s e s') :
      Step c b e { b with
        calls := before ++ s' :: after
        progress := b.progress ++ e.recorded.toList
        completed := b.completed ++ e.finished.toList.map (before.length, ·) }
  | cancel {b : Batch} : Step c b {} { b with cancelled := true }
  | readOutside {b : Batch} (guard : b.free true = true) :
      Step c b {} { b with readers := b.readers + 1 }
  | writeOutside {b : Batch} (guard : b.free false = true) : Step c b {} { b with writer := true }
  | releaseRead {b : Batch} : Step c b {} { b with readers := b.readers - 1 }
  | releaseWrite {b : Batch} : Step c b {} { b with writer := false }

end Batch

end Whale
