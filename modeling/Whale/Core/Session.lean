import Whale.Core.Model

/-!
# Thread sessions

`whale-core/src/session.rs`: the history of a thread, its limits and the repair of a turn's unanswered
calls; and the request a model step is given (`whale-core/src/model.rs`, `whale-adapters`).
-/

namespace Whale

open Check

/-- `RunContextInfo`. -/
structure RunContextInfo where
  agentName : Option String := none
  threadId : String
  turnId : String
  deadlineUnixMs : Option Nat := none
  deriving DecidableEq, Repr

/-- `ToolDefinition`. -/
structure ToolDefinition where
  name : String
  description : String
  parameters : Value
  deriving DecidableEq, Repr

/-- `SamplingOptions`. -/
structure SamplingOptions where
  model : String
  temperature : Option F32 := none
  maxTokens : Option Nat := none
  reasoningEffort : Option String := none
  thinkingBudget : Option Nat := none
  promptCaching : Bool := false
  deriving DecidableEq, Repr

/-- `ModelRequest`. -/
structure ModelRequest where
  context : RunContextInfo
  stepIndex : Nat
  stepId : String
  modelContext : ModelContext
  tools : List ToolDefinition
  options : SamplingOptions
  deriving DecidableEq, Repr

/-- The serializations of a request. They differ in the temperature: the text of the request prints
the `f32`, the value holds it widened to `f64` and prints that. -/
class RequestSerde where
  /-- `serialized_bytes(&request)`. -/
  bytes : ModelRequest → Except String Nat
  /-- `serde_json::to_value(&request)`. -/
  value : ModelRequest → Except String Value

/-- `ThreadSession`: what a turn reads and writes of it. -/
structure ThreadSession where
  id : String
  systemPrompt : Option String := none
  history : List CanonicalItem := []
  toolDefinitions : List ToolDefinition := []
  samplingOptions : SamplingOptions
  limits : Option SessionLimits := none
  acceptedTurns : Nat := 0

/-- The result that closes a call without one. -/
def unansweredText : String :=
  "No tool result was recorded before the run ended. The tool may have run or may still be running; execution and external side effects are unknown. The call was not retried."

/-- The loop of `close_unanswered_tool_calls`: the calls without a result, in call order. -/
def unanswered : List String → List CanonicalItem → List String
  | calls, [] => calls
  | calls, .toolCall _ callId _ _ _ _ :: is => unanswered (calls ++ [callId]) is
  | calls, .toolResult _ callId _ _ :: is => unanswered (calls.erase callId) is
  | calls, _ :: is => unanswered calls is

/-- `close_unanswered_tool_calls`: the results it appends; `ids` are the ids they are given. -/
def closeUnansweredToolCalls (ids : Nat → String) (history : List CanonicalItem)
    (historyStart : Nat) : List CanonicalItem :=
  (unanswered [] (history.drop historyStart)).mapIdx fun i callId =>
    .toolResult (ids i) callId (.text unansweredText) true

namespace ThreadSession

section
variable [External]

/-- `check_history_with_input`. -/
def checkHistoryWithInput (limits : Option SessionLimits) (history input : List CanonicalItem) :
    Except CoreError Unit :=
  match limits.bind (·.maxHistoryBytes) with
  | none => .ok ()
  | some max =>
    match historyBytes history input with
    | .error e => .error (.json e)
    | .ok bytes => refuse (bytes > max) (.limitExceeded s!"max_history_bytes ({max}) exceeded")

/-- `check_history_limit`. -/
def checkHistoryLimit (s : ThreadSession) : Except CoreError Unit :=
  checkHistoryWithInput s.limits s.history []

/-- `check_model_request_limit`. -/
def checkModelRequestLimit [RequestSerde] (s : ThreadSession) (request : ModelRequest) :
    Except CoreError Unit :=
  match s.limits.bind (·.maxModelRequestBytes) with
  | none => .ok ()
  | some max =>
    match RequestSerde.bytes request with
    | .error e => .error (.json e)
    | .ok bytes =>
      refuse (bytes > max) (.limitExceeded s!"max_model_request_bytes ({max}) exceeded")

/-- `check_run_admission`. -/
def checkRunAdmission (s : ThreadSession) (input : List CanonicalItem) : Except CoreError Unit := do
  match s.limits.bind (·.maxAcceptedTurns) with
  | none => .ok ()
  | some max =>
    refuse (s.acceptedTurns ≥ max) (.limitExceeded s!"max_accepted_turns ({max}) reached")
  checkHistoryWithInput s.limits s.history input

/-- `accept_turn`. -/
def acceptTurn (s : ThreadSession) (input : List CanonicalItem) : Except CoreError ThreadSession := do
  s.checkRunAdmission input
  let acceptedTurns ← orElse (checkedSucc s.acceptedTurns)
    (.limitExceeded "accepted turn counter overflow")
  .ok { s with acceptedTurns }

end

/-- `append_item`. -/
def appendItem (s : ThreadSession) (item : CanonicalItem) : ThreadSession :=
  { s with history := s.history ++ [item] }

end ThreadSession

end Whale
