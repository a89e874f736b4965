import Whale.Adapters.Stream
import Whale.Lib.Check
import Whale.Lib.OrdMap

/-!
# Responses

`parse_stream` of `whale-adapters/src/responses.rs`: the events of a response, whose items are announced,
streamed and completed under their index in the output.
-/

namespace Whale.Responses

open Check

def protocol (message : String) : AdapterError := .protocolError message

/-- A string field of a value. -/
def string (value : Value) (field : String) : Except AdapterError String :=
  orElse (value.strAt field) (protocol ("Responses requires string field '" ++ field ++ "'"))

/-- The phase of a message. -/
def phase (value : Value) : Except AdapterError MessagePhase :=
  match value.strAt "phase" with
  | none | some "final_answer" => .ok .finalAnswer
  | some "commentary" => .ok .commentary
  | some other => .error (protocol ("Unsupported Responses message phase: " ++ other))

/-! ## Items -/

/-- An element of the content of a message. -/
def outputText (part : Value) : Except AdapterError CanonicalContent := do
  let type ← string part "type"
  refuse (type != "output_text") (protocol ("Unsupported Responses output content: " ++ type))
  let text ← string part "text"
  return .text text

/-- An element of the summary of a reasoning. -/
def summaryText (part : Value) : Except AdapterError String := do
  let type ← string part "type"
  refuse (type != "summary_text") (protocol "Unsupported Responses reasoning summary content")
  string part "text"

def unsupportedItem (type : String) : AdapterError :=
  protocol ("Unsupported Responses output item: " ++ type)

section
variable [ToolJson]

/-- The item of the conversation that an output item is. -/
def canonical (value : Value) : Except AdapterError CanonicalItem := do
  let id ← string value "id"
  let type ← string value "type"
  match type with
  | "message" =>
    let role ← string value "role"
    refuse (role != "assistant") (protocol "Responses output message must have assistant role")
    let parts ← orElse (value.index "content").asArray (protocol "Responses message requires content array")
    let content ← parts.mapM outputText
    let phase ← phase value
    return .assistantMessage id content phase
  | "function_call" =>
    let rawArguments ← string value "arguments"
    let callId ← string value "call_id"
    let name ← string value "name"
    return .toolCall id callId (value.strAt "namespace") name (parsedArguments rawArguments) rawArguments
  | "reasoning" =>
    refuse (((value.get "content").bind Value.asArray).any (!·.isEmpty))
      (protocol ("Raw reasoning content cannot be replayed losslessly by the canonical Responses adapter; " ++
        "use reasoning summary/encrypted content"))
    let summary ← orElse (value.index "summary").asArray
      (protocol "Responses reasoning requires summary array")
    let thinking ← summary.mapM summaryText
    return .reasoning id ("\n".intercalate thinking) none (value.strAt "encrypted_content")
  | other => .error (unsupportedItem other)

end

/-- The item type and the phase that an output item is announced with. -/
def announced (value : Value) : Except AdapterError (String × Option MessagePhase) := do
  let type ← string value "type"
  match type with
  | "message" =>
    let phase ← phase value
    return ("assistant_message", some phase)
  | "reasoning" => return ("reasoning", some .commentary)
  | "function_call" => return ("tool_call", none)
  | other => .error (unsupportedItem other)

/-! ## The state of a response -/

structure ItemState where
  value : Value
  completed : Bool := false

/-- The items by their index in the output, and the ids that were taken. -/
structure ResponseState where
  items : OrdMap Nat ItemState := .empty
  ids : List String := []

namespace ResponseState

/-- An item is announced, unless its index is known. -/
def start (s : ResponseState) (index : Nat) (value : Value) (turnId : String) :
    Except AdapterError (Option AgentStreamEvent × ResponseState) :=
  match s.items.get? index with
  | some item => do
    refuse (decide (item.value.index "id" ≠ value.index "id"))
      (protocol "Responses reused output_index for a different item")
    return (none, s)
  | none => do
    let id ← string value "id"
    refuse (decide (id ∈ s.ids)) (protocol "Responses reused an output item ID")
    let (itemType, phase) ← announced value
    return (some (.itemStarted turnId id itemType phase),
      { items := s.items.insert index { value }, ids := id :: s.ids })

/-- The item that an event is about. -/
def item (s : ResponseState) (event : Value) : Except AdapterError ItemState := do
  let index ← orElse (event.index "output_index").asU64 (protocol "Responses event requires output_index")
  let item ← orElse (s.items.get? index)
    (protocol "Responses delta/done arrived before output_item.added")
  let eventId ← string event "item_id"
  let itemId ← string item.value "id"
  refuse (eventId != itemId) (protocol "Responses event item_id does not match output_index")
  refuse item.completed (protocol "Responses delta/done arrived after item completion")
  return item

section
variable [ToolJson]

/-- An item is completed, or is checked to be the one that was. -/
def finish (s : ResponseState) (index : Nat) (value : Value) (turnId : String) :
    Except AdapterError (List AgentStreamEvent × ResponseState) := do
  let (started, s) ← s.start index value turnId
  -- the index is known after `start`
  let state := (s.items.get? index).getD { value }
  let item ← canonical value
  if state.completed then do
    let completed ← canonical state.value
    refuse (decide (completed ≠ item)) (protocol "Responses terminal snapshot changed a completed item")
    return (started.toList, s)
  else
    return (started.toList ++ [.itemCompleted turnId item],
      { s with items := s.items.insert index { value, completed := true } })

/-- The loop over the output of a completed response. -/
def finishAll (s : ResponseState) (turnId : String) (index : Nat) :
    List Value → List AgentStreamEvent × Except AdapterError ResponseState
  | [] => ([], .ok s)
  | value :: values =>
    match s.finish index value turnId with
    | .error e => ([], .error e)
    | .ok (events, s) =>
      let (rest, result) := finishAll s turnId (index + 1) values
      (events ++ rest, result)

end

end ResponseState

/-! ## Events -/

/-- The kinds of a delta. -/
inductive DeltaKind where
  | text
  | reasoning
  | arguments
  deriving DecidableEq

/-- The types of an event. -/
inductive Event where
  | progress
  | itemAdded
  | itemDone
  | delta (kind : DeltaKind)
  | part
  | completed
  | error
  | failed
  | incomplete
  | annotationAdded
  | other
  deriving DecidableEq

/-- The type of an event. -/
def eventOf : String → Event
  | "response.created" | "response.in_progress" | "response.queued" => .progress
  | "response.output_item.added" => .itemAdded
  | "response.output_item.done" => .itemDone
  | "response.output_text.delta" => .delta .text
  | "response.reasoning_summary_text.delta" => .delta .reasoning
  | "response.function_call_arguments.delta" => .delta .arguments
  | "response.output_text.done" | "response.function_call_arguments.done"
  | "response.reasoning_summary_text.done" | "response.content_part.added" | "response.content_part.done"
  | "response.reasoning_summary_part.added" | "response.reasoning_summary_part.done" => .part
  | "response.completed" => .completed
  | "error" => .error
  | "response.failed" => .failed
  | "response.incomplete" => .incomplete
  | "response.output_text.annotation.added" => .annotationAdded
  | _ => .other

variable (ids : StreamIds)

namespace ResponseState

/-- A delta. -/
def delta (s : ResponseState) (kind : DeltaKind) (value : Value) : Except AdapterError AgentStreamEvent := do
  let item ← s.item value
  let itemId ← string item.value "id"
  let delta ← string value "delta"
  let type ← string item.value "type"
  match kind with
  | .text =>
    refuse (type != "message") (protocol "Text delta requires message item")
    return .textDelta ids.turnId itemId delta
  | .reasoning =>
    refuse (type != "reasoning") (protocol "Reasoning delta requires reasoning item")
    return .reasoningDelta ids.turnId itemId delta
  | .arguments =>
    refuse (type != "function_call") (protocol "Arguments delta requires function_call item")
    let callId ← string item.value "call_id"
    return .toolCallDelta ids.turnId itemId callId delta

/-- An item under its index. -/
def indexed (value : Value) : Except AdapterError Nat :=
  orElse (value.index "output_index").asU64 (protocol "Responses item requires output_index")

/-- The usage of a response. -/
def usageOf (usage : Value) : UsageMetrics where
  inputTokens := (usage.index "input_tokens").asU64.getD 0
  outputTokens := (usage.index "output_tokens").asU64.getD 0
  reasoningTokens := ((usage.index "output_tokens_details").index "reasoning_tokens").asU64.getD 0
  cacheReadInputTokens := ((usage.index "input_tokens_details").index "cached_tokens").asU64.getD 0

/-- The output of a response that is completed. -/
def outputOf (response : Value) : Except AdapterError (List Value) := do
  let status ← string response "status"
  refuse (status != "completed") (protocol "response.completed has non-completed status")
  orElse (response.index "output").asArray (protocol "response.completed requires output array")

/-- A failure that the provider reports. -/
def reported (event : Event) (value : Value) : AgentStreamEvent :=
  let (code, message) := match event with
    | .error => ((value.index "code").asStr.getD "provider_error",
        (value.index "message").asStr.getD "Responses stream error")
    | .failed =>
      let error := (value.index "response").index "error"
      ((error.index "code").asStr.getD "response_failed",
        (error.index "message").asStr.getD "Responses generation failed")
    | _ =>
      let reason := (((value.index "response").index "incomplete_details").index "reason").asStr.getD "unknown"
      ("response_incomplete", "Responses generation incomplete: " ++ reason)
  .turnFailed ids.turnId ids.threadId code message

/-- What a step emits, or the error that it ends with. -/
def emitted : Except AdapterError (List AgentStreamEvent × ResponseState) → Emission ResponseState
  | .ok (events, s) => (events, .go s)
  | .error e => ([], .fail e)

section
variable [ToolJson]

/-- The end of a completed response. -/
def complete (s : ResponseState) (response : Value) : Emission ResponseState :=
  match outputOf response with
  | .error e => ([], .fail e)
  | .ok output =>
    match s.finishAll ids.turnId 0 output with
    | (events, .error e) => (events, .fail e)
    | (events, .ok s) =>
      if s.items.entries.length ≠ output.length ∨ s.items.values.any (!·.completed) then
        (events, .fail (protocol "Responses terminal output omitted a streamed item"))
      else (events ++ [.turnCompleted ids.turnId ids.threadId (usageOf (response.index "usage"))], .stop)

/-- An event of a type. -/
def event (s : ResponseState) (type : String) (value : Value) : Emission ResponseState :=
  match eventOf type with
  | .progress | .annotationAdded => ([], .go s)
  | .itemAdded => emitted do
    let index ← indexed value
    let (started, s) ← s.start index (value.index "item") ids.turnId
    return (started.toList, s)
  | .itemDone => emitted do
    let index ← indexed value
    s.finish index (value.index "item") ids.turnId
  | .delta kind => emitted do
    let delta ← s.delta ids kind value
    return ([delta], s)
  | .part => emitted do
    let _ ← s.item value
    return ([], s)
  | .completed => s.complete ids (value.index "response")
  | .error => ([reported ids .error value], .stop)
  | .failed => ([reported ids .failed value], .stop)
  | .incomplete => ([reported ids .incomplete value], .stop)
  | .other => ([], .fail (protocol ("Unsupported Responses SSE event: " ++ type)))

/-- An event of the stream. -/
def feed (s : ResponseState) : Sse → Emission ResponseState
  | .error e => ([], .fail (.streamParseError e))
  | .ok data =>
    if trim data = "" then ([], .go s)
    else match ToolJson.parse data with
      | .error e => ([], .fail (.streamParseError ("Invalid Responses SSE JSON: " ++ e)))
      | .ok value =>
        match string value "type" with
        | .error e => ([], .fail e)
        | .ok type => s.event ids type value

end

/-- The stream ends before its last event. -/
def finished (_ : ResponseState) : List AgentStreamEvent × Option AdapterError :=
  ([], some (.streamParseError "Unexpected EOF before Responses terminal event"))

end ResponseState

section
variable [ToolJson]

def parser : AdapterParser ResponseState := ⟨ResponseState.feed ids, ResponseState.finished⟩

/-- `parse_stream`: the events, and the error that ends them. -/
def parseStream (inputs : List Sse) : List AgentStreamEvent × Option AdapterError :=
  let (es, e) := (parser ids).run {} inputs
  (.turnStarted ids.turnId ids.threadId :: es, e)

end

end Whale.Responses
