import Whale.Adapters.Wire

/-!
# Requests of Responses

`serialize_request` of `whale-adapters/src/responses.rs`, with the validation and the headers that
`openai.rs` puts before it.
-/

namespace Whale.Responses

open Check

/-- An image has its data or its URI. -/
def imageUrl (mimeType : String) : Option String → Option String → Except AdapterError String
  | some data, none => .ok ("data:" ++ mimeType ++ ";base64," ++ data)
  | none, some uri => .ok uri
  | _, _ => .error (.protocolError "Responses image requires exactly one of data or uri")

/-- A block of `input_content`. -/
def inputBlock : CanonicalContent → Except AdapterError Value
  | .text text => .ok (.object [("text", .string text), ("type", .string "input_text")])
  | .image mimeType data uri => do
    let url ← imageUrl mimeType data uri
    return .object [("image_url", .string url), ("type", .string "input_image")]
  | .audio .. => .error (.protocolError "Responses audio content is not supported by the canonical adapter")

/-- `input_content`. -/
def inputContent (content : List CanonicalContent) : Except AdapterError (List Value) := content.mapM inputBlock

/-- A block of an assistant message. -/
def assistantText : CanonicalContent → Except AdapterError String
  | .text text => .ok text
  | _ => .error (.protocolError "Responses assistant history only supports text content")

/-- The phase of a message on the wire. -/
def phaseValue : MessagePhase → Value
  | .commentary => .string "commentary"
  | .finalAnswer => .string "final_answer"

section
variable [JsonText]

/-- The arguments of a function call. -/
def callArguments (arguments : Option Value) (rawArguments : String) : String :=
  if rawArguments = "" then (arguments.map JsonText.print).getD "\x7b\x7d" else rawArguments

def functionCall (callId name : String) (namesp : Option String) (arguments : Option Value)
    (rawArguments : String) : Value :=
  let call : JsonMap := [("arguments", .string (callArguments arguments rawArguments)),
    ("call_id", .string callId), ("name", .string name), ("type", .string "function_call")]
  .object (call.insertSome "namespace" (namesp.map .string))

/-- The output of a function call. -/
def outputValue : CanonicalToolOutput → Except AdapterError Value
  | .text text => .ok (.string text)
  | .structured data => .ok (.string (JsonText.print data))
  | .blocks blocks => (inputContent blocks).map .array

/-- What the model is told of a failed call, for which the wire has no field. -/
def failedOutput (output : Value) : Value := .object [("is_error", .bool true), ("output", output)]

/-- A reasoning item. -/
def reasoningValue (id thinking : String) (encryptedContent : Option String) : Value :=
  let summary := if thinking = "" then []
    else [.object [("text", .string thinking), ("type", .string "summary_text")]]
  let value : JsonMap := [("id", .string id), ("summary", .array summary), ("type", .string "reasoning")]
  .object (value.insertSome "encrypted_content" (encryptedContent.map .string))

/-- An item of the input. -/
def inputItem : CanonicalItem → Except AdapterError Value
  | .userMessage _ content => do
    let content ← inputContent content
    return .object [("content", .array content), ("role", .string "user")]
  | .assistantMessage _ content phase => do
    let texts ← content.mapM assistantText
    return .object [("content", .string (String.join texts)), ("phase", phaseValue phase),
      ("role", .string "assistant")]
  | .reasoning id thinking signature encryptedContent => do
    refuse signature.isSome (.protocolError "Responses cannot replay an Anthropic reasoning signature")
    return reasoningValue id thinking encryptedContent
  | .toolCall _ callId namesp name arguments rawArguments =>
    .ok (functionCall callId name namesp arguments rawArguments)
  | .toolResult _ callId output isError => do
    let output ← outputValue output
    let output := if isError then .string (JsonText.print (failedOutput output)) else output
    return .object [("call_id", .string callId), ("output", output), ("type", .string "function_call_output")]

/-- A tool of a request. -/
def toolValue (t : ToolDefinition) : Value :=
  .object [("description", .string t.description), ("name", .string t.name), ("parameters", t.parameters),
    ("type", .string "function")]

/-- `serialize_request` of `responses.rs`. -/
def body (systemPrompt : Option String) (history : List CanonicalItem) (tools : List ToolDefinition)
    (options : SamplingOptions) : Except AdapterError JsonMap := do
  let input ← history.mapM inputItem
  let body : JsonMap := [("include", .array [.string "reasoning.encrypted_content"]), ("input", .array input),
    ("model", .string options.model), ("store", .bool false), ("stream", .bool true)]
  let body := body.insertSome "instructions" (systemPrompt.map .string)
  let body := body.insertSome "reasoning" (options.reasoningEffort.map fun e => .object [("effort", .string e)])
  let body := body.insertSome "temperature" (options.temperature.map F32.json)
  let body := body.insertSome "max_output_tokens" (options.maxTokens.map fun n => .number (.int n))
  refuse options.thinkingBudget.isSome
    (.protocolError "Responses does not support thinking_budget; use reasoning_effort")
  return body.insertSome "tools" (if tools.isEmpty then none else some (.array (tools.map toolValue)))

end

end Whale.Responses
