import Whale.Adapters.Wire

/-!
# Requests of Chat Completions

`serialize_request` of `whale-adapters/src/openai.rs` for the wire API `ChatCompletions`.
-/

namespace Whale.Chat

/-- `{"type": "text", "text": text}`. -/
def textPart (text : String) : Value := .object [("text", .string text), ("type", .string "text")]

/-- The URL of inline data. -/
def dataUrl (mimeType data : String) : String := "data:" ++ mimeType ++ ";base64," ++ data

/-- The URL of an image. -/
def imageUrl (mimeType : String) : Option String → Option String → Option String
  | some data, _ => some (dataUrl mimeType data)
  | none, some uri => some uri
  | none, none => none

def imagePart (url : String) : Value :=
  .object [("image_url", .object [("url", .string url)]), ("type", .string "image_url")]

/-- A block of a user message. -/
def userPart : CanonicalContent → Option Value
  | .text text => some (textPart text)
  | .image mimeType data uri => (imageUrl mimeType data uri).map imagePart
  | .audio .. => none

/-- The content of a user message: a string when it is a single text. -/
def userContent : List CanonicalContent → Value
  | [.text text] => .string text
  | content => .array (content.filterMap userPart)

/-- The texts among some blocks, joined. -/
def joinedText (content : List CanonicalContent) : String :=
  String.join (content.filterMap fun c => match c with
    | .text text => some text
    | _ => none)

section
variable [JsonText]

/-- The arguments of a tool call. -/
def callArguments (arguments : Option Value) (rawArguments : String) : String :=
  if rawArguments ≠ "" then rawArguments
  else match arguments with
    | some arguments => JsonText.print arguments
    | none => "\x7b\x7d"

/-- An element of `tool_calls`. -/
def toolCall (callId name : String) (arguments : Option Value) (rawArguments : String) : Value :=
  .object [
    ("function", .object [("arguments", .string (callArguments arguments rawArguments)),
      ("name", .string name)]),
    ("id", .string callId), ("type", .string "function")]

/-- The content of a tool message. -/
def toolContent : CanonicalToolOutput → String
  | .text text => text
  | .structured data => JsonText.print data
  | .blocks blocks => joinedText blocks

end

/-! ## Messages -/

/-- The messages that a request is made of. -/
inductive Message where
  | prompt (role content : String)
  | user (content : Value)
  | assistant (content : String)
  | reasoning (thinking : String)
  | toolCalls (calls : List Value)
  | tool (callId content : String)

namespace Message

/-- The JSON of a message. -/
def value : Message → Value
  | prompt role content => .object [("content", .string content), ("role", .string role)]
  | user content => .object [("content", content), ("role", .string "user")]
  | assistant content => .object [("content", .string content), ("role", .string "assistant")]
  | reasoning thinking =>
    .object [("reasoning_content", .string thinking), ("role", .string "assistant")]
  | toolCalls calls => .object [("role", .string "assistant"), ("tool_calls", .array calls)]
  | tool callId content => .object [("content", .string content), ("role", .string "tool"),
      ("tool_call_id", .string callId)]

/-- `message["tool_calls"].as_array_mut().push(call)`. -/
def push (call : Value) : Message → Message
  | toolCalls calls => toolCalls (calls ++ [call])
  | message => message

end Message

/-- The variables of the loop over the history. -/
structure Transcript where
  messages : List Message := []
  toolGroup : Option Nat := none

section
variable [JsonText]

/-- An item of the history. -/
def Transcript.item (t : Transcript) : CanonicalItem → Transcript
  | .userMessage _ content => { messages := t.messages ++ [.user (userContent content)] }
  | .assistantMessage _ content _ => { messages := t.messages ++ [.assistant (joinedText content)] }
  | .reasoning _ thinking _ _ => { messages := t.messages ++ [.reasoning thinking] }
  | .toolCall _ callId _ name arguments rawArguments =>
    let call := toolCall callId name arguments rawArguments
    match t.toolGroup with
    | some index => { t with messages := t.messages.modify index (·.push call) }
    | none => { messages := t.messages ++ [.toolCalls [call]], toolGroup := some t.messages.length }
  | .toolResult _ callId output _ => { messages := t.messages ++ [.tool callId (toolContent output)] }

/-- The messages of a request. -/
def messagesOf (model : String) (systemPrompt : Option String) (history : List CanonicalItem) : List Message :=
  let prompt := systemPrompt.toList.map fun system =>
    Message.prompt (if model.startsWith "o1" then "developer" else "system") system
  (history.foldl Transcript.item { messages := prompt }).messages

/-- A tool of a request. -/
def toolValue (t : ToolDefinition) : Value :=
  .object [
    ("function", .object [("description", .string t.description), ("name", .string t.name),
      ("parameters", t.parameters)]),
    ("type", .string "function")]

/-- The body of a request. -/
def body (systemPrompt : Option String) (history : List CanonicalItem) (tools : List ToolDefinition)
    (options : SamplingOptions) : JsonMap :=
  let body := JsonMap.insert [] "model" (.string options.model)
  let body := body.insert "stream" (.bool true)
  let body := body.insert "stream_options" (.object [("include_usage", .bool true)])
  let body := body.insertSome "temperature" (options.temperature.map F32.json)
  let body := body.insertSome
    (if options.model.startsWith "o1" || options.model.startsWith "o3" then "max_completion_tokens"
      else "max_tokens")
    (options.maxTokens.map fun n => .number (.int n))
  let body := body.insertSome "reasoning_effort" (options.reasoningEffort.map .string)
  let body := body.insert "messages"
    (.array ((messagesOf options.model systemPrompt history).map (·.value)))
  body.insertSome "tools" (if tools.isEmpty then none else some (.array (tools.map toolValue)))

end

end Whale.Chat
