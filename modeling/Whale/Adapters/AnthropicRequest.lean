import Whale.Adapters.Wire

/-!
# Requests of Anthropic

`serialize_request` of `whale-adapters/src/anthropic.rs`: the history as messages of alternating roles, each
with the blocks of consecutive items of its role.
-/

namespace Whale.Anthropic

def textBlock (text : String) : Value := .object [("text", .string text), ("type", .string "text")]

/-- An image block with its data or its URL. -/
def imageBlock (mimeType : String) : Option String → Option String → Option Value
  | some data, _ => some (.object [
      ("source", .object [("data", .string data), ("media_type", .string mimeType),
        ("type", .string "base64")]),
      ("type", .string "image")])
  | none, some uri => some (.object [
      ("source", .object [("type", .string "url"), ("url", .string uri)]), ("type", .string "image")])
  | none, none => none

/-- A block of a user message or of a tool result. -/
def contentBlock : CanonicalContent → Option Value
  | .text text => some (textBlock text)
  | .image mimeType data uri => imageBlock mimeType data uri
  | .audio .. => none

/-- A block of an assistant message. -/
def assistantBlock : CanonicalContent → Option Value
  | .text text => some (textBlock text)
  | _ => none

section
variable [ToolJson]

/-- The input of a tool use. -/
def inputOf (arguments : Option Value) (rawArguments : String) : Value :=
  match arguments with
  | some arguments => arguments
  | none =>
    match ToolJson.parse rawArguments with
    | .ok parsed => parsed
    | .error _ => .object []

def toolUse (callId name : String) (arguments : Option Value) (rawArguments : String) : Value :=
  .object [("id", .string callId), ("input", inputOf arguments rawArguments), ("name", .string name),
    ("type", .string "tool_use")]

end

section
variable [JsonText]

/-- The content of a tool result. -/
def resultContent : CanonicalToolOutput → Value
  | .text text => .string text
  | .structured data => .string (JsonText.print data)
  | .blocks blocks => .array (blocks.filterMap contentBlock)

def toolResult (callId : String) (output : CanonicalToolOutput) (isError : Bool) : Value :=
  let block : JsonMap := [("content", resultContent output), ("tool_use_id", .string callId),
    ("type", .string "tool_result")]
  .object (if isError then block.insert "is_error" (.bool true) else block)

end

/-- A thinking block. -/
def thinkingBlock (thinking : String) (signature : Option String) : Value :=
  let block : JsonMap := [("thinking", .string thinking), ("type", .string "thinking")]
  .object (block.insertSome "signature" (signature.map .string))

/-! ## Messages -/

/-- The role of a message. -/
inductive Role where
  | user
  | assistant
  deriving DecidableEq

def Role.name : Role → String
  | user => "user"
  | assistant => "assistant"

structure Message where
  role : Role
  content : List Value

/-- The JSON of a message. -/
def Message.value (m : Message) : Value :=
  .object [("content", .array m.content), ("role", .string m.role.name)]

/-- `push_or_merge_message`. -/
def pushOrMergeMessage (messages : List Message) (role : Role) (blocks : List Value) : List Message :=
  match messages.getLast? with
  | some last =>
    if last.role = role then messages.dropLast ++ [{ last with content := last.content ++ blocks }]
    else messages ++ [⟨role, blocks⟩]
  | none => [⟨role, blocks⟩]

section
variable [ToolJson] [JsonText]

/-- The role and the blocks of an item. -/
def itemBlocks : CanonicalItem → Role × List Value
  | .userMessage _ content => (.user, content.filterMap contentBlock)
  | .reasoning _ thinking signature _ => (.assistant, [thinkingBlock thinking signature])
  | .assistantMessage _ content _ => (.assistant, content.filterMap assistantBlock)
  | .toolCall _ callId _ name arguments rawArguments =>
    (.assistant, [toolUse callId name arguments rawArguments])
  | .toolResult _ callId output isError => (.user, [toolResult callId output isError])

/-- An item of the history; one without blocks is skipped. -/
def pushItem (messages : List Message) (item : CanonicalItem) : List Message :=
  let (role, blocks) := itemBlocks item
  if blocks.isEmpty then messages else pushOrMergeMessage messages role blocks

/-- `cache_control` on a block. -/
def cached : Value → Value
  | .object m => .object (JsonMap.insert m "cache_control" (.object [("type", .string "ephemeral")]))
  | v => v

/-- `cache_control` on the last block of the last message. -/
def cacheLast (messages : List Message) : List Message :=
  messages.modifyLast fun m => { m with content := m.content.modifyLast cached }

/-- The messages of a request. -/
def messagesOf (promptCaching : Bool) (history : List CanonicalItem) : List Message :=
  let messages := history.foldl pushItem []
  if promptCaching then cacheLast messages else messages

/-- The system prompt. -/
def systemValue (promptCaching : Bool) (system : String) : Value :=
  .array [if promptCaching then cached (textBlock system) else textBlock system]

/-- A tool of a request. -/
def toolValue (t : ToolDefinition) : Value :=
  .object [("description", .string t.description), ("input_schema", t.parameters), ("name", .string t.name)]

/-- The body of a request, unless the temperature does not go with thinking. -/
def body (systemPrompt : Option String) (history : List CanonicalItem) (tools : List ToolDefinition)
    (options : SamplingOptions) : Except AdapterError JsonMap := do
  let body := JsonMap.insert [] "model" (.string options.model)
  let body := body.insert "max_tokens" (.number (.int (options.maxTokens.getD 4096)))
  let body := body.insert "stream" (.bool true)
  Check.refuse (options.temperature.any fun t => options.thinkingBudget.isSome && t != ⟨0x3F800000#32⟩)
    (.protocolError "Anthropic thinking requires temperature=1 or no explicit temperature")
  let body := body.insertSome "temperature" (options.temperature.map F32.json)
  let body := body.insertSome "thinking" (options.thinkingBudget.map fun budget =>
    .object [("budget_tokens", .number (.int budget)), ("type", .string "enabled")])
  let body := body.insertSome "system" (systemPrompt.map (systemValue options.promptCaching))
  let body := body.insertSome "tools"
    (if tools.isEmpty then none else some (.array (tools.map toolValue)))
  return body.insert "messages" (.array ((messagesOf options.promptCaching history).map (·.value)))

end

end Whale.Anthropic
