import Whale.Adapters.Stream

/-!
# Anthropic messages

`parse_stream` of `whale-adapters/src/anthropic.rs`: the events of a message, which is streamed block by
block.
-/

namespace Whale.Anthropic

/-- The variables of `parse_stream`; the first item id is drawn before the loop. -/
structure State where
  drawn : Nat := 1
  itemId : String
  blockType : String := ""
  blockOpen : Bool := false
  textBuf : String := ""
  thinkingBuf : String := ""
  signatureBuf : String := ""
  toolId : String := ""
  toolName : String := ""
  toolArgBuf : String := ""
  usage : UsageMetrics := {}

variable (ids : StreamIds)

def protocol (message : String) : AdapterError := .protocolError message

/-- The item type and the phase that a block is announced with. -/
def announced : String → Option (String × Option MessagePhase)
  | "text" => some ("assistant_message", some .finalAnswer)
  | "thinking" => some ("reasoning", some .commentary)
  | "tool_use" => some ("tool_call", none)
  | _ => none

/-- The usage of `message_start`. -/
def startUsage (u : UsageMetrics) (usage : Value) : UsageMetrics :=
  { u with
    inputTokens := (usage.u64At "input_tokens").getD u.inputTokens
    cacheCreationInputTokens :=
      (usage.u64At "cache_creation_input_tokens").getD u.cacheCreationInputTokens
    cacheReadInputTokens := (usage.u64At "cache_read_input_tokens").getD u.cacheReadInputTokens }

/-- The state in which a block starts: a new id and empty buffers. -/
def State.cleared (s : State) : State :=
  { s with
    drawn := s.drawn + 1
    itemId := ids.item s.drawn
    blockOpen := true
    textBuf := ""
    thinkingBuf := ""
    signatureBuf := ""
    toolId := ""
    toolName := ""
    toolArgBuf := "" }

/-- The type of a block. -/
def typeOf (block : Value) : String := (block.strAt "type").getD ""

/-- The state with the type of its block, and the identity of a tool. -/
def State.typed (s : State) (block : Value) : State :=
  { s with
    blockType := typeOf block
    toolId := if typeOf block = "tool_use" then (block.strAt "id").getD s.toolId else s.toolId
    toolName := if typeOf block = "tool_use" then (block.strAt "name").getD s.toolName else s.toolName }

/-- `content_block_start`. A start without a block keeps the type of the one before. -/
def State.start (s : State) (parsed : Value) : Emission State :=
  if s.blockOpen then
    ([], .fail (protocol "Anthropic started a block before closing the previous block"))
  else match parsed.get "content_block" with
    | none => ([], .go (s.cleared ids))
    | some block =>
      ((announced (typeOf block)).toList.map fun a =>
          .itemStarted ids.turnId (s.cleared ids).itemId a.1 a.2,
        .go ((s.cleared ids).typed block))

/-- The delta of a `content_block_delta`. -/
inductive Delta where
  | text (text : String)
  | thinking (thinking : String)
  | signature (signature : String)
  | json (partialJson : String)

/-- The delta of an event; one of another type is ignored. -/
def deltaOf (parsed : Value) : Option Delta :=
  (parsed.get "delta").bind fun delta =>
    match (delta.strAt "type").getD "" with
    | "text_delta" => (delta.strAt "text").map .text
    | "thinking_delta" => (delta.strAt "thinking").map .thinking
    | "signature_delta" => (delta.strAt "signature").map .signature
    | "input_json_delta" => (delta.strAt "partial_json").map .json
    | _ => none

/-- `content_block_delta`. -/
def State.delta (s : State) (parsed : Value) : Emission State :=
  match deltaOf parsed with
  | none => ([], .go s)
  | some (.text text) => ([.textDelta ids.turnId s.itemId text], .go { s with textBuf := s.textBuf ++ text })
  | some (.thinking thinking) => ([.reasoningDelta ids.turnId s.itemId thinking],
      .go { s with thinkingBuf := s.thinkingBuf ++ thinking })
  | some (.signature sig) => ([.reasoningSignature ids.turnId s.itemId sig],
      .go { s with signatureBuf := s.signatureBuf ++ sig })
  | some (.json json) => ([.toolCallDelta ids.turnId s.itemId s.toolId json],
      .go { s with toolArgBuf := s.toolArgBuf ++ json })

section
variable [ToolJson]

/-- The item of the current block. -/
def State.item (s : State) : Option CanonicalItem :=
  match s.blockType with
  | "text" => some (.assistantMessage s.itemId [.text s.textBuf] .finalAnswer)
  | "thinking" => some (.reasoning s.itemId s.thinkingBuf
      (if s.signatureBuf = "" then none else some s.signatureBuf) none)
  | "tool_use" => some (.toolCall s.itemId s.toolId none s.toolName (parsedArguments s.toolArgBuf)
      s.toolArgBuf)
  | _ => none

/-- `content_block_stop`. -/
def State.stop (s : State) : Emission State :=
  (s.item.toList.map fun item => .itemCompleted ids.turnId item, .go { s with blockOpen := false })

/-- The stop reasons of a complete response. -/
def supportedReason (reason : String) : Bool :=
  reason == "end_turn" || reason == "tool_use" || reason == "stop_sequence" || reason == "refusal"

/-- The usage of `message_delta`. -/
def State.messageUsage (s : State) (parsed : Value) : State :=
  { s with usage := { s.usage with
      outputTokens := ((parsed.get "usage").bind (·.u64At "output_tokens")).getD s.usage.outputTokens } }

/-- `message_delta`. -/
def State.messageDelta (s : State) (parsed : Value) : Emission State :=
  match ((parsed.index "delta").index "stop_reason").asStr with
  | some reason =>
    if supportedReason reason then ([], .go (s.messageUsage parsed))
    else ([.turnFailed ids.turnId ids.threadId "incomplete_completion"
      ("Anthropic generation stopped without a complete supported response: " ++ reason)], .stop)
  | none => ([], .go (s.messageUsage parsed))

/-- `message_stop`. -/
def State.messageStop (s : State) : Emission State :=
  if s.blockOpen then
    ([], .fail (protocol "Anthropic message_stop arrived before content_block_stop"))
  else ([.turnCompleted ids.turnId ids.threadId s.usage], .stop)

/-- `error`. -/
def reported (parsed : Value) : AgentStreamEvent :=
  let err := parsed.get "error"
  .turnFailed ids.turnId ids.threadId ((err.bind (·.strAt "type")).getD "API_ERROR")
    ((err.bind (·.strAt "message")).getD "Unknown Anthropic API error")

/-- The types of an event. -/
inductive Event where
  | messageStart
  | blockStart
  | blockDelta
  | blockStop
  | messageDelta
  | messageStop
  | error
  | other
  deriving DecidableEq

/-- The type of an event. -/
def eventOf (parsed : Value) : Event :=
  match (parsed.strAt "type").getD "" with
  | "message_start" => .messageStart
  | "content_block_start" => .blockStart
  | "content_block_delta" => .blockDelta
  | "content_block_stop" => .blockStop
  | "message_delta" => .messageDelta
  | "message_stop" => .messageStop
  | "error" => .error
  | _ => .other

/-- `message_start`. -/
def State.messageStart (s : State) (parsed : Value) : State :=
  { s with usage := match (parsed.get "message").bind (·.get "usage") with
      | some usage => startUsage s.usage usage
      | none => s.usage }

/-- A parsed event. -/
def State.event (s : State) (parsed : Value) : Emission State :=
  match eventOf parsed with
  | .messageStart => ([], .go (s.messageStart parsed))
  | .blockStart => s.start ids parsed
  | .blockDelta => s.delta ids parsed
  | .blockStop => s.stop ids
  | .messageDelta => s.messageDelta ids parsed
  | .messageStop => s.messageStop ids
  | .error => ([reported ids parsed], .stop)
  | .other => ([], .go s)

/-- The JSON of an event, unless its data is skipped. -/
def readSse : Sse → Except AdapterError (Option Value)
  | .error e => .error (.streamParseError e)
  | .ok data =>
    if trim data = "" ∨ trim data = "[DONE]" then .ok none else (decodeSse (trim data)).map some

/-- An event of the stream. -/
def State.feed (s : State) (input : Sse) : Emission State :=
  match readSse input with
  | .error e => ([], .fail e)
  | .ok none => ([], .go s)
  | .ok (some parsed) => s.event ids parsed

/-- The stream ends before `message_stop`. -/
def State.finish (_ : State) : List AgentStreamEvent × Option AdapterError :=
  ([], some (.streamParseError "Unexpected EOF before Anthropic message_stop"))

def parser : AdapterParser State := ⟨State.feed ids, State.finish⟩

/-- `parse_stream`: the events, and the error that ends them. -/
def parseStream (inputs : List Sse) : List AgentStreamEvent × Option AdapterError :=
  let (es, e) := (parser ids).run { itemId := ids.item 0 } inputs
  (.turnStarted ids.turnId ids.threadId :: es, e)

end

end Whale.Anthropic
