import Whale.Adapters.Stream
import Whale.Lib.OrdMap

/-!
# Chat Completions

`parse_stream` of `whale-adapters/src/openai.rs`: the chunks of a chat completion, whose choice carries
fragments of reasoning, of text and of indexed tool calls.
-/

namespace Whale.Chat

/-- A tool call that is being streamed. -/
structure ToolFragment where
  itemId : String
  callId : String := ""
  name : String := ""
  arguments : String := ""
  deriving DecidableEq, Repr

/-- The variables of `parse_stream`. The map of the tool calls is traversed in the order of its indices
only. -/
structure State where
  drawn : Nat := 0
  textId : Option String := none
  reasoningId : Option String := none
  textBuf : String := ""
  reasoningBuf : String := ""
  tools : OrdMap Nat ToolFragment := .empty
  usage : UsageMetrics := {}
  finished : Bool := false

variable (ids : StreamIds)

/-! ## The fragments of a choice -/

/-- The completion of the reasoning that is open. -/
def State.closeReasoning (s : State) : List AgentStreamEvent × State :=
  match s.reasoningId with
  | some id => ([.itemCompleted ids.turnId (.reasoning id s.reasoningBuf none none)],
      { s with reasoningId := none })
  | none => ([], s)

/-- A fragment of `reasoning_content`. -/
def State.reason (s : State) (reasoning : String) : List AgentStreamEvent × State :=
  if reasoning = "" then ([], s)
  else
    let id := s.reasoningId.getD (ids.item s.drawn)
    let drawn := if s.reasoningId.isSome then s.drawn else s.drawn + 1
    let started := if s.reasoningBuf = "" then
      [.itemStarted ids.turnId id "reasoning" (some .commentary)] else []
    (started ++ [.reasoningDelta ids.turnId id reasoning],
      { s with drawn, reasoningId := some id, reasoningBuf := s.reasoningBuf ++ reasoning })

/-- A fragment of `content` when no reasoning is open. -/
def State.speak (s : State) (content : String) : List AgentStreamEvent × State :=
  let id := s.textId.getD (ids.item s.drawn)
  let drawn := if s.textId.isSome then s.drawn else s.drawn + 1
  let started := if s.textBuf = "" then
    [.itemStarted ids.turnId id "assistant_message" (some .finalAnswer)] else []
  (started ++ [.textDelta ids.turnId id content],
    { s with drawn, textId := some id, textBuf := s.textBuf ++ content })

/-- A fragment of `content`, which ends the reasoning. -/
def State.say (s : State) (content : String) : List AgentStreamEvent × State :=
  if content = "" then ([], s)
  else
    let (closed, s) := s.closeReasoning ids
    let (spoken, s) := s.speak ids content
    (closed ++ spoken, s)

/-- An element of `tool_calls`. -/
def State.call (s : State) (tc : Value) : List AgentStreamEvent × State :=
  let index := (tc.u64At "index").getD 0
  let known := s.tools.get? index
  let drawn := if known.isSome then s.drawn else s.drawn + 1
  let entry := known.getD { itemId := ids.item s.drawn }
  let entry := { entry with callId := (tc.strAt "id").getD entry.callId }
  match tc.get "function" with
  | none => ([], { s with drawn, tools := s.tools.insert index entry })
  | some func =>
    let entry := { entry with name := (func.strAt "name").getD entry.name }
    let chunk := (func.strAt "arguments").getD ""
    if chunk = "" then ([], { s with drawn, tools := s.tools.insert index entry })
    else ([.toolCallDelta ids.turnId entry.itemId entry.callId chunk],
      { s with drawn, tools := s.tools.insert index { entry with arguments := entry.arguments ++ chunk } })

/-- The loop over `tool_calls`. -/
def State.calls : State → List Value → List AgentStreamEvent × State
  | s, [] => ([], s)
  | s, tc :: tcs =>
    let (es, s) := s.call ids tc
    let (rest, s) := State.calls s tcs
    (es ++ rest, s)

/-- The `delta` of a choice. -/
def State.delta (s : State) (d : Value) : List AgentStreamEvent × State :=
  let (reasoned, s) := s.reason ids ((d.strAt "reasoning_content").getD "")
  let (said, s) := s.say ids ((d.strAt "content").getD "")
  let (called, s) := s.calls ids (((d.get "tool_calls").bind Value.asArray).getD [])
  (reasoned ++ said ++ called, s)

section
variable [ToolJson]

/-- The item of a tool call. -/
def ToolFragment.item (f : ToolFragment) : CanonicalItem :=
  .toolCall f.itemId f.callId none f.name (parsedArguments f.arguments) f.arguments

/-- What a `finish_reason` completes: the reasoning, the text and the tool calls. -/
def State.complete (s : State) : List AgentStreamEvent × State :=
  let (closed, s) := State.closeReasoning ids { s with finished := true }
  let said := s.textId.toList.map fun id =>
    .itemCompleted ids.turnId (.assistantMessage id [.text s.textBuf] .finalAnswer)
  let called := s.tools.values.map fun f => .itemCompleted ids.turnId f.item
  (closed ++ said ++ called, { s with textId := none, tools := .empty })

/-! ## Chunks -/

/-- The usage after the usage of a chunk. -/
def usageOf (u : UsageMetrics) (usage : Value) : UsageMetrics where
  inputTokens := (usage.u64At "prompt_tokens").getD u.inputTokens
  outputTokens := (usage.u64At "completion_tokens").getD u.outputTokens
  reasoningTokens := ((usage.get "completion_tokens_details").bind
    (·.u64At "reasoning_tokens")).getD u.reasoningTokens
  cacheCreationInputTokens := u.cacheCreationInputTokens
  cacheReadInputTokens := ((usage.get "prompt_tokens_details").bind
    (·.u64At "cached_tokens")).getD u.cacheReadInputTokens

/-- The state with the usage of a chunk. -/
def State.metered (s : State) (chunk : Value) : State :=
  { s with usage := match chunk.get "usage" with
      | some usage => usageOf s.usage usage
      | none => s.usage }

/-- The first choice of a chunk. -/
def choiceOf (chunk : Value) : Option Value := ((chunk.get "choices").bind Value.asArray).bind (·.head?)

/-- The finish reasons of a complete response. -/
def supportedReason (reason : String) : Bool := reason == "stop" || reason == "tool_calls"

def incomplete (reason : String) : AgentStreamEvent :=
  .turnFailed ids.turnId ids.threadId "incomplete_completion"
    ("Chat completion stopped without a complete supported response: " ++ reason)

/-- The fragments of a choice. -/
def State.fragments (s : State) (choice : Value) : List AgentStreamEvent × State :=
  match choice.get "delta" with
  | some d => s.delta ids d
  | none => ([], s)

/-- The `finish_reason` of a choice, after its fragments. -/
def State.conclude (p : List AgentStreamEvent × State) : Option String → Emission State
  | none => (p.1, .go p.2)
  | some reason =>
    if supportedReason reason then (p.1 ++ (p.2.complete ids).1, .go (p.2.complete ids).2)
    else (p.1 ++ [incomplete ids reason], .stop)

/-- A choice. -/
def State.choose (s : State) (choice : Value) : Emission State :=
  if s.finished then
    ([], .fail (.protocolError "Chat Completions received a choice after finish_reason"))
  else State.conclude ids (s.fragments ids choice) (choice.strAt "finish_reason")

/-- A chunk. -/
def State.chunk (s : State) (chunk : Value) : Emission State :=
  match chunk.get "error" with
  | some err => ([.turnFailed ids.turnId ids.threadId ((err.strAt "code").getD "OPENAI_ERROR")
      ((err.strAt "message").getD "Unknown OpenAI error")], .stop)
  | none =>
    match choiceOf chunk with
    | none => ([], .go (s.metered chunk))
    | some choice => (s.metered chunk).choose ids choice

/-- The end of the loop. -/
def State.finish (s : State) : List AgentStreamEvent × Option AdapterError :=
  if s.finished then ([.turnCompleted ids.turnId ids.threadId s.usage], none)
  else ([], some (.streamParseError "Unexpected EOF before Chat Completions finish_reason"))

/-- `[DONE]`. -/
def State.done (s : State) : Emission State :=
  match s.finish ids with
  | (es, none) => (es, .stop)
  | (es, some e) => (es, .fail e)

/-- An event of the stream. -/
def State.feed (s : State) : Sse → Emission State
  | .error e => ([], .fail (.streamParseError e))
  | .ok data =>
    if trim data = "" then ([], .go s)
    else if trim data = "[DONE]" then s.done ids
    else match decodeSse (trim data) with
      | .error e => ([], .fail e)
      | .ok chunk => s.chunk ids chunk

def parser : AdapterParser State := ⟨State.feed ids, State.finish ids⟩

/-- `parse_stream`: the events, and the error that ends them. -/
def parseStream (inputs : List Sse) : List AgentStreamEvent × Option AdapterError :=
  let (es, e) := (parser ids).run {} inputs
  (.turnStarted ids.turnId ids.threadId :: es, e)

end

end Whale.Chat
