import Whale.Core.Coordinator
import Whale.Lib.StreamParser
import Whale.Protocol.Events

/-!
# Streams of the adapters

What the three `parse_stream` of `whale-adapters` have in common: the server-sent events that they read,
their errors, the ids that they draw and the access to JSON values.
-/

namespace Whale

/-- `AdapterError`, with the variants that a parser raises. -/
inductive AdapterError where
  | streamParseError (message : String)
  | protocolError (message : String)
  deriving DecidableEq, Repr

/-- What `eventsource` yields: the data of an event, or the text of its error. -/
abbrev Sse := Except String String

/-- The ids of a stream; `item` are those of `new_item_id`, in the order in which they are drawn. -/
structure StreamIds where
  turnId : String
  threadId : String
  item : Nat → String

/-- `StreamParser` of an adapter. -/
abbrev AdapterParser (σ : Type) := Streaming.StreamParser σ Sse AgentStreamEvent AdapterError

/-- What a parser emits for an input, and what it does after it. -/
abbrev Emission (σ : Type) := List AgentStreamEvent × Streaming.Next σ AdapterError

/-! ## JSON -/

namespace Value

/-- `Value::as_str`. -/
def asStr : Value → Option String
  | .string s => some s
  | _ => none

/-- `Value::as_array`. -/
def asArray : Value → Option (List Value)
  | .array vs => some vs
  | _ => none

/-- `value[key]`. -/
def index (v : Value) (key : String) : Value := (v.get key).getD .null

/-- `value.get(key).and_then(Value::as_str)`. -/
def strAt (v : Value) (key : String) : Option String := (v.get key).bind asStr

/-- `value.get(key).and_then(Value::as_u64)`. -/
def u64At (v : Value) (key : String) : Option Nat := (v.get key).bind asU64

end Value

section
variable [ToolJson]

/-- The JSON of an event, in the adapters that trim its data. -/
def decodeSse (data : String) : Except AdapterError Value :=
  (ToolJson.parse data).mapError fun e =>
    .streamParseError ("Failed to parse JSON: " ++ e ++ " in '" ++ data ++ "'")

/-- `serde_json::from_str(raw).ok()`. -/
def parsedArguments (raw : String) : Option Value := (ToolJson.parse raw).toOption

end

end Whale
