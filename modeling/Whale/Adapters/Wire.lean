import Whale.Adapters.Stream
import Whale.Lib.Check
import Whale.Lib.OrdMap

/-!
# The wire of the adapters

What the three `serialize_request` of `whale-adapters` have in common: the capabilities and the validation of
`capabilities.rs`, JSON objects and their text, and headers.
-/

namespace Whale

open Check

/-! ## JSON -/

/-- `Value::to_string`. -/
class JsonText where
  print : Value → String

/-- `Map::insert`: the members stay in the order of their keys. -/
def JsonMap.insert (m : JsonMap) (key : String) (v : Value) : JsonMap := OrdMap.insertEntry key v m

theorem JsonMap.get_eq_lookup (m : JsonMap) (key : String) : m.get key = OrdMap.lookup key m := by
  unfold JsonMap.get
  induction m with
  | nil => rfl
  | cons e m ih =>
    rw [List.lookup_cons, OrdMap.lookup, ih]
    by_cases h : e.1 = key
    · simp [h]
    · rw [if_neg h, beq_eq_false_iff_ne.mpr (Ne.symm h)]

theorem JsonMap.get_insert (m : JsonMap) (key key' : String) (v : Value) :
    (m.insert key v).get key' = if key = key' then some v else m.get key' := by
  rw [get_eq_lookup, get_eq_lookup, insert, OrdMap.lookup_insertEntry]

theorem JsonMap.get_insert_self (m : JsonMap) (key : String) (v : Value) :
    (m.insert key v).get key = some v := by
  rw [get_insert, if_pos rfl]

/-- The value of a finite `f32`. -/
def F32.toRat (x : F32) : Rat :=
  let sign : Rat := if x.bits &&& 0x80000000#32 = 0#32 then 1 else -1
  let exponent := (x.bits >>> 23 &&& 0xFF#32).toNat
  let fraction := (x.bits &&& 0x7FFFFF#32).toNat
  if exponent = 0 then sign * fraction / 2 ^ 149
  else sign * ((2 ^ 23 + fraction : Nat) : Rat) * 2 ^ exponent / 2 ^ 150

/-- `json!` of an `f32`. -/
def F32.json (x : F32) : Value := if x.isFinite then .number (.float x.toRat) else .null

/-- A value in an object where there is one. -/
def JsonMap.insertSome (m : JsonMap) (key : String) : Option Value → JsonMap
  | some v => m.insert key v
  | none => m

inductive ModelCapabilityScope where
  | protocol
  | model
  deriving DecidableEq, Repr

inductive ModelContentKind where
  | text
  | image
  | audio
  deriving DecidableEq, Repr

inductive ModelOption where
  | temperature
  | maxTokens
  | reasoningEffort
  | thinkingBudget
  | promptCaching
  deriving DecidableEq, Repr

/-- The `Debug` text of a content kind. -/
def ModelContentKind.debug : ModelContentKind → String
  | text => "Text"
  | image => "Image"
  | audio => "Audio"

/-- The `Debug` text of an option. -/
def ModelOption.debug : ModelOption → String
  | temperature => "Temperature"
  | maxTokens => "MaxTokens"
  | reasoningEffort => "ReasoningEffort"
  | thinkingBudget => "ThinkingBudget"
  | promptCaching => "PromptCaching"

structure ModelCapabilities where
  scope : ModelCapabilityScope := .model
  userContent : List ModelContentKind := [.text]
  assistantContent : List ModelContentKind := [.text]
  toolResultContent : List ModelContentKind := [.text]
  toolCalls : Bool := false
  reasoningText : Bool := false
  reasoningSignatures : Bool := false
  encryptedReasoning : Bool := false
  options : List ModelOption := []
  deriving DecidableEq, Repr

/-- `http_capabilities`; a structure with its defaults is `ModelCapabilities::text_only`. -/
def httpCapabilities (api : String) : ModelCapabilities :=
  let caps : ModelCapabilities :=
    { scope := .protocol
      userContent := [.text, .image]
      toolCalls := true
      reasoningText := true
      options := [.temperature, .maxTokens] }
  match api with
  | "anthropic" =>
    { caps with
      reasoningSignatures := true
      toolResultContent := [.text, .image]
      options := caps.options ++ [.thinkingBudget, .promptCaching] }
  | "responses" =>
    { caps with
      encryptedReasoning := true
      toolResultContent := [.text, .image]
      options := caps.options ++ [.reasoningEffort] }
  | _ => { caps with options := caps.options ++ [.reasoningEffort] }

/-- The sampling options with whether they are given. -/
def SamplingOptions.given (o : SamplingOptions) : List (Bool × ModelOption) :=
  [(o.temperature.isSome, .temperature), (o.maxTokens.isSome, .maxTokens),
    (o.reasoningEffort.isSome, .reasoningEffort), (o.thinkingBudget.isSome, .thinkingBudget),
    (o.promptCaching, .promptCaching)]

namespace Capabilities

/-- The kind of a block. -/
def kindOf : CanonicalContent → ModelContentKind
  | .text _ => .text
  | .image .. => .image
  | .audio .. => .audio

/-- `value.is_none_or(|value| value.is_empty())`. -/
def noneOrEmpty (s : Option String) : Bool := s.all (· == "")

/-- A block in a position. -/
def validateBlock (supported : List ModelContentKind) (position : String) (block : CanonicalContent) :
    Except AdapterError Unit := do
  match block with
  | .image _ data uri =>
    refuse (noneOrEmpty data && noneOrEmpty uri) (.protocolError "Image requires data or URI")
  | _ => .ok ()
  refuse (!supported.contains (kindOf block))
    (.protocolError ("Unsupported " ++ position ++ " content: " ++ (kindOf block).debug))

/-- An item. -/
def validateItem (caps : ModelCapabilities) : CanonicalItem → Except AdapterError Unit
  | .userMessage _ blocks => forAll (validateBlock caps.userContent "user") blocks
  | .assistantMessage _ blocks _ => forAll (validateBlock caps.assistantContent "assistant") blocks
  | .reasoning _ thinking signature encryptedContent => do
    refuse (thinking != "" && !caps.reasoningText) (.protocolError "Unsupported reasoning text")
    refuse (signature.isSome && !caps.reasoningSignatures)
      (.protocolError "Unsupported reasoning signature")
    refuse (encryptedContent.isSome && !caps.encryptedReasoning)
      (.protocolError "Unsupported encrypted reasoning")
  | .toolCall .. => refuse (!caps.toolCalls) (.protocolError "Unsupported capability: tool calls")
  | .toolResult _ _ output _ => do
    refuse (!caps.toolCalls) (.protocolError "Unsupported capability: tool results")
    match output with
    | .blocks blocks => forAll (validateBlock caps.toolResultContent "tool result") blocks
    | _ => refuse (!caps.toolResultContent.contains .text) (.protocolError "Unsupported text tool result")

/-- `validate_items`. -/
def validateItems (items : List CanonicalItem) (caps : ModelCapabilities) : Except AdapterError Unit :=
  forAll (validateItem caps) items

end Capabilities

end Whale
