import Whale.Core.Context
import Whale.Store.State

/-!
# Model steps

`whale-core/src/model.rs` and the stream check of `engine.rs`: the events of one model step and
`ModelStepState`, which accepts them one by one. A hash map is its list of entries; every insertion
below is under a key that is absent.
-/

namespace Whale

open Check

/-- `ModelError`. -/
inductive ModelError where
  | invalidRequest (message : String)
  | unsupportedCapability (message : String)
  | transport (message : String)
  | stream (message : String)
  deriving DecidableEq, Repr

/-- `ModelEvent`. -/
inductive ModelEvent where
  | itemStarted (itemId itemType : String) (phase : Option MessagePhase)
  | textDelta (itemId delta : String)
  | reasoningDelta (itemId delta : String)
  | reasoningSignature (itemId signature : String)
  | toolCallDelta (itemId callId delta : String)
  | itemCompleted (item : CanonicalItem)
  | stepFinished (usage : UsageMetrics)
  deriving DecidableEq, Repr

/-- `ModelStepState`. -/
structure ModelStepState where
  finished : Bool := false
  itemIds : List String
  callIds : List String
  pending : List (String × String) := []
  deriving DecidableEq, Repr

namespace ModelStepState

/-- `ModelStepState::new`. -/
def new (history : List CanonicalItem) : ModelStepState where
  itemIds := history.map (·.id)
  callIds := history.filterMap (·.callId?)

/-- `HashMap::remove`. -/
def removePending (s : ModelStepState) (itemId : String) : List (String × String) :=
  s.pending.filter (·.1 != itemId)

/-- The part of `observe` for a tool call: its call id is named and new. -/
def observeCall (callIds : List String) : CanonicalItem → Except ModelError (List String)
  | .toolCall _ callId _ name _ _ => do
    refuse (blank callId || blank name) (.stream "Model tool call requires call ID and name")
    refuse (callIds.contains callId) (.stream "Duplicate model tool call ID")
    .ok (callId :: callIds)
  | _ => .ok callIds

/-- The part of `observe` for a delta of an item of the given kind. -/
def observeDelta (s : ModelStepState) (itemId kind : String) : Except ModelError ModelStepState := do
  refuse (s.itemIds.contains itemId) (.stream "Delta after model item completion")
  match s.pending.lookup itemId with
  | some previous => do
    refuse (previous != kind) (.stream "Model item delta type changed")
    .ok s
  | none => .ok { s with pending := (itemId, kind) :: s.pending }

/-- `ModelStepState::observe`. -/
def observe (s : ModelStepState) (event : ModelEvent) : Except ModelError ModelStepState := do
  refuse s.finished (.stream "Event after model step completion")
  match event with
  | .stepFinished _ => do
    refuse (s.pending.any (·.2 != "assistant_message"))
      (.stream "Model step ended with unfinished tool or reasoning items")
    .ok { s with finished := true }
  | .itemCompleted item => do
    refuse item.nonModel (.stream "Provider emitted a non-model item")
    refuse (s.itemIds.contains item.id) (.stream "Duplicate model item ID")
    let callIds ← observeCall s.callIds item
    .ok { s with itemIds := item.id :: s.itemIds, callIds, pending := s.removePending item.id }
  | .itemStarted itemId itemType _ => do
    refuse (!(["assistant_message", "reasoning", "tool_call"].contains itemType))
      (.stream "Unknown model item type")
    refuse (s.itemIds.contains itemId || (s.pending.lookup itemId).isSome)
      (.stream "Duplicate started model item ID")
    .ok { s with pending := (itemId, itemType) :: s.pending }
  | .textDelta itemId _ => s.observeDelta itemId "assistant_message"
  | .reasoningDelta itemId _ => s.observeDelta itemId "reasoning"
  | .reasoningSignature itemId _ => s.observeDelta itemId "reasoning"
  | .toolCallDelta itemId _ _ => s.observeDelta itemId "tool_call"

end ModelStepState

/-! ## Errors of the engine -/

/-- `CoreError`, as far as a turn returns it. -/
inductive CoreError where
  | limitExceeded (message : String)
  | store (e : StoreError)
  | model (e : ModelError)
  | json (message : String)
  | eventChannelClosed
  | maxStepsExceeded (steps : Nat)
  | internal (message : String)
  deriving DecidableEq, Repr

/-- `checked_usage` of the engine: the total, or the counter that overflows. -/
def checkedTurnUsage (total step : UsageMetrics) : Except ModelError UsageMetrics := do
  let add (left right : Nat) (field : String) : Except ModelError Nat :=
    orElse (UsageMetrics.checkedAdd64 left right)
      (.stream ("Cumulative model usage overflow: " ++ field))
  let inputTokens ← add total.inputTokens step.inputTokens "input_tokens"
  let outputTokens ← add total.outputTokens step.outputTokens "output_tokens"
  let reasoningTokens ← add total.reasoningTokens step.reasoningTokens "reasoning_tokens"
  let cacheCreationInputTokens ← add total.cacheCreationInputTokens step.cacheCreationInputTokens
    "cache_creation_input_tokens"
  let cacheReadInputTokens ← add total.cacheReadInputTokens step.cacheReadInputTokens
    "cache_read_input_tokens"
  .ok ⟨inputTokens, outputTokens, reasoningTokens, cacheCreationInputTokens, cacheReadInputTokens⟩

end Whale
