import Whale.Lib.Check
import Whale.Protocol.Runs
import Mathlib.Data.List.Sort
import Mathlib.Data.String.Basic

/-!
# Model contexts

`whale-core/src/context.rs`: the check of a conversation's tool structure. A scan keeps the call ids
met, the calls of the current batch that have no result yet (a `BTreeSet`, so in order) and whether
the batch's results have begun.
-/

namespace Whale

open Check

/-- The state of the loop of `validate_items`. -/
structure Scan where
  seen : List String := []
  pending : List String := []
  resultsStarted : Bool := false

namespace Scan

/-- One pass of the loop of `validate_items`. A call id that was not seen is not pending, so its
ordered insertion is the set's. -/
def item (s : Scan) (index : Nat) : CanonicalItem → Except String Scan
  | .toolCall _ callId _ _ _ _ => do
    refuse callId.isEmpty s!"Context item {index} has an empty tool call_id"
    refuse (s.seen.contains callId) s!"Context contains duplicate tool call_id '{callId}'"
    refuse (s.resultsStarted && !s.pending.isEmpty)
      s!"Context starts tool call '{callId}' before the preceding call batch is fully answered"
    .ok ⟨callId :: s.seen, s.pending.orderedInsert (· ≤ ·) callId, false⟩
  | .toolResult _ callId _ _ => do
    refuse (!s.pending.contains callId)
      s!"Context item {index} has an orphan or duplicate tool result for '{callId}'"
    let pending := s.pending.erase callId
    .ok ⟨s.seen, pending, !pending.isEmpty⟩
  | _ => do
    refuse (!s.pending.isEmpty) (s!"Context item {index} interrupts an unanswered tool-call batch: "
      ++ ", ".intercalate s.pending)
    .ok { s with resultsStarted := false }

/-- The loop of `validate_items`. -/
def items : Scan → Nat → List CanonicalItem → Except String Scan
  | s, _, [] => .ok s
  | s, index, i :: is => do
    let s ← s.item index i
    s.items (index + 1) is

end Scan

/-- `validate_items`. -/
def validateItems (items : List CanonicalItem) : Except String Unit := do
  let s ← Scan.items {} 0 items
  refuse (!s.pending.isEmpty)
    ("Context contains unanswered tool calls: " ++ ", ".intercalate s.pending)

/-- `ModelContext`. -/
structure ModelContext where
  systemPrompt : Option String
  items : List CanonicalItem
  deriving DecidableEq, Repr

/-- `validate_model_context`. -/
def validateModelContext (c : ModelContext) : Except String Unit := validateItems c.items

/-! ## Policies -/

/-- `FullHistoryContext::build`, not cancelled. -/
def fullHistory (systemPrompt : Option String) (history : List CanonicalItem) :
    Except String ModelContext := do
  let context : ModelContext := ⟨systemPrompt, history⟩
  validateModelContext context
  .ok context

/-- `matches!(item, UserMessage)`. -/
def CanonicalItem.isUser : CanonicalItem → Bool
  | .userMessage _ _ => true
  | _ => false

/-- The indices of the user messages. -/
def userStarts (history : List CanonicalItem) : List Nat :=
  (List.range history.length).filter fun i => (history[i]?).any CanonicalItem.isUser

/-- `RecentTurnsContext::build`, not cancelled. -/
def recentTurns (maxTurns : Nat) (systemPrompt : Option String) (history : List CanonicalItem) :
    Except String ModelContext := do
  validateItems history
  let starts := userStarts history
  let start := if starts.length > maxTurns then starts[starts.length - maxTurns]?.getD 0 else 0
  let context : ModelContext := ⟨systemPrompt, history.drop start⟩
  validateModelContext context
  .ok context

end Whale
