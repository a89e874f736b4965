import Mathlib.Algebra.Ring.Nat
import Whale.Protocol.Json

/-!
# Canonical conversation items and usage

The conversation protocol of `whale-protocol/src/canonical.rs`, `events.rs` and `contexts.rs`: items
(`CanonicalItem`), their contents, token usage and the record of one tool execution.
-/

namespace Whale

/-- `2^64 - 1`. -/
def u64Max : Nat := 2 ^ 64 - 1

/-- `u64::checked_add(1)`. -/
def checkedSucc (n : Nat) : Option Nat := if n < u64Max then some (n + 1) else none

/-- `u64::saturating_add(1)`. -/
def saturatingSucc (n : Nat) : Nat := min (n + 1) u64Max

/-- `u64::saturating_add`. -/
def saturatingAdd (a b : Nat) : Nat := min (a + b) u64Max

inductive MessagePhase where
  | commentary
  | finalAnswer
  deriving DecidableEq, Repr

inductive CanonicalContent where
  | text (text : String)
  | image (mimeType : String) (data uri : Option String)
  | audio (mimeType : String) (data uri : Option String)
  deriving DecidableEq, Repr

inductive CanonicalToolOutput where
  | text (text : String)
  | structured (data : Value)
  | blocks (blocks : List CanonicalContent)
  deriving DecidableEq, Repr

/-- One unit of a conversation. -/
inductive CanonicalItem where
  | userMessage (id : String) (content : List CanonicalContent)
  | assistantMessage (id : String) (content : List CanonicalContent) (phase : MessagePhase)
  | reasoning (id thinking : String) (signature encryptedContent : Option String)
  | toolCall (id callId : String) (namesp : Option String) (name : String)
      (arguments : Option Value) (rawArguments : String)
  | toolResult (id callId : String) (output : CanonicalToolOutput) (isError : Bool)
  deriving DecidableEq, Repr

namespace CanonicalItem

/-- `CanonicalItem::id`. -/
def id : CanonicalItem → String
  | userMessage id _ => id
  | assistantMessage id _ _ => id
  | reasoning id _ _ _ => id
  | toolCall id _ _ _ _ _ => id
  | toolResult id _ _ _ => id

/-- The call id of a tool call. -/
def callId? : CanonicalItem → Option String
  | toolCall _ callId _ _ _ _ => some callId
  | _ => none

/-- The call id a tool result answers. -/
def resultId? : CanonicalItem → Option String
  | toolResult _ callId _ _ => some callId
  | _ => none

/-- `matches!(item, UserMessage | ToolResult)`: items no model emits. -/
def nonModel : CanonicalItem → Bool
  | userMessage .. => true
  | toolResult .. => true
  | _ => false

@[simp] theorem id_toolResult (i c : String) (o : CanonicalToolOutput) (e : Bool) :
    (toolResult i c o e).id = i := rfl

end CanonicalItem

/-- Token usage, five `u64` counters. -/
structure UsageMetrics where
  inputTokens : Nat := 0
  outputTokens : Nat := 0
  reasoningTokens : Nat := 0
  cacheCreationInputTokens : Nat := 0
  cacheReadInputTokens : Nat := 0
  deriving DecidableEq, Repr

namespace UsageMetrics

/-- `u64::checked_add`. -/
def checkedAdd64 (a b : Nat) : Option Nat := if a + b ≤ u64Max then some (a + b) else none

theorem checkedAdd64_some {a b c : Nat} : checkedAdd64 a b = some c ↔ a + b = c ∧ c ≤ u64Max := by
  unfold checkedAdd64
  constructor
  · intro h
    split at h
    · cases h
      exact ⟨rfl, ‹_›⟩
    · cases h
  · rintro ⟨rfl, h⟩
    rw [if_pos h]

/-- Field-wise `checked_add`. -/
def checkedAdd (t u : UsageMetrics) : Option UsageMetrics := do
  let inputTokens ← checkedAdd64 t.inputTokens u.inputTokens
  let outputTokens ← checkedAdd64 t.outputTokens u.outputTokens
  let reasoningTokens ← checkedAdd64 t.reasoningTokens u.reasoningTokens
  let cacheCreationInputTokens ←
    checkedAdd64 t.cacheCreationInputTokens u.cacheCreationInputTokens
  let cacheReadInputTokens ← checkedAdd64 t.cacheReadInputTokens u.cacheReadInputTokens
  return ⟨inputTokens, outputTokens, reasoningTokens, cacheCreationInputTokens,
    cacheReadInputTokens⟩

/-- The running total of a list of usages. -/
def checkedSum : UsageMetrics → List UsageMetrics → Option UsageMetrics
  | total, [] => some total
  | total, u :: us => (total.checkedAdd u).bind (checkedSum · us)

theorem checkedSum_append (us vs : List UsageMetrics) (t : UsageMetrics) :
    checkedSum t (us ++ vs) = (checkedSum t us).bind (checkedSum · vs) := by
  induction us generalizing t with
  | nil => rfl
  | cons u us ih =>
    simp only [List.cons_append, checkedSum]
    cases t.checkedAdd u with
    | none => rfl
    | some t' => exact ih t'

end UsageMetrics

/-- The arguments a tool was dispatched with. -/
structure ToolExecutionRecord where
  callId : String
  originalArguments : Value
  arguments : Value
  deriving DecidableEq, Repr

end Whale
