import Whale.Protocol.Runs
import Whale.Lib.Check

/-!
# Identities, cursors and run events

`whale-protocol/src/events.rs`, the run events of `runs.rs` and the cursors of `session_views.rs`,
`session_management.rs` and `interactions.rs`. The three cursor types have the same fields and differ
in the identities they admit: V2 refuses control characters, Interactions bound the length.
-/

namespace Whale

open Check

/-- `value.trim() != value`. -/
def padded (s : String) : Bool :=
  s.toList.head?.any isWhitespace || s.toList.getLast?.any isWhitespace

/-- `char::is_control`: the Unicode category `Cc`. -/
def isControl (c : Char) : Bool := c.toNat < 0x20 || (0x7F ≤ c.toNat && c.toNat < 0xA0)

/-- `validate_identity` of `session_views.rs`. -/
def validateIdentity (value label : String) : Except String Unit :=
  refuse (blank value || padded value) (label ++ " must be nonempty and unpadded")

/-- `validate_optional_identity`. -/
def validateOptionalIdentity (value : Option String) (label : String) : Except String Unit :=
  match value with
  | some value => validateIdentity value label
  | none => .ok ()

/-- `validate_identity` of `session_management.rs`. -/
def validateIdentityV2 (value name : String) : Except String Unit :=
  refuse (blank value || padded value || value.toList.any isControl)
    (name ++ " must be nonempty, unpadded, and printable")

/-- `SessionCursor`, `SessionCursorV2` and `InteractionCursor`. -/
structure Cursor where
  threadId : String
  streamId : String
  seq : Nat
  deriving DecidableEq, Repr

namespace Cursor

/-- `same_stream`. -/
def sameStream (a b : Cursor) : Bool := a.threadId == b.threadId && a.streamId == b.streamId

/-- `SessionCursor::validate`. -/
def validate (c : Cursor) : Except String Unit := do
  validateIdentity c.threadId "thread_id"
  validateIdentity c.streamId "stream_id"

/-- `SessionCursorV2::validate`. -/
def validateV2 (c : Cursor) : Except String Unit := do
  validateIdentityV2 c.threadId "thread_id"
  validateIdentityV2 c.streamId "stream_id"

/-- `checked_next`, with the validator and the text of the cursor's type. -/
def next (validate : Cursor → Except String Unit) (exhausted : String) (c : Cursor) :
    Except String Cursor := do
  validate c
  let seq ← orElse (checkedSucc c.seq) exhausted
  .ok { c with seq }

/-- `SessionCursor::checked_next`. -/
def checkedNext : Cursor → Except String Cursor :=
  next validate "Session cursor sequence is exhausted"

/-- `SessionCursorV2::checked_next`. -/
def checkedNextV2 : Cursor → Except String Cursor :=
  next validateV2 "V2 Session cursor sequence is exhausted"

theorem sameStream_iff {a b : Cursor} :
    a.sameStream b = true ↔ a.threadId = b.threadId ∧ a.streamId = b.streamId := by
  simp [sameStream]

/-- Two cursors of one stream at one position are the same. -/
theorem eq_of_sameStream {a b : Cursor} (h : a.sameStream b = true) (hs : a.seq = b.seq) : a = b := by
  obtain ⟨h1, h2⟩ := sameStream_iff.mp h
  cases a
  cases b
  simp only at h1 h2 hs
  rw [h1, h2, hs]

/-- A cursor that has a successor is valid and below the bound. -/
theorem next_ok {v : Cursor → Except String Unit} {e : String} {c c' : Cursor}
    (h : next v e c = .ok c') : v c = .ok () ∧ c.seq < u64Max ∧ c' = { c with seq := c.seq + 1 } := by
  obtain ⟨_, hv, h⟩ := bind_ok h
  obtain ⟨n, hn, h⟩ := orElse_bind_ok h
  unfold checkedSucc at hn
  split at hn
  · cases hn
    cases h
    exact ⟨hv, ‹_›, rfl⟩
  · cases hn

theorem next_of_lt {v : Cursor → Except String Unit} {e : String} {c : Cursor} (hv : v c = .ok ())
    (h : c.seq < u64Max) : next v e c = .ok { c with seq := c.seq + 1 } := by
  simp [next, hv, checkedSucc, h]

end Cursor

/-- `AgentStreamEvent`. A progress value is carried as its bits. -/
inductive AgentStreamEvent where
  | toolProgress (turnId callId message : String) (progress : Option (BitVec 64))
  | toolExecutionStarted (turnId callId : String) (originalArguments arguments : Value)
  | turnStarted (turnId threadId : String)
  | itemStarted (turnId itemId itemType : String) (phase : Option MessagePhase)
  | textDelta (turnId itemId delta : String)
  | reasoningDelta (turnId itemId delta : String)
  | reasoningSignature (turnId itemId signature : String)
  | toolCallDelta (turnId itemId callId delta : String)
  | itemCompleted (turnId : String) (item : CanonicalItem)
  | approvalRequested (turnId requestId : String) (toolCall : CanonicalItem) (reason : Option String)
  | turnCompleted (turnId threadId : String) (usage : UsageMetrics)
  | turnFailed (turnId threadId errorCode errorMessage : String)
  deriving DecidableEq, Repr

/-- `stream_turn_id`. -/
def AgentStreamEvent.turnId : AgentStreamEvent → String
  | toolProgress turnId .. | toolExecutionStarted turnId .. | turnStarted turnId ..
  | itemStarted turnId .. | textDelta turnId .. | reasoningDelta turnId ..
  | reasoningSignature turnId .. | toolCallDelta turnId .. | itemCompleted turnId ..
  | approvalRequested turnId .. | turnCompleted turnId .. | turnFailed turnId .. => turnId

/-- `RunEventPayload`. -/
inductive RunEventPayload where
  | stream (event : AgentStreamEvent)
  | finished (snapshot : RunSnapshot)
  deriving DecidableEq, Repr

/-- `RunEvent`. -/
structure RunEvent where
  threadId : String
  turnId : String
  seq : Nat
  payload : RunEventPayload
  deriving DecidableEq, Repr

end Whale
