import Whale.Protocol.Canonical

/-!
# Runs, recovery keys and session limits

`whale-protocol/src/runs.rs`, `rpc.rs`, `recovery.rs` and `retention.rs`: the parameters and the
snapshot of a run, what recovery inspects, and the limits of a session and of its metadata.

`F32` carries the bits of an IEEE binary32 number; its `==` is the IEEE comparison, so a NaN differs
from itself. It occurs in the sampling temperature, hence `StartTurnParams` is compared with `==`.
-/

namespace Whale

/-- `f32`. -/
structure F32 where
  bits : BitVec 32
  deriving DecidableEq, Repr

namespace F32

/-- All exponent bits set and a nonzero fraction. -/
def isNaN (x : F32) : Bool := 0x7F800000#32 < x.bits &&& 0x7FFFFFFF#32

/-- Neither infinite nor a NaN. -/
def isFinite (x : F32) : Bool := x.bits &&& 0x7F800000#32 != 0x7F800000#32

/-- IEEE equality: no NaN equals anything, the two zeros are equal. -/
def ieeeEq (x y : F32) : Bool :=
  !x.isNaN && !y.isNaN && (x.bits == y.bits || (x.bits ||| y.bits) &&& 0x7FFFFFFF#32 == 0#32)

instance : BEq F32 := ⟨ieeeEq⟩

theorem beq_self (x : F32) : (x == x) = !x.isNaN := by
  show ieeeEq x x = _
  simp [ieeeEq]

end F32

/-- `RunTurnOptions`. -/
structure RunTurnOptions where
  model : Option String := none
  temperature : Option F32 := none
  maxTokens : Option Nat := none
  reasoningEffort : Option String := none
  thinkingBudget : Option Nat := none
  promptCaching : Option Bool := none
  deriving Repr

/-- The derived `PartialEq`: field by field, the temperature by IEEE equality. -/
instance : BEq RunTurnOptions where
  beq a b := a.model == b.model && a.temperature == b.temperature && a.maxTokens == b.maxTokens &&
    a.reasoningEffort == b.reasoningEffort && a.thinkingBudget == b.thinkingBudget &&
    a.promptCaching == b.promptCaching

/-- `StartTurnParams`. -/
structure StartTurnParams where
  threadId : String
  turnId : String
  inputItems : List CanonicalItem
  options : Option RunTurnOptions := none
  maxSteps : Nat := 10
  timeoutMs : Option Nat := none
  deriving Repr

instance : BEq StartTurnParams where
  beq a b := a.threadId == b.threadId && a.turnId == b.turnId && a.inputItems == b.inputItems &&
    a.options == b.options && a.maxSteps == b.maxSteps && a.timeoutMs == b.timeoutMs

/-- The sampling temperature of the parameters is a NaN. -/
def StartTurnParams.nanTemperature (p : StartTurnParams) : Bool :=
  match p.options with
  | some o => o.temperature.any F32.isNaN
  | none => false

theorem beq_temperature_self (t : Option F32) : (t == t) = !t.any F32.isNaN := by
  cases t with
  | none => rfl
  | some x => simpa using F32.beq_self x

theorem RunTurnOptions.beq_self (o : RunTurnOptions) :
    (o == o) = !o.temperature.any F32.isNaN := by
  show (_ && _ && _ && _ && _ && _) = _
  simp [beq_temperature_self]

/-- Parameters differ from themselves exactly when their temperature is a NaN. -/
theorem StartTurnParams.beq_self (p : StartTurnParams) : (p == p) = !p.nanTemperature := by
  have ho : (p.options == p.options) = !p.nanTemperature := by
    unfold nanTemperature
    cases p.options with
    | none => rfl
    | some o => simpa using RunTurnOptions.beq_self o
  show (_ && _ && _ && _ && _ && _) = _
  simp [ho]

inductive RunStatus where
  | running
  | waitingApproval
  | cancelling
  | completed
  | failed
  | cancelled
  deriving DecidableEq, Repr

/-- `RunStatus::is_terminal`. -/
def RunStatus.isTerminal : RunStatus → Bool
  | completed | failed | cancelled => true
  | running | waitingApproval | cancelling => false

inductive TurnStatus where
  | completed
  | failed
  | interrupted
  | requiresApproval
  deriving DecidableEq, Repr

/-- The turn status reported for a run status. -/
def RunStatus.turnStatus : RunStatus → TurnStatus
  | .completed => .completed
  | .cancelled => .interrupted
  | _ => .failed

structure RunFailure where
  code : String
  message : String
  deriving DecidableEq, Repr

structure PendingApproval where
  requestId : String
  toolCall : CanonicalItem
  reason : Option String
  deriving DecidableEq, Repr

structure RunTurnResult where
  turnId : String
  threadId : String
  status : TurnStatus
  items : List CanonicalItem
  usage : UsageMetrics
  deriving DecidableEq, Repr

/-- `RunSnapshot`. -/
structure RunSnapshot where
  toolExecutions : List ToolExecutionRecord := []
  threadId : String
  turnId : String
  status : RunStatus
  items : List CanonicalItem
  usage : UsageMetrics
  pendingApprovals : List PendingApproval
  lastSeq : Nat
  result : Option RunTurnResult := none
  error : Option RunFailure := none
  deriving DecidableEq, Repr

/-! ## Recovery -/

structure RecoveryKey where
  recoveryId : String
  secret : String
  deriving DecidableEq, Repr

structure ModelInputRecord where
  stepId : String
  stepIndex : Nat
  historyRevision : Nat
  request : Value
  completed : Bool
  usage : Option UsageMetrics
  deriving DecidableEq, Repr

structure UnknownExecution where
  executionId : String
  turnId : String
  callId : String
  toolName : String
  originalArguments : Option Value
  arguments : Option Value
  reason : String
  acknowledged : Bool
  deriving DecidableEq, Repr

structure RecoveredRun where
  snapshot : RunSnapshot
  modelInputs : List ModelInputRecord
  effectiveOptions : Value
  deriving DecidableEq, Repr

structure RecoverySnapshot where
  recoveryId : String
  revision : Nat
  epoch : Nat
  attached : Bool
  configuration : Value
  history : List CanonicalItem
  runs : List RecoveredRun
  unknownExecutions : List UnknownExecution
  deriving DecidableEq, Repr

/-! ## Session metadata -/

mutual

/-- `value_depth`. -/
def valueDepth : Value → Nat → Nat
  | .array [], depth => saturatingSucc depth
  | .array (v :: vs), depth => max (valueDepth v (saturatingSucc depth)) (listDepth vs depth)
  | .object [], depth => saturatingSucc depth
  | .object (f :: fs), depth =>
    max (valueDepth f.2 (saturatingSucc depth)) (fieldsDepth fs depth)
  | _, depth => depth

/-- The greatest depth among array elements (0 for none). -/
def listDepth : List Value → Nat → Nat
  | [], _ => 0
  | v :: vs, depth => max (valueDepth v (saturatingSucc depth)) (listDepth vs depth)

/-- The greatest depth among object members (0 for none). -/
def fieldsDepth : List (String × Value) → Nat → Nat
  | [], _ => 0
  | f :: fs, depth => max (valueDepth f.2 (saturatingSucc depth)) (fieldsDepth fs depth)

end

def maxSessionMetadataKeys : Nat := 256
def maxSessionMetadataBytes : Nat := 64 * 1024
def maxSessionMetadataDepth : Nat := 16

/-! ## Code outside the repository -/

/-- The third-party functions that the store and the engine call. -/
class External where
  /-- `uuid::Uuid::parse_str(s).is_ok()`. -/
  parseUuid : String → Bool
  /-- `format!("{:x}", sha2::Sha256::digest(s))`. -/
  sha256Hex : String → String
  /-- The length of the JSON array of the items, or the counter's overflow error. -/
  itemsBytes : List CanonicalItem → Except String Nat
  /-- The length of a JSON value, or the counter's overflow error. -/
  valueBytes : Value → Except String Nat
  /-- The text of the deserialization error for a value of another shape. -/
  deserializeError : Value → String

section
variable [External]

/-- `RecoveryKey::validate`. -/
def RecoveryKey.validate (key : RecoveryKey) : Except String Unit :=
  if !External.parseUuid key.recoveryId || key.recoveryId.utf8ByteSize != 36 then
    .error "Recovery ID must be a UUID"
  else if key.secret.utf8ByteSize != 64 || !allHexDigits key.secret then
    .error "Recovery secret must contain 64 hexadecimal characters"
  else .ok ()

/-! ## Session limits -/

structure SessionLimits where
  maxAcceptedTurns : Option Nat := none
  maxHistoryBytes : Option Nat := none
  maxModelRequestBytes : Option Nat := none
  deriving DecidableEq, Repr

/-- Deserialization of `Option<u64>`; a missing member is the default. -/
def optionU64 : Option Value → Option (Option Nat)
  | none => some none
  | some .null => some none
  | some v => v.asU64.map some

/-- Deserialization of `SessionLimits` (`deny_unknown_fields`, every field defaults): from an
object by name, from an array by position. -/
def SessionLimits.fromValue (v : Value) : Except String SessionLimits :=
  let build (turns history request : Option Value) : Except String SessionLimits :=
    match optionU64 turns, optionU64 history, optionU64 request with
    | some t, some h, some r => .ok ⟨t, h, r⟩
    | _, _, _ => .error (External.deserializeError v)
  match v with
  | .object m =>
    if m.all fun e => e.1 ∈ ["max_accepted_turns", "max_history_bytes", "max_model_request_bytes"]
    then build (JsonMap.get m "max_accepted_turns") (JsonMap.get m "max_history_bytes")
      (JsonMap.get m "max_model_request_bytes")
    else .error (External.deserializeError v)
  | .array vs =>
    if vs.length ≤ 3 then build vs[0]? vs[1]? vs[2]? else .error (External.deserializeError v)
  | _ => .error (External.deserializeError v)

/-- `SessionLimits::validate`. -/
def SessionLimits.validate (l : SessionLimits) : Except String Unit :=
  if l.maxAcceptedTurns = some 0 then .error "max_accepted_turns must be positive"
  else if l.maxHistoryBytes = some 0 then .error "max_history_bytes must be positive"
  else if l.maxModelRequestBytes = some 0 then .error "max_model_request_bytes must be positive"
  else .ok ()

/-- `history_bytes`: the size of history and input as one JSON array. -/
def historyBytes (history input : List CanonicalItem) : Except String Nat :=
  External.itemsBytes (history ++ input)

end

end Whale
