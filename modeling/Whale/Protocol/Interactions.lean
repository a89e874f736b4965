import Whale.Protocol.Subscribe

/-!
# Interactions

`whale-protocol/src/interactions.rs`: requests, their responses, the pending set of a session and the
reducer that keeps it.
-/

namespace Whale

open Check

/-- `MAX_INTERACTION_ID_BYTES` and `MAX_INTERACTION_KIND_BYTES`. -/
def maxInteractionIdBytes : Nat := 128

/-- `MAX_INTERACTION_TITLE_BYTES`. -/
def maxInteractionTitleBytes : Nat := 512

/-- `MAX_INTERACTION_PAYLOAD_BYTES`, `MAX_INTERACTION_SCHEMA_BYTES` and
`MAX_INTERACTION_RESPONSE_BYTES`. -/
def maxInteractionJsonBytes : Nat := 65536

/-- `MAX_PENDING_INTERACTIONS_PER_RUN`. -/
def maxPendingInteractionsPerRun : Nat := 32

/-- `KIND_TOOL_APPROVAL`. -/
def kindToolApproval : String := "whale.tool_approval"

/-- `BUILTIN_KINDS`. -/
def builtinKinds : List String :=
  [kindToolApproval, "whale.clarification", "whale.form", "whale.auth", "whale.permission.file",
    "whale.permission.network", "whale.review"]

/-- The causes of a removal, `INTERACTION_REMOVAL_*`. -/
inductive InteractionRemoval where
  | resolved
  | cancelled
  | runFinished
  | sessionClosed
  | connectionClosed
  | originFinished
  | publicationFailed
  deriving DecidableEq, Repr

namespace InteractionRemoval

/-- The text of a cause. -/
def text : InteractionRemoval → String
  | resolved => "resolved"
  | cancelled => "cancelled"
  | runFinished => "run_finished"
  | sessionClosed => "session_closed"
  | connectionClosed => "connection_closed"
  | originFinished => "origin_finished"
  | publicationFailed => "publication_failed"

end InteractionRemoval

/-! ## Texts and sizes -/

/-- `validate_bounded_text`. -/
def validateBoundedText (value label : String) (maxBytes : Nat) : Except String Unit := do
  refuse (value.isEmpty || padded value) (label ++ " must be nonempty and unpadded")
  refuse (decide (maxBytes < value.utf8ByteSize))
    (label ++ " exceeds " ++ toString maxBytes ++ " UTF-8 bytes")

/-- `validate_identity` of `interactions.rs`. -/
def validateInteractionIdentity (value label : String) : Except String Unit :=
  validateBoundedText value label maxInteractionIdBytes

/-- `u8::is_ascii_alphanumeric`. -/
def isAsciiAlphanumeric (c : Char) : Bool :=
  ('0' ≤ c && c ≤ '9') || ('a' ≤ c && c ≤ 'z') || ('A' ≤ c && c ≤ 'Z')

/-- `validate_kind`. -/
def validateKind (kind : String) : Except String Unit := do
  refuse (kind.isEmpty || decide (maxInteractionIdBytes < kind.utf8ByteSize) || padded kind ||
      !kind.toList.head?.any isAsciiAlphanumeric ||
      !kind.toList.all fun c => isAsciiAlphanumeric c || c ∈ ['.', '_', ':', '/', '-'])
    "Interaction kind must match [A-Za-z0-9][A-Za-z0-9._:/-]\x7b0,127\x7d"
  refuse ((kind == "whale" || "whale.".toList.isPrefixOf kind.toList) && !builtinKinds.contains kind)
    "Unknown whale.* Interaction kinds are reserved"

mutual

/-- `validate_local_schema_references`. -/
def validateLocalSchemaReferences : Value → Except String Unit
  | .object fields => validateLocalFields fields
  | .array values => validateLocalValues values
  | _ => .ok ()

/-- The loop over the members of an object. -/
def validateLocalFields : List (String × Value) → Except String Unit
  | [] => .ok ()
  | (key, value) :: fields => do
    if key = "$ref" ∨ key = "$dynamicRef" then
      match value with
      | .string reference =>
        refuse (!reference.toList.head?.any (· == '#'))
          "Interaction response_schema cannot retrieve external references"
      | _ => .error ("Interaction schema " ++ key ++ " must be a string")
    validateLocalSchemaReferences value
    validateLocalFields fields

/-- The loop over the elements of an array. -/
def validateLocalValues : List Value → Except String Unit
  | [] => .ok ()
  | value :: values => do
    validateLocalSchemaReferences value
    validateLocalValues values

end

section
variable [External]

/-- `validate_json_size`. -/
def validateJsonSize (value : Value) (label : String) (maxBytes : Nat) : Except String Unit := do
  let bytes ← External.valueBytes value
  refuse (decide (maxBytes < bytes)) (label ++ " exceeds " ++ toString maxBytes ++ " serialized bytes")

end

/-! ## Requests and responses -/

/-- `InteractionRequest`. -/
structure InteractionRequest where
  kind : String
  title : String
  payload : Value
  responseSchema : Option Value := none
  deriving DecidableEq, Repr

/-- `PendingInteraction`. -/
structure PendingInteraction where
  requestId : String
  turnId : String
  request : InteractionRequest
  deriving DecidableEq, Repr

/-- What identifies a request: its turn and its id. -/
abbrev InteractionKey := String × String

/-- The identity of a pending request. -/
def PendingInteraction.key (p : PendingInteraction) : InteractionKey := (p.turnId, p.requestId)

/-- `RespondInteractionParams`, for a session. -/
structure RespondInteractionParams where
  turnId : String
  requestId : String
  response : Value
  deriving DecidableEq, Repr

section
variable [External]

/-- The checks of a response schema. -/
def validateSchema : Option Value → Except String Unit
  | some schema => do
    refuse (!schema.isObject) "Interaction response_schema must be a JSON object"
    validateJsonSize schema "Interaction response_schema" maxInteractionJsonBytes
    validateLocalSchemaReferences schema
  | none => .ok ()

/-- `InteractionRequest::validate`. -/
def InteractionRequest.validate (r : InteractionRequest) : Except String Unit := do
  validateKind r.kind
  validateBoundedText r.title "Interaction title" maxInteractionTitleBytes
  validateJsonSize r.payload "Interaction payload" maxInteractionJsonBytes
  validateSchema r.responseSchema

/-- `PendingInteraction::validate`. -/
def PendingInteraction.validate (p : PendingInteraction) : Except String Unit := do
  validateInteractionIdentity p.requestId "request_id"
  validateInteractionIdentity p.turnId "turn_id"
  p.request.validate

/-- `InteractionResponse::validate`. -/
def validateResponseValue (requestId : String) (response : Value) : Except String Unit := do
  validateInteractionIdentity requestId "request_id"
  validateJsonSize response "Interaction response" maxInteractionJsonBytes

/-- `RespondInteractionParams::validate`. -/
def RespondInteractionParams.validate (p : RespondInteractionParams) (threadId : String) :
    Except String Unit := do
  validateInteractionIdentity threadId "thread_id"
  validateInteractionIdentity p.turnId "turn_id"
  validateResponseValue p.requestId p.response

end

/-! ## Events -/

/-- `InteractionEventPayload`. -/
inductive InteractionEventPayload where
  | requested (interaction : PendingInteraction)
  | removed (requestId turnId cause : String)
  deriving DecidableEq, Repr

/-- The request an event is about. -/
def InteractionEventPayload.key : InteractionEventPayload → InteractionKey
  | requested interaction => interaction.key
  | removed requestId turnId _ => (turnId, requestId)

/-- `InteractionEventEnvelope`. -/
structure InteractionEventEnvelope where
  threadId : String
  cursor : Cursor
  occurredAtMs : Nat
  payload : InteractionEventPayload
  deriving DecidableEq, Repr

instance : Envelope InteractionEventEnvelope := ⟨InteractionEventEnvelope.cursor⟩

/-- `InteractionCursor::validate`. -/
def Cursor.validateInteraction (c : Cursor) : Except String Unit := do
  validateInteractionIdentity c.threadId "thread_id"
  validateInteractionIdentity c.streamId "stream_id"

/-- `InteractionCursor::checked_next`. -/
def Cursor.checkedNextInteraction (c : Cursor) : Except String Cursor :=
  next validateInteraction "Interaction cursor sequence is exhausted" c

section
variable [External]

/-- `InteractionEventPayload::validate`. -/
def InteractionEventPayload.validate : InteractionEventPayload → Except String Unit
  | requested interaction => interaction.validate
  | removed requestId turnId cause => do
    validateInteractionIdentity requestId "request_id"
    validateInteractionIdentity turnId "turn_id"
    validateBoundedText cause "Interaction removal cause" maxInteractionIdBytes

/-- `InteractionEventEnvelope::validate`. -/
def InteractionEventEnvelope.validate (e : InteractionEventEnvelope) : Except String Unit := do
  validateInteractionIdentity e.threadId "thread_id"
  e.cursor.validateInteraction
  refuse (e.cursor.threadId != e.threadId) "Interaction event cursor belongs to another thread"
  refuse (e.cursor.seq == 0) "Interaction event sequence must be positive"
  e.payload.validate

end

/-! ## The snapshot -/

/-- `InteractionSnapshot`. -/
structure InteractionSnapshot where
  threadId : String
  cursor : Cursor
  pending : List PendingInteraction := []
  deriving DecidableEq, Repr

namespace InteractionSnapshot

/-- The error of a run with too many requests. -/
def tooManyPending : String :=
  "A Run cannot contain more than " ++ toString maxPendingInteractionsPerRun ++ " pending Interactions"

section
variable [External]

/-- The loop of `validate_pending_set`, without a required turn. -/
def validatePendingSet : List PendingInteraction → List PendingInteraction → Except String Unit
  | _, [] => .ok ()
  | seen, p :: ps => do
    p.validate
    refuse (seen.any (·.key == p.key)) "Interaction snapshot contains a duplicate request identity"
    refuse (decide (maxPendingInteractionsPerRun < (seen.filter (·.turnId == p.turnId)).length + 1))
      tooManyPending
    validatePendingSet (p :: seen) ps

/-- `InteractionSnapshot::validate`. -/
def validate (s : InteractionSnapshot) : Except String Unit := do
  validateInteractionIdentity s.threadId "thread_id"
  s.cursor.validateInteraction
  refuse (s.cursor.threadId != s.threadId) "Interaction snapshot cursor belongs to another thread"
  validatePendingSet [] s.pending

end

/-- What an event does to the pending set. -/
def applyPayload (s : InteractionSnapshot) : InteractionEventPayload → Except String (List PendingInteraction)
  | .requested interaction => do
    refuse (s.pending.any (·.key == interaction.key)) "Requested Interaction is already pending"
    .ok (s.pending ++ [interaction])
  | .removed requestId turnId _ => do
    refuse (!s.pending.any (·.key == (turnId, requestId))) "Removed Interaction is not pending"
    .ok (s.pending.eraseP (·.key == (turnId, requestId)))

/-- `Display` of `InteractionProjectionError`. -/
def displayError : SessionProjectionError → String
  | .invalidState message => "invalid Interaction projection: " ++ message
  | .streamMismatch expectedThread expectedStream actualThread actualStream =>
    "Interaction projection stream mismatch: expected " ++ expectedThread ++ "/" ++ expectedStream ++
      ", got " ++ actualThread ++ "/" ++ actualStream
  | .sequenceGap expected actual =>
    "Interaction projection sequence gap: expected " ++ expected.threadId ++ "/" ++
      expected.streamId ++ "/" ++ toString expected.seq ++ ", got " ++ actual.threadId ++ "/" ++
      actual.streamId ++ "/" ++ toString actual.seq

/-- `InteractionSnapshot::apply`; the error is an `InteractionProjectionError`. -/
def apply [External] (s : InteractionSnapshot) (e : InteractionEventEnvelope) :
    Except SessionProjectionError (InteractionSnapshot × Bool) := do
  s.validate.mapError .invalidState
  e.validate.mapError .invalidState
  refuse (e.threadId != s.threadId || e.cursor.streamId != s.cursor.streamId)
    (.streamMismatch s.threadId s.cursor.streamId e.threadId e.cursor.streamId)
  if e.cursor.seq ≤ s.cursor.seq then .ok (s, false)
  else do
    let expected ← s.cursor.checkedNextInteraction.mapError .invalidState
    refuse (decide (e.cursor ≠ expected)) (.sequenceGap expected e.cursor)
    let pending ← (s.applyPayload e.payload).mapError .invalidState
    let next : InteractionSnapshot := { s with pending, cursor := e.cursor }
    next.validate.mapError .invalidState
    .ok (next, true)

end InteractionSnapshot

/-! ## Canonical JSON -/

mutual

/-- `canonical_json`: every object with its keys sorted. -/
def canonicalJson : Value → Value
  | .object fields => .object ((canonicalFields fields).mergeSort fun a b => decide (a.1 ≤ b.1))
  | .array values => .array (canonicalValues values)
  | value => value

def canonicalFields : List (String × Value) → List (String × Value)
  | [] => []
  | (key, value) :: fields => (key, canonicalJson value) :: canonicalFields fields

def canonicalValues : List Value → List Value
  | [] => []
  | value :: values => canonicalJson value :: canonicalValues values

end

end Whale
