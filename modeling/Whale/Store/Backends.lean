import Whale.Store.Backend

/-!
# The two backends

`whale-store/src/backend.rs`, `sqlite.rs` and the metadata of `retention.rs`. `SessionStore` is the trait
and its defaults; `MemoryStore` keeps the records in a map, `SQLiteStore` their JSON texts in a table. A
call runs under a mutex and, in SQLite, in a transaction that is rolled back when it fails, so a call that
fails leaves no state.

The statements of `SQLiteStore` are functions of its table. `serde_json` and JSON1 are a parameter
(`RecordSerde`); what JSON1 reads in the text of a record is `SessionRecord.document`, the members that
`derive(Serialize)` writes. An SQL condition is a `Bool` or, where it is `NULL`, none.
-/

namespace Whale

open Check

/-- `i64::MAX`. -/
def i64Max : Nat := 9223372036854775807

/-- `serde_json` on records and their parts, and the JSON parser of SQLite. -/
class RecordSerde where
  /-- `serde_json::to_string`, which fails on no record. -/
  toText : SessionRecord → String
  /-- `serde_json::from_str`. -/
  fromText : String → Except String SessionRecord
  /-- The element that JSON1 reads. -/
  parse : String → Option Value
  items : List CanonicalItem → Value
  params : StartTurnParams → Value
  usage : UsageMetrics → Value
  approvals : List PendingApproval → Value
  executions : List ToolExecutionRecord → Value
  result : RunTurnResult → Value
  failure : RunFailure → Value
  modelInputs : List ModelInputRecord → Value
  calls : List StoredCall → Value

/-! ## The document of a record -/

/-- A `u64`. -/
def natDocument (n : Nat) : Value := .number (.int n)

/-- An `Option`. -/
def optionDocument {α : Type} (f : α → Value) : Option α → Value
  | none => .null
  | some a => f a

/-- A member with `skip_serializing_if = "Option::is_none"`. -/
def optionMember {α : Type} (key : String) (f : α → Value) : Option α → JsonMap
  | none => []
  | some a => [(key, f a)]

/-- A `RunStatus`, in snake case. -/
def RunStatus.document : RunStatus → Value
  | running => .string "running"
  | waitingApproval => .string "waiting_approval"
  | cancelling => .string "cancelling"
  | completed => .string "completed"
  | failed => .string "failed"
  | cancelled => .string "cancelled"

section
variable [RecordSerde]

def RunSnapshot.document (s : RunSnapshot) : Value :=
  .object ([("tool_executions", RecordSerde.executions s.toolExecutions), ("thread_id", .string s.threadId),
    ("turn_id", .string s.turnId), ("status", s.status.document), ("items", RecordSerde.items s.items),
    ("usage", RecordSerde.usage s.usage),
    ("pending_approvals", RecordSerde.approvals s.pendingApprovals),
    ("last_seq", natDocument s.lastSeq)] ++ optionMember "result" RecordSerde.result s.result ++
    optionMember "error" RecordSerde.failure s.error)

def StoredRun.document (run : StoredRun) : Value :=
  .object [("params", RecordSerde.params run.params), ("snapshot", run.snapshot.document),
    ("effective_options", run.effectiveOptions), ("history_start", natDocument run.historyStart),
    ("model_inputs", RecordSerde.modelInputs run.modelInputs), ("calls", RecordSerde.calls run.calls)]

omit [RecordSerde] in
def UnknownExecution.document (u : UnknownExecution) : Value :=
  .object ([("execution_id", .string u.executionId), ("turn_id", .string u.turnId),
    ("call_id", .string u.callId), ("tool_name", .string u.toolName)] ++
    optionMember "original_arguments" id u.originalArguments ++ optionMember "arguments" id u.arguments ++
    [("reason", .string u.reason), ("acknowledged", .bool u.acknowledged)])

def SessionRecord.document (r : SessionRecord) : Value :=
  .object [("schema_version", natDocument r.schemaVersion),
    ("created_at_ms", optionDocument natDocument r.createdAtMs),
    ("updated_at_ms", optionDocument natDocument r.updatedAtMs),
    ("detached_since_ms", optionDocument natDocument r.detachedSinceMs),
    ("retired_at_ms", optionDocument natDocument r.retiredAtMs),
    ("retirement_reason", optionDocument .string r.retirementReason),
    ("recovery_id", .string r.recoveryId), ("secret_digest", .string r.secretDigest),
    ("revision", natDocument r.revision), ("epoch", natDocument r.epoch),
    ("owner", optionDocument .string r.owner), ("thread_id", optionDocument .string r.threadId),
    ("historical_thread_ids", .array (r.historicalThreadIds.map .string)),
    ("forgotten", .bool r.forgotten), ("configuration", r.configuration),
    ("history", RecordSerde.items r.history),
    ("runs", .object (r.runs.entries.map fun e => (e.1, e.2.document))),
    ("unknown_executions", .array (r.unknownExecutions.map UnknownExecution.document))]

end

/-! ## Retention metadata -/

/-- `RetentionMetadata`. -/
structure RetentionMetadata where
  recoveryId : String
  revision : Nat
  detachedSinceMs : Option Nat
  forgotten : Bool
  protectedActive : Bool
  protectedUnknown : Bool
  payloadBytes : Nat
  deriving DecidableEq, Repr

section
variable [RecordSerde]

/-- `serialized_bytes` of a record: the length of its text, counted in a `u64`. -/
def SessionRecord.serializedBytes (r : SessionRecord) : Except String Nat := do
  refuse (decide (u64Max < (RecordSerde.toText r).utf8ByteSize)) "Serialized byte count overflow"
  .ok (RecordSerde.toText r).utf8ByteSize

/-- `SessionRecord::retention_metadata`. -/
def SessionRecord.retentionMetadata (r : SessionRecord) : Except StoreError RetentionMetadata := do
  let payloadBytes ← if r.forgotten then .ok 0 else r.serializedBytes.mapError .invalid
  .ok {
    recoveryId := r.recoveryId
    revision := r.revision
    detachedSinceMs := r.detachedSinceMs
    forgotten := r.forgotten
    protectedActive := r.owner.isSome || r.active
    protectedUnknown := r.unresolved
    payloadBytes }

end

/-! ## The trait -/

/-- `SessionStore`, over the states `σ` of a backend. -/
structure SessionStore (σ : Type) where
  create : σ → SessionRecord → Except StoreError σ
  load : σ → String → Except StoreError (Option SessionRecord)
  compareExchange : σ → String → Nat → SessionRecord → Except StoreError σ
  list : σ → Except StoreError (List SessionRecord)
  metadataPage : σ → Option String → Nat → Except StoreError (List RetentionMetadata)
  retireDetached : σ → String → Nat → Nat → String → Except StoreError (Bool × σ)

/-- The default of `metadata_page`, over `list`. -/
def SessionStore.defaultMetadataPage [RecordSerde] {σ : Type}
    (list : σ → Except StoreError (List SessionRecord)) (s : σ) (afterId : Option String) (limit : Nat) :
    Except StoreError (List RetentionMetadata) := do
  let records ← list s
  let sorted := records.mergeSort fun a b => decide (a.recoveryId ≤ b.recoveryId)
  ((sorted.filter fun r => afterId.all fun id => decide (id < r.recoveryId)).take limit).mapM
    SessionRecord.retentionMetadata

/-- The default of `retire_detached`, over `load` and `compare_exchange`. -/
def SessionStore.defaultRetireDetached [External] {σ : Type}
    (load : σ → String → Except StoreError (Option SessionRecord))
    (compareExchange : σ → String → Nat → SessionRecord → Except StoreError σ) (s : σ) (id : String)
    (expectedRevision nowMs : Nat) (reason : String) : Except StoreError (Bool × σ) := do
  let old ← orElse (← load s id) .notFound
  match ← retirementReplacement old expectedRevision nowMs reason with
  | none => .ok (false, s)
  | some new =>
    let s ← compareExchange s id expectedRevision new
    .ok (true, s)

section
variable [External] [RecordSerde]

/-- `MemoryStore`, which does not define `retire_detached`. -/
def MemoryStore : SessionStore Records where
  create := Records.create
  load s id := .ok (s.get? id)
  compareExchange := Records.compareExchange
  list s := .ok s.values
  metadataPage s afterId limit :=
    ((s.values.filter fun r => afterId.all fun id => decide (id < r.recoveryId)).take limit).mapM
      SessionRecord.retentionMetadata
  retireDetached := SessionStore.defaultRetireDetached (fun s id => .ok (s.get? id))
    Records.compareExchange

end

/-! ## SQL -/

namespace Sql

/-- A value of SQL. `json` is the text of an array or of an object. -/
inductive Cell where
  | null
  | integer (i : Int)
  | real (q : Rat)
  | text (s : String)
  | json (v : Value)
  deriving DecidableEq

/-- The element at a path of members. -/
def member : List String → Value → Option Value
  | [], v => some v
  | key :: path, v => (v.get key).bind (member path)

/-- `json_extract`. -/
def jsonExtract (path : List String) (v : Value) : Cell :=
  match member path v with
  | none | some .null => .null
  | some (.bool b) => .integer (if b then 1 else 0)
  | some (.number (.int i)) => if -i64Max - 1 ≤ i ∧ i ≤ i64Max then .integer i else .real i
  | some (.number (.float q)) => .real q
  | some (.string s) => .text s
  | some v => .json v

/-- `->`: the JSON text of the element, as the element. -/
def arrow (path : List String) (v : Value) : Option Value := member path v

/-- The `value` column of `json_each`. Where it is the text of an object, `json_extract` reads the object. -/
def jsonEach (path : List String) (v : Value) : List Value :=
  match member path v with
  | none => []
  | some (.array vs) => vs
  | some (.object fields) => fields.map (·.2)
  | some v => [v]

/-- `IS NOT NULL`. -/
def isNotNull : Cell → Bool
  | .null => false
  | _ => true

/-- `NOT IN`, over texts. -/
def notIn (c : Cell) (texts : List String) : Option Bool :=
  match c with
  | .null => none
  | .text s => some (!texts.contains s)
  | _ => some true

/-- `= 0`. -/
def isZero : Cell → Option Bool
  | .null => none
  | .integer i => some (i == 0)
  | .real q => some (q == 0)
  | .text _ | .json _ => some false

/-- `EXISTS(SELECT 1 … WHERE)`: some row makes the condition true. -/
def existsWhere (rows : List Value) (condition : Value → Option Bool) : Bool :=
  rows.any fun row => condition row == some true

/-- The condition of a `CASE`, on a number or `NULL`. -/
def isTrue : Cell → Bool
  | .integer i => i != 0
  | .real q => q != 0
  | .null | .text _ | .json _ => false

/-- `row.get::<_, bool>`. -/
def getBool : Cell → Except StoreError Bool
  | .integer i => .ok (i != 0)
  | _ => .error (.io "Invalid column type")

end Sql

/-! ## `SQLiteStore` -/

/-- A row of `sessions` beside its primary key. -/
structure SessionRow where
  revision : Nat
  record : String
  deriving DecidableEq, Repr

/-- The table `sessions`; the order of its keys is that of the binary collation. -/
abbrev SessionTable := OrdMap String SessionRow

/-- `i64::try_from`. -/
def i64TryFrom (n : Nat) : Except StoreError Nat := do
  refuse (decide (i64Max < n)) (.io "out of range integral type conversion attempted")
  .ok n

/-- `UPDATE sessions SET revision=?1,record=?2 WHERE id=?3 AND revision=?4`: the changed rows, and the
table. -/
def SessionTable.update (t : SessionTable) (revision : Nat) (record id : String) (expected : Nat) :
    Nat × SessionTable :=
  match t.get? id with
  | some row => if row.revision = expected then (1, t.insert id ⟨revision, record⟩) else (0, t)
  | none => (0, t)

section
variable [RecordSerde]

/-- A row of the query of `metadata_page`, read into a `RetentionMetadata`. -/
def SessionRow.metadata (id : String) (row : SessionRow) : Except StoreError RetentionMetadata := do
  let record ← orElse (RecordSerde.parse row.record) (.io "malformed JSON")
  let forgotten ← Sql.getBool (Sql.jsonExtract ["forgotten"] record)
  let detachedSinceMs ← orElse (optionU64 (Sql.arrow ["detached_since_ms"] record))
    (.io "invalid type")
  .ok {
    recoveryId := id
    revision := row.revision
    detachedSinceMs
    forgotten
    protectedActive := Sql.isNotNull (Sql.jsonExtract ["owner"] record) ||
      Sql.existsWhere (Sql.jsonEach ["runs"] record) fun value =>
        Sql.notIn (Sql.jsonExtract ["snapshot", "status"] value) ["completed", "failed", "cancelled"]
    protectedUnknown := Sql.existsWhere (Sql.jsonEach ["unknown_executions"] record) fun value =>
      Sql.isZero (Sql.jsonExtract ["acknowledged"] value)
    payloadBytes :=
      if Sql.isTrue (Sql.jsonExtract ["forgotten"] record) then 0 else row.record.utf8ByteSize }

variable [External]

namespace SQLiteStore

/-- The record of a row. -/
def recordOf (row : SessionRow) : Except StoreError SessionRecord :=
  (RecordSerde.fromText row.record).mapError .io

/-- What `compare_exchange` and `retire_detached` do once they have the replacement. -/
def exchange (t : SessionTable) (old : SessionRecord) (id : String) (expected : Nat) (new : SessionRecord) :
    Except StoreError SessionTable := do
  validateReplace old id expected new
  let revision ← i64TryFrom new.revision
  let matched ← i64TryFrom expected
  let (changed, t) := t.update revision (RecordSerde.toText new) id matched
  refuse (changed != 1) .conflict
  .ok t

omit [External] in
/-- The record that the transaction reads under an id. -/
def read (t : SessionTable) (id : String) : Except StoreError SessionRecord := do
  let row ← orElse (t.get? id) .notFound
  recordOf row

def create (t : SessionTable) (r : SessionRecord) : Except StoreError SessionTable := do
  validateCreate r
  refuse (t.get? r.recoveryId).isSome .conflict
  let revision ← i64TryFrom r.revision
  .ok (t.insert r.recoveryId ⟨revision, RecordSerde.toText r⟩)

omit [External] in
def load (t : SessionTable) (id : String) : Except StoreError (Option SessionRecord) :=
  match t.get? id with
  | none => .ok none
  | some row => (recordOf row).map some

def compareExchange (t : SessionTable) (id : String) (expected : Nat) (new : SessionRecord) :
    Except StoreError SessionTable := do
  let old ← read t id
  exchange t old id expected new

omit [External] in
def list (t : SessionTable) : Except StoreError (List SessionRecord) := t.values.mapM recordOf

omit [External] in
def metadataPage (t : SessionTable) (afterId : Option String) (limit : Nat) :
    Except StoreError (List RetentionMetadata) := do
  let limit ← i64TryFrom limit
  ((t.entries.filter fun e => afterId.all fun id => decide (id < e.1)).take limit).mapM fun e =>
    e.2.metadata e.1

def retireDetached (t : SessionTable) (id : String) (expected now : Nat) (reason : String) :
    Except StoreError (Bool × SessionTable) := do
  let old ← read t id
  match ← retirementReplacement old expected now reason with
  | none => .ok (false, t)
  | some new =>
    let t ← exchange t old id expected new
    .ok (true, t)

end SQLiteStore

/-- `SQLiteStore`. -/
def SQLiteStore : SessionStore SessionTable where
  create := SQLiteStore.create
  load := SQLiteStore.load
  compareExchange := SQLiteStore.compareExchange
  list := SQLiteStore.list
  metadataPage := SQLiteStore.metadataPage
  retireDetached := SQLiteStore.retireDetached

end

/-! ## Calls -/

/-- A call of the trait. -/
inductive StoreCall where
  | create (r : SessionRecord)
  | load (id : String)
  | compareExchange (id : String) (expected : Nat) (new : SessionRecord)
  | retireDetached (id : String) (expected now : Nat) (reason : String)
  | metadataPage (afterId : Option String) (limit : Nat)
  | list

/-- What a call returns. -/
inductive StoreAnswer where
  | done
  | loaded (r : Option SessionRecord)
  | retired (b : Bool)
  | page (rows : List RetentionMetadata)
  | listed (rs : List SessionRecord)

namespace SessionStore

variable {σ : Type}

/-- The answer of a call and the state it leaves; a call that fails leaves the state as it was. -/
def perform (store : SessionStore σ) (s : σ) : StoreCall → Except StoreError StoreAnswer × σ
  | .create r =>
    match store.create s r with
    | .ok s' => (.ok .done, s')
    | .error e => (.error e, s)
  | .load id => ((store.load s id).map .loaded, s)
  | .compareExchange id expected new =>
    match store.compareExchange s id expected new with
    | .ok s' => (.ok .done, s')
    | .error e => (.error e, s)
  | .retireDetached id expected now reason =>
    match store.retireDetached s id expected now reason with
    | .ok (b, s') => (.ok (.retired b), s')
    | .error e => (.error e, s)
  | .metadataPage afterId limit => ((store.metadataPage s afterId limit).map .page, s)
  | .list => ((store.list s).map .listed, s)

/-- The answers of a sequence of calls and the state they leave. -/
def run (store : SessionStore σ) : σ → List StoreCall → List (Except StoreError StoreAnswer) × σ
  | s, [] => ([], s)
  | s, call :: calls =>
    let (answer, s) := store.perform s call
    let (answers, s) := store.run s calls
    (answer :: answers, s)

end SessionStore

end Whale
