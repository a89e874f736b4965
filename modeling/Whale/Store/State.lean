import Whale.Lib.Check
import Whale.Lib.OrdMap
import Whale.Protocol.Runs
import Mathlib.Data.String.Basic

/-!
# The durable session record

`SessionRecord` and its operations (`whale-store/src/state.rs`): the validation every stored record
passes, and the writers of the run ledger, `begin`, `mutate`, `finalize` and `recover`.

A Rust method on `&mut self` returns its value with the new record; a refused one returns the error
alone, since its caller drops the working copy. `Uuid::new_v4` is an argument (`FreshIds`).
-/

namespace Whale

open Check

/-- `StoreError`. -/
inductive StoreError where
  | limitExceeded (message : String)
  | invalid (message : String)
  | notFound
  | unauthorized
  | conflict
  | active
  | unknownExecutions
  | staleLease
  | forgotten
  | io (message : String)
  | poisoned (message : String)
  deriving DecidableEq, Repr

/-- The `Display` text. -/
def StoreError.toText : StoreError → String
  | limitExceeded m => "Session admission limit exceeded: " ++ m
  | invalid m => "Invalid store operation: " ++ m
  | notFound => "Recovery record not found"
  | unauthorized => "Invalid recovery credentials"
  | conflict => "Store revision or identity conflict"
  | active => "Recovery session is attached"
  | unknownExecutions => "Unknown executions require acknowledgment"
  | staleLease => "Stale session lease"
  | forgotten => "Recovery record was forgotten"
  | io m => "Store I/O failed: " ++ m
  | poisoned m => "Session journal is poisoned: " ++ m

/-! ## Data -/

/-- The ledger entry of one model tool call. -/
structure StoredCall where
  callId : String
  stepId : String
  toolName : String
  resultItemId : String
  executionId : String
  intent : Option ToolExecutionRecord := none
  outcome : Option CanonicalItem := none
  committed : Bool := false
  deriving DecidableEq, Repr

structure StoredRun where
  params : StartTurnParams
  snapshot : RunSnapshot
  effectiveOptions : Value
  historyStart : Nat
  modelInputs : List ModelInputRecord
  calls : List StoredCall

structure SessionRecord where
  schemaVersion : Nat
  createdAtMs : Option Nat := none
  updatedAtMs : Option Nat := none
  detachedSinceMs : Option Nat := none
  retiredAtMs : Option Nat := none
  retirementReason : Option String := none
  recoveryId : String
  secretDigest : String
  revision : Nat
  epoch : Nat
  owner : Option String
  threadId : Option String
  historicalThreadIds : List String
  forgotten : Bool
  configuration : Value
  history : List CanonicalItem
  runs : OrdMap String StoredRun
  unknownExecutions : List UnknownExecution

inductive RunMutation where
  | modelInput (stepId : String) (stepIndex : Nat) (request : Value)
  | modelItem (stepId : String) (item : CanonicalItem)
  | modelStepFinished (stepId : String) (usage : UsageMetrics)
  | dispatchIntent (callId : String) (execution : ToolExecutionRecord)
  | toolOutcome (callId : String) (result : CanonicalItem)
  | toolBatch (callIds : List String)
  deriving Repr

/-- The two UUIDs `mutate` generates for a new tool call. -/
structure FreshIds where
  resultItemId : String
  executionId : String
  deriving Repr

structure CommitReceipt where
  revision : Nat
  resultItem : Option CanonicalItem

structure FinalizedRun where
  snapshot : RunSnapshot
  history : List CanonicalItem

/-- Inserting the ids one after another into a set holding `seen` meets one that is there. -/
def repeats (seen : List String) : List String → Bool
  | [] => false
  | id :: ids => seen.contains id || repeats (id :: seen) ids

/-- `<` of optional timestamps: `None` is below every `Some`. -/
def timeLt : Option Nat → Option Nat → Bool
  | none, some _ => true
  | some a, some b => a < b
  | _, none => false

namespace StoredRun

/-- `matches!` of a completed step with the id. -/
def stepCompleted (run : StoredRun) (stepId : String) : Bool :=
  run.modelInputs.any fun s => s.stepId == stepId && s.completed

/-- The usages of the steps that have one. -/
def usages (run : StoredRun) : List UsageMetrics := run.modelInputs.filterMap (·.usage)

end StoredRun

namespace SessionRecord

/-- `record.revision = revision`. -/
def withRevision (r : SessionRecord) (revision : Nat) : SessionRecord := { r with revision }

/-- `record.configuration = configuration`. -/
def withConfiguration (r : SessionRecord) (configuration : Value) : SessionRecord :=
  { r with configuration }

/-- `record.owner = None; record.thread_id = None`. -/
def dropLease (r : SessionRecord) : SessionRecord := { r with owner := none, threadId := none }

/-- `SessionRecord::unresolved`. -/
def unresolved (r : SessionRecord) : Bool := r.unknownExecutions.any fun u => !u.acknowledged

/-- `SessionRecord::active`. -/
def active (r : SessionRecord) : Bool :=
  r.runs.values.any fun run => !run.snapshot.status.isTerminal

/-- `SessionRecord::snapshot`. -/
def snapshot (r : SessionRecord) : RecoverySnapshot where
  recoveryId := r.recoveryId
  revision := r.revision
  epoch := r.epoch
  attached := r.owner.isSome
  configuration := r.configuration
  history := r.history
  runs := r.runs.values.map fun run => ⟨run.snapshot, run.modelInputs, run.effectiveOptions⟩
  unknownExecutions := r.unknownExecutions

end SessionRecord

/-! ## Validation -/

/-- The ledger ids met so far while validating the runs. -/
structure SeenIds where
  callIds : List String := []
  executionIds : List String := []
  resultIds : List String := []

/-- The call's own item: a `ToolCall` with its call id and tool name. -/
def StoredCall.isItem (c : StoredCall) : CanonicalItem → Bool
  | .toolCall _ callId _ name _ _ => callId == c.callId && name == c.toolName
  | _ => false

/-- The shape of the call's result: a `ToolResult` with its result id and call id. -/
def StoredCall.isResult (c : StoredCall) : CanonicalItem → Bool
  | .toolResult id callId _ _ => id == c.resultItemId && callId == c.callId
  | _ => false

/-- The model-input loop of `validate`. -/
def checkSteps (revision : Nat) : Nat → List String → List ModelInputRecord → Except StoreError Unit
  | _, _, [] => .ok ()
  | index, steps, step :: rest => do
    refuse (step.stepIndex != index || step.stepId.isEmpty || steps.contains step.stepId ||
      !step.request.isObject || step.completed != step.usage.isSome ||
      step.historyRevision > revision) (.invalid "Malformed model input ledger")
    checkSteps revision (index + 1) (step.stepId :: steps) rest

/-- The outcome of a call is its result; a committed one is in the history. -/
def checkOutcome (history : List CanonicalItem) (call : StoredCall) : Except StoreError Unit :=
  match call.outcome with
  | some outcome =>
    refuse (!call.isResult outcome || (call.committed && !history.contains outcome))
      (.invalid "Malformed stored tool result")
  | none => .ok ()

/-- One pass of the call loop of `validate`. -/
def checkCall (history : List CanonicalItem) (steps : List String) (seen : SeenIds)
    (call : StoredCall) : Except StoreError SeenIds := do
  refuse (call.callId.isEmpty || seen.callIds.contains call.callId ||
    seen.executionIds.contains call.executionId || seen.resultIds.contains call.resultItemId ||
    !steps.contains call.stepId || !history.any call.isItem)
    (.invalid "Malformed tool ledger identity")
  refuse (call.intent.any (·.callId != call.callId) || (call.committed && call.outcome.isNone))
    (.invalid "Malformed tool ledger state")
  checkOutcome history call
  .ok ⟨call.callId :: seen.callIds, call.executionId :: seen.executionIds,
    call.resultItemId :: seen.resultIds⟩

def checkCalls (history : List CanonicalItem) (steps : List String) :
    SeenIds → List StoredCall → Except StoreError SeenIds
  | seen, [] => .ok seen
  | seen, call :: calls => do
    let seen ← checkCall history steps seen call
    checkCalls history steps seen calls

/-- The terminal result of a run repeats its snapshot. -/
def checkResult (snapshot : RunSnapshot) : Except StoreError Unit :=
  match snapshot.result with
  | some result =>
    refuse (result.threadId != snapshot.threadId || result.turnId != snapshot.turnId ||
      result.status != snapshot.status.turnStatus || result.items != snapshot.items ||
      result.usage != snapshot.usage) (.invalid "Malformed terminal result")
  | none => .ok ()

/-- The second loop of `validate` over the runs. -/
def checkLedgers (revision : Nat) (history : List CanonicalItem) :
    SeenIds → List StoredRun → Except StoreError Unit
  | _, [] => .ok ()
  | seen, run :: runs => do
    checkSteps revision 0 [] run.modelInputs
    let seen ← checkCalls history (run.modelInputs.map (·.stepId)) seen run.calls
    checkResult run.snapshot
    checkLedgers revision history seen runs

/-- The call of an unknown execution: dispatched, with an outcome. -/
def StoredCall.isUnknown (u : UnknownExecution) (call : StoredCall) : Bool :=
  call.executionId == u.executionId && call.callId == u.callId && call.intent.isSome &&
    call.outcome.isSome

def checkUnknown (runs : OrdMap String StoredRun) :
    List String → List UnknownExecution → Except StoreError Unit
  | _, [] => .ok ()
  | seen, u :: us => do
    refuse (seen.contains u.executionId ||
      !(runs.get? u.turnId).any fun run => run.calls.any (StoredCall.isUnknown u))
      (.invalid "Malformed unknown execution")
    checkUnknown runs (u.executionId :: seen) us

namespace SessionRecord

section
variable [External]

/-- `SessionRecord::validate`. -/
def validate (r : SessionRecord) : Except StoreError Unit := do
  refuse (!(r.schemaVersion == 1 || r.schemaVersion == 2) || !External.parseUuid r.recoveryId ||
    r.secretDigest.utf8ByteSize != 64 || !allHexDigits r.secretDigest || r.revision == 0 ||
    r.owner.isSome != r.threadId.isSome || !r.configuration.isObject || r.epoch == 0)
    (.invalid "Malformed session record")
  refuse (r.schemaVersion == 2 &&
    (r.createdAtMs.isNone || timeLt r.updatedAtMs r.createdAtMs ||
      (r.owner.isSome && r.detachedSinceMs.isSome) ||
      (!r.forgotten && r.owner.isNone && r.detachedSinceMs.isNone) ||
      r.forgotten != r.retiredAtMs.isSome || r.forgotten != r.retirementReason.isSome))
    (.invalid "Malformed retention metadata")
  refuse (r.forgotten && (r.owner.isSome || !r.history.isEmpty || !r.runs.entries.isEmpty ||
    !r.unknownExecutions.isEmpty)) (.invalid "Malformed tombstone")
  refuse (r.owner.any blank ||
    r.threadId.any (fun v => blank v || !r.historicalThreadIds.contains v) ||
    (r.active && r.owner.isNone)) (.invalid "Malformed live attachment")
  refuse (r.historicalThreadIds.any (·.isEmpty) || repeats [] r.historicalThreadIds)
    (.invalid "Duplicate attachment identity")
  refuse (repeats [] (r.history.map (·.id))) (.invalid "Duplicate history item ID")
  refuse (r.runs.entries.any fun (id, run) =>
    id != run.params.turnId || id != run.snapshot.turnId ||
      run.params.threadId != run.snapshot.threadId || run.historyStart > r.history.length ||
      (run.snapshot.status.isTerminal && run.snapshot.result.isNone))
    (.invalid "Malformed run record")
  checkLedgers r.revision r.history {} r.runs.values
  checkUnknown r.runs [] r.unknownExecutions

/-! ## Limits -/

/-- `configuration.pointer("/session/limits").filter(|v| !v.is_null())`. -/
def limitsValue (r : SessionRecord) : Option Value :=
  ((r.configuration.get "session").bind (·.get "limits")).filter (· != .null)

/-- The limits the configuration holds, if any; `label` starts a deserialization error. -/
def sessionLimits (r : SessionRecord) (label : String) : Except StoreError (Option SessionLimits) :=
  match r.limitsValue with
  | none => .ok none
  | some value =>
    match SessionLimits.fromValue value with
    | .error e => .error (.invalid (label ++ e))
    | .ok limits =>
      match limits.validate with
      | .error e => .error (.invalid e)
      | .ok () => .ok (some limits)

/-- Refuse a size above a limit. -/
def checkSize (size : Except String Nat) (max : Option Nat) (field : String) :
    Except StoreError Unit :=
  match max with
  | none => .ok ()
  | some max =>
    match size with
    | .error e => .error (.invalid e)
    | .ok bytes => refuse (bytes > max) (.limitExceeded field)

/-- The admission checks of `begin`. -/
def checkAdmission (r : SessionRecord) (input : List CanonicalItem) : Except StoreError Unit := do
  match ← r.sessionLimits "Invalid session limits: " with
  | none => .ok ()
  | some limits => do
    refuse (limits.maxAcceptedTurns.any (r.runs.entries.length ≥ ·))
      (.limitExceeded "max_accepted_turns")
    checkSize (historyBytes r.history input) limits.maxHistoryBytes "max_history_bytes"

/-- The limit checks `mutate` makes before a model input or a dispatch. -/
def checkLimits (r : SessionRecord) (op : RunMutation) : Except StoreError Unit :=
  match op with
  | .modelInput _ _ request => do
    match ← r.sessionLimits "" with
    | none => .ok ()
    | some limits => do
      checkSize (historyBytes r.history []) limits.maxHistoryBytes "max_history_bytes"
      checkSize (External.valueBytes request) limits.maxModelRequestBytes "max_model_request_bytes"
  | .dispatchIntent _ _ => do
    match ← r.sessionLimits "" with
    | none => .ok ()
    | some limits => checkSize (historyBytes r.history []) limits.maxHistoryBytes "max_history_bytes"
  | _ => .ok ()

/-! ## Acceptance -/

/-- `SessionRecord::begin`. -/
def begin (r : SessionRecord) (params : StartTurnParams) (snapshot : RunSnapshot)
    (effectiveOptions : Value) : Except StoreError (Bool × SessionRecord) :=
  match r.runs.get? params.turnId with
  | some old =>
    if old.params == params && old.effectiveOptions == effectiveOptions then .ok (false, r)
    else .error .conflict
  | none => do
    refuse r.active .active
    refuse r.unresolved .unknownExecutions
    refuse (r.threadId != some params.threadId || params.turnId.isEmpty || params.maxSteps == 0 ||
      params.timeoutMs == some 0 || snapshot.threadId != params.threadId ||
      snapshot.turnId != params.turnId || snapshot.status.isTerminal || snapshot.result.isSome)
      (.invalid "Invalid run acceptance")
    r.checkAdmission params.inputItems
    refuse (repeats (r.history.map (·.id)) (params.inputItems.map (·.id)))
      (.invalid "Duplicate input item ID")
    let run : StoredRun :=
      { params, snapshot := { snapshot with items := params.inputItems }, effectiveOptions,
        historyStart := r.history.length, modelInputs := [], calls := [] }
    .ok (true, { r with
      history := r.history ++ params.inputItems, runs := r.runs.insert params.turnId run })

end

end SessionRecord

/-! ## Mutations -/

/-- `checked_usage`: the sum over the usages, or an error when a counter overflows. -/
def checkedUsage (usages : List UsageMetrics) : Except StoreError UsageMetrics :=
  orElse (UsageMetrics.checkedSum {} usages) (.invalid "Model usage exceeds u64 range")

/-- `iter_mut().find(p)` followed by an assignment through the reference. -/
def updateFirst {α : Type} (p : α → Bool) (f : α → α) : List α → List α
  | [] => []
  | a :: as => if p a then f a :: as else a :: updateFirst p f as

/-- `last_mut` followed by an assignment through the reference. -/
def setLast {α : Type} (l : List α) (a : α) : List α := l.dropLast ++ [a]

/-- The effect of a mutation on the run and the history, with the returned item. -/
def mutateRun (revision : Nat) (history : List CanonicalItem) (run : StoredRun) (fresh : FreshIds) :
    RunMutation → Except StoreError (StoredRun × List CanonicalItem × Option CanonicalItem)
  | .modelInput stepId stepIndex request => do
    refuse (stepId.isEmpty || stepIndex != run.modelInputs.length || !request.isObject ||
      run.modelInputs.getLast?.any (fun s => !s.completed) || run.calls.any (fun c => !c.committed) ||
      run.modelInputs.any (·.stepId == stepId)) (.invalid "Invalid model step order")
    let step : ModelInputRecord :=
      { stepId, stepIndex, historyRevision := revision, request, completed := false, usage := none }
    .ok ({ run with modelInputs := run.modelInputs ++ [step] }, history, none)
  | .modelItem stepId item => do
    let step ← orElse run.modelInputs.getLast? (.invalid "Missing model input")
    refuse (step.stepId != stepId || step.completed || item.nonModel ||
      history.any (·.id == item.id)) (.invalid "Invalid model item")
    match item with
    | .toolCall _ callId _ name _ _ => do
      refuse (callId.isEmpty || history.any (·.callId? == some callId))
        (.invalid "Duplicate model call ID")
      let call : StoredCall :=
        { callId, stepId, toolName := name, resultItemId := fresh.resultItemId,
          executionId := fresh.executionId }
      .ok ({ run with calls := run.calls ++ [call] }, history ++ [item], none)
    | _ => .ok (run, history ++ [item], none)
  | .modelStepFinished stepId usage => do
    let _ ← checkedUsage (run.usages ++ [usage])
    let step ← orElse run.modelInputs.getLast? (.invalid "Missing model input")
    refuse (step.stepId != stepId || step.completed) (.invalid "Invalid model completion")
    let step := { step with completed := true, usage := some usage }
    .ok ({ run with modelInputs := setLast run.modelInputs step }, history, none)
  | .dispatchIntent callId execution => do
    let call ← orElse (run.calls.find? (·.callId == callId)) (.invalid "Unknown tool call")
    refuse (execution.callId != callId || call.intent.isSome || call.outcome.isSome ||
      !run.stepCompleted call.stepId)
      (.invalid "Tool dispatch cannot be repeated or precede step completion")
    let calls := updateFirst (·.callId == callId) ({ · with intent := some execution }) run.calls
    .ok ({ run with calls }, history, none)
  | .toolOutcome callId result => do
    let call ← orElse (run.calls.find? (·.callId == callId)) (.invalid "Unknown tool call")
    refuse (!run.stepCompleted call.stepId) (.invalid "Tool outcome precedes model step completion")
    match result with
    | .toolResult _ resultCall output isError => do
      refuse (resultCall != callId) (.invalid "Wrong outcome identity")
      let item := .toolResult call.resultItemId callId output isError
      refuse (call.outcome.any (· != item)) .conflict
      let calls := updateFirst (·.callId == callId) ({ · with outcome := some item }) run.calls
      .ok ({ run with calls }, history, some item)
    | _ => .error (.invalid "Expected tool result")
  | .toolBatch callIds => do
    let calls := run.calls.filter (!·.committed)
    refuse (calls.map (·.callId) != callIds || calls.any (·.outcome.isNone))
      (.invalid "Incomplete or out-of-order tool batch")
    .ok ({ run with calls := run.calls.map ({ · with committed := true }) },
      history ++ calls.filterMap (·.outcome), none)

namespace SessionRecord

/-- `SessionRecord::mutate`. -/
def mutate [External] (r : SessionRecord) (turn : String) (op : RunMutation) (fresh : FreshIds) :
    Except StoreError (Option CanonicalItem × SessionRecord) := do
  r.checkLimits op
  let run ← orElse (r.runs.get? turn) .notFound
  refuse run.snapshot.status.isTerminal (.invalid "Run is terminal")
  let (run, history, returned) ← mutateRun r.revision r.history run fresh op
  let snapshot := { run.snapshot with items := history.drop run.historyStart }
  .ok (returned, { r with history, runs := r.runs.insert turn { run with snapshot } })

end SessionRecord

/-! ## Settlement -/

/-- The reason recorded for a call without an outcome. -/
def settleReason (dispatched : Bool) : String :=
  if dispatched then
    "Tool execution was dispatched but no result was durably recorded. External side effects are unknown; the call was not retried."
  else "Tool was not dispatched before the run ended; the call was not retried."

/-- The outcome a call is settled with: its own, or an error result. -/
def StoredCall.settledOutcome (c : StoredCall) : CanonicalItem :=
  match c.outcome with
  | some outcome => outcome
  | none => .toolResult c.resultItemId c.callId (.text (settleReason c.intent.isSome)) true

/-- A call after settlement. -/
def StoredCall.settle (c : StoredCall) : StoredCall :=
  { c with outcome := some c.settledOutcome, committed := true }

/-- The unknown execution a dispatched call without an outcome leaves. -/
def StoredCall.unknown? (turn : String) (c : StoredCall) : Option UnknownExecution :=
  match c.outcome, c.intent with
  | none, some intent => some
    { executionId := c.executionId, turnId := turn, callId := c.callId, toolName := c.toolName,
      originalArguments := some intent.originalArguments, arguments := some intent.arguments,
      reason := settleReason true, acknowledged := false }
  | _, _ => none

/-- The results settlement appends: those of the calls not yet committed. -/
def settledResults (calls : List StoredCall) : List CanonicalItem :=
  (calls.filter (!·.committed)).map (·.settledOutcome)

/-- The terminal snapshot of a settled run. -/
def terminalSnapshot (turn : String) (run : StoredRun) (history : List CanonicalItem)
    (usage : UsageMetrics) (candidate : RunSnapshot) : RunSnapshot :=
  let incomplete := run.calls.any (·.outcome.isNone)
  let candidate :=
    if incomplete && candidate.status == .completed then
      { candidate with
        status := .failed,
        error := some ⟨"INCOMPLETE_EXECUTION", "Completed candidate contains unfinished calls"⟩ }
    else candidate
  let items := history.drop run.historyStart
  { candidate with
    items, pendingApprovals := [], toolExecutions := run.calls.filterMap (·.intent), usage,
    lastSeq := max candidate.lastSeq (saturatingSucc run.snapshot.lastSeq),
    result := some
      { threadId := candidate.threadId, turnId := turn, status := candidate.status.turnStatus,
        items, usage } }

namespace SessionRecord

/-- `SessionRecord::finalize`. -/
def finalize (r : SessionRecord) (turn : String) (candidate : RunSnapshot) :
    Except StoreError (FinalizedRun × SessionRecord) := do
  let run ← orElse (r.runs.get? turn) .notFound
  if run.snapshot.status.isTerminal then .ok (⟨run.snapshot, r.history⟩, r)
  else do
    refuse (candidate.threadId != run.params.threadId || candidate.turnId != turn ||
      !candidate.status.isTerminal) (.invalid "Invalid terminal identity/status")
    let history := r.history ++ settledResults run.calls
    let usage ← checkedUsage run.usages
    let snapshot := terminalSnapshot turn run history usage candidate
    .ok (⟨snapshot, history⟩, { r with
      history, runs := r.runs.insert turn { run with snapshot, calls := run.calls.map (·.settle) },
      unknownExecutions := r.unknownExecutions ++ run.calls.filterMap (·.unknown? turn) })

/-- The turn ids of the runs that are not terminal, in key order. -/
def activeTurns (r : SessionRecord) : List String :=
  (r.runs.entries.filter fun e => !e.2.snapshot.status.isTerminal).map (·.1)

/-- The candidate `recover` finalizes an interrupted run with. -/
def interrupted (snapshot : RunSnapshot) : RunSnapshot :=
  { snapshot with
    status := .failed,
    error := some ⟨"RECOVERY_INTERRUPTED",
      "Daemon stopped before the run was durably finalized; execution was not resumed"⟩ }

/-- The settlement loop of `recover`. -/
def recoverTurns : SessionRecord → List String → Except StoreError SessionRecord
  | r, [] => .ok r
  | r, turn :: turns => do
    let run ← orElse (r.runs.get? turn) .notFound
    let (_, r) ← r.finalize turn (interrupted run.snapshot)
    recoverTurns r turns

/-- `SessionRecord::recover`: whether it changed the record, and the record. -/
def recover (r : SessionRecord) : Except StoreError (Bool × SessionRecord) :=
  if r.forgotten then .ok (false, r)
  else do
    let changed := r.owner.isSome || !r.activeTurns.isEmpty
    let r ← r.recoverTurns r.activeTurns
    .ok (changed, r.dropLease)

end SessionRecord

end Whale
