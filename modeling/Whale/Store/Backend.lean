import Whale.Store.Retention

/-!
# The store's own checks

`whale-store/src/backend.rs`: what a backend checks before it creates or replaces a record. Both
built-in backends load and replace a record atomically; `Records` is what they hold.
-/

namespace Whale

open Check

section
variable [External]

/-- `validate_create`. -/
def validateCreate (r : SessionRecord) : Except StoreError Unit := do
  r.validate
  refuse (r.revision != 1) (.invalid "Initial revision must be one")

end

/-! ## Serialized equality -/

namespace F32

/-- Equality of the JSON values: a number that is not finite becomes `null`. -/
def jsonEq (x y : F32) : Bool := (!x.isFinite && !y.isFinite) || (x.isFinite && y.isFinite && x == y)

end F32

/-- Equality of two optional members under `eq`. -/
def optionEq {α : Type} (eq : α → α → Bool) : Option α → Option α → Bool
  | none, none => true
  | some a, some b => eq a b
  | _, _ => false

def RunTurnOptions.jsonEq (a b : RunTurnOptions) : Bool :=
  a.model == b.model && optionEq F32.jsonEq a.temperature b.temperature &&
    a.maxTokens == b.maxTokens && a.reasoningEffort == b.reasoningEffort &&
    a.thinkingBudget == b.thinkingBudget && a.promptCaching == b.promptCaching

def StartTurnParams.jsonEq (a b : StartTurnParams) : Bool :=
  a.threadId == b.threadId && a.turnId == b.turnId && a.inputItems == b.inputItems &&
    optionEq RunTurnOptions.jsonEq a.options b.options && a.maxSteps == b.maxSteps &&
    a.timeoutMs == b.timeoutMs

def StoredRun.jsonEq (a b : StoredRun) : Bool :=
  a.params.jsonEq b.params && a.snapshot == b.snapshot &&
    a.effectiveOptions == b.effectiveOptions && a.historyStart == b.historyStart &&
    a.modelInputs == b.modelInputs && a.calls == b.calls

/-- Member-wise equality of the run maps. -/
def runsJsonEq : List (String × StoredRun) → List (String × StoredRun) → Bool
  | [], [] => true
  | a :: as, b :: bs => a.1 == b.1 && a.2.jsonEq b.2 && runsJsonEq as bs
  | _, _ => false

/-- `serde_json::to_value(a).ok() == serde_json::to_value(b).ok()`. -/
def SessionRecord.jsonEq (a b : SessionRecord) : Bool :=
  a.schemaVersion == b.schemaVersion && a.createdAtMs == b.createdAtMs &&
    a.updatedAtMs == b.updatedAtMs && a.detachedSinceMs == b.detachedSinceMs &&
    a.retiredAtMs == b.retiredAtMs && a.retirementReason == b.retirementReason &&
    a.recoveryId == b.recoveryId && a.secretDigest == b.secretDigest && a.revision == b.revision &&
    a.epoch == b.epoch && a.owner == b.owner && a.threadId == b.threadId &&
    a.historicalThreadIds == b.historicalThreadIds && a.forgotten == b.forgotten &&
    a.configuration == b.configuration && a.history == b.history &&
    runsJsonEq a.runs.entries b.runs.entries && a.unknownExecutions == b.unknownExecutions

/-- `is_legacy_tombstone_migration`. -/
def isLegacyTombstoneMigration (old new : SessionRecord) : Bool :=
  if old.schemaVersion != 1 || new.schemaVersion != 2 then false
  else
    match new.createdAtMs with
    | none => false
    | some now => ((old.migrateRetention now).2.withRevision new.revision).jsonEq new

/-! ## Replacement -/

/-- The checks on one call of a replaced run. -/
def checkCallReplacement (calls : List StoredCall) (call : StoredCall) : Except StoreError Unit := do
  let updated ← orElse (calls.find? (·.callId == call.callId)) (.invalid "Call record was removed")
  refuse (updated.resultItemId != call.resultItemId || updated.executionId != call.executionId ||
    updated.stepId != call.stepId || updated.toolName != call.toolName ||
    call.intent.any (fun i => updated.intent != some i) ||
    call.outcome.any (fun o => updated.outcome != some o) ||
    (call.committed && !updated.committed)) (.invalid "Committed tool outcome/identity was changed")

/-- The checks on one run of a replaced record. -/
def checkRunReplacement (runs : OrdMap String StoredRun) (entry : String × StoredRun) :
    Except StoreError Unit := do
  let (id, run) := entry
  let replacement ← orElse (runs.get? id) (.invalid "Run record was removed")
  refuse (!(replacement.params == run.params) ||
    replacement.effectiveOptions != run.effectiveOptions ||
    replacement.historyStart != run.historyStart ||
    (run.snapshot.status.isTerminal && replacement.snapshot != run.snapshot))
    (.invalid "Committed run identity/result was changed")
  forAll (checkCallReplacement replacement.calls) run.calls

/-- The lease check of a replacement. -/
def checkLeaseReplacement (old new : SessionRecord) : Except StoreError Unit :=
  if new.owner != old.owner || new.threadId != old.threadId then do
    if new.owner.isSome then do
      refuse old.owner.isSome .staleLease
      let next ← orElse (checkedSucc old.epoch) .conflict
      refuse (new.epoch != next) .staleLease
    else .ok ()
    refuse (new.owner.isNone && new.epoch != old.epoch) .staleLease
  else refuse (new.epoch != old.epoch) .staleLease

section
variable [External]

/-- `validate_replace`. -/
def validateReplace (old : SessionRecord) (id : String) (expected : Nat) (new : SessionRecord) :
    Except StoreError Unit := do
  new.validate
  refuse (old.revision != expected) .conflict
  refuse (new.recoveryId != id || new.secretDigest != old.secretDigest) .conflict
  let next ← orElse (checkedSucc expected) .conflict
  refuse (new.revision != next || new.epoch < old.epoch ||
    (old.forgotten && !isLegacyTombstoneMigration old new)) .conflict
  refuse (old.schemaVersion == 2 && (new.schemaVersion != 2 ||
    new.createdAtMs != old.createdAtMs || timeLt new.updatedAtMs old.updatedAtMs))
    (.invalid "Retention timestamps cannot be rewritten")
  if new.forgotten then .ok ()
  else do
    refuse (!old.history.isPrefixOf new.history ||
      !old.historicalThreadIds.isPrefixOf new.historicalThreadIds)
      (.invalid "Committed history and attachment identities are append-only")
    forAll (checkRunReplacement new.runs) old.runs.entries
    checkLeaseReplacement old new

end

/-- The stored records by recovery id. -/
abbrev Records := OrdMap String SessionRecord

section
variable [External]

/-- `SessionStore::create` of the built-in backends. -/
def Records.create (s : Records) (r : SessionRecord) : Except StoreError Records := do
  validateCreate r
  refuse (s.get? r.recoveryId).isSome .conflict
  .ok (s.insert r.recoveryId r)

/-- `SessionStore::compare_exchange` of the built-in backends. -/
def Records.compareExchange (s : Records) (id : String) (expected : Nat) (new : SessionRecord) :
    Except StoreError Records := do
  let old ← orElse (s.get? id) .notFound
  validateReplace old id expected new
  .ok (s.insert id new)

end

end Whale
