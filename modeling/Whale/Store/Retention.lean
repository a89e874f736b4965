import Whale.Store.State

/-!
# Retention metadata

The timestamps of a record and its retirement (`whale-store/src/retention.rs`). The clock
(`now_ms`) is an argument.
-/

namespace Whale

open Check

namespace SessionRecord

/-- `SessionRecord::touch`. -/
def touch (r : SessionRecord) (now : Nat) : SessionRecord :=
  { r with updatedAtMs := some (max now (r.updatedAtMs.getD now)) }

/-- `SessionRecord::mark_detached`. -/
def markDetached (r : SessionRecord) (now : Nat) : SessionRecord :=
  let r := r.touch now
  { r with detachedSinceMs := r.updatedAtMs }

/-- `SessionRecord::migrate_retention`: whether it migrated, and the record. -/
def migrateRetention (r : SessionRecord) (now : Nat) : Bool × SessionRecord :=
  if r.schemaVersion != 1 then (false, r)
  else (true, { r with
    schemaVersion := 2
    createdAtMs := some now
    updatedAtMs := some now
    detachedSinceMs := if r.owner.isNone && !r.forgotten then some now else none
    retiredAtMs := if r.forgotten then some now else none
    retirementReason := if r.forgotten then some "legacy_forget" else none })

/-- `SessionRecord::retire`. -/
def retire (r : SessionRecord) (now : Nat) (reason : String) : SessionRecord :=
  let r := r.touch now
  { r with
    forgotten := true
    retiredAtMs := r.updatedAtMs
    retirementReason := some reason
    detachedSinceMs := none
    configuration := .object []
    history := []
    runs := .empty
    unknownExecutions := []
    historicalThreadIds := [] }

end SessionRecord

/-- `retirement_replacement`. -/
def retirementReplacement [External] (r : SessionRecord) (expected now : Nat) (reason : String) :
    Except StoreError (Option SessionRecord) := do
  r.validate
  refuse (r.revision != expected) .conflict
  if r.forgotten then .ok none
  else do
    refuse (r.owner.isSome || r.active) .active
    refuse r.unresolved .unknownExecutions
    refuse (r.schemaVersion != 2 || r.detachedSinceMs.isNone)
      (.invalid "Retention metadata requires migration")
    let next ← orElse (checkedSucc expected) .conflict
    .ok (some ((r.retire now reason).withRevision next))

end Whale
