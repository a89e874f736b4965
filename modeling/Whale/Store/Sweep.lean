import Whale.Store.Backends

/-!
# The retention sweep

`sweep_owned` and `metadata` of `whale-store/src/retention.rs`, over the calls of a backend. The scan
pages through the metadata until a page is empty, which a backend may put off for ever, so it has
fuel.
-/

namespace Whale

open Check

/-- `StoreRetentionPolicy`. -/
structure StoreRetentionPolicy where
  detachedTtlMs : Option Nat := none
  maxRetainedSessions : Option Nat := none
  maxRetainedPayloadBytes : Option Nat := none
  deriving DecidableEq, Repr

/-- `RetentionReport`. -/
structure RetentionReport where
  examined : Nat := 0
  retired : Nat := 0
  protectedActive : Nat := 0
  protectedUnknown : Nat := 0
  remainingSessions : Nat := 0
  remainingPayloadBytes : Nat := 0
  unmetSessions : Nat := 0
  unmetPayloadBytes : Nat := 0
  deriving DecidableEq, Repr

/-- `u64::checked_sub`. -/
def checkedSub (a b : Nat) : Option Nat := if b ≤ a then some (a - b) else none

/-! ## The scan -/

/-- One row of a page in `metadata`: the cursor and the rows so far. -/
def takeRow (acc : Option String × List RetentionMetadata) (row : RetentionMetadata) :
    Except StoreError (Option String × List RetentionMetadata) := do
  refuse (acc.1.any fun old => decide (row.recoveryId ≤ old))
    (.invalid "Retention metadata pages must increase by ID")
  .ok (some row.recoveryId, if row.forgotten then acc.2 else acc.2 ++ [row])

namespace SessionStore

variable {σ : Type}

/-- The loop of `metadata`. -/
def metadataFrom (store : SessionStore σ) (s : σ) :
    Nat → Option String × List RetentionMetadata → Option (Except StoreError (List RetentionMetadata))
  | 0, _ => none
  | fuel + 1, acc =>
    match store.metadataPage s acc.1 128 with
    | .error e => some (.error e)
    | .ok [] => some (.ok acc.2)
    | .ok (row :: rows) =>
      match (row :: rows).foldlM takeRow acc with
      | .error e => some (.error e)
      | .ok acc => metadataFrom store s fuel acc

/-- `StoreRuntime::metadata`. -/
def metadata (store : SessionStore σ) (s : σ) (fuel : Nat) :
    Option (Except StoreError (List RetentionMetadata)) := store.metadataFrom s fuel (none, [])

end SessionStore

/-! ## The rows -/

namespace RetentionMetadata

/-- `(a.detached_since_ms, &a.recovery_id) <= (b.detached_since_ms, &b.recovery_id)`. -/
def le (a b : RetentionMetadata) : Bool :=
  match a.detachedSinceMs, b.detachedSinceMs with
  | none, none => decide (a.recoveryId ≤ b.recoveryId)
  | none, some _ => true
  | some _, none => false
  | some m, some n => decide (m < n) || (m == n && decide (a.recoveryId ≤ b.recoveryId))

/-- `ttl` in the loop. -/
def expired (policy : StoreRetentionPolicy) (now : Nat) (row : RetentionMetadata) : Bool :=
  policy.detachedTtlMs.any fun ttl =>
    (row.detachedSinceMs.bind fun since => checkedSub now since).any fun age => decide (ttl ≤ age)

end RetentionMetadata

namespace StoreRetentionPolicy

/-- `excess` in the loop. -/
def excess (policy : StoreRetentionPolicy) (sessions bytes : Nat) : Bool :=
  policy.maxRetainedSessions.any (fun max => decide (max < sessions)) ||
    policy.maxRetainedPayloadBytes.any fun max => decide (max < bytes)

end StoreRetentionPolicy

/-- The reason a row is retired for. -/
def sweepReason (ttl : Bool) : String := if ttl then "detached_ttl" else "retention_budget"

/-- The errors that the loop passes over. -/
def StoreError.passed : StoreError → Bool
  | conflict | active | unknownExecutions | notFound | forgotten => true
  | _ => false

/-! ## The sweep -/

/-- The store and the variables of `sweep_owned`. -/
structure Sweep (σ : Type) where
  state : σ
  report : RetentionReport := {}
  sessions : Nat := 0
  bytes : Nat := 0

namespace Sweep

variable {σ : Type}

/-- The first loop: a row is counted. -/
def examine (w : Sweep σ) (row : RetentionMetadata) : Sweep σ :=
  if row.forgotten then w
  else { w with
    report := { w.report with examined := w.report.examined + 1 }
    sessions := w.sessions + 1
    bytes := saturatingAdd w.bytes row.payloadBytes }

/-- The second loop: a row is passed over or retired. -/
def row (store : SessionStore σ) (policy : StoreRetentionPolicy) (now : Nat) (w : Sweep σ)
    (row : RetentionMetadata) : Except StoreError (Sweep σ) :=
  if row.forgotten || row.protectedActive || row.protectedUnknown then .ok w
  else
    let ttl := row.expired policy now
    if !ttl && !policy.excess w.sessions w.bytes then .ok w
    else
      match store.retireDetached w.state row.recoveryId row.revision now (sweepReason ttl) with
      | .ok (true, state) => .ok {
          state
          report := { w.report with retired := w.report.retired + 1 }
          sessions := w.sessions - 1
          bytes := w.bytes - row.payloadBytes }
      | .ok (false, state) => .ok { w with state }
      | .error e => if e.passed then .ok w else .error e

/-- The second loop; an error ends it, and what it has retired stays retired. -/
def rows (store : SessionStore σ) (policy : StoreRetentionPolicy) (now : Nat) :
    Sweep σ → List RetentionMetadata → Except StoreError Unit × Sweep σ
  | w, [] => (.ok (), w)
  | w, row :: rows =>
    match w.row store policy now row with
    | .error e => (.error e, w)
    | .ok w => Sweep.rows store policy now w rows

end Sweep

namespace RetentionReport

/-- The last loop: a remaining row is counted. -/
def remaining (report : RetentionReport) (row : RetentionMetadata) : RetentionReport :=
  if row.forgotten then report
  else { report with
    remainingSessions := report.remainingSessions + 1
    remainingPayloadBytes := saturatingAdd report.remainingPayloadBytes row.payloadBytes
    protectedActive := report.protectedActive + row.protectedActive.toNat
    protectedUnknown := report.protectedUnknown + row.protectedUnknown.toNat }

/-- What the budgets are exceeded by. -/
def unmet (report : RetentionReport) (policy : StoreRetentionPolicy) : RetentionReport :=
  { report with
    unmetSessions := policy.maxRetainedSessions.elim 0 (report.remainingSessions - ·)
    unmetPayloadBytes := policy.maxRetainedPayloadBytes.elim 0 (report.remainingPayloadBytes - ·) }

end RetentionReport

/-- `StoreRuntime::sweep_owned`: its answer, and the store it leaves. -/
def SessionStore.sweepOwned {σ : Type} (store : SessionStore σ) (policy : StoreRetentionPolicy)
    (now fuel : Nat) (s : σ) : Option (Except StoreError RetentionReport × σ) :=
  match store.metadata s fuel with
  | none => none
  | some (.error e) => some (.error e, s)
  | some (.ok rows) =>
    match Sweep.rows store policy now (rows.foldl Sweep.examine { state := s })
        (rows.mergeSort RetentionMetadata.le) with
    | (.error e, w) => some (.error e, w.state)
    | (.ok (), w) =>
      match store.metadata w.state fuel with
      | none => none
      | some (.error e) => some (.error e, w.state)
      | some (.ok rows) =>
        some (.ok ((rows.foldl RetentionReport.remaining w.report).unmet policy), w.state)

end Whale
