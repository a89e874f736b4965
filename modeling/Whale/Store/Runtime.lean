import Whale.Store.Configuration
import Whale.Store.Backend

/-!
# The store runtime and its journals

`whale-store/src/runtime.rs`. Every entry point reads the store once and writes it at most once, with
a compare-and-exchange against the revision it read. The part in between is pure: `openReplacement`,
`attachReplacement`, `forgetReplacement` and, for a journal command, `afterLoad`. The worker loop of
`SessionJournal::spawn` is `afterLoad` followed by `afterExchange`.
-/

namespace Whale

open Check

/-- `digest`. -/
def digest [External] (secret : String) : String := External.sha256Hex secret

section
variable [External]

/-- A key's own validation as a store error. -/
def validateKey (key : RecoveryKey) : Except StoreError Unit :=
  match key.validate with
  | .error e => .error (.invalid e)
  | .ok () => .ok ()

/-- `check_key`. The constant-time comparison of equally long digests is string equality. -/
def checkKey (r : SessionRecord) (key : RecoveryKey) : Except StoreError Unit := do
  validateKey key
  refuse (r.recoveryId != key.recoveryId || digest key.secret != r.secretDigest) .unauthorized

end

/-- `identity`. -/
def identity (owner thread : String) (configuration : Value) : Except StoreError Unit :=
  refuse (blank owner || blank thread || !configuration.isObject)
    (.invalid "Invalid attachment/configuration")

section
variable [External]

/-- The record `create` stores. -/
def createdRecord (key : RecoveryKey) (configuration : Value) (owner thread : String) (now : Nat) :
    SessionRecord where
  schemaVersion := 2
  createdAtMs := some now
  updatedAtMs := some now
  recoveryId := key.recoveryId
  secretDigest := digest key.secret
  revision := 1
  epoch := 1
  owner := some owner
  threadId := some thread
  historicalThreadIds := [thread]
  forgotten := false
  configuration
  history := []
  runs := .empty
  unknownExecutions := []

/-- `StoreRuntime::create` up to the store call. -/
def newRecord (key : RecoveryKey) (configuration : Value) (owner thread : String) (now : Nat) :
    Except StoreError SessionRecord := do
  validateKey key
  identity owner thread configuration
  let configuration ← normalizeNewConfiguration configuration
  .ok (createdRecord key configuration owner thread now)

/-- `authenticated`, given what the store holds under the key's id. -/
def authenticated (key : RecoveryKey) (stored : Option SessionRecord) :
    Except StoreError SessionRecord := do
  validateKey key
  let r ← orElse stored .notFound
  checkKey r key
  r.validate
  .ok r

/-- `StoreRuntime::inspect`. -/
def inspect (key : RecoveryKey) (stored : Option SessionRecord) :
    Except StoreError RecoverySnapshot := do
  let r ← authenticated key stored
  refuse r.forgotten .forgotten
  .ok r.snapshot

/-- The configuration comparison of `attach`. -/
def configurationMatches (stored caller : Value)
    (storedParsed callerParsed : Option (PersistedConfiguration × Bool)) : Bool :=
  match storedParsed, callerParsed with
  | some (s, _), some (c, _) =>
    s.attachmentIdentity == c.attachmentIdentity && s.interactionsEnabled == c.interactionsEnabled
  | none, none => stored == caller
  | _, _ => false

/-- The record `attach` writes, before its revision. -/
def attachedRecord (r : SessionRecord) (configuration : Value) (owner thread : String)
    (now epoch : Nat) : SessionRecord :=
  { r.touch now with
    configuration
    detachedSinceMs := none
    owner := some owner
    threadId := some thread
    historicalThreadIds := r.historicalThreadIds ++ [thread]
    epoch }

/-- The stored configuration after `attach`: migrated when it was of an older version. -/
def migratedConfiguration (configuration : Value)
    (parsed : Option (PersistedConfiguration × Bool)) : Value :=
  match parsed with
  | some (c, true) => c.intoValue
  | _ => configuration

/-- `StoreRuntime::attach`: the replacement it submits against `expected`. -/
def attachReplacement (key : RecoveryKey) (expected : Nat) (configuration : Value)
    (owner thread : String) (now : Nat) (stored : Option SessionRecord) :
    Except StoreError SessionRecord := do
  identity owner thread configuration
  let r ← authenticated key stored
  refuse r.forgotten .forgotten
  refuse r.owner.isSome .active
  refuse (r.revision != expected) .conflict
  let storedParsed ← parseVersionedConfiguration r.configuration
  let callerParsed ← parseVersionedConfiguration configuration
  refuse (!configurationMatches r.configuration configuration storedParsed callerParsed ||
    r.historicalThreadIds.contains thread)
    (.invalid "Attachment configuration or fresh identity mismatch")
  let epoch ← orElse (checkedSucc r.epoch) .conflict
  let revision ← orElse (checkedSucc r.revision) .conflict
  .ok ((attachedRecord r (migratedConfiguration r.configuration storedParsed) owner thread now
    epoch).withRevision revision)

/-- `StoreRuntime::forget`: the replacement it submits, or none when already forgotten. -/
def forgetReplacement (key : RecoveryKey) (expected now : Nat) (stored : Option SessionRecord) :
    Except StoreError (Option SessionRecord) := do
  let r ← authenticated key stored
  if r.forgotten then .ok none
  else do
    refuse r.owner.isSome .active
    refuse (r.revision != expected) .conflict
    let revision ← orElse (checkedSucc r.revision) .conflict
    .ok (some ((r.retire now "explicit_forget").withRevision revision))

/-- The configuration migration of `open`: whether it migrated, and the record. -/
def migrateConfiguration (r : SessionRecord) : Except StoreError (Bool × SessionRecord) :=
  if r.forgotten then .ok (false, r)
  else do
    match ← parseVersionedConfiguration r.configuration with
    | some (c, migrated) =>
      .ok (migrated, if migrated then r.withConfiguration c.intoValue else r)
    | none => .ok (false, r)

/-- The body of the loop of `open` for one listed record: the replacement it submits, if any. -/
def openReplacement (now : Nat) (r : SessionRecord) : Except StoreError (Option SessionRecord) := do
  r.validate
  let configured ← migrateConfiguration r
  let retained := configured.2.migrateRetention now
  let recovered ← retained.2.recover
  let new := if retained.2.owner.isSome then recovered.2.markDetached now else recovered.2
  if configured.1 || retained.1 || recovered.1 then do
    let next ← orElse (checkedSucc r.revision) .conflict
    .ok (some (new.withRevision next))
  else .ok none

/-- The loop of `open` over the listed records. -/
def openAll (now : Nat) : Records → List SessionRecord → Except StoreError Records
  | s, [] => .ok s
  | s, r :: rs => do
    match ← openReplacement now r with
    | none => openAll now s rs
    | some new => do
      let s ← s.compareExchange new.recoveryId r.revision new
      openAll now s rs

/-- `StoreRuntime::open` with no concurrent writer. -/
def openStore (now : Nat) (s : Records) : Except StoreError Records := openAll now s s.values

end

/-! ## Journals -/

inductive Action where
  | record
  | begin (params : StartTurnParams) (snapshot : RunSnapshot) (options : Value)
  | commit (turn : String) (mutation : RunMutation)
  | finalize (turn : String) (candidate : RunSnapshot)
  | replace (configuration : Value)
  | replaceMetadata (metadata : JsonMap)
  | acknowledge (expected : Nat) (ids : List String)
  | detach

inductive Response where
  | record (r : SessionRecord)
  | bool (b : Bool)
  | receipt (r : CommitReceipt)
  | finalized (f : FinalizedRun)
  | snapshot (s : RecoverySnapshot)
  | metadata (m : JsonMap)
  | unit

/-- The clock readings and the UUIDs one command uses. -/
structure Inputs where
  detachNow : Nat
  touchNow : Nat
  fresh : FreshIds

/-- The unknown executions `acknowledge` has to name. -/
def requiredIds (r : SessionRecord) : List String :=
  (r.unknownExecutions.filter (!·.acknowledged)).map (·.executionId)

section
variable [External]

/-- `apply`. `Action::Record` is answered by the worker before it. -/
def apply (r : SessionRecord) (inp : Inputs) : Action → Except StoreError (Response × SessionRecord)
  | .record => .ok (.record r, r)
  | .begin params snapshot options => do
    let (accepted, r) ← r.begin params snapshot options
    .ok (.bool accepted, r)
  | .commit turn mutation => do
    let (resultItem, r') ← r.mutate turn mutation inp.fresh
    .ok (.receipt ⟨r.revision, resultItem⟩, r')
  | .finalize turn candidate => do
    let (finalized, r) ← r.finalize turn candidate
    .ok (.finalized finalized, r)
  | .replace configuration => do
    refuse r.active .active
    refuse (!configuration.isObject) (.invalid "Configuration must be an object")
    let configuration ← normalizeConfigurationReplacement r.configuration configuration
    .ok (.unit, r.withConfiguration configuration)
  | .replaceMetadata metadata => do
    let (c, _) ← PersistedConfiguration.parseAndMigrate r.configuration
    let c ← c.replaceMetadata metadata
    .ok (.metadata metadata, r.withConfiguration c.intoValue)
  | .acknowledge expected ids => do
    refuse (r.revision != expected) .conflict
    refuse r.active .active
    -- the supplied ids have no duplicate and are the required set
    refuse (repeats [] ids || !(ids.all (requiredIds r).contains && (requiredIds r).all ids.contains))
      (.invalid "Acknowledgment must name the exact unresolved execution set")
    let r := { r with unknownExecutions := r.unknownExecutions.map ({ · with acknowledged := true }) }
    .ok (.snapshot r.snapshot, r)
  | .detach => do
    let (_, r) ← r.recover
    .ok (.unit, r.markDetached inp.detachNow)

/-- The identity a journal was spawned with. -/
structure Lease where
  id : String
  epoch : Nat
  owner : Option String
  thread : Option String
  deriving DecidableEq, Repr

/-- `SessionJournal::spawn`: the lease of a journal over `r`. -/
def Lease.of (r : SessionRecord) : Lease := ⟨r.recoveryId, r.epoch, r.owner, r.threadId⟩

/-- The lease check of the worker. -/
def Lease.holds (l : Lease) (r : SessionRecord) : Bool :=
  r.epoch == l.epoch && r.owner == l.owner && r.threadId == l.thread && r.owner.isSome &&
    !r.forgotten

/-- Where the worker is after its load: it has answered (and perhaps poisoned itself), or it submits
a replacement. -/
inductive Loaded where
  | answer (reply : Except StoreError Response) (poison : Option String)
  | exchange (revision : Nat) (new : SessionRecord) (response : Response)

/-- The record a command writes, from the one `apply` left. -/
def written (r : SessionRecord) (inp : Inputs) (revision : Nat) : SessionRecord :=
  (r.touch inp.touchNow).withRevision revision

/-- The worker loop from the load's result to the exchange. -/
def afterLoad (l : Lease) (inp : Inputs) (action : Action)
    (loaded : Except StoreError (Option SessionRecord)) : Loaded :=
  match loaded with
  | .error e => .answer (.error e) (some e.toText)
  | .ok none => .answer (.error .notFound) (some "Record disappeared")
  | .ok (some r) =>
    if !l.holds r then .answer (.error .staleLease) none
    else
      match action with
      | .record => .answer (.ok (.record r)) none
      | action =>
        match apply r inp action with
        | .error e => .answer (.error e) none
        | .ok (response, r') =>
          match checkedSucc r.revision with
          | none => .answer (.error .conflict) none
          | some next => .exchange r.revision (written r' inp next) response

/-- The worker loop after the exchange: the reply, and the poison. -/
def afterExchange (new : SessionRecord) (response : Response) (result : Except StoreError Unit) :
    Except StoreError Response × Option String :=
  match result with
  | .ok () =>
    (.ok (match response with
      | .receipt r => .receipt { r with revision := new.revision }
      | .snapshot _ => .snapshot new.snapshot
      | other => other), none)
  | .error e =>
    (.error (match e with
      | .io m => .io m
      | .poisoned m => .poisoned m
      | other => .poisoned other.toText), some e.toText)

end

end Whale
