import Mathlib.Logic.Function.Basic
import Whale.Daemon.Journal
import Whale.Lib.KeyMap
import Whale.Lib.Run
import Whale.Protocol.Interactions

/-!
# The Interaction registry

`whale-daemon/src/interactions.rs`: the record of one session, the operations that change it under its
lock, and the response transactions that go on between them. An operation returns the events it commits.

`Interactions.Step` is what happens between two locks: the parts of a transaction that hold a sender, a
waiting continuation, and the responders. A continuation and a transaction are named by the generation of
their request. Time, the notifier and the transport are left out, and so is a session that is created
again under the id of a closed one.
-/

namespace Whale

open Check

/-- The crates that the registry calls: `jsonschema`, `hmac` and `serde_json`. -/
class InteractionHost where
  /-- `compile_response_schema`, or the text of its error. -/
  build : Value → Except String Unit
  /-- A response matches a schema. -/
  accepts : Value → Value → Bool
  /-- The tag of a serialized value under the key of the registry. -/
  hmac : Value → Except String (BitVec 256)
  /-- The length of a serialized event. -/
  eventBytes : InteractionEventEnvelope → Except String Nat

/-! ## Failures -/

/-- The variants of `CoreError` that a continuation or a producer is given. -/
inductive InteractionError where
  | requestInvalid (message : String)
  | responseInvalid (message : String)
  | cancelled (message : String)
  | unavailable (message : String)
  deriving DecidableEq, Repr

/-- `InteractionFailure`. -/
structure InteractionFailure where
  code : Int
  message : String
  deriving DecidableEq, Repr

namespace InteractionFailure

def notFound (message : String) : InteractionFailure := ⟨-32050, message⟩

def conflict : InteractionFailure := ⟨-32051, "InteractionConflict"⟩

def responseInvalid (message : String) : InteractionFailure := ⟨-32052, message⟩

def unavailable (message : String) : InteractionFailure := ⟨-32053, message⟩

/-- `into_core`. -/
def intoCore (f : InteractionFailure) : InteractionError :=
  if f.code = -32052 then .responseInvalid f.message
  else if f.code = -32050 then .cancelled f.message
  else .unavailable f.message

end InteractionFailure

/-- The text of either invalidity. -/
def InteractionError.message : InteractionError → String
  | requestInvalid message | responseInvalid message | cancelled message | unavailable message => message

section
variable [External] [InteractionHost]

/-- `validate_interaction_request`. -/
def validateInteractionRequest (request : InteractionRequest) : Except InteractionError Unit := do
  request.validate.mapError .requestInvalid
  match request.responseSchema with
  | some schema => (InteractionHost.build schema).mapError .requestInvalid
  | none => .ok ()

/-- `validate_interaction_response`. -/
def validateInteractionResponse (request : InteractionRequest) (response : Value) :
    Except InteractionError Unit := do
  (validateResponseValue "response-validation" response).mapError .responseInvalid
  match request.responseSchema with
  | some schema => do
    (InteractionHost.build schema).mapError .requestInvalid
    refuse (!InteractionHost.accepts schema response)
      (.responseInvalid "Interaction response does not match response_schema")
  | none => .ok ()

omit [External] in
/-- `response_digest`. -/
def responseDigest (response : Value) : Except String (BitVec 256) :=
  InteractionHost.hmac (canonicalJson response)

end

/-! ## The record -/

/-- `InteractionOrigin`. -/
inductive InteractionOrigin where
  | core
  | hostCall (id : String)
  deriving DecidableEq, Repr

/-- `PendingEntry`; its sender belongs to the continuation of the generation. -/
structure PendingEntry where
  request : InteractionRequest
  generation : Nat
  origin : InteractionOrigin
  typedApproval : Bool
  deriving DecidableEq, Repr

/-- `ResponseState`; the completion channel belongs to the transaction of the generation. -/
inductive ResponseState where
  | pending (entry : PendingEntry)
  | resolved (digest : BitVec 256) (generation : Nat) (typedApproval : Bool)
  deriving DecidableEq, Repr

namespace ResponseState

def isPending : ResponseState → Bool
  | pending _ => true
  | resolved .. => false

def generation : ResponseState → Nat
  | pending entry => entry.generation
  | resolved _ generation _ => generation

end ResponseState

/-- `InteractionRecord`. -/
structure InteractionRecord where
  enabled : Bool
  snapshot : InteractionSnapshot
  journal : Journal InteractionEventEnvelope
  limits : EventJournalLimits
  entries : KeyMap InteractionKey ResponseState := .empty
  runIdentities : String → Option Nat := fun _ => none
  nextGeneration : Nat := 1

/-- `InteractionJournalLimits::default`. -/
def interactionJournalLimits : EventJournalLimits :=
  ⟨1024, 4 * 1024 * 1024, defaultMaxEvents_pos, defaultMaxBytes_pos⟩

namespace InteractionRecord

section
variable [External] [InteractionHost]

omit [InteractionHost] in
/-- `InteractionRecord::new`. -/
def new (threadId streamId : String) (enabled : Bool) (limits : EventJournalLimits) :
    Except String InteractionRecord := do
  let cursor : Cursor := ⟨threadId, streamId, 0⟩
  let snapshot : InteractionSnapshot := { threadId, cursor }
  snapshot.validate
  .ok { enabled, snapshot, journal := { replayFloor := cursor }, limits }

/-- `InteractionRecord::commit`. -/
def commit (r : InteractionRecord) (now : Nat) (payload : InteractionEventPayload) :
    Except String (InteractionRecord × InteractionEventEnvelope) := do
  let cursor ← r.snapshot.cursor.checkedNextInteraction
  let envelope : InteractionEventEnvelope := ⟨r.snapshot.threadId, cursor, now, payload⟩
  envelope.validate
  let bytes ← (InteractionHost.eventBytes envelope).mapError
    ("Interaction event serialization failed: " ++ ·)
  let (snapshot, _) ← (r.snapshot.apply envelope).mapError InteractionSnapshot.displayError
  .ok ({ r with
    snapshot
    journal := r.journal.retain r.limits envelope bytes (some payload.key.1) }, envelope)

/-- The commit that an enabled session makes and a disabled one does not. -/
def publish (r : InteractionRecord) (now : Nat) (payload : InteractionEventPayload) :
    Except String (InteractionRecord × List InteractionEventEnvelope) :=
  if r.enabled then (r.commit now payload).map fun (r, e) => (r, [e]) else .ok (r, [])

/-- `let _ = commit(..)`: a failure changes nothing. -/
def publishOr (r : InteractionRecord) (now : Nat) (payload : InteractionEventPayload) :
    InteractionRecord × List InteractionEventEnvelope :=
  (r.publish now payload).toOption.getD (r, [])

end

/-- `register_run`. -/
def registerRun (r : InteractionRecord) (turnId : String) (identity : Nat) :
    Except String InteractionRecord :=
  match r.runIdentities turnId with
  | some current => if current = identity then .ok r else .error "RunConflict"
  | none => .ok { r with
      runIdentities := fun turn => if turn == turnId then some identity else r.runIdentities turn }

/-- The record without a run's registration. -/
def forgetRun (r : InteractionRecord) (turnId : String) : InteractionRecord :=
  { r with runIdentities := fun turn => if turn == turnId then none else r.runIdentities turn }

/-- `unregister_run`. -/
def unregisterRun (r : InteractionRecord) (turnId : String) (identity : Nat) : InteractionRecord :=
  if r.runIdentities turnId = some identity then r.forgetRun turnId else r

/-- The requests of a run that wait for a response. -/
def pendingOf (r : InteractionRecord) (turnId : String) : List (InteractionKey × ResponseState) :=
  r.entries.entries.filter fun e => e.1.1 == turnId && e.2.isPending

section
variable [External] [InteractionHost]

/-- The checks of `begin` before it takes a generation. -/
def checkBegin (r : InteractionRecord) (turnId requestId : String) (request : InteractionRequest) :
    Except InteractionError Unit := do
  validateInteractionRequest request
  refuse (!r.enabled && request.kind != kindToolApproval)
    (.unavailable "Interactions are disabled for this Session")
  refuse (r.runIdentities turnId).isNone (.unavailable "Interaction Run is not active")
  refuse (r.entries.entries.any (·.1.2 == requestId)) (.unavailable "Duplicate Interaction request_id")
  refuse (decide (maxPendingInteractionsPerRun ≤ (r.pendingOf turnId).length))
    (.unavailable InteractionSnapshot.tooManyPending)

/-- The publication of `begin`. -/
def publishRequested (r : InteractionRecord) (turnId requestId : String) (request : InteractionRequest)
    (now : Nat) : Except InteractionError (InteractionRecord × List InteractionEventEnvelope) := do
  let interaction : PendingInteraction := ⟨requestId, turnId, request⟩
  interaction.validate.mapError .requestInvalid
  (r.publish now (.requested interaction)).mapError .unavailable

/-- `begin`: the generation, the record and the events. A generation stays taken when the publication
fails. -/
def begin (r : InteractionRecord) (turnId requestId : String) (request : InteractionRequest)
    (origin : InteractionOrigin) (now : Nat) :
    Except InteractionError Nat × InteractionRecord × List InteractionEventEnvelope :=
  match r.checkBegin turnId requestId request, checkedSucc r.nextGeneration with
  | .error e, _ => (.error e, r, [])
  | .ok (), none => (.error (.unavailable "Interaction identity space is exhausted"), r, [])
  | .ok (), some nextGeneration =>
    let taken := { r with nextGeneration }
    match taken.publishRequested turnId requestId request now with
    | .error e => (.error e, taken, [])
    | .ok (next, events) => (.ok r.nextGeneration, { next with
        entries := next.entries.insert (turnId, requestId)
          (.pending ⟨request, r.nextGeneration, origin, request.kind == kindToolApproval⟩) }, events)

end

/-- What a responder finds under the lock. -/
inductive Found where
  /-- The same response is being committed, or was. -/
  | same (generation : Nat)
  | open (entry : PendingEntry)
  deriving DecidableEq, Repr

/-- The lookup of both phases of `commit_response`. -/
def find (r : InteractionRecord) (requireEnabled : Bool) (key : InteractionKey) (digest : BitVec 256) :
    Except InteractionFailure Found := do
  refuse (requireEnabled && !r.enabled) (.unavailable "Interactions are disabled for this Session")
  match r.entries.get? key with
  | some (.resolved previous generation _) =>
    if previous = digest then .ok (.same generation) else .error .conflict
  | some (.pending entry) => .ok (.open entry)
  | none => .error (.notFound "InteractionNotFound")

section
variable [External] [InteractionHost]

/-- The second phase for a continuation that is gone: the request is removed. -/
def removeClosed (r : InteractionRecord) (key : InteractionKey) (now : Nat) :
    InteractionFailure × InteractionRecord × List InteractionEventEnvelope :=
  let r := { r with entries := r.entries.erase key }
  match r.publish now (.removed key.2 key.1 InteractionRemoval.originFinished.text) with
  | .ok (r, events) => (.notFound "Interaction continuation is no longer active", r, events)
  | .error e => (.unavailable e, r, [])

omit [External] [InteractionHost] in
/-- The second phase for a request that still waits. -/
def resolve (r : InteractionRecord) (key : InteractionKey) (digest : BitVec 256) (entry : PendingEntry) :
    InteractionRecord :=
  { r with entries := r.entries.insert key (.resolved digest entry.generation entry.typedApproval) }

omit [External] [InteractionHost] in
/-- The entry of a transaction. -/
def matchesResolved (r : InteractionRecord) (key : InteractionKey) (generation : Nat)
    (digest : BitVec 256) : Bool :=
  match r.entries.get? key with
  | some (.resolved saved current _) => current == generation && saved == digest
  | _ => false

/-- `publish_resolved_exact`. -/
def publishResolvedExact (r : InteractionRecord) (key : InteractionKey) (generation : Nat)
    (digest : BitVec 256) (now : Nat) :
    Except InteractionFailure (InteractionRecord × List InteractionEventEnvelope) := do
  refuse (!r.matchesResolved key generation digest)
    (.notFound "Interaction response transaction is no longer active")
  (r.publish now (.removed key.2 key.1 InteractionRemoval.resolved.text)).mapError .unavailable

/-- `abort_resolved_exact`. A request that no event can remove is taken out of the pending set. -/
def abortResolvedExact (r : InteractionRecord) (key : InteractionKey) (generation : Nat)
    (digest : BitVec 256) (cause : InteractionRemoval) (now : Nat) :
    InteractionRecord × List InteractionEventEnvelope :=
  if r.matchesResolved key generation digest then
    let (r, events) := match r.publish now (.removed key.2 key.1 cause.text) with
      | .ok published => published
      | .error _ => ({ r with snapshot := { r.snapshot with
          pending := r.snapshot.pending.filter (·.key != key) } }, [])
    ({ r with entries := r.entries.erase key }, events)
  else (r, [])

/-- `clear_exact`: the generation whose sender is to be told, the record and the events. -/
def clearExact (r : InteractionRecord) (key : InteractionKey) (generation : Nat)
    (cause : InteractionRemoval) (now : Nat) :
    Option Nat × InteractionRecord × List InteractionEventEnvelope :=
  match r.entries.get? key with
  | some (.pending entry) =>
    if entry.generation = generation then
      let (r, events) := ({ r with entries := r.entries.erase key } : InteractionRecord).publishOr now
        (.removed key.2 key.1 cause.text)
      (some generation, r, events)
    else (none, r, [])
  | _ => (none, r, [])

/-- The loop of `clear_run` over the keys it collected, each with the time of its event. -/
def clearKeys (cause : InteractionRemoval) : InteractionRecord → List (InteractionKey × Nat) →
    List Nat × InteractionRecord × List InteractionEventEnvelope
  | r, [] => ([], r, [])
  | r, (key, now) :: keys =>
    match r.entries.get? key with
    | some (.pending entry) =>
      let (next, events) := ({ r with entries := r.entries.erase key } : InteractionRecord).publishOr now
        (.removed key.2 key.1 cause.text)
      let (generations, last, rest) := clearKeys cause next keys
      (entry.generation :: generations, last, events ++ rest)
    | some (.resolved ..) =>
      clearKeys cause { r with entries := r.entries.erase key } keys
    | none => clearKeys cause r keys

end

/-- `retire_run`. -/
def retireRun (r : InteractionRecord) (turnId : String) (identity : Nat) : Bool × InteractionRecord :=
  match r.runIdentities turnId with
  | none => (!r.entries.entries.any (·.1.1 == turnId) &&
      !r.journal.entries.any (·.runId == some turnId), r)
  | some current =>
    if current ≠ identity ∨ r.pendingOf turnId ≠ [] then (false, r)
    else (true, { r.forgetRun turnId with
      journal := r.journal.scrubRun turnId
      entries := r.entries.filter (·.1.1 != turnId) })

end InteractionRecord

/-! ## Continuations -/

/-- The future of an `InteractionTicket`, with its two oneshot channels. -/
inductive Continuation where
  | absent
  | waiting
  /-- A response was sent, and its commit is awaited. -/
  | delivered (response : Value)
  /-- The result was sent, and not polled yet. -/
  | settled (result : Except InteractionError Value)
  | resumed (result : Except InteractionError Value)
  | dropped
  deriving DecidableEq

namespace Continuation

/-- `is_closed` of a sender: the receiver is gone. -/
def isClosed : Continuation → Bool
  | dropped => true
  | _ => false

/-- The ticket is dropped. -/
def drop : Continuation → Continuation
  | absent => absent
  | resumed result => resumed result
  | _ => dropped

/-- An error is sent, instead of a response or of its commit. -/
def fail (e : InteractionError) : Continuation → Continuation
  | waiting | delivered _ => settled (.error e)
  | c => c

/-- The commit of a delivered response is sent. -/
def commit : Continuation → Continuation
  | delivered response => settled (.ok response)
  | c => c

end Continuation

/-! ## Response transactions -/

/-- Where a newly resolved `ResponseCommit` is. -/
inductive ResponseStage where
  | committed
  | staged
  /-- The continuation was alive: the response has won. -/
  | checked
  | published
  | acknowledged
  /-- `abort_resolved_exact` is to be called. -/
  | aborting (cause : InteractionRemoval) (failure : InteractionFailure)
  | aborted (failure : InteractionFailure)
  /-- The continuation was told. -/
  | notified (failure : InteractionFailure)
  /-- The followers are told. -/
  | ended (result : Except InteractionFailure Unit)
  deriving DecidableEq

namespace ResponseStage

/-- Neither published nor aborted. -/
def isOpen : ResponseStage → Bool
  | committed | staged | checked | aborting .. => true
  | _ => false

/-- The stages in which the transaction can be dropped. -/
def droppable : ResponseStage → Bool
  | committed | staged => true
  | _ => false

end ResponseStage

/-- A newly resolved `ResponseCommit`. -/
structure ResponseCommit where
  key : InteractionKey
  digest : BitVec 256
  response : Value
  typedApproval : Bool
  /-- A task of its own finishes it. -/
  delegated : Bool := false
  stage : ResponseStage := .committed
  deriving DecidableEq

/-- The failure of a response whose continuation is gone. -/
def continuationGone : InteractionFailure :=
  .notFound "Interaction continuation is no longer active"

/-- The failure of a transaction that is dropped. -/
def abandoned : InteractionFailure := .unavailable "Interaction response transaction was abandoned"

/-! ## Responders -/

/-- Who responds: a handler of the owner, that awaits the transaction, or `InteractionBridge::respond`,
that does not. -/
inductive ResponseChannel where
  | owned (requireEnabled : Bool)
  | core
  deriving DecidableEq, Repr

/-- What a responder submits. -/
structure ResponseSubmission where
  params : RespondInteractionParams
  channel : ResponseChannel
  deriving DecidableEq, Repr

namespace ResponseChannel

def requireEnabled : ResponseChannel → Bool
  | owned requireEnabled => requireEnabled
  | core => false

/-- The failure for a session without a record. -/
def missing : ResponseChannel → InteractionFailure
  | owned _ => .unavailable "SessionNotFound"
  | core => .notFound "SessionNotFound"

end ResponseChannel

/-- The request that is responded to. -/
def ResponseSubmission.key (s : ResponseSubmission) : InteractionKey := (s.params.turnId, s.params.requestId)

/-- A responder. -/
inductive Responder where
  | idle
  /-- Between the two locks of `commit_response`. -/
  | validating (generation : Nat) (request : InteractionRequest) (digest : BitVec 256)
  | leading (generation : Nat)
  | following (generation : Nat)
  /-- An answer; a generation is named when it is that of a transaction that ended. -/
  | answered (generation : Option Nat) (result : Except InteractionFailure Unit)
  /-- `InteractionBridge::respond` returned `Ok` while the transaction goes on. -/
  | released (generation : Nat)
  | gone
  deriving DecidableEq

namespace Responder

section
variable [External] [InteractionHost]

/-- `commit_response` up to its first lock. -/
def firstPhase (registered : Bool) (r : InteractionRecord) (s : ResponseSubmission) :
    Except InteractionFailure (BitVec 256 × InteractionRecord.Found) := do
  (s.params.validate r.snapshot.threadId).mapError .responseInvalid
  let digest ← (responseDigest s.params.response).mapError .responseInvalid
  refuse (!registered) s.channel.missing
  let found ← r.find s.channel.requireEnabled s.key digest
  .ok (digest, found)

/-- The responder after the first lock. -/
def first (registered : Bool) (r : InteractionRecord) (s : ResponseSubmission) : Responder :=
  match firstPhase registered r s with
  | .error failure => answered none (.error failure)
  | .ok (_, .same generation) => following generation
  | .ok (digest, .open entry) => validating entry.generation entry.request digest

end

/-- The responder after the second lock, unless its request still waits. -/
def second (r : InteractionRecord) (s : ResponseSubmission) (generation : Nat) (digest : BitVec 256) :
    Option Responder :=
  match r.find s.channel.requireEnabled s.key digest with
  | .error failure => some (answered none (.error failure))
  | .ok (.same current) => some (following current)
  | .ok (.open entry) =>
    if entry.generation = generation then none
    else some (answered none (.error (.notFound "InteractionNotFound")))

end Responder

/-! ## A session -/

/-- The registry's part of a session. `requests` remembers what each generation asked for. -/
structure Interactions (ρ : Type) where
  record : InteractionRecord
  /-- The registry has the record. -/
  registered : Bool := true
  continuations : Nat → Continuation := fun _ => .absent
  transactions : Nat → Option ResponseCommit := fun _ => none
  /-- The errors that a cleanup has still to send. -/
  notices : List (Nat × InteractionError) := []
  responders : ρ → Responder := fun _ => .idle
  requests : Nat → Option (InteractionKey × InteractionRequest) := fun _ => none

namespace Interactions

variable {ρ : Type} [DecidableEq ρ]

inductive Label where
  | silent
  | begin (turnId : String) (events : List InteractionEventEnvelope)
  | clear (turnId : String) (events : List InteractionEventEnvelope)
  | retire (turnId : String) (retired : Bool)
  /-- A transaction published its resolution. -/
  | resolved (generation : Nat) (events : List InteractionEventEnvelope)
  /-- Another operation under the lock. -/
  | locked (events : List InteractionEventEnvelope)
  | close

/-- The events of a step. -/
def Label.events : Label → List InteractionEventEnvelope
  | begin _ events | clear _ events | resolved _ events | locked events => events
  | silent | retire .. | close => []

/-- The transaction whose resolution a step publishes. -/
def Label.resolution : Label → Option Nat
  | resolved generation _ => some generation
  | _ => none

/-- The session with a transaction in its next stage. -/
def advance (w : Interactions ρ) (g : Nat) (t : ResponseCommit) (stage : ResponseStage) :
    Interactions ρ :=
  { w with transactions := Function.update w.transactions g (some { t with stage }) }

/-- The session with a continuation moved. -/
def move (w : Interactions ρ) (g : Nat) (f : Continuation → Continuation) : Interactions ρ :=
  { w with continuations := Function.update w.continuations g (f (w.continuations g)) }

/-- The session with a responder in its next state. -/
def withResponder (w : Interactions ρ) (i : ρ) (next : Responder) : Interactions ρ :=
  { w with responders := Function.update w.responders i next }

/-- The errors that `clear_run` sends. -/
def cancelledNotices (generations : List Nat) (cause : InteractionRemoval) :
    List (Nat × InteractionError) :=
  generations.map (·, .cancelled cause.text)

/-- The senders of a record that is dropped. -/
def closedNotices (r : InteractionRecord) : List (Nat × InteractionError) :=
  r.entries.entries.filterMap fun e => match e.2 with
    | .pending entry => some (entry.generation, .cancelled "Interaction continuation closed")
    | .resolved .. => none

section
variable [External] [InteractionHost]

/-- A step: an operation under the lock of the record, or one outside of it. -/
inductive Step (submit : ρ → ResponseSubmission) : Interactions ρ → Label → Interactions ρ → Prop
  | begin {w : Interactions ρ} {g : Nat} {r : InteractionRecord} {events : List InteractionEventEnvelope}
      (turnId requestId : String) (request : InteractionRequest) (origin : InteractionOrigin) (now : Nat)
      (result : w.record.begin turnId requestId request origin now = (.ok g, r, events)) :
      Step submit w (.begin turnId events) { w with
        record := r
        continuations := Function.update w.continuations g .waiting
        requests := Function.update w.requests g (some ((turnId, requestId), request)) }
  | beginFailed {w : Interactions ρ} {e : InteractionError} {r : InteractionRecord}
      {events : List InteractionEventEnvelope} (turnId requestId : String) (request : InteractionRequest)
      (origin : InteractionOrigin) (now : Nat)
      (result : w.record.begin turnId requestId request origin now = (.error e, r, events)) :
      Step submit w (.locked events) { w with record := r }
  | register {w : Interactions ρ} {r : InteractionRecord} (turnId : String) (identity : Nat)
      (result : w.record.registerRun turnId identity = .ok r) :
      Step submit w (.locked []) { w with record := r }
  | unregister {w : Interactions ρ} (turnId : String) (identity : Nat) :
      Step submit w (.locked []) { w with record := w.record.unregisterRun turnId identity }
  | retire {w : Interactions ρ} (turnId : String) (identity : Nat) :
      Step submit w (.retire turnId (w.record.retireRun turnId identity).1)
        { w with record := (w.record.retireRun turnId identity).2 }
  /-- `clear_run`, in any order of the map. -/
  | clearRun {w : Interactions ρ} {generations : List Nat} {r : InteractionRecord}
      {events : List InteractionEventEnvelope} (turnId : String) (cause : InteractionRemoval)
      (keys : List (InteractionKey × Nat)) (unresolved : cause ≠ .resolved)
      (collected : (keys.map (·.1)).Perm ((w.record.pendingOf turnId).map (·.1)))
      (result : w.record.clearKeys cause keys = (generations, r, events)) :
      Step submit w (.clear turnId events)
        { w with record := r, notices := w.notices ++ cancelledNotices generations cause }
  /-- `clear_exact`, of a ticket that is dropped, of `clear_origin` or of `clear_core_request`. -/
  | clearExact {w : Interactions ρ} {sender : Option Nat} {r : InteractionRecord}
      {events : List InteractionEventEnvelope} (key : InteractionKey) (generation : Nat)
      (cause : InteractionRemoval) (now : Nat) (unresolved : cause ≠ .resolved)
      (result : w.record.clearExact key generation cause now = (sender, r, events)) :
      Step submit w (.locked events)
        { w with record := r, notices := w.notices ++ cancelledNotices sender.toList cause }
  /-- `close_session` forgets the record, after its calls of `clear_run`. -/
  | close {w : Interactions ρ} : Step submit w .close { w with registered := false }
  /-- The last reference to a forgotten record goes. -/
  | discard {w : Interactions ρ} (closed : w.registered = false)
      (unused : ∀ i g request digest, w.responders i ≠ .validating g request digest) :
      Step submit w .close { w with
        record := { w.record with entries := .empty }
        notices := w.notices ++ closedNotices w.record }
  | notify {w : Interactions ρ} {before after : List (Nat × InteractionError)} (g : Nat)
      (e : InteractionError) (queued : w.notices = before ++ (g, e) :: after) :
      Step submit w .silent ({ w with notices := before ++ after }.move g (.fail e))
  | dropTicket {w : Interactions ρ} (g : Nat) : Step submit w .silent (w.move g .drop)
  | poll {w : Interactions ρ} {result : Except InteractionError Value} (g : Nat)
      (ready : w.continuations g = .settled result) :
      Step submit w .silent (w.move g fun _ => .resumed result)
  | first {w : Interactions ρ} (i : ρ) (idle : w.responders i = .idle) :
      Step submit w .silent (w.withResponder i (.first w.registered w.record (submit i)))
  | invalid {w : Interactions ρ} {e : InteractionError} {g : Nat} {request : InteractionRequest}
      {digest : BitVec 256} (i : ρ) (busy : w.responders i = .validating g request digest)
      (refused : validateInteractionResponse request (submit i).params.response = .error e) :
      Step submit w .silent
        (w.withResponder i (.answered none (.error (.responseInvalid e.message))))
  | second {w : Interactions ρ} {next : Responder} {g : Nat} {request : InteractionRequest}
      {digest : BitVec 256} (i : ρ) (busy : w.responders i = .validating g request digest)
      (valid : validateInteractionResponse request (submit i).params.response = .ok ())
      (found : Responder.second w.record (submit i) g digest = some next) :
      Step submit w .silent (w.withResponder i next)
  /-- The second lock, and the continuation is gone. -/
  | removeClosed {w : Interactions ρ} {failure : InteractionFailure} {r : InteractionRecord}
      {events : List InteractionEventEnvelope} {request : InteractionRequest} {digest : BitVec 256}
      {entry : PendingEntry} (i : ρ) (now : Nat)
      (busy : w.responders i = .validating entry.generation request digest)
      (valid : validateInteractionResponse request (submit i).params.response = .ok ())
      (found : w.record.find (submit i).channel.requireEnabled (submit i).key digest = .ok (.open entry))
      (closed : (w.continuations entry.generation).isClosed = true)
      (result : w.record.removeClosed (submit i).key now = (failure, r, events)) :
      Step submit w (.locked events)
        ({ w with record := r }.withResponder i (.answered none (.error failure)))
  /-- The second lock: the response is committed. -/
  | lead {w : Interactions ρ} {request : InteractionRequest} {digest : BitVec 256}
      {entry : PendingEntry} (i : ρ)
      (busy : w.responders i = .validating entry.generation request digest)
      (valid : validateInteractionResponse request (submit i).params.response = .ok ())
      (found : w.record.find (submit i).channel.requireEnabled (submit i).key digest = .ok (.open entry))
      (alive : (w.continuations entry.generation).isClosed = false) :
      Step submit w (.locked []) ({ w with
        record := w.record.resolve (submit i).key digest entry
        transactions := Function.update w.transactions entry.generation (some
          { key := (submit i).key, digest, response := (submit i).params.response
            typedApproval := entry.typedApproval }) }.withResponder i (.leading entry.generation))
  /-- `stage_delivery`. -/
  | stage {w : Interactions ρ} {t : ResponseCommit} (g : Nat) (txn : w.transactions g = some t)
      (stage : t.stage = .committed) (alive : (w.continuations g).isClosed = false) :
      Step submit w .silent ((w.move g fun _ => .delivered t.response).advance g t .staged)
  /-- `stage_delivery` or `release`, and the continuation is gone. -/
  | gone {w : Interactions ρ} {t : ResponseCommit} (g : Nat) (txn : w.transactions g = some t)
      (stage : t.stage = .committed ∨ t.stage = .staged)
      (closed : (w.continuations g).isClosed = true) :
      Step submit w .silent (w.advance g t (.aborting .originFinished continuationGone))
  /-- The publication of a typed approval is refused. -/
  | unprojected {w : Interactions ρ} {t : ResponseCommit} (g : Nat) (error : String)
      (txn : w.transactions g = some t) (stage : t.stage = .staged) (typed : t.typedApproval = true) :
      Step submit w .silent (w.advance g t (.aborting .publicationFailed
        (.unavailable ("Typed Interaction projection publication failed: " ++ error))))
  /-- `release` sees that the continuation waits for the commit. -/
  | check {w : Interactions ρ} {t : ResponseCommit} (g : Nat) (txn : w.transactions g = some t)
      (stage : t.stage = .staged) (alive : (w.continuations g).isClosed = false) :
      Step submit w .silent (w.advance g t .checked)
  | publish {w : Interactions ρ} {t : ResponseCommit} {r : InteractionRecord}
      {events : List InteractionEventEnvelope} (g now : Nat) (txn : w.transactions g = some t)
      (stage : t.stage = .checked)
      (result : w.record.publishResolvedExact t.key g t.digest now = .ok (r, events)) :
      Step submit w (.resolved g events) ({ w with record := r }.advance g t .published)
  /-- The publication is refused, or there is no record. -/
  | unpublished {w : Interactions ρ} {t : ResponseCommit} (g now : Nat) (error : InteractionFailure)
      (txn : w.transactions g = some t) (stage : t.stage = .checked)
      (result : w.record.publishResolvedExact t.key g t.digest now = .error error ∨
        w.registered = false ∧ error = .notFound "SessionNotFound") :
      Step submit w .silent (w.advance g t (.aborting .publicationFailed
        (.unavailable ("Interaction resolution publication failed: " ++ error.message))))
  | acknowledge {w : Interactions ρ} {t : ResponseCommit} (g : Nat)
      (txn : w.transactions g = some t) (stage : t.stage = .published) :
      Step submit w .silent ((w.move g .commit).advance g t .acknowledged)
  | complete {w : Interactions ρ} {t : ResponseCommit} (g : Nat)
      (txn : w.transactions g = some t) (stage : t.stage = .acknowledged) :
      Step submit w .silent (w.advance g t (.ended (.ok ())))
  /-- The transaction is dropped with its responder, or by `InteractionBridge::respond`. -/
  | dropLeader {w : Interactions ρ} {t : ResponseCommit} {next : Responder} (i : ρ) (g : Nat)
      (leading : w.responders i = .leading g) (txn : w.transactions g = some t)
      (stage : t.stage.droppable = true)
      (answer : next = .gone ∨ ∃ message, next = .answered none (.error (.unavailable message))) :
      Step submit w .silent
        ((w.withResponder i next).advance g t (.aborting .publicationFailed abandoned))
  | dropDelegated {w : Interactions ρ} {t : ResponseCommit} (g : Nat)
      (txn : w.transactions g = some t) (stage : t.stage.droppable = true)
      (delegated : t.delegated = true) :
      Step submit w .silent (w.advance g t (.aborting .publicationFailed abandoned))
  | abort {w : Interactions ρ} {t : ResponseCommit} {r : InteractionRecord}
      {events : List InteractionEventEnvelope} {cause : InteractionRemoval}
      {failure : InteractionFailure} (g now : Nat) (txn : w.transactions g = some t)
      (stage : t.stage = .aborting cause failure)
      (result : w.record.abortResolvedExact t.key g t.digest cause now = (r, events)) :
      Step submit w (.locked events) ({ w with record := r }.advance g t (.aborted failure))
  /-- There is no record to abort in. -/
  | abortMissing {w : Interactions ρ} {t : ResponseCommit} {cause : InteractionRemoval}
      {failure : InteractionFailure} (g : Nat) (txn : w.transactions g = some t)
      (stage : t.stage = .aborting cause failure) (closed : w.registered = false) :
      Step submit w .silent (w.advance g t (.aborted failure))
  | inform {w : Interactions ρ} {t : ResponseCommit} {failure : InteractionFailure} (g : Nat)
      (txn : w.transactions g = some t) (stage : t.stage = .aborted failure) :
      Step submit w .silent ((w.move g (.fail failure.intoCore)).advance g t (.notified failure))
  | giveUp {w : Interactions ρ} {t : ResponseCommit} {failure : InteractionFailure} (g : Nat)
      (txn : w.transactions g = some t) (stage : t.stage = .notified failure) :
      Step submit w .silent (w.advance g t (.ended (.error failure)))
  /-- A task is spawned for a typed approval, and `InteractionBridge::respond` returns. -/
  | delegate {w : Interactions ρ} {t : ResponseCommit} (i : ρ) (g : Nat)
      (leading : w.responders i = .leading g) (core : (submit i).channel = .core)
      (txn : w.transactions g = some t) (stage : t.stage = .committed)
      (typed : t.typedApproval = true) :
      Step submit w .silent { w.withResponder i (.released g) with
        transactions := Function.update w.transactions g (some { t with delegated := true }) }
  /-- `release` of an idempotent commit. -/
  | release {w : Interactions ρ} (i : ρ) (g : Nat) (following : w.responders i = .following g)
      (core : (submit i).channel = .core) : Step submit w .silent (w.withResponder i (.released g))
  | answer {w : Interactions ρ} {t : ResponseCommit} {result : Except InteractionFailure Unit} (i : ρ)
      (g : Nat) (waits : w.responders i = .leading g ∨
        w.responders i = .following g ∧ (submit i).channel ≠ .core)
      (txn : w.transactions g = some t) (stage : t.stage = .ended result) :
      Step submit w .silent (w.withResponder i (.answered (some g) result))
  | leave {w : Interactions ρ} (i : ρ) (g : Nat) (following : w.responders i = .following g) :
      Step submit w .silent (w.withResponder i .gone)

end

end Interactions

end Whale
