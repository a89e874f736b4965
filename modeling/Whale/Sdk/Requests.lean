import Whale.Lib.KeyMap
import Whale.Lib.Run
import Whale.Lib.Slots
import Whale.Protocol.Rpc

/-!
# Requests of the client

`ClientState::request_with_remote_error` of `whale-sdk-rust/src/lib.rs` with what it shares state with: the responses
of `ClientState::incoming`, `ClientState::disconnect`, and the session fences of `sessions.rs`, whose `release_session`
resolves the requests of its session.

A request goes through the points of `Stage`, one access to shared state from each to the next; `scoping` is inside
of the closure of `with_existing_session_open`, which holds the lock of the phase. A close of a session goes through
`Release`, and the one disconnect through `Shutdown`. A reply is sent where its sender is taken out of `pending`. The
other tables of the client are not modelled; nor is the end of the numbers of an `i64`.
-/

namespace Whale

/-- The key of an id: `s.clone()` or `n.to_string()`. -/
def RequestId.key : RequestId → String
  | .string s => s
  | .number n => toString n.toInt

namespace Requests

/-! ## Requests -/

/-- `InternalRequestError`, with the errors of `SdkError` that a request makes. -/
inductive Failure where
  | remote (error : Rpc.JSONRPCError)
  | channelClosed (message : String)
  | sessionClosed (sid : String)
  | internal (message : String)
  | requestTimeout (method : String)
  /-- A value that serde refuses. -/
  | json
  /-- A line that could not be written. -/
  | io
  deriving DecidableEq

/-- `Reply`. -/
abbrev Reply := Except Failure Value

/-- The reply that a response makes. -/
def reply (response : JSONRPCResponse) : Reply :=
  match response.result, response.error with
  | _, some error => .error (.remote error)
  | some value, none => .ok value
  | none, none => .error (.internal "Response has no result or error")

/-- `SessionRequestAccess`. -/
inductive Access where
  | unscoped
  | writable (sid : String)
  | viewable (sid : String)
  deriving DecidableEq

/-- `writable_sid`. -/
def Access.sid : Access → Option String
  | writable sid => some sid
  | unscoped | viewable _ => none

/-- What a request does next. -/
inductive Stage where
  /-- The first look at `closed`. -/
  | called
  /-- `ensure_session_viewable`, or the first `with_existing_session_open`. -/
  | checking
  /-- `next_id.fetch_add`, and the request as a line. -/
  | numbering
  /-- `pending.insert`. -/
  | registering
  /-- `pending_sessions.insert`. -/
  | scoping
  /-- The second look at `closed`. -/
  | confirming
  /-- `session_released`. -/
  | watching
  /-- In `send_line`. -/
  | sending
  /-- In `rx.await`. -/
  | waiting
  /-- `session_closed`. -/
  | settled (result : Reply)
  /-- The guard: `pending.remove`. -/
  | unpending (result : Option Reply)
  /-- The guard: `pending_sessions.remove`. -/
  | unscoping (result : Option Reply)
  /-- Returned, or without a result where the future was dropped. -/
  | ended (result : Option Reply)

/-- A call of `request_with_remote_error`. -/
structure Request where
  method : String
  access : Access
  /-- Whether the result type is read from a value. -/
  reads : Value → Bool
  stage : Stage := .called
  id : Option Nat := none
  /-- The lifecycle that let it through. -/
  via : Option Nat := none
  /-- The lifecycle whose `released` it looks at. -/
  watched : Option Nat := none
  /-- What was sent through `tx`. -/
  slot : Option Reply := none

/-- A reply as a value of the result type. -/
def Request.read (r : Request) : Reply → Reply
  | .ok value => if r.reads value then .ok value else .error .json
  | .error failure => .error failure

/-! ## Sessions and the shutdown -/

/-- `SessionPhase`, without the attempts. -/
inductive SessionPhase where
  | preparing
  | opened
  | closing
  | releasing
  | closed
  deriving DecidableEq, Repr

/-- `SessionLifecycle`. -/
structure SessionLifecycle where
  sid : String
  phase : SessionPhase := .opened
  released : Bool := false
  deriving DecidableEq, Repr

/-- The task of a close, behind its request. -/
inductive ReleaseStage where
  /-- In the request. -/
  | requested
  /-- The daemon rejected it, and the session is open again. -/
  | reopened
  /-- Any other failure. -/
  | failed
  /-- `release_session`: `released.cancel()`. -/
  | cancelling
  /-- Its look for the pending requests. -/
  | collecting
  | draining (keys : List String)
  | finished
  deriving DecidableEq, Repr

/-- A close of a lifecycle. -/
structure Release where
  lifecycle : Nat
  stage : ReleaseStage := .requested
  deriving DecidableEq, Repr

/-- `disconnect`, from where it has set `closed`. -/
inductive Shutdown where
  | none
  | collecting (message : String)
  | draining (message : String) (keys : List String)
  | clearing
  /-- `emergency_drain_session_packs`, for the lifecycles that are left. -/
  | sessions (lifecycles : List Nat)
  /-- It has cancelled the first of them. -/
  | cancelled (lifecycle : Nat) (lifecycles : List Nat)
  deriving DecidableEq, Repr

end Requests

open Requests

/-- `ClientState` with the requests on it. -/
structure ClientState where
  nextId : Nat := 1
  /-- The senders by the requests that they are of. -/
  pending : KeyMap String Nat := .empty
  pendingSessions : KeyMap String String := .empty
  sessions : KeyMap String Nat := .empty
  closed : Bool := false
  requests : List Request := []
  lifecycles : List SessionLifecycle := []
  releases : List Release := []
  shutdown : Shutdown := .none

namespace ClientState

def put (s : ClientState) (i : Nat) (r : Request) : ClientState := { s with requests := s.requests.set i r }

def setLifecycle (s : ClientState) (l : Nat) (life : SessionLifecycle) : ClientState :=
  { s with lifecycles := s.lifecycles.set l life }

def setRelease (s : ClientState) (j : Nat) (release : Release) : ClientState :=
  { s with releases := s.releases.set j release }

/-- The phase of the lifecycle is not locked. -/
def Free (s : ClientState) (l : Nat) : Prop := ∀ r ∈ s.requests, r.stage = .scoping → r.via ≠ some l

/-- `with_existing_session_open`, up to its closure. -/
def gate (s : ClientState) (sid : String) : Except Failure Nat :=
  match s.sessions.get? sid with
  | none => .error (.sessionClosed sid)
  | some l =>
    if s.closed then .error (.channelClosed "Client is closed")
    else if (s.lifecycles[l]?).map (·.phase) ≠ some .opened then .error (.sessionClosed sid)
    else .ok l

/-- The check of the access before the request has a number. -/
def check (s : ClientState) : Access → Except Failure Unit
  | .unscoped => .ok ()
  | .viewable _ => if s.closed then .error (.channelClosed "Client is closed") else .ok ()
  | .writable sid => (s.gate sid).map fun _ => ()

/-- `session_closed`. -/
def sessionClosed (s : ClientState) (sid : String) : Bool :=
  match s.sessions.get? sid with
  | none => false
  | some l => (s.lifecycles[l]?).any fun life => life.phase = .closed || life.phase = .releasing

/-- What is returned of a result. -/
def conclude (s : ClientState) (r : Request) (result : Reply) : Reply :=
  match r.access.sid with
  | some sid => if s.sessionClosed sid then .error (.sessionClosed sid) else result
  | none => result

/-- A sender is taken out of `pending`, and the reply sent. -/
def answer (s : ClientState) (key : String) (reply : Reply) : ClientState :=
  match s.pending.get? key with
  | none => s
  | some i =>
    { s with pending := s.pending.erase key,
             requests := s.requests.modify i fun r => { r with slot := some reply } }

/-- One access to the shared state, or one thing from outside. The label is a response that came in. -/
inductive Step : ClientState → Option JSONRPCResponse → ClientState → Prop
  | call {s : ClientState} (method : String) (access : Access) (reads : Value → Bool) :
      Step s none { s with requests := s.requests ++ [{ method, access, reads }] }
  | refused {s : ClientState} {i : Nat} {r : Request} (hr : s.requests[i]? = some r) (stage : r.stage = .called)
      (hclosed : s.closed = true) :
      Step s none (s.put i { r with stage := .ended (some (.error (.channelClosed "Client is closed"))) })
  | passed {s : ClientState} {i : Nat} {r : Request} (hr : s.requests[i]? = some r) (stage : r.stage = .called)
      (hopen : s.closed = false) : Step s none (s.put i { r with stage := .checking })
  | denied {s : ClientState} {i : Nat} {r : Request} {failure : Failure} (hr : s.requests[i]? = some r)
      (stage : r.stage = .checking) (hcheck : s.check r.access = .error failure) :
      Step s none (s.put i { r with stage := .ended (some (.error failure)) })
  | allowed {s : ClientState} {i : Nat} {r : Request} (hr : s.requests[i]? = some r) (stage : r.stage = .checking)
      (hcheck : s.check r.access = .ok ()) : Step s none (s.put i { r with stage := .numbering })
  | unserializable {s : ClientState} {i : Nat} {r : Request} (hr : s.requests[i]? = some r)
      (stage : r.stage = .numbering) :
      Step s none { s.put i { r with stage := .ended (some (.error .json)), id := some s.nextId } with
        nextId := s.nextId + 1 }
  | number {s : ClientState} {i : Nat} {r : Request} (hr : s.requests[i]? = some r) (stage : r.stage = .numbering) :
      Step s none { s.put i { r with stage := .registering, id := some s.nextId } with nextId := s.nextId + 1 }
  | register {s : ClientState} {i id : Nat} {r : Request} (hr : s.requests[i]? = some r)
      (stage : r.stage = .registering) (hid : r.id = some id) (access : r.access.sid = none) :
      Step s none { s.put i { r with stage := .confirming } with pending := s.pending.insert (toString id) i }
  | shut {s : ClientState} {i : Nat} {r : Request} {sid : String} {failure : Failure} (hr : s.requests[i]? = some r)
      (stage : r.stage = .registering) (access : r.access.sid = some sid) (hgate : s.gate sid = .error failure) :
      Step s none (s.put i { r with stage := .ended (some (.error failure)) })
  | lock {s : ClientState} {i id l : Nat} {r : Request} {sid : String} (hr : s.requests[i]? = some r)
      (stage : r.stage = .registering) (hid : r.id = some id) (access : r.access.sid = some sid)
      (hgate : s.gate sid = .ok l) (free : s.Free l) :
      Step s none { s.put i { r with stage := .scoping, via := some l } with
        pending := s.pending.insert (toString id) i }
  | scope {s : ClientState} {i id : Nat} {r : Request} {sid : String} (hr : s.requests[i]? = some r)
      (stage : r.stage = .scoping) (hid : r.id = some id) (access : r.access.sid = some sid) :
      Step s none { s.put i { r with stage := .confirming } with
        pendingSessions := s.pendingSessions.insert (toString id) sid }
  | overtaken {s : ClientState} {i : Nat} {r : Request} (hr : s.requests[i]? = some r)
      (stage : r.stage = .confirming) (hclosed : s.closed = true) :
      Step s none (s.put i { r with stage := .unpending (some (.error (.channelClosed "Client is closed"))) })
  | confirm {s : ClientState} {i : Nat} {r : Request} (hr : s.requests[i]? = some r) (stage : r.stage = .confirming)
      (hopen : s.closed = false) : Step s none (s.put i { r with stage := .watching })
  | watch {s : ClientState} {i : Nat} {r : Request} (hr : s.requests[i]? = some r) (stage : r.stage = .watching)
      (session : ∀ sid, r.access.sid = some sid → (s.sessions.get? sid).isSome = true) :
      Step s none (s.put i { r with stage := .sending, watched := r.access.sid.bind s.sessions.get? })
  /-- The `expect` of `session_released` fails. -/
  | unwatched {s : ClientState} {i : Nat} {r : Request} {sid : String} (hr : s.requests[i]? = some r)
      (stage : r.stage = .watching) (access : r.access.sid = some sid) (session : s.sessions.get? sid = none) :
      Step s none (s.put i { r with stage := .unpending none })
  | sent {s : ClientState} {i : Nat} {r : Request} (hr : s.requests[i]? = some r) (stage : r.stage = .sending) :
      Step s none (s.put i { r with stage := .waiting })
  | unsent {s : ClientState} {i : Nat} {r : Request} (hr : s.requests[i]? = some r) (stage : r.stage = .sending) :
      Step s none (s.put i { r with stage := .settled (.error .io) })
  | replied {s : ClientState} {i : Nat} {r : Request} {reply : Reply} (hr : s.requests[i]? = some r)
      (stage : r.stage = .waiting) (hslot : r.slot = some reply) :
      Step s none (s.put i { r with stage := .settled (r.read reply) })
  | fence {s : ClientState} {i l : Nat} {r : Request} {sid : String} (hr : s.requests[i]? = some r)
      (stage : r.stage = .sending ∨ r.stage = .waiting) (access : r.access.sid = some sid)
      (watched : r.watched = some l) (released : (s.lifecycles[l]?).map (·.released) = some true) :
      Step s none (s.put i { r with stage := .settled (.error (.sessionClosed sid)) })
  | timeout {s : ClientState} {i : Nat} {r : Request} (hr : s.requests[i]? = some r)
      (stage : r.stage = .sending ∨ r.stage = .waiting) :
      Step s none (s.put i { r with stage := .settled (.error (.requestTimeout r.method)) })
  | drop {s : ClientState} {i : Nat} {r : Request} (hr : s.requests[i]? = some r)
      (stage : r.stage = .sending ∨ r.stage = .waiting) :
      Step s none (s.put i { r with stage := .unpending none })
  | settle {s : ClientState} {i : Nat} {r : Request} {result : Reply} (hr : s.requests[i]? = some r)
      (stage : r.stage = .settled result) :
      Step s none (s.put i { r with stage := .unpending (some (s.conclude r result)) })
  | unpend {s : ClientState} {i id : Nat} {r : Request} {result : Option Reply} (hr : s.requests[i]? = some r)
      (stage : r.stage = .unpending result) (hid : r.id = some id) :
      Step s none { s.put i { r with stage := .unscoping result } with pending := s.pending.erase (toString id) }
  | unscope {s : ClientState} {i id : Nat} {r : Request} {result : Option Reply} (hr : s.requests[i]? = some r)
      (stage : r.stage = .unscoping result) (hid : r.id = some id) :
      Step s none { s.put i { r with stage := .ended result } with
        pendingSessions := s.pendingSessions.erase (toString id) }
  /-- The reader: a response. -/
  | respond {s : ClientState} (response : JSONRPCResponse) :
      Step s (some response) (s.answer response.id.key (reply response))
  /-- `disconnect`; only the first one goes on. -/
  | disconnect {s : ClientState} (message : String) (hopen : s.closed = false) :
      Step s none { s with closed := true, shutdown := .collecting message }
  /-- The iteration meets every entry that is there all along. -/
  | collect {s : ClientState} {message : String} {keys : List String} (hshut : s.shutdown = .collecting message)
      (all : ∀ key, (s.pending.get? key).isSome = true → key ∈ keys) :
      Step s none { s with shutdown := .draining message keys }
  | drain {s : ClientState} {message key : String} {keys : List String}
      (hshut : s.shutdown = .draining message (key :: keys)) :
      Step s none { s.answer key (.error (.channelClosed message)) with shutdown := .draining message keys }
  | drained {s : ClientState} {message : String} (hshut : s.shutdown = .draining message []) :
      Step s none { s with shutdown := .clearing }
  /-- One shard of `pending_sessions.clear()`. -/
  | clear {s : ClientState} (shard : String → Bool) (hshut : s.shutdown = .clearing) :
      Step s none { s with pendingSessions := s.pendingSessions.filter fun e => !shard e.1 }
  | cleared {s : ClientState} {lifecycles : List Nat} (hshut : s.shutdown = .clearing)
      (all : ∀ sid l, s.sessions.get? sid = some l → l ∈ lifecycles) :
      Step s none { s with shutdown := .sessions lifecycles }
  | cancel {s : ClientState} {l : Nat} {lifecycles : List Nat} {life : SessionLifecycle}
      (hshut : s.shutdown = .sessions (l :: lifecycles)) (hl : s.lifecycles[l]? = some life) :
      Step s none { s.setLifecycle l { life with released := true } with shutdown := .cancelled l lifecycles }
  | terminate {s : ClientState} {l : Nat} {lifecycles : List Nat} {life : SessionLifecycle}
      (hshut : s.shutdown = .cancelled l lifecycles) (hl : s.lifecycles[l]? = some life) (free : s.Free l) :
      Step s none { s.setLifecycle l { life with phase := .closed } with shutdown := .sessions lifecycles }
  /-- `session_lifecycle`, or `probe_session`, of a thread without one. -/
  | track {s : ClientState} {sid : String} (hnone : s.sessions.get? sid = none) :
      Step s none { s with sessions := s.sessions.insert sid s.lifecycles.length,
                           lifecycles := s.lifecycles ++ [{ sid }] }
  /-- The entry of a provisional or rejected lifecycle is removed. -/
  | untrack {s : ClientState} {sid : String} :
      Step s none { s with sessions := s.sessions.erase sid }
  | prepare {s : ClientState} {l : Nat} {life : SessionLifecycle} (hl : s.lifecycles[l]? = some life)
      (phase : life.phase = .opened) (free : s.Free l) (hopen : s.closed = false) :
      Step s none (s.setLifecycle l { life with phase := .preparing })
  | prepared {s : ClientState} {l : Nat} {life : SessionLifecycle} (accepted : Bool)
      (hl : s.lifecycles[l]? = some life) (phase : life.phase = .preparing) (free : s.Free l)
      (hopen : s.closed = false) :
      Step s none (s.setLifecycle l { life with phase := if accepted then .opened else .closed })
  /-- `reject_prepared_session`: `released.cancel()`. -/
  | reject {s : ClientState} {l : Nat} {life : SessionLifecycle} (hl : s.lifecycles[l]? = some life) :
      Step s none (s.setLifecycle l { life with released := true })
  | rejected {s : ClientState} {l : Nat} {life : SessionLifecycle} (hl : s.lifecycles[l]? = some life)
      (phase : life.phase = .preparing) (free : s.Free l) :
      Step s none (s.setLifecycle l { life with phase := .closed })
  /-- `close_session` -/
  | close {s : ClientState} {l : Nat} {life : SessionLifecycle} (hl : s.lifecycles[l]? = some life)
      (phase : life.phase = .opened) (free : s.Free l) :
      Step s none { s.setLifecycle l { life with phase := .closing } with
        releases := s.releases ++ [{ lifecycle := l }] }
  | reopen {s : ClientState} {j : Nat} {release : Release} {life : SessionLifecycle}
      (hj : s.releases[j]? = some release) (stage : release.stage = .requested)
      (hl : s.lifecycles[release.lifecycle]? = some life) (free : s.Free release.lifecycle) :
      Step s none ((s.setLifecycle release.lifecycle { life with phase := .opened }).setRelease j
        { release with stage := .reopened })
  | failed {s : ClientState} {j : Nat} {release : Release} {life : SessionLifecycle}
      (hj : s.releases[j]? = some release) (stage : release.stage = .requested)
      (hl : s.lifecycles[release.lifecycle]? = some life) (free : s.Free release.lifecycle) :
      Step s none ((s.setLifecycle release.lifecycle { life with phase := .closed }).setRelease j
        { release with stage := .failed })
  | accepted {s : ClientState} {j : Nat} {release : Release} {life : SessionLifecycle}
      (hj : s.releases[j]? = some release) (stage : release.stage = .requested)
      (hl : s.lifecycles[release.lifecycle]? = some life) (free : s.Free release.lifecycle) :
      Step s none ((s.setLifecycle release.lifecycle { life with phase := .releasing }).setRelease j
        { release with stage := .cancelling })
  | release {s : ClientState} {j : Nat} {release : Release} {life : SessionLifecycle}
      (hj : s.releases[j]? = some release) (stage : release.stage = .cancelling)
      (hl : s.lifecycles[release.lifecycle]? = some life) :
      Step s none ((s.setLifecycle release.lifecycle { life with released := true }).setRelease j
        { release with stage := .collecting })
  | find {s : ClientState} {j : Nat} {release : Release} {life : SessionLifecycle} {keys : List String}
      (hj : s.releases[j]? = some release) (stage : release.stage = .collecting)
      (hl : s.lifecycles[release.lifecycle]? = some life)
      (all : ∀ key, s.pendingSessions.get? key = some life.sid → key ∈ keys) :
      Step s none (s.setRelease j { release with stage := .draining keys })
  | resolve {s : ClientState} {j : Nat} {release : Release} {life : SessionLifecycle} {key : String}
      {keys : List String} (hj : s.releases[j]? = some release) (stage : release.stage = .draining (key :: keys))
      (hl : s.lifecycles[release.lifecycle]? = some life) :
      Step s none (({ s with pendingSessions := s.pendingSessions.erase key }.answer key
        (.error (.sessionClosed life.sid))).setRelease j { release with stage := .draining keys })
  /-- The rest of `release_session`, and the end of the close. -/
  | finish {s : ClientState} {j : Nat} {release : Release} {life : SessionLifecycle}
      (hj : s.releases[j]? = some release) (stage : release.stage = .draining [])
      (hl : s.lifecycles[release.lifecycle]? = some life) (free : s.Free release.lifecycle) :
      Step s none ((s.setLifecycle release.lifecycle { life with phase := .closed }).setRelease j
        { release with stage := .finished })

end ClientState

end Whale
