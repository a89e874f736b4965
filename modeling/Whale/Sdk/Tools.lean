import Whale.Lib.KeyMap
import Whale.Lib.Run

/-!
# Tool registration in the client

`WhaleThread::register_tool` of `whale-sdk-rust/src/lib.rs` with what it shares state with: the session fences and
`close_session` of `sessions.rs`, `ClientState::disconnect`, the staged tools of a new session (`agent.rs`) and the
choice of a handler for an invocation (`contexts.rs`).

A call of `register_tool` and the task it spawns go through the points of `Stage`, one access to shared state from
each to the next; a point in a closure of `with_session_open` or `while_session_exists` holds the lock of the phase
of its session (`Stage.holdsPhase`). A close goes through `Close` and a disconnect through `Shutdown`. Every session
was accepted before: its lifecycle is in the map, and known. `DashMap::clear` goes shard by shard.

The events hubs, the pending requests, the callbacks and the tool packs are not modelled: what a close or a
disconnect does with them only delays it, or is one of the ways in which a request may end.
-/

namespace Whale.ToolRegistration

/-- `(thread_id, name)`, or `(thread_id, binding_id)`. -/
abbrev Key := String × String

/-- `SessionPhase`, from the acceptance of the session on. -/
inductive SessionPhase where
  | opened
  | closing
  | releasing
  | closed
  deriving DecidableEq, Repr

/-- Neither `Closed` nor `Releasing`. -/
def SessionPhase.live : SessionPhase → Bool
  | opened | closing => true
  | releasing | closed => false

/-- What a registration or its request comes to, as an `SdkError` where it fails. `failed` is every error without a
constructor: a reply that does not parse, a timeout, `RunExpired`, `LimitExceeded` and the like. -/
inductive Outcome where
  | ok
  | rpc
  | sessionClosed
  | channelClosed
  | invalidConfiguration
  | failed
  /-- The caller dropped its future. -/
  | dropped
  deriving DecidableEq, Repr

/-- Where a registration stands: what it does next. -/
inductive Stage where
  /-- `ensure_session_open`. -/
  | called
  /-- `ensure_dynamic_tool_name_available`. -/
  | opened
  /-- `with_session_open`, for the lock of its name. -/
  | available
  /-- In that closure: the entry of the lock. -/
  | locking
  /-- `lock_owned`. -/
  | queued
  /-- `ensure_session_open`, with the lock. -/
  | locked
  /-- The task: is the client closed? -/
  | spawned
  /-- `with_session_open`, to install the handler. -/
  | starting
  /-- In that closure: by its binding id. -/
  | binding
  /-- In that closure: by its name. -/
  | naming
  /-- The request: is the client closed? -/
  | requesting
  /-- `with_existing_session_open`. -/
  | admitting
  /-- The same, for the pending entry. -/
  | enrolling
  /-- Is the client closed? -/
  | enrolled
  /-- `send_line`. -/
  | sending
  /-- The line is out. -/
  | sent
  /-- `session_closed`, behind the `select!`. -/
  | replied (outcome : Outcome)
  /-- The `match` on the result of the request. -/
  | settled (outcome : Outcome)
  /-- Rejected: it removes the binding. -/
  | rejected
  /-- `while_session_exists`. -/
  | unbound
  /-- In that closure: the entry of the name. -/
  | restoring
  /-- Outcome unknown: it removes the binding. -/
  | lost (outcome : Outcome)
  /-- It removes the name. -/
  | forgetting (outcome : Outcome)
  /-- It disconnects. -/
  | disconnecting (outcome : Outcome)
  /-- Its `disconnect` runs. -/
  | draining (outcome : Outcome)
  /-- It has returned. -/
  | ended (outcome : Outcome)
  deriving DecidableEq, Repr

namespace Stage

/-- It asks for the phase of its session. -/
def asksPhase : Stage → Bool
  | called | opened | available | locked | starting | admitting | enrolling | replied _ | settled .ok | unbound => true
  | _ => false

/-- It is in a closure under the lock of the phase. -/
def holdsPhase : Stage → Bool
  | locking | binding | naming | restoring => true
  | _ => false

/-- The task is there. -/
def running : Stage → Bool
  | called | opened | available | locking | queued | locked | ended _ => false
  | _ => true

/-- It has the lock of its name. -/
def holdsLock (stage : Stage) : Bool := stage == locked || stage.running

/-- It checks in its request that the session is open. -/
def admits : Stage → Bool
  | admitting | enrolling => true
  | _ => false

end Stage

/-- A call of `register_tool`. -/
structure Registration (Tool : Type) where
  sid : String
  name : String
  tool : Tool
  bindingId : String
  /-- The lock of the name, from `Stage.queued` on. -/
  lock : Nat := 0
  /-- The handler that the name had, from `Stage.requesting` on. -/
  old : Option Tool := none
  stage : Stage := .called

namespace Registration

variable {Tool : Type}

/-- `key`. -/
def key (r : Registration Tool) : Key := (r.sid, r.name)

/-- `binding_key`. -/
def bindingKey (r : Registration Tool) : Key := (r.sid, r.bindingId)

end Registration

/-- Where the task of `close_session` stands for a session. -/
inductive Close where
  | idle
  /-- The RPC is under way. -/
  | calling
  /-- Rejected: it sets the phase back. -/
  | rejecting
  /-- Outcome unknown: it closes the client. -/
  | failing
  /-- `release_session`: it cancels the fence. -/
  | releasing
  /-- It collects the registration locks. -/
  | collecting
  /-- It waits for these. -/
  | waiting (locks : List Nat)
  /-- Behind `tools.retain`. -/
  | toolsRetained
  /-- Behind `tool_bindings.retain`. -/
  | bindingsRetained
  /-- Behind `registration_locks.retain`. -/
  | locksRetained
  /-- The session was released. -/
  | done
  deriving DecidableEq, Repr

/-- `SessionLifecycle`, with the close. -/
structure SessionLifecycle where
  phase : SessionPhase := .opened
  released : Bool := false
  packNames : List String := []
  close : Close := .idle
  deriving DecidableEq, Repr

/-- Where `disconnect` stands; it has set `closed` in all but the first. -/
inductive Shutdown where
  | none
  /-- `tools.clear`, with the shards that are done. -/
  | tools (shards : Nat)
  /-- `tool_bindings.clear`. -/
  | bindings (shards : Nat)
  /-- `registration_locks.clear`. -/
  | locks
  /-- `emergency_drain_session_packs`, with the sessions left and whether the fence of the first is cancelled. -/
  | sessions (sids : List String) (cancelled : Bool)
  | finished
  deriving DecidableEq, Repr

/-- The shards of the two maps of handlers. -/
structure Shards where
  count : Nat
  tools : Key → Fin count
  bindings : Key → Fin count

/-- `ToolContextInfo`, as far as it is read. -/
structure ToolContextInfo where
  threadId : String
  turnId : String
  callId : String
  deriving DecidableEq, Repr

/-- `ToolExecuteHostParams`, as far as the handler depends on it. -/
structure ToolExecuteHostParams where
  bindingId : Option String := none
  context : Option ToolContextInfo := none
  threadId : Option String := none
  callId : String
  name : String
  deriving DecidableEq, Repr

/-- The identity of the execution is invalid. -/
def ToolExecuteHostParams.invalid (p : ToolExecuteHostParams) : Bool :=
  p.context.any fun c => c.threadId == "" || c.turnId == "" || c.callId == "" ||
    p.threadId.any (· != c.threadId)

/-- `thread`. -/
def ToolExecuteHostParams.thread (p : ToolExecuteHostParams) : Option String :=
  p.threadId.or (p.context.map (·.threadId))

/-- `ClientState` with the registrations and closes on it, and what was registered and run. -/
structure State (Tool : Type) where
  sessions : String → SessionLifecycle := fun _ => {}
  /-- The sessions with a lifecycle. -/
  known : List String := []
  tools : KeyMap Key Tool := .empty
  bindings : KeyMap Key Tool := .empty
  locks : KeyMap Key Nat := .empty
  nextLock : Nat := 0
  shutdown : Shutdown := .none
  registrations : List (Registration Tool) := []
  /-- The binding ids there are. -/
  issued : List String := []
  /-- The last registration of a name that was acknowledged, or the staged one: its handler and binding id. -/
  acknowledged : KeyMap Key (Tool × String) := .empty
  /-- The handlers that were run. -/
  ran : List (ToolExecuteHostParams × Tool) := []

namespace State

variable {Tool : Type}

/-- `closed`. -/
def closed (s : State Tool) : Bool := s.shutdown != .none

/-- The lock of the phase of a session is free. -/
def Free (s : State Tool) (sid : String) : Prop :=
  ∀ r ∈ s.registrations, r.sid = sid → r.stage.holdsPhase = false

instance (s : State Tool) (sid : String) : Decidable (s.Free sid) :=
  inferInstanceAs (Decidable (∀ r ∈ s.registrations, r.sid = sid → r.stage.holdsPhase = false))

/-- The lock of a name is free. -/
def Unlocked (s : State Tool) (lock : Nat) : Prop :=
  ∀ r ∈ s.registrations, r.stage.holdsLock = true → r.lock ≠ lock

instance (s : State Tool) (lock : Nat) : Decidable (s.Unlocked lock) :=
  inferInstanceAs (Decidable (∀ r ∈ s.registrations, r.stage.holdsLock = true → r.lock ≠ lock))

/-- `with_open_lifecycle` and its like: why the session may not be used. -/
def refusal (s : State Tool) (sid : String) : Option Outcome :=
  if s.closed then some .channelClosed
  else if (s.sessions sid).phase != .opened then some .sessionClosed
  else none

/-- `session_closed`. -/
def sessionClosed (s : State Tool) (sid : String) : Bool := !(s.sessions sid).phase.live

/-- Registration `i` becomes `r`. -/
def put (s : State Tool) (i : Nat) (r : Registration Tool) : State Tool :=
  { s with registrations := s.registrations.set i r }

/-- A session changes. -/
def setSession (s : State Tool) (sid : String) (life : SessionLifecycle) : State Tool :=
  { s with sessions := Function.update s.sessions sid life }

/-- `disconnect`, to its `closed.swap`. -/
def disconnect (s : State Tool) : State Tool :=
  if s.closed then s else { s with shutdown := .tools 0 }

/-- A check of the client or of the phase, and where it leads. -/
def check (s : State Tool) (r : Registration Tool) : Option Stage :=
  match r.stage with
  | .called => some ((s.refusal r.sid).elim .opened .ended)
  | .opened => some (match s.refusal r.sid with
    | some e => .ended e
    | none => if r.name ∈ (s.sessions r.sid).packNames then .ended .invalidConfiguration else .available)
  | .available => some ((s.refusal r.sid).elim .locking .ended)
  | .locked => some ((s.refusal r.sid).elim .spawned .ended)
  | .spawned => some (if s.closed then .ended .channelClosed else .starting)
  | .starting => some ((s.refusal r.sid).elim .binding .ended)
  | .requesting => some (if s.closed then .settled .channelClosed else .admitting)
  | .admitting => some ((s.refusal r.sid).elim .enrolling .settled)
  | .enrolling => some ((s.refusal r.sid).elim .enrolled .settled)
  | .enrolled => some (if s.closed then .settled .channelClosed else .sending)
  | .replied o => some (.settled (if s.sessionClosed r.sid then .sessionClosed else o))
  | .settled .ok => some (.ended (if s.sessionClosed r.sid then .sessionClosed else .ok))
  | .settled .sessionClosed => some (.ended .sessionClosed)
  | .settled .rpc => some (if s.closed then .lost .rpc else .rejected)
  | .settled o => some (.lost o)
  | .unbound => some (if s.sessionClosed r.sid || s.closed then .ended .rpc else .restoring)
  | _ => none

/-- The entry of the name, when a rejected registration puts the old handler back. -/
def restore (s : State Tool) (r : Registration Tool) : KeyMap Key Tool :=
  match s.tools.get? r.key, r.old with
  | some _, some old => if s.closed then s.tools.erase r.key else s.tools.insert r.key old
  | some _, none => s.tools.erase r.key
  | none, some old => if s.closed then s.tools else s.tools.insert r.key old
  | none, none => s.tools

/-- What registration `i` does to the shared state at its stage. -/
def work (s : State Tool) (i : Nat) (r : Registration Tool) : Option (State Tool) :=
  match r.stage with
  | .locking => some (match s.locks.get? r.key with
    | some lock => s.put i { r with lock, stage := .queued }
    | none => { s.put i { r with lock := s.nextLock, stage := .queued } with
        locks := s.locks.insert r.key s.nextLock, nextLock := s.nextLock + 1 })
  | .binding => some { s.put i { r with stage := .naming } with bindings := s.bindings.insert r.bindingKey r.tool }
  | .naming => some { s.put i { r with stage := .requesting, old := s.tools.get? r.key } with
      tools := s.tools.insert r.key r.tool }
  | .rejected => some { s.put i { r with stage := .unbound } with bindings := s.bindings.erase r.bindingKey }
  | .restoring => some { s.put i { r with stage := .ended .rpc } with tools := s.restore r }
  | .lost o => some { s.put i { r with stage := .forgetting o } with bindings := s.bindings.erase r.bindingKey }
  | .forgetting o => some { s.put i { r with stage := .disconnecting o } with tools := s.tools.erase r.key }
  | .disconnecting o => some (if s.closed then s.put i { r with stage := .ended o }
      else { s.put i { r with stage := .draining o } with shutdown := .tools 0 })
  | _ => none

/-- What the task of `close_session` does next, but for the ends of its RPC. -/
def proceed (s : State Tool) (sid : String) : Option (State Tool) :=
  let life := s.sessions sid
  match life.close with
  | .rejecting => some (s.setSession sid { life with phase := .opened, close := .idle })
  | .failing => some (s.disconnect.setSession sid { life with close := .idle })
  | .releasing => some (s.setSession sid { life with released := true, close := .collecting })
  | .collecting =>
    let locks := (s.locks.filter (·.1.1 == sid)).entries.map (·.2)
    some (s.setSession sid { life with close := .waiting locks })
  | .waiting [] => some { s.setSession sid { life with close := .toolsRetained } with
      tools := s.tools.filter (·.1.1 != sid) }
  | .toolsRetained => some { s.setSession sid { life with close := .bindingsRetained } with
      bindings := s.bindings.filter (·.1.1 != sid) }
  | .bindingsRetained => some { s.setSession sid { life with close := .locksRetained } with
      locks := s.locks.filter (·.1.1 != sid) }
  | .locksRetained => some (s.setSession sid { life with phase := .closed, close := .done })
  | _ => none

/-- What `disconnect` does next; the last component is the session whose phase it locks. -/
def sweep (shards : Shards) (s : State Tool) : Option (State Tool × Option String) :=
  match s.shutdown with
  | .tools n =>
    if n < shards.count then
      some ({ s with tools := s.tools.filter fun e => (shards.tools e.1).val != n, shutdown := .tools (n + 1) }, none)
    else some ({ s with shutdown := .bindings 0 }, none)
  | .bindings n =>
    if n < shards.count then
      some ({ s with bindings := s.bindings.filter fun e => (shards.bindings e.1).val != n,
                     shutdown := .bindings (n + 1) }, none)
    else some ({ s with shutdown := .locks }, none)
  | .locks => some ({ s with locks := .empty, shutdown := .sessions s.known false }, none)
  | .sessions (sid :: sids) false =>
    some ({ s.setSession sid { s.sessions sid with released := true } with
            shutdown := .sessions (sid :: sids) true }, none)
  | .sessions (sid :: sids) true =>
    some ({ s.setSession sid { s.sessions sid with phase := .closed } with shutdown := .sessions sids false }, some sid)
  | .sessions [] _ => some ({ s with shutdown := .finished }, none)
  | _ => none

/-- `tool` of `dispatch_request`. -/
def handler (s : State Tool) (p : ToolExecuteHostParams) : Option Tool :=
  match p.bindingId, p.thread with
  | some bindingId, some thread => s.bindings.get? (thread, bindingId)
  | some _, none => none
  | none, some thread => s.tools.get? (thread, p.name)
  | none, none => match (s.tools.filter (·.1.2 == p.name)).entries with
    | [e] => some e.2
    | _ => none

end State

/-- The points of a close at which it locks the phase. -/
def Close.locksPhase : Close → Bool
  | rejecting | locksRetained => true
  | _ => false

/-- Who takes a step: registration `i`, or anything else. -/
inductive Event where
  | registration (i : Nat)
  | other
  deriving DecidableEq, Repr

variable {Tool : Type}

/-- One access to the shared state, or one thing from outside. -/
inductive Step (name : Tool → String) (shards : Shards) : State Tool → Event → State Tool → Prop
  /-- A call of `register_tool`; the binding id is a new UUID. -/
  | register {s : State Tool} {sid : String} (hsid : sid ∈ s.known) (tool : Tool) {bindingId : String}
      (hid : bindingId ∉ s.issued) : Step name shards s .other
        { s with registrations := s.registrations ++ [{ sid, name := name tool, tool, bindingId }],
                 issued := bindingId :: s.issued }
  | check {s : State Tool} {i : Nat} {r : Registration Tool} {stage : Stage} (hr : s.registrations[i]? = some r)
      (hfree : r.stage.asksPhase = true → s.Free r.sid) (h : s.check r = some stage) :
      Step name shards s (.registration i) (s.put i { r with stage })
  | work {s t : State Tool} {i : Nat} {r : Registration Tool} (hr : s.registrations[i]? = some r)
      (h : s.work i r = some t) : Step name shards s (.registration i) t
  | acquire {s : State Tool} {i : Nat} {r : Registration Tool} (hr : s.registrations[i]? = some r)
      (hstage : r.stage = .queued) (hfree : s.Unlocked r.lock) :
      Step name shards s (.registration i) (s.put i { r with stage := .locked })
  /-- The caller drops its future behind another registration. -/
  | drop {s : State Tool} {i : Nat} {r : Registration Tool} (hr : s.registrations[i]? = some r)
      (hstage : r.stage = .queued) : Step name shards s .other (s.put i { r with stage := .ended .dropped })
  | send {s : State Tool} {i : Nat} {r : Registration Tool} (hr : s.registrations[i]? = some r)
      (hstage : r.stage = .sending) : Step name shards s (.registration i) (s.put i { r with stage := .sent })
  /-- The fence of the session ends the request. -/
  | fence {s : State Tool} {i : Nat} {r : Registration Tool} (hr : s.registrations[i]? = some r)
      (hstage : r.stage = .sending ∨ r.stage = .sent) (hreleased : (s.sessions r.sid).released = true) :
      Step name shards s (.registration i) (s.put i { r with stage := .replied .sessionClosed })
  /-- A transport error, a timeout, a reply that does not parse, a dropped sender. -/
  | fail {s : State Tool} {i : Nat} {r : Registration Tool} {o : Outcome} (hr : s.registrations[i]? = some r)
      (hstage : r.stage = .sending ∨ r.stage = .sent) (ho : o = .failed ∨ o = .channelClosed) :
      Step name shards s (.registration i) (s.put i { r with stage := .replied o })
  /-- The daemon rejects the registration; the fence comes first in the `select!`. -/
  | reject {s : State Tool} {i : Nat} {r : Registration Tool} (hr : s.registrations[i]? = some r)
      (hstage : r.stage = .sent) (hreleased : (s.sessions r.sid).released = false) :
      Step name shards s (.registration i) (s.put i { r with stage := .replied .rpc })
  /-- The daemon acknowledges the registration. -/
  | acknowledge {s : State Tool} {i : Nat} {r : Registration Tool} (hr : s.registrations[i]? = some r)
      (hstage : r.stage = .sent) (hreleased : (s.sessions r.sid).released = false) :
      Step name shards s (.registration i)
        { s.put i { r with stage := .replied .ok } with
          acknowledged := s.acknowledged.insert r.key (r.tool, r.bindingId) }
  /-- The task returns behind its own `disconnect`. -/
  | drained {s : State Tool} {i : Nat} {r : Registration Tool} {o : Outcome} (hr : s.registrations[i]? = some r)
      (hstage : r.stage = .draining o) (hdone : s.shutdown = .finished) :
      Step name shards s (.registration i) (s.put i { r with stage := .ended o })
  /-- `close_session` of an open session; its caller saw the client open at some time before. -/
  | close {s : State Tool} {sid : String} (hsid : sid ∈ s.known) (hfree : s.Free sid)
      (hphase : (s.sessions sid).phase = .opened) : Step name shards s .other
        (s.setSession sid { s.sessions sid with phase := .closing, close := .calling })
  /-- The daemon closed the session. -/
  | closeAccepted {s : State Tool} {sid : String} (hclose : (s.sessions sid).close = .calling)
      (hfree : s.Free sid) :
      Step name shards s .other
        (s.setSession sid { s.sessions sid with phase := .releasing, close := .releasing })
  /-- The daemon rejected the close. -/
  | closeRejected {s : State Tool} {sid : String} (hclose : (s.sessions sid).close = .calling)
      (hopen : s.closed = false) :
      Step name shards s .other (s.setSession sid { s.sessions sid with close := .rejecting })
  /-- The close has any other outcome. -/
  | closeFailed {s : State Tool} {sid : String} (hclose : (s.sessions sid).close = .calling)
      (hfree : s.Free sid) :
      Step name shards s .other
        (s.setSession sid { s.sessions sid with phase := .closed, close := .failing })
  | proceed {s t : State Tool} {sid : String} (h : s.proceed sid = some t)
      (hfree : (s.sessions sid).close.locksPhase = true → s.Free sid) : Step name shards s .other t
  /-- A registration lock is free for the close. -/
  | waited {s : State Tool} {sid : String} {lock : Nat} {locks : List Nat}
      (hclose : (s.sessions sid).close = .waiting (lock :: locks)) (hfree : s.Unlocked lock) :
      Step name shards s .other (s.setSession sid { s.sessions sid with close := .waiting locks })
  /-- The client is closed, or its transport fails. -/
  | disconnect {s : State Tool} : Step name shards s .other s.disconnect
  | sweep {s t : State Tool} {locked : Option String} (h : s.sweep shards = some (t, locked))
      (hfree : ∀ sid, locked = some sid → s.Free sid) : Step name shards s .other t
  /-- A handler is run for an invocation. -/
  | invoke {s : State Tool} {p : ToolExecuteHostParams} {tool : Tool} (hvalid : p.invalid = false)
      (h : s.handler p = some tool) : Step name shards s .other { s with ran := s.ran ++ [(p, tool)] }

/-! ## The property -/

/-- `tools.retain` is over. -/
def Close.toolsGone : Close → Bool
  | toolsRetained | bindingsRetained | locksRetained | done => true
  | _ => false

/-- `tool_bindings.retain` is over. -/
def Close.bindingsGone : Close → Bool
  | bindingsRetained | locksRetained | done => true
  | _ => false

/-- `disconnect` has cleared both maps. -/
def Shutdown.cleared : Shutdown → Bool
  | none | tools _ | bindings _ => false
  | _ => true

namespace State

/-- The handler that a name should have between registrations. -/
def lastTool (s : State Tool) (k : Key) : Option Tool := (s.acknowledged.get? k).map (·.1)

/-- No task registers a tool under the name. -/
def Quiet (s : State Tool) (k : Key) : Prop := ∀ r ∈ s.registrations, r.key = k → r.stage.running = false

/-- The registrations of a name are dispatched one at a time. -/
def Serial (s : State Tool) : Prop :=
  ∀ {i j : Nat} {r q : Registration Tool}, s.registrations[i]? = some r → s.registrations[j]? = some q →
    r.stage = .sent → q.stage = .sent → r.key = q.key → i = j

/-- Between its registrations, a name of an open session has the handler that was acknowledged last. -/
def Settled (s : State Tool) : Prop :=
  ∀ k : Key, s.refusal k.1 = none → s.Quiet k → s.tools.get? k = s.lastTool k ∧
    ∀ {tool : Tool} {bindingId : String}, s.acknowledged.get? k = some (tool, bindingId) →
      s.bindings.get? (k.1, bindingId) = some tool

/-- A rejected registration leaves no binding. -/
def Unbound (s : State Tool) : Prop :=
  ∀ r ∈ s.registrations, r.stage = .ended .rpc → s.bindings.get? r.bindingKey = none

/-- A session that was released, or whose client is closed, has no handler. -/
def TornDown (s : State Tool) : Prop :=
  ∀ sid, ((s.sessions sid).close.bindingsGone = true ∨ s.shutdown.cleared = true) →
    (∀ r ∈ s.registrations, r.sid = sid → r.stage.running = false) →
    ∀ key, s.tools.get? (sid, key) = none ∧ s.bindings.get? (sid, key) = none

end State

/-- The next step is a registration's, whose request looks at a session that is being closed. -/
def State.Meets (s : State Tool) (e : Event) : Prop :=
  ∃ i r, e = .registration i ∧ s.registrations[i]? = some r ∧ r.stage.admits = true ∧ s.closed = false ∧
    (s.sessions r.sid).phase = .closing

/-! ## The start -/

/-- A tool that was staged for a session. -/
structure StagedTool (Tool : Type) where
  sid : String
  tool : Tool
  bindingId : String

/-- `stage_tool`. -/
def State.stageTool (name : Tool → String) (s : State Tool) (t : StagedTool Tool) : State Tool :=
  { s with
    tools := s.tools.insert (t.sid, name t.tool) t.tool
    bindings := s.bindings.insert (t.sid, t.bindingId) t.tool
    issued := t.bindingId :: s.issued
    acknowledged := s.acknowledged.insert (t.sid, name t.tool) (t.tool, t.bindingId) }

/-- The staged tools of all sessions; their binding ids are UUIDs. -/
structure Staged (Tool : Type) where
  tools : List (StagedTool Tool)
  nodup : (tools.map (·.bindingId)).Nodup

/-- The handler was registered for the session under this very id. -/
def Registered (staged : Staged Tool) (s : State Tool) (sid bindingId : String) (tool : Tool) : Prop :=
  (∃ g ∈ staged.tools, g.sid = sid ∧ g.bindingId = bindingId ∧ g.tool = tool) ∨
    ∃ r ∈ s.registrations, r.sid = sid ∧ r.bindingId = bindingId ∧ r.tool = tool

/-- An invocation with a binding id is only run by the handler that was registered with it, in its session. -/
def State.Authoritative (staged : Staged Tool) (s : State Tool) : Prop :=
  ∀ {p : ToolExecuteHostParams} {tool : Tool}, (p, tool) ∈ s.ran → ∀ {bindingId : String},
    p.bindingId = some bindingId → ∃ sid, p.thread = some sid ∧ Registered staged s sid bindingId tool

/-- Accepted sessions with their packs and staged tools. -/
def State.start (name : Tool → String) (known : List String) (packs : String → List String)
    (staged : Staged Tool) : State Tool :=
  staged.tools.foldl (·.stageTool name)
    { known, sessions := fun sid => { packNames := packs sid } }

end Whale.ToolRegistration
