import Mathlib.Data.Prod.Lex
import Mathlib.Data.String.Basic
import Whale.Lib.KeyMap
import Whale.Lib.Run

/-!
# The retirement of runs

`RunRegistry` of `whale-daemon/src/retention.rs`: the live runs of all sessions, the identities of those that were
retired, and when the terminal event of a live run was delivered. An instant is a number of nanoseconds. A hash map
is its list of entries; what iterates over one is only known up to order.

`RunTable` is the registry with the tasks that use it. `handle_start_turn` inserts a run that no other has the
identity of and removes it again, by its identity, when its start fails; `execute_run` calls `delivered` behind its
terminal event; the retention worker retires the candidates of a sweep one after another; and a closed session is
removed with its runs. A close first waits for the terminal delivery of every run of the session
(`finish_session_close`), and a start that fails settles it behind its removal or, in an ephemeral session, never:
no session is removed while one of its runs is being started.
-/

namespace Whale.Retirement

/-- What the registry reads of a `RunRecord`, with its address. -/
structure RunRef where
  address : Nat
  owner : String
  threadId : String
  turnId : String
  deriving DecidableEq, Repr

/-- `(thread_id, turn_id)`. -/
abbrev RunKey := String × String

def RunRef.key (run : RunRef) : RunKey := (run.threadId, run.turnId)

/-- `RunRetentionPolicy`. -/
structure RunRetentionPolicy where
  terminalTtlMs : Option Nat := none
  maxTerminalRunsPerSession : Option Nat := none
  deriving DecidableEq, Repr

/-- `RetirementCandidate`. -/
structure RetirementCandidate where
  key : RunKey
  run : RunRef
  deriving DecidableEq, Repr

/-- The time to live of a run delivered at an instant is over. -/
def RunRetentionPolicy.aged (policy : RunRetentionPolicy) (now deliveredAt : Nat) : Bool :=
  policy.terminalTtlMs.any fun ttl => decide (ttl * 1000000 ≤ now - deliveredAt)

/-- `RunRegistry`. -/
structure RunRegistry where
  live : KeyMap RunKey RunRef := .empty
  expired : KeyMap RunKey String := .empty
  delivered : KeyMap RunKey Nat := .empty

/-- The order of `a.1.cmp(&b.1).then_with(|| a.0.cmp(&b.0))`. -/
def deliveryRank (e : RunKey × Nat) : Nat ×ₗ (String ×ₗ String) := toLex (e.2, toLex e.1)

/-- What one session loses beyond its maximum: the keys of the oldest records. -/
def excess (maximum : Nat) (records : List (RunKey × Nat)) : List RunKey :=
  let records := records.mergeSort fun a b => decide (deliveryRank a ≤ deliveryRank b)
  (records.take (records.length - maximum)).map (·.1)

namespace RunRegistry

/-- `RunRegistry::expired`. -/
def isExpired (r : RunRegistry) (key : RunKey) (owner : String) : Bool := r.expired.get? key == some owner

/-- `RunRegistry::delivered`. -/
def deliver (r : RunRegistry) (run : RunRef) (now : Nat) : RunRegistry :=
  if r.live.get? run.key == some run then
    match r.delivered.get? run.key with
    | some _ => r
    | none => { r with delivered := r.delivered.insert run.key now }
  else r

/-- `remove_session`. -/
def removeSession (r : RunRegistry) (thread owner : String) : RunRegistry :=
  let live := r.live.filter fun e => e.1.1 != thread || e.2.owner != owner
  { live
    expired := r.expired.filter fun e => e.1.1 != thread || e.2 != owner
    delivered := r.delivered.filter fun e => (live.get? e.1).isSome }

/-- The loop of `candidates` over the delivered runs: those to retire, and the others by session. -/
def sortOut (r : RunRegistry) (policy : RunRetentionPolicy) (now : Nat)
    (s : List RunKey × KeyMap String (List (RunKey × Nat))) (e : RunKey × Nat) :
    List RunKey × KeyMap String (List (RunKey × Nat)) :=
  if (r.live.get? e.1).isNone then s
  else if policy.aged now e.2 then (s.1 ++ [e.1], s.2)
  else (s.1, s.2.insert e.1.1 ((s.2.get? e.1.1).getD [] ++ [e]))

/-- `candidates`. -/
def candidates (r : RunRegistry) (policy : RunRetentionPolicy) (now : Nat) : List RetirementCandidate :=
  let sorted : List RunKey × KeyMap String (List (RunKey × Nat)) :=
    r.delivered.entries.foldl (r.sortOut policy now) ([], .empty)
  let retire : List RunKey := match policy.maxTerminalRunsPerSession with
    | some maximum => sorted.1 ++ List.flatMap (fun s => excess maximum s.2) sorted.2.entries
    | none => sorted.1
  retire.filterMap fun key => (r.live.get? key).map fun run => ⟨key, run⟩

/-- `retire`. -/
def retire (r : RunRegistry) (c : RetirementCandidate) : Bool × RunRegistry :=
  if r.live.get? c.key == some c.run then
    (true, {
      live := r.live.erase c.key
      expired := r.expired.insert c.key c.run.owner
      delivered := r.delivered.erase c.key })
  else (false, r)

end RunRegistry

/-- The registry with the tasks that use it. -/
structure RunTable where
  registry : RunRegistry := {}
  /-- The addresses given so far are below it. -/
  nextAddress : Nat := 0
  /-- The runs that `handle_start_turn` has inserted and that are not started yet. -/
  starting : List RunRef := []
  /-- The runs whose terminal event is not delivered yet. -/
  running : List RunRef := []
  /-- The runs whose terminal event was delivered, and when `delivered` was called for it. -/
  ended : List (RunRef × Nat) := []
  /-- The candidates of the worker's sweeps. -/
  swept : List RetirementCandidate := []
  now : Nat := 0

namespace RunTable

inductive Step : RunTable → RunTable → Prop
  /-- A new start: its identity is neither taken nor expired for its owner. -/
  | insert {s : RunTable} {run : RunRef} (address : run.address = s.nextAddress)
      (unexpired : s.registry.isExpired run.key run.owner = false)
      (free : s.registry.live.get? run.key = none) :
      Step s { s with
        registry := { s.registry with live := s.registry.live.insert run.key run }
        nextAddress := s.nextAddress + 1
        starting := run :: s.starting }
  /-- The start succeeds. -/
  | started {s : RunTable} {run : RunRef} (starting : run ∈ s.starting) :
      Step s { s with starting := s.starting.erase run, running := run :: s.running }
  /-- The start fails: `runs.remove(&key)`. -/
  | fail {s : RunTable} {run : RunRef} (starting : run ∈ s.starting) :
      Step s { s with
        registry := { s.registry with live := s.registry.live.erase run.key }
        starting := s.starting.erase run }
  /-- The terminal event of a run was delivered, whatever has become of its session. -/
  | deliver {s : RunTable} {run : RunRef} (running : run ∈ s.running) :
      Step s { s with
        registry := s.registry.deliver run s.now
        running := s.running.erase run
        ended := (run, s.now) :: s.ended }
  /-- The run is left without a delivery. -/
  | drop {s : RunTable} {run : RunRef} (running : run ∈ s.running) :
      Step s { s with running := s.running.erase run }
  | removeSession {s : RunTable} {thread owner : String}
      (settled : ∀ run ∈ s.starting, ¬ (run.threadId = thread ∧ run.owner = owner)) :
      Step s { s with registry := s.registry.removeSession thread owner }
  /-- The worker collects the candidates of a policy. -/
  | sweep {s : RunTable} (policy : RunRetentionPolicy) :
      Step s { s with swept := s.registry.candidates policy s.now ++ s.swept }
  /-- It retires one of them, however long ago it was collected. -/
  | retire {s : RunTable} {c : RetirementCandidate} (swept : c ∈ s.swept) :
      Step s { s with registry := (s.registry.retire c).2 }
  | tick {s : RunTable} (elapsed : Nat) : Step s { s with now := s.now + elapsed }

end RunTable

end Whale.Retirement
