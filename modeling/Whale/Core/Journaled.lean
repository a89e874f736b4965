import Whale.Core.Engine
import Whale.Store.Runtime

/-!
# A turn and the record of its journal

The engine's turn together with the durable record its journal writes. A step of the turn that commits
waits for `SessionRecord::mutate` on the record and takes the item of its receipt; every other step
leaves the record alone. The journal has no other writer while the turn runs.
-/

namespace Whale

/-- A turn with the record its journal writes. -/
structure Journaled where
  turn : Turn
  record : SessionRecord

namespace Journaled

/-- One step of the turn, with the commit it makes. -/
inductive Step [External] [RequestSerde] [ToolJson] (g : Engine) :
    Journaled → TurnEffect → Journaled → Prop
  | quiet {j : Journaled} {e : TurnEffect} {t : Turn} (step : Turn.Step g j.turn e t)
      (commit : e.commit = none) : Step g j e { j with turn := t }
  | commit {j : Journaled} {e : TurnEffect} {t : Turn} {op : RunMutation}
      {receipt : Option CanonicalItem} {r : SessionRecord} (inp : Inputs) (revision : Nat)
      (step : Turn.Step g j.turn e t) (commit : e.commit = some (op, receipt))
      (accepted : j.record.mutate g.context.turnId op inp.fresh = .ok (receipt, r)) :
      Step g j e ⟨t, written r inp revision⟩

/-- A turn over a session whose journal has just accepted it: the record holds the run with its
inputs, and both were configured with the same limits. -/
structure Begun [External] [RequestSerde] (g : Engine) (session : ThreadSession)
    (r : SessionRecord) : Prop where
  journal : g.coordinator.journalled = true
  run : ∃ run, r.runs.get? g.context.turnId = some run ∧
    run.snapshot.status.isTerminal = false ∧ run.modelInputs = [] ∧ run.calls = []
  history : r.history = session.history ++ g.inputs
  limits : r.sessionLimits "" = .ok session.limits
  /-- Step ids are UUIDs drawn for each step. -/
  named : ∀ step, g.stepId step ≠ ""
  distinct : ∀ m n, m < n → n < g.maxSteps → g.stepId m ≠ g.stepId n
  /-- A request is a struct. -/
  object : ∀ request value, RequestSerde.value request = .ok value → value.isObject = true

end Journaled

end Whale
