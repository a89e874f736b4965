import Whale.Store.Writers

/-!
# The store under concurrent calls

Any number of calls share one store. Each load and each exchange is atomic, and between the two of
one call any steps of others may happen: old journals stay alive after `attach`, and `attach`,
`forget`, `retire_detached` and `open` run beside them. A call that is dropped between its load and
its exchange, or whose exchange is refused, leaves the store as it is. The relation is wider than
the code where that costs nothing: a journal may have several commands between load and exchange, and
may go on after a refused exchange.
-/

namespace Whale

open Check

/-- A call between its load of `base` and its exchange. -/
structure Pending where
  writer : Writer
  base : SessionRecord
  submission : Submission

/-- The stored records, the leases of the journals spawned so far and the calls under way. -/
structure SharedStore where
  records : Records
  journals : List Lease
  pending : List Pending

inductive Event where
  | create (r : SessionRecord)
  | load (p : Pending)
  | exchange (p : Pending)
  | abandon (p : Pending)

/-- A journal command comes from a journal that was spawned. -/
def Writer.spawned (journals : List Lease) : Writer → Prop
  | .journal lease _ _ => lease ∈ journals
  | _ => True

/-- The journals an accepted exchange spawns. -/
def Pending.spawns (p : Pending) : List Lease :=
  match p.writer with
  | .attach .. => [Lease.of p.submission.new]
  | _ => []

namespace SharedStore

section
variable [External]

/-- One step. `open` lists the records and exchanges each under its own id, which is the id it is
stored under. -/
inductive Step : SharedStore → Event → SharedStore → Prop
  | create {s : SharedStore} {key : RecoveryKey} {configuration : Value} {owner thread : String}
      {now : Nat} {r : SessionRecord} {records : Records}
      (built : newRecord key configuration owner thread now = .ok r)
      (stored : s.records.create r = .ok records) :
      Step s (.create r) { s with records, journals := Lease.of r :: s.journals }
  | load {s : SharedStore} {w : Writer} {base : SessionRecord} {submission : Submission}
      (spawned : w.spawned s.journals) (loaded : s.records.get? w.target = some base)
      (submitted : w.submit base = some submission) :
      Step s (.load ⟨w, base, submission⟩)
        { s with pending := ⟨w, base, submission⟩ :: s.pending }
  | exchange {s : SharedStore} {p : Pending} {before after : List Pending} {records : Records}
      (under : s.pending = before ++ p :: after)
      (stored : s.records.compareExchange p.writer.target p.submission.expected p.submission.new =
        .ok records) :
      Step s (.exchange p) ⟨records, p.spawns ++ s.journals, before ++ after⟩
  | abandon {s : SharedStore} {p : Pending} {before after : List Pending}
      (under : s.pending = before ++ p :: after) :
      Step s (.abandon p) { s with pending := before ++ after }

/-- A store as a process finds it: valid records, each under its own id, and no call under way. -/
structure Initial (s : SharedStore) : Prop where
  keyed : ∀ id r, s.records.get? id = some r → r.recoveryId = id
  valid : ∀ id r, s.records.get? id = some r → r.validate = .ok ()
  journals : s.journals = []
  pending : s.pending = []

end

end SharedStore

end Whale
