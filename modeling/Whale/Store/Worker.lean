import Whale.Store.Writers

/-!
# The journal worker over a faulty backend

The worker loop of `SessionJournal::spawn` as a function of the backend's behaviour. For each command
the backend may fail the load or answer that there is no record, and may fail the exchange before or
after its effect. `Worker.run` serves a sequence of commands and keeps, for each, the reply and the
backend calls made for it.
-/

namespace Whale

open Check

/-- A command as the worker takes it from its channel. -/
structure Command where
  action : Action
  inputs : Inputs

/-- What `load` does. -/
inductive LoadBehaviour where
  | honest
  | missing
  | fails (e : StoreError)

/-- What `compare_exchange` does. -/
inductive ExchangeBehaviour where
  | honest
  | failsBefore (e : StoreError)
  /-- The acknowledgement of an exchange that took effect is lost. -/
  | failsAfter (e : StoreError)

/-- The backend's behaviour for one command. -/
structure Behaviour where
  load : LoadBehaviour := .honest
  exchange : ExchangeBehaviour := .honest

/-- The result of a load. -/
def LoadBehaviour.result (b : LoadBehaviour) (stored : Option SessionRecord) :
    Except StoreError (Option SessionRecord) :=
  match b with
  | honest => .ok stored
  | missing => .ok none
  | fails e => .error e

/-- A call the worker made to its backend, with the result it saw. -/
inductive BackendCall where
  | load (result : Except StoreError (Option SessionRecord))
  | exchange (expected : Nat) (new : SessionRecord) (result : Except StoreError Unit)

/-- The load failed or was empty, or the exchange failed. -/
def BackendCall.failed : BackendCall → Bool
  | load (.ok (some _)) => false
  | load _ => true
  | exchange _ _ (.ok ()) => false
  | exchange _ _ (.error _) => true

/-- The reply to a command and the backend calls made for it. -/
structure Served where
  reply : Except StoreError Response
  calls : List BackendCall

/-- The worker's own state and the records of its backend. -/
structure Worker where
  poison : Option String
  records : Records

section
variable [External]

/-- The result of an exchange and the records it leaves. -/
def ExchangeBehaviour.perform (b : ExchangeBehaviour) (s : Records) (id : String) (expected : Nat)
    (new : SessionRecord) : Except StoreError Unit × Records :=
  match b with
  | failsBefore e => (.error e, s)
  | honest =>
    match s.compareExchange id expected new with
    | .ok s' => (.ok (), s')
    | .error e => (.error e, s)
  | failsAfter e =>
    match s.compareExchange id expected new with
    | .ok s' => (.error e, s')
    | .error e' => (.error e', s)

/-- One pass of the worker loop. -/
def Worker.serve (l : Lease) (w : Worker) (c : Command) (b : Behaviour) : Worker × Served :=
  match w.poison with
  | some cause => (w, ⟨.error (.poisoned cause), []⟩)
  | none =>
    let loaded := b.load.result (w.records.get? l.id)
    match afterLoad l c.inputs c.action loaded with
    | .answer reply poison => (⟨poison, w.records⟩, ⟨reply, [.load loaded]⟩)
    | .exchange expected new response =>
      let performed := b.exchange.perform w.records l.id expected new
      let answered := afterExchange new response performed.1
      (⟨answered.2, performed.2⟩,
        ⟨answered.1, [.load loaded, .exchange expected new performed.1]⟩)

/-- The worker loop over a sequence of commands. -/
def Worker.run (l : Lease) : Worker → List (Command × Behaviour) → Worker × List Served
  | w, [] => (w, [])
  | w, (c, b) :: rest =>
    let next := w.serve l c b
    let final := Worker.run l next.1 rest
    (final.1, next.2 :: final.2)

/-- The record a command leaves: what `apply` makes of it, touched and one revision on. `Record` and
a refused command leave it as it is. -/
def Command.applied (r : SessionRecord) (c : Command) : SessionRecord :=
  match c.action with
  | .record => r
  | action =>
    match apply r c.inputs action with
    | .ok (_, r') => written r' c.inputs (r.revision + 1)
    | .error _ => r

/-- The commands that were acknowledged as successful. -/
def acknowledged (cs : List (Command × Behaviour)) (served : List Served) : List Command :=
  (cs.zip served).filterMap fun p => if p.2.reply.isOk then some p.1.1 else none

end

end Whale
