import Whale.Lib.Lines
import Whale.Lib.Run

/-!
# Frame writers

`whale-daemon/src/transport.rs`: `FrameWriter`, which both sides of a connection write their lines with. A send puts
its frame into a bounded queue and waits for the acknowledgement; one actor takes the frames and writes them. The
future of a send can be dropped at any await, the writer can be closed at any time, and the I/O can fail at any byte.

A send is known by its index. `order` is not in the source: the sends in the order in which their frames entered the
queue.
-/

namespace Whale

namespace FrameWriter

/-- A byte of the line, and the end of it. -/
def newline : UInt8 := 10

/-- The capacity of the queue. -/
def capacity : Nat := 128

/-- How far `send_line` has got. -/
inductive SendStage where
  /-- Before its look at `shutdown`. -/
  | started
  /-- In `queue.send`. -/
  | queueing
  /-- In `result.await`. -/
  | queued
  | returned (ok : Bool)
  /-- The future was dropped. -/
  | dropped
  deriving DecidableEq, Repr

/-- The acknowledgement of a frame, once it is in the queue: none, a result, or a sender that was dropped. -/
inductive Ack where
  | pending
  | result (ok : Bool)
  | dropped
  deriving DecidableEq, Repr

/-- What `result.await` makes of it. -/
def Ack.read : Ack → Option Bool
  | pending => none
  | result ok => some ok
  | dropped => some false

/-- A call of `send_line`. -/
structure Send where
  line : List UInt8
  stage : SendStage := .started
  ack : Ack := .pending
  deriving DecidableEq, Repr

/-- The frame of a line. -/
def Send.frame (s : Send) : List UInt8 := s.line ++ [newline]

/-- Whether the future of a send is alive, and with it the writer that it borrows. -/
def SendStage.active : SendStage → Bool
  | started | queueing | queued => true
  | returned _ | dropped => false

/-- The task of the writer. -/
inductive Actor where
  /-- In `frames.recv`. -/
  | idle
  /-- In `write_all` with what is left of a frame, or in `flush`. -/
  | writing (send : Nat) (rest : List UInt8)
  | ended
  deriving DecidableEq, Repr

end FrameWriter

/-- `FrameWriter` with its sends, and what is on the wire. -/
structure FrameWriter where
  shutdown : Bool := false
  /-- Whether every clone of the writer was dropped. -/
  released : Bool := false
  queue : List Nat := []
  actor : FrameWriter.Actor := .idle
  sends : List FrameWriter.Send := []
  wire : List UInt8 := []
  order : List Nat := []

namespace FrameWriter

def put (w : FrameWriter) (i : Nat) (s : Send) : FrameWriter := { w with sends := w.sends.set i s }

/-- The frames of the queue are dropped, and so are their acknowledgements. -/
def dropAcks (lost : List Nat) (sends : List Send) : List Send :=
  sends.mapIdx fun i s => if i ∈ lost && s.ack == .pending then { s with ack := .dropped } else s

/-- The actor ends, with the frame that it has in hand and the queue. -/
def finish (w : FrameWriter) : FrameWriter :=
  let inHand := match w.actor with
    | .writing i _ => [i]
    | _ => []
  { w with actor := .ended, queue := [], sends := dropAcks (inHand ++ w.queue) w.sends }

/-- One step. The label is the line of a new send. -/
inductive Step : FrameWriter → Option (List UInt8) → FrameWriter → Prop
  | send {w : FrameWriter} (line : List UInt8) (held : w.released = false) :
      Step w (some line) { w with sends := w.sends ++ [{ line }] }
  | refuse {w : FrameWriter} {i : Nat} {s : Send} (call : w.sends[i]? = some s) (stage : s.stage = .started)
      (down : w.shutdown = true) : Step w none (w.put i { s with stage := .returned false })
  | pass {w : FrameWriter} {i : Nat} {s : Send} (call : w.sends[i]? = some s) (stage : s.stage = .started)
      (up : w.shutdown = false) : Step w none (w.put i { s with stage := .queueing })
  | enqueue {w : FrameWriter} {i : Nat} {s : Send} (call : w.sends[i]? = some s) (stage : s.stage = .queueing)
      (alive : w.actor ≠ .ended) (room : w.queue.length < capacity) :
      Step w none { w.put i { s with stage := .queued } with queue := w.queue ++ [i], order := w.order ++ [i] }
  | gone {w : FrameWriter} {i : Nat} {s : Send} (call : w.sends[i]? = some s) (stage : s.stage = .queueing)
      (ended : w.actor = .ended) : Step w none (w.put i { s with stage := .returned false })
  | acknowledged {w : FrameWriter} {i : Nat} {s : Send} {ok : Bool} (call : w.sends[i]? = some s)
      (stage : s.stage = .queued) (ack : s.ack.read = some ok) :
      Step w none (w.put i { s with stage := .returned ok })
  | drop {w : FrameWriter} {i : Nat} {s : Send} (call : w.sends[i]? = some s) (active : s.stage.active = true) :
      Step w none (w.put i { s with stage := .dropped })
  | receive {w : FrameWriter} {i : Nat} {s : Send} {rest : List Nat} (idle : w.actor = .idle)
      (queue : w.queue = i :: rest) (call : w.sends[i]? = some s) :
      Step w none { w with actor := .writing i s.frame, queue := rest }
  /-- A part of the frame is written. -/
  | write {w : FrameWriter} {i : Nat} {bytes rest : List UInt8} (writing : w.actor = .writing i (bytes ++ rest)) :
      Step w none { w with actor := .writing i rest, wire := w.wire ++ bytes }
  | flush {w : FrameWriter} {i : Nat} {s : Send} (writing : w.actor = .writing i []) (call : w.sends[i]? = some s) :
      Step w none { w.put i { s with ack := .result true } with actor := .idle }
  /-- The I/O fails: the send is told, and the actor breaks. -/
  | fail {w : FrameWriter} {i : Nat} {s : Send} {rest : List UInt8} (writing : w.actor = .writing i rest)
      (call : w.sends[i]? = some s) : Step w none (w.put i { s with ack := .result false }).finish
  /-- `closing.changed()`: a close, or no writer any more. -/
  | stop {w : FrameWriter} (alive : w.actor ≠ .ended) (closing : w.shutdown = true ∨ w.released = true) :
      Step w none w.finish
  | close {w : FrameWriter} : Step w none { w with shutdown := true }
  | release {w : FrameWriter} (unused : ∀ s ∈ w.sends, s.stage.active = false) :
      Step w none { w with released := true }

/-- The complete lines that the other end has read, and the bytes after them. -/
def read (w : FrameWriter) : List (List UInt8) × List UInt8 := Lines.read newline w.wire

end FrameWriter

end Whale
