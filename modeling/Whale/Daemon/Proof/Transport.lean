import Mathlib.Data.List.Nodup
import Whale.Daemon.Transport
import Whale.Lib.Slots

/-!
# No frame is torn

`FrameWriter.Inv`: what is on the wire are the frames of the first sends of `order`, and the start of the next one.
What the other end reads follows by
`Lines.read_lines`.
-/

namespace Whale.FrameWriter

/-! ## The invariant -/

/-- The line of a send. -/
def line (w : FrameWriter) (i : Nat) : List UInt8 := ((w.sends[i]?).map (·.line)).getD []

/-- The frame of a send. -/
def frame (w : FrameWriter) (i : Nat) : List UInt8 := w.line i ++ [newline]

theorem line_of_get {w : FrameWriter} {i : Nat} {s : Send} (h : w.sends[i]? = some s) : w.line i = s.line := by
  rw [line, h]
  rfl

theorem frame_of_get {w : FrameWriter} {i : Nat} {s : Send} (h : w.sends[i]? = some s) : w.frame i = s.frame := by
  rw [frame, line_of_get h, Send.frame]

theorem Ack.read_true {a : Ack} (h : a.read = some true) : a = .result true := by
  cases a with
  | pending => cases h
  | result ok => exact congrArg Ack.result (Option.some.inj h)
  | dropped => cases h

/-- Whether a frame is not in the queue yet, and may get there. -/
def SendStage.early : SendStage → Bool
  | started | queueing => true
  | _ => false

/-- What the actor has written of the frames that are not done. -/
def Holds (w : FrameWriter) (part : List UInt8) (pending : List Nat) : Actor → Prop
  | .idle => pending = w.queue ∧ part = []
  | .writing i rest => pending = i :: w.queue ∧ part ++ rest = w.frame i
  | .ended => part = [] ∨ ∃ i later, pending = i :: later ∧ part <+: w.frame i

/-- The frames of `finished` are on the wire, then `part` of the next one; those of `pending` are not done. -/
structure Inv (w : FrameWriter) (finished : List Nat) (part : List UInt8) (pending : List Nat) : Prop where
  order : w.order = finished ++ pending
  wire : w.wire = finished.flatMap w.frame ++ part
  actor : w.Holds part pending w.actor
  nodup : w.order.Nodup
  entered : ∀ i ∈ w.order, ∃ s, w.sends[i]? = some s ∧ s.stage.early = false
  queued : ∀ {i : Nat} {s : Send}, w.sends[i]? = some s → s.stage = .queued ∨ s.ack = .result true → i ∈ w.order
  told : ∀ {i : Nat} {s : Send}, w.sends[i]? = some s → s.ack = .result true → i ∈ finished
  returned : ∀ {i : Nat} {s : Send}, w.sends[i]? = some s → s.stage = .returned true → s.ack = .result true
  plain : ∀ {s : Send}, s ∈ w.sends → newline ∉ s.line

theorem get_of_dropAcks {lost : List Nat} {sends : List Send} {i : Nat} {t : Send}
    (h : (dropAcks lost sends)[i]? = some t) : ∃ s, sends[i]? = some s ∧
      t.line = s.line ∧ t.stage = s.stage ∧ (t.ack = .result true ↔ s.ack = .result true) := by
  rw [dropAcks, List.getElem?_mapIdx] at h
  obtain ⟨s, hs, rfl⟩ := Option.map_eq_some_iff.mp h
  refine ⟨s, hs, ?_⟩
  split
  · next hlost =>
    simp only [Bool.and_eq_true, beq_iff_eq] at hlost
    simp [hlost.2]
  · simp

theorem dropAcks_get {lost : List Nat} {sends : List Send} {i : Nat} {s : Send} (h : sends[i]? = some s) :
    ∃ t, (dropAcks lost sends)[i]? = some t ∧ t.line = s.line ∧ t.stage = s.stage := by
  rw [dropAcks, List.getElem?_mapIdx, h]
  refine ⟨_, rfl, ?_⟩
  dsimp only
  split <;> exact ⟨rfl, rfl⟩

theorem holds_of_frame {w w' : FrameWriter} {part : List UInt8} {pending : List Nat} {a : Actor}
    (hqueue : w'.queue = w.queue) (hframe : ∀ i ∈ pending, w'.frame i = w.frame i) (h : w.Holds part pending a) :
    w'.Holds part pending a := by
  cases a with
  | idle => exact ⟨h.1.trans hqueue.symm, h.2⟩
  | writing i rest =>
    refine ⟨hqueue ▸ h.1, ?_⟩
    rw [hframe i (h.1 ▸ List.mem_cons_self)]
    exact h.2
  | ended =>
    obtain h | ⟨i, later, hp, hpart⟩ := h
    · exact .inl h
    · refine .inr ⟨i, later, hp, ?_⟩
      rw [hframe i (hp ▸ List.mem_cons_self)]
      exact hpart

namespace Inv

variable {w w' : FrameWriter} {finished pending : List Nat} {part : List UInt8}

theorem finished_order (h : Inv w finished part pending) {i : Nat} (hi : i ∈ finished) : i ∈ w.order :=
  h.order ▸ List.mem_append_left _ hi

theorem pending_order (h : Inv w finished part pending) {i : Nat} (hi : i ∈ pending) : i ∈ w.order :=
  h.order ▸ List.mem_append_right _ hi

/-- Steps that change no line and no place in the order. -/
theorem same (h : Inv w finished part pending) (hwire : w'.wire = w.wire) (horder : w'.order = w.order)
    (hqueue : w'.queue = w.queue) (hactor : w'.actor = w.actor)
    (hnew : ∀ {i : Nat} {s : Send}, w.sends[i]? = some s → ∃ s', w'.sends[i]? = some s' ∧ s'.line = s.line ∧
      (s.stage.early = false → s'.stage.early = false))
    (hold : ∀ {i : Nat} {s' : Send}, w'.sends[i]? = some s' → newline ∉ s'.line ∧
      (s'.stage = .queued ∨ s'.ack = .result true → i ∈ w.order) ∧ (s'.ack = .result true → i ∈ finished) ∧
      (s'.stage = .returned true → s'.ack = .result true)) : Inv w' finished part pending := by
  have hframe : ∀ i ∈ w.order, w'.frame i = w.frame i := by
    intro i hi
    obtain ⟨s, hs, -⟩ := h.entered i hi
    obtain ⟨s', hs', hline, -⟩ := hnew hs
    rw [frame_of_get hs', frame_of_get hs, Send.frame, Send.frame, hline]
  constructor
  case order => rw [horder, h.order]
  case wire =>
    rw [hwire, h.wire]
    exact congrArg (· ++ part) (List.flatMap_congr fun i hi => (hframe i (h.finished_order hi)).symm)
  case actor =>
    rw [hactor]
    exact holds_of_frame hqueue (fun i hi => hframe i (h.pending_order hi)) h.actor
  case nodup => rw [horder]; exact h.nodup
  case entered =>
    intro i hi
    obtain ⟨s, hs, hearly⟩ := h.entered i (horder ▸ hi)
    obtain ⟨s', hs', -, hkeep⟩ := hnew hs
    exact ⟨s', hs', hkeep hearly⟩
  case queued =>
    intro i s' hs' hq
    rw [horder]
    exact (hold hs').2.1 hq
  case told => exact fun hs' => (hold hs').2.2.1
  case returned => exact fun hs' => (hold hs').2.2.2
  case plain =>
    intro s hs
    obtain ⟨i, hi⟩ := List.mem_iff_getElem?.mp hs
    exact (hold hi).1

/-- A send whose future changed; its frame stays where it is. -/
theorem touch {i : Nat} {s s' : Send} (h : Inv w finished part pending) (hs : w.sends[i]? = some s)
    (hline : s'.line = s.line) (hack : s'.ack = s.ack) (hearly : s.stage.early = false → s'.stage.early = false)
    (hqueued : s'.stage = .queued → s.stage = .queued) (hok : s'.stage = .returned true → s.ack = .result true) :
    Inv (w.put i s') finished part pending := by
  refine h.same rfl rfl rfl rfl ?_ ?_
  · intro j t ht
    by_cases hj : j = i
    · subst hj
      obtain rfl := Option.some.inj (hs.symm.trans ht)
      exact ⟨s', (Slots.get_set_iff hs).mpr (.inl ⟨rfl, rfl⟩), hline, hearly⟩
    · exact ⟨t, (Slots.get_set_iff hs).mpr (.inr ⟨hj, ht⟩), rfl, id⟩
  · intro j t ht
    obtain ⟨rfl, rfl⟩ | ⟨-, ht⟩ := (Slots.get_set_iff hs).mp ht
    · rw [hline, hack]
      refine ⟨h.plain (List.mem_of_getElem? hs), fun hq => ?_, h.told hs, hok⟩
      exact h.queued hs (hq.imp_left hqueued)
    · exact ⟨h.plain (List.mem_of_getElem? ht), h.queued ht, h.told ht, h.returned ht⟩

theorem sent {bytes : List UInt8} (h : Inv w finished part pending) (hplain : newline ∉ bytes) :
    Inv { w with sends := w.sends ++ [{ line := bytes }] } finished part pending := by
  refine h.same rfl rfl rfl rfl ?_ ?_
  · intro i s hs
    exact ⟨s, Slots.get_concat_iff.mpr (.inl hs), rfl, id⟩
  · intro i s hs
    obtain hs | ⟨-, rfl⟩ := Slots.get_concat_iff.mp hs
    · exact ⟨h.plain (List.mem_of_getElem? hs), h.queued hs, h.told hs, h.returned hs⟩
    · exact ⟨hplain, fun hq => hq.elim nofun nofun, nofun, nofun⟩

/-- The frame goes behind the others. -/
theorem enqueued {i : Nat} {s : Send} (h : Inv w finished part pending) (hs : w.sends[i]? = some s)
    (hstage : s.stage = .queueing) (halive : w.actor ≠ .ended) :
    Inv { w.put i { s with stage := .queued } with queue := w.queue ++ [i], order := w.order ++ [i] }
      finished part (pending ++ [i]) := by
  have hget : ∀ {j : Nat} {t : Send}, (w.put i { s with stage := .queued }).sends[j]? = some t →
      j = i ∧ t = { s with stage := .queued } ∨ j ≠ i ∧ w.sends[j]? = some t := (Slots.get_set_iff hs).mp
  have hset : (w.put i { s with stage := .queued }).sends[i]? = some { s with stage := .queued } :=
    (Slots.get_set_iff hs).mpr (.inl ⟨rfl, rfl⟩)
  have hfresh : i ∉ w.order := by
    intro hi
    obtain ⟨t, ht, hearly⟩ := h.entered i hi
    obtain rfl := Option.some.inj (hs.symm.trans ht)
    rw [hstage] at hearly
    cases hearly
  have hframe : ∀ j, (w.put i { s with stage := .queued }).frame j = w.frame j := by
    intro j
    by_cases hj : j = i
    · subst hj
      rw [frame_of_get hset, frame_of_get hs]
      rfl
    · simp only [frame, line, put, List.getElem?_set_ne (Ne.symm hj)]
  have hframe' : ({ w.put i { s with stage := .queued } with
      queue := w.queue ++ [i], order := w.order ++ [i] } : FrameWriter).frame = w.frame := funext hframe
  constructor
  case order => exact (congrArg (· ++ [i]) h.order).trans (List.append_assoc ..)
  case wire =>
    rw [hframe']
    exact h.wire
  case actor =>
    have ha := h.actor
    show Holds _ part (pending ++ [i]) w.actor
    cases hactor : w.actor with
    | ended => exact absurd hactor halive
    | idle =>
      rw [hactor] at ha
      exact ⟨congrArg (· ++ [i]) ha.1, ha.2⟩
    | writing j rest =>
      rw [hactor] at ha
      refine ⟨congrArg (· ++ [i]) ha.1, ?_⟩
      rw [hframe']
      exact ha.2
  case nodup => exact List.Nodup.append h.nodup (List.nodup_singleton i) (List.disjoint_singleton.mpr hfresh)
  case entered =>
    intro j hj
    obtain hj | hj := List.mem_append.mp hj
    · obtain ⟨t, ht, hearly⟩ := h.entered j hj
      have hne : j ≠ i := fun he => hfresh (he ▸ hj)
      exact ⟨t, (Slots.get_set_iff hs).mpr (.inr ⟨hne, ht⟩), hearly⟩
    · obtain rfl := List.mem_singleton.mp hj
      exact ⟨_, hset, rfl⟩
  case queued =>
    intro j t ht hq
    obtain ⟨rfl, -⟩ | ⟨-, ht⟩ := hget ht
    · exact List.mem_append_right _ List.mem_cons_self
    · exact List.mem_append_left _ (h.queued ht hq)
  case told =>
    intro j t ht hack
    obtain ⟨rfl, rfl⟩ | ⟨-, ht⟩ := hget ht
    · exact h.told hs hack
    · exact h.told ht hack
  case returned =>
    intro j t ht hok
    obtain ⟨rfl, rfl⟩ | ⟨-, ht⟩ := hget ht
    · cases hok
    · exact h.returned ht hok
  case plain =>
    intro t ht
    obtain ⟨j, hj⟩ := List.mem_iff_getElem?.mp ht
    obtain ⟨rfl, rfl⟩ | ⟨-, hj⟩ := hget hj
    · have hp := h.plain (List.mem_of_getElem? hs)
      exact hp
    · exact h.plain (List.mem_of_getElem? hj)

/-- The actor takes the first frame of the queue. -/
theorem received {i : Nat} {s : Send} {rest : List Nat} (h : Inv w finished part pending) (hidle : w.actor = .idle)
    (hqueue : w.queue = i :: rest) (hs : w.sends[i]? = some s) :
    Inv { w with actor := .writing i s.frame, queue := rest } finished part pending := by
  obtain ⟨hpending, rfl⟩ : pending = w.queue ∧ part = [] := by
    have ha := h.actor
    rw [hidle] at ha
    exact ha
  exact { h with actor := ⟨hpending.trans hqueue, (frame_of_get hs).symm⟩ }

/-- A part of the frame is written. -/
theorem wrote {i : Nat} {bytes rest : List UInt8} (h : Inv w finished part pending)
    (hwriting : w.actor = .writing i (bytes ++ rest)) :
    Inv { w with actor := .writing i rest, wire := w.wire ++ bytes } finished (part ++ bytes) pending := by
  have ha := h.actor
  rw [hwriting] at ha
  refine { h with wire := ?_, actor := ⟨ha.1, ?_⟩ }
  · show w.wire ++ bytes = _
    rw [h.wire, List.append_assoc]
    rfl
  · rw [List.append_assoc]
    exact ha.2

/-- The frame in hand is written, and its send is told. -/
theorem flushed {i : Nat} {s : Send} (h : Inv w finished part pending) (hwriting : w.actor = .writing i [])
    (hs : w.sends[i]? = some s) :
    ∃ later, pending = i :: later ∧
      Inv { w.put i { s with ack := .result true } with actor := .idle } (finished ++ [i]) [] later := by
  have ha := h.actor
  rw [hwriting] at ha
  obtain ⟨rfl, hpart⟩ := ha
  rw [List.append_nil] at hpart
  refine ⟨w.queue, rfl, ?_⟩
  have hframe : ({ w.put i { s with ack := .result true } with actor := .idle } : FrameWriter).frame = w.frame := by
    funext j
    by_cases hj : j = i
    · subst hj
      rw [frame_of_get hs, frame_of_get (s := { s with ack := .result true })
        ((Slots.get_set_iff hs).mpr (.inl ⟨rfl, rfl⟩))]
      rfl
    · simp only [frame, line, put, List.getElem?_set_ne (Ne.symm hj)]
  have hi : i ∈ w.order := h.pending_order List.mem_cons_self
  have hget : ∀ {j : Nat} {t : Send}, (w.put i { s with ack := .result true }).sends[j]? = some t →
      j = i ∧ t = { s with ack := .result true } ∨ j ≠ i ∧ w.sends[j]? = some t := (Slots.get_set_iff hs).mp
  constructor
  case order =>
    rw [List.append_assoc]
    exact h.order
  case wire =>
    rw [hframe, List.flatMap_append, List.flatMap_singleton, List.append_nil, ← hpart]
    exact h.wire
  case actor => exact ⟨rfl, rfl⟩
  case nodup => exact h.nodup
  case entered =>
    intro j hj
    obtain ⟨t, ht, hearly⟩ := h.entered j hj
    by_cases hji : j = i
    · subst hji
      obtain rfl := Option.some.inj (hs.symm.trans ht)
      exact ⟨_, (Slots.get_set_iff hs).mpr (.inl ⟨rfl, rfl⟩), hearly⟩
    · exact ⟨t, (Slots.get_set_iff hs).mpr (.inr ⟨hji, ht⟩), hearly⟩
  case queued =>
    intro j t ht hq
    obtain ⟨rfl, -⟩ | ⟨-, ht⟩ := hget ht
    · exact hi
    · exact h.queued ht hq
  case told =>
    intro j t ht hack
    obtain ⟨rfl, -⟩ | ⟨-, ht⟩ := hget ht
    · exact List.mem_append_right _ List.mem_cons_self
    · exact List.mem_append_left _ (h.told ht hack)
  case returned =>
    intro j t ht hok
    obtain ⟨rfl, rfl⟩ | ⟨-, ht⟩ := hget ht
    · rfl
    · exact h.returned ht hok
  case plain =>
    intro t ht
    obtain ⟨j, hj⟩ := List.mem_iff_getElem?.mp ht
    obtain ⟨rfl, rfl⟩ | ⟨-, hj⟩ := hget hj
    · have hp := h.plain (List.mem_of_getElem? hs)
      exact hp
    · exact h.plain (List.mem_of_getElem? hj)

/-- The actor ends: what waits for it is told so, and nothing is written any more. -/
theorem finished_actor (h : Inv w finished part pending) : Inv w.finish finished part pending := by
  have hget : ∀ {j : Nat} {t : Send}, w.finish.sends[j]? = some t → ∃ s, w.sends[j]? = some s ∧
      t.line = s.line ∧ t.stage = s.stage ∧ (t.ack = .result true ↔ s.ack = .result true) := get_of_dropAcks
  have hset : ∀ {j : Nat} {s : Send}, w.sends[j]? = some s → ∃ t, w.finish.sends[j]? = some t ∧
      t.line = s.line ∧ t.stage = s.stage := dropAcks_get
  have hframe : ∀ i ∈ w.order, w.finish.frame i = w.frame i := by
    intro i hi
    obtain ⟨s, hs, -⟩ := h.entered i hi
    obtain ⟨t, ht, hline, -⟩ := hset hs
    rw [frame_of_get ht, frame_of_get hs, Send.frame, Send.frame, hline]
  constructor
  case order => exact h.order
  case wire =>
    show w.wire = _
    rw [h.wire]
    exact congrArg (· ++ part) (List.flatMap_congr fun i hi => (hframe i (h.finished_order hi)).symm)
  case actor =>
    have ha := h.actor
    cases hactor : w.actor with
    | idle =>
      rw [hactor] at ha
      exact .inl ha.2
    | writing i rest =>
      rw [hactor] at ha
      refine .inr ⟨i, w.queue, ha.1, rest, ?_⟩
      rw [hframe i (h.pending_order (ha.1 ▸ List.mem_cons_self))]
      exact ha.2
    | ended =>
      rw [hactor] at ha
      obtain ha | ⟨i, later, hp, hpart⟩ := ha
      · exact .inl ha
      · refine .inr ⟨i, later, hp, ?_⟩
        rw [hframe i (h.pending_order (hp ▸ List.mem_cons_self))]
        exact hpart
  case nodup => exact h.nodup
  case entered =>
    intro i hi
    obtain ⟨s, hs, hearly⟩ := h.entered i hi
    obtain ⟨t, ht, -, hstage⟩ := hset hs
    exact ⟨t, ht, hstage ▸ hearly⟩
  case queued =>
    intro i t ht hq
    obtain ⟨s, hs, -, hstage, hack⟩ := hget ht
    exact h.queued hs (by rwa [hstage, hack] at hq)
  case told =>
    intro i t ht hok
    obtain ⟨s, hs, -, -, hack⟩ := hget ht
    exact h.told hs (hack.mp hok)
  case returned =>
    intro i t ht hok
    obtain ⟨s, hs, -, hstage, hack⟩ := hget ht
    exact hack.mpr (h.returned hs (hstage ▸ hok))
  case plain =>
    intro t ht
    obtain ⟨i, hi⟩ := List.mem_iff_getElem?.mp ht
    obtain ⟨s, hs, hline, -⟩ := hget hi
    rw [hline]
    exact h.plain (List.mem_of_getElem? hs)

/-- The I/O failed under the frame in hand. -/
theorem failed {i : Nat} {s : Send} {rest : List UInt8} (h : Inv w finished part pending)
    (hwriting : w.actor = .writing i rest) (hs : w.sends[i]? = some s) :
    Inv (w.put i { s with ack := .result false }).finish finished part pending := by
  have hpending : i ∈ pending := by
    have ha := h.actor
    rw [hwriting] at ha
    exact ha.1 ▸ List.mem_cons_self
  have hnot : s.ack ≠ .result true := by
    intro hok
    have hdisjoint := List.disjoint_of_nodup_append (h.order ▸ h.nodup)
    exact hdisjoint (h.told hs hok) hpending
  have hsame : Inv (w.put i { s with ack := .result false }) finished part pending := by
    refine h.same rfl rfl rfl rfl ?_ ?_
    · intro j t ht
      by_cases hj : j = i
      · subst hj
        obtain rfl := Option.some.inj (hs.symm.trans ht)
        exact ⟨_, (Slots.get_set_iff hs).mpr (.inl ⟨rfl, rfl⟩), rfl, id⟩
      · exact ⟨t, (Slots.get_set_iff hs).mpr (.inr ⟨hj, ht⟩), rfl, id⟩
    · intro j t ht
      obtain ⟨rfl, rfl⟩ | ⟨-, ht⟩ := (Slots.get_set_iff hs).mp ht
      · have hp := h.plain (List.mem_of_getElem? hs)
        refine ⟨hp, fun _ => h.pending_order hpending, nofun, fun hok => ?_⟩
        exact absurd (h.returned hs hok) hnot
      · exact ⟨h.plain (List.mem_of_getElem? ht), h.queued ht, h.told ht, h.returned ht⟩
  exact hsame.finished_actor

/-- One step keeps what is done, and goes on with the order. -/
theorem step {line : Option (List UInt8)} (h : Inv w finished part pending) (hstep : Step w line w')
    (hplain : ∀ bytes, line = some bytes → newline ∉ bytes) :
    ∃ finished' part' pending', Inv w' finished' part' pending' := by
  cases hstep with
  | send bytes => exact ⟨_, _, _, h.sent (hplain bytes rfl)⟩
  | refuse call stage =>
    exact ⟨_, _, _, h.touch call rfl rfl (fun _ => rfl) nofun nofun⟩
  | pass call stage =>
    refine ⟨_, _, _, h.touch call rfl rfl (fun hearly => ?_) nofun nofun⟩
    rw [stage] at hearly
    cases hearly
  | enqueue call stage alive room => exact ⟨_, _, _, h.enqueued call stage alive⟩
  | gone call stage =>
    exact ⟨_, _, _, h.touch call rfl rfl (fun _ => rfl) nofun nofun⟩
  | @acknowledged i s ok call stage ack =>
    refine ⟨_, _, _, h.touch call rfl rfl (fun _ => rfl) nofun fun hok => ?_⟩
    obtain rfl : ok = true := SendStage.returned.inj hok
    exact Ack.read_true ack
  | drop call active => exact ⟨_, _, _, h.touch call rfl rfl (fun _ => rfl) nofun nofun⟩
  | receive idle queue call => exact ⟨_, _, _, h.received idle queue call⟩
  | write writing => exact ⟨_, _, _, h.wrote writing⟩
  | flush writing call =>
    obtain ⟨later, -, h⟩ := h.flushed writing call
    exact ⟨_, _, _, h⟩
  | fail writing call => exact ⟨_, _, _, h.failed writing call⟩
  | stop => exact ⟨_, _, _, h.finished_actor⟩
  | close => exact ⟨_, _, _, { h with }⟩
  | release => exact ⟨_, _, _, { h with }⟩

end Inv

/-! ## Whole runs -/

theorem dropAcks_lines (lost : List Nat) (sends : List Send) :
    (dropAcks lost sends).map (·.line) = sends.map (·.line) := by
  refine List.ext_getElem? fun i => ?_
  rw [List.getElem?_map, dropAcks, List.getElem?_mapIdx, List.getElem?_map, Option.map_map]
  congr 1
  funext s
  dsimp only [Function.comp]
  split <;> rfl

theorem finish_lines (w : FrameWriter) : w.finish.sends.map (·.line) = w.sends.map (·.line) := dropAcks_lines _ _

/-- The lines of the sends are those of the labels. -/
theorem Step.lines {w w' : FrameWriter} {label : Option (List UInt8)} (h : Step w label w') :
    w'.sends.map (·.line) = w.sends.map (·.line) ++ label.toList := by
  have hput : ∀ {i : Nat} {s s' : Send}, w.sends[i]? = some s → s'.line = s.line →
      (w.put i s').sends.map (·.line) = w.sends.map (·.line) ++ [] := by
    intro i s s' hs hline
    rw [List.append_nil]
    exact Slots.map_set hs hline
  cases h with
  | send => simp
  | refuse call | pass call | enqueue call | gone call | acknowledged call | drop call => exact hput call rfl
  | flush writing call => exact hput call rfl
  | fail writing call => exact (finish_lines _).trans (hput call rfl)
  | stop => exact (finish_lines w).trans (List.append_nil _).symm
  | _ => exact (List.append_nil _).symm

theorem Step.prefixes {w w' : FrameWriter} {label : Option (List UInt8)} (h : Step w label w') :
    w.order <+: w'.order ∧ w.wire <+: w'.wire := by
  cases h with
  | enqueue => exact ⟨List.prefix_append _ _, List.prefix_rfl⟩
  | write => exact ⟨List.prefix_rfl, List.prefix_append _ _⟩
  | _ => exact ⟨List.prefix_rfl, List.prefix_rfl⟩

theorem prefixes {w w' : FrameWriter} {labels : List (Option (List UInt8))} (h : Lts.Run Step w labels w') :
    w.order <+: w'.order ∧ w.wire <+: w'.wire :=
  h.rel (fun _ => True) (fun w w' : FrameWriter => w.order <+: w'.order ∧ w.wire <+: w'.wire)
    (fun _ _ _ _ _ => trivial)
    (fun _ => ⟨List.prefix_rfl, List.prefix_rfl⟩)
    (fun _ _ _ h h' => ⟨h.1.trans h'.1, h.2.trans h'.2⟩) (fun _ _ _ _ hs => hs.prefixes) trivial

theorem inv_start : Inv {} [] [] [] where
  order := rfl
  wire := rfl
  actor := ⟨rfl, rfl⟩
  nodup := List.nodup_nil
  entered _ hi := by cases hi
  queued hs := by cases hs
  told hs := by cases hs
  returned hs := by cases hs
  plain hs := by cases hs

/-- In a run whose lines have no newline. -/
theorem inv_of_run {w : FrameWriter} {labels : List (Option (List UInt8))} (h : Lts.Run Step {} labels w)
    (plain : ∀ bytes, some bytes ∈ labels → newline ∉ bytes) :
    w.sends.map (·.line) = labels.filterMap id ∧ ∃ finished part pending, Inv w finished part pending := by
  refine h.traced (fun labels w => (∀ bytes, some bytes ∈ labels → newline ∉ bytes) →
    w.sends.map (·.line) = labels.filterMap id ∧ ∃ finished part pending, Inv w finished part pending)
    ?_ (fun _ => ⟨rfl, _, _, _, inv_start⟩) plain
  intro labels w label w' ih hstep plain
  obtain ⟨hlines, finished, part, pending, hinv⟩ := ih fun bytes hb => plain bytes (List.mem_append_left _ hb)
  refine ⟨?_, hinv.step hstep fun bytes hb => plain bytes (List.mem_append_right _ (hb ▸ List.mem_cons_self))⟩
  rw [hstep.lines, hlines, List.filterMap_append]
  cases label <;> rfl

/-- What the other end reads: the lines of the first sends, and a part of the next one. -/
theorem Inv.read {w : FrameWriter} {finished pending : List Nat} {part : List UInt8}
    (h : Inv w finished part pending) : ∃ k ≤ w.order.length, finished <+: w.order.take k ∧
      w.read.1 = (w.order.take k).map w.line ∧
      (w.read.2 = [] ∨ ∃ i, w.order[k]? = some i ∧ w.read.2 <+: w.line i) ∧
      (w.actor = .idle → w.queue = [] → k = w.order.length ∧ w.read.2 = []) := by
  have hplain : ∀ i, newline ∉ w.line i := by
    intro i
    rw [line]
    cases hs : w.sends[i]? with
    | none => exact List.not_mem_nil
    | some s => exact h.plain (List.mem_of_getElem? hs)
  have hread : ∀ rest, Lines.read newline (finished.flatMap w.frame ++ rest) =
      (finished.map w.line ++ (Lines.read newline rest).1, (Lines.read newline rest).2) := by
    intro rest
    have hall : ∀ line ∈ finished.map w.line, newline ∉ line := by simpa using fun i _ => hplain i
    have hlines := Lines.read_lines rest hall
    rwa [List.flatMap_map] at hlines
  have htake : w.order.take finished.length = finished := by rw [h.order, List.take_left]
  obtain ⟨rfl, hidle⟩ | ⟨i, later, rfl, hpart, hbusy⟩ : part = [] ∧ (w.actor = .idle → pending = w.queue) ∨
      ∃ i later, pending = i :: later ∧ part <+: w.frame i ∧ w.actor ≠ .idle := by
    have ha := h.actor
    cases hactor : w.actor with
    | idle =>
      rw [hactor] at ha
      exact .inl ⟨ha.2, fun _ => ha.1⟩
    | writing i rest =>
      rw [hactor] at ha
      exact .inr ⟨i, w.queue, ha.1, ⟨rest, ha.2⟩, nofun⟩
    | ended =>
      rw [hactor] at ha
      obtain rfl | ⟨i, later, hpending, hpart⟩ := ha
      · exact .inl ⟨rfl, nofun⟩
      · exact .inr ⟨i, later, hpending, hpart, nofun⟩
  · have hr : w.read = (finished.map w.line, []) := by
      rw [FrameWriter.read, h.wire, hread]
      simp [Lines.read]
    refine ⟨finished.length, by simp [h.order], htake.symm ▸ List.prefix_rfl, by rw [hr, htake], .inl (by rw [hr]),
      fun hi hq => ?_⟩
    simp [h.order, hidle hi, hq, hr]
  · have hnext : w.order[finished.length]? = some i := by simp [h.order]
    obtain hpart | hpart := List.prefix_concat_iff.mp hpart
    · -- the next line is complete, and its send not told yet
      have hr : w.read = (finished.map w.line ++ [w.line i], []) := by
        rw [FrameWriter.read, h.wire, hread, hpart, Lines.read_line _ (hplain i)]
        simp [Lines.read]
      have htake' : w.order.take (finished.length + 1) = finished ++ [i] := by
        rw [h.order, List.append_cons, List.take_left' (by simp)]
      refine ⟨finished.length + 1, by simp [h.order], ?_, ?_, .inl (by rw [hr]), fun hi => absurd hi hbusy⟩
      · rw [htake']
        exact List.prefix_append _ _
      · rw [hr, htake', List.map_append]
        rfl
    · have hr : w.read = (finished.map w.line, part) := by
        rw [FrameWriter.read, h.wire, hread, Lines.read_of_not_mem fun hm => hplain i (hpart.subset hm)]
        simp
      refine ⟨finished.length, by simp [h.order], htake.symm ▸ List.prefix_rfl, by rw [hr, htake],
        .inr ⟨i, hnext, ?_⟩, fun hi => absurd hi hbusy⟩
      rw [hr]
      exact hpart

/-- What the other end reads, in every run whose lines have no newline: the lines of the first sends, in the order of
the queue, and a part of the next one. A send that was acknowledged is among those that are read whole; and a send that
waits for its acknowledgement keeps its place, so it is read too when the writer comes to rest, dropped or not. -/
theorem whole_frames {labels labels' : List (Option (List UInt8))} {v w : FrameWriter}
    (run : Lts.Run Step {} labels v) (run' : Lts.Run Step v labels' w)
    (plain : ∀ bytes, some bytes ∈ labels ++ labels' → newline ∉ bytes) :
    w.sends.map (·.line) = (labels ++ labels').filterMap id ∧ w.order.Nodup ∧
      v.order <+: w.order ∧ v.wire <+: w.wire ∧
      (∀ i s, v.sends[i]? = some s → s.stage = .queued → i ∈ v.order) ∧
      ∃ k ≤ w.order.length, w.read.1 = (w.order.take k).map w.line ∧
        (w.read.2 = [] ∨ ∃ i, w.order[k]? = some i ∧ w.read.2 <+: w.line i) ∧
        (∀ i s, w.sends[i]? = some s → s.stage = .returned true → i ∈ w.order.take k) ∧
        (w.actor = .idle → w.queue = [] → k = w.order.length ∧ w.read.2 = []) := by
  obtain ⟨hlines, finished, part, pending, hinv⟩ := inv_of_run (run.append run') plain
  obtain ⟨-, _, _, _, hinv'⟩ := inv_of_run run fun bytes hb => plain bytes (List.mem_append_left _ hb)
  obtain ⟨k, hk, hfinished, hcomplete, hrest, hdone⟩ := hinv.read
  refine ⟨hlines, hinv.nodup, (prefixes run').1, (prefixes run').2, fun i s hs hq => hinv'.queued hs (.inl hq), k, hk,
    hcomplete, hrest, fun i s hs hok => ?_, hdone⟩
  exact hfinished.subset (hinv.told hs (hinv.returned hs hok))

/-- Two sends, of which the first is dropped while it waits: both lines are read. -/
theorem whole_frames_sample : ∃ labels labels' v w, Lts.Run Step {} labels v ∧ Lts.Run Step v labels' w ∧
    v.order <+: w.order ∧ w.read.1 = [[1], [2]] := by
  let v : FrameWriter :=
    { queue := [0], sends := [{ line := [1], stage := .dropped }, { line := [2] }], order := [0] }
  have h1 := ((((Lts.Run.single (Step.send (w := {}) [1] rfl)).snoc (Step.send [2] rfl)).snoc
    (Step.pass (i := 0) rfl rfl rfl)).snoc (Step.enqueue (i := 0) rfl rfl (by decide) (by decide))).snoc
    (Step.drop (i := 0) rfl rfl)
  have h2 := (((((Lts.Run.single (Step.pass (w := v) (i := 1) rfl rfl rfl)).snoc
    (Step.enqueue (i := 1) rfl rfl (by decide) (by decide))).snoc (Step.receive rfl rfl rfl)).snoc
    (@Step.write _ 0 [1, 10] [] rfl)).snoc (Step.flush rfl rfl)).snoc (Step.receive rfl rfl rfl)
  have h3 := (h2.snoc (@Step.write _ 1 [2, 10] [] rfl)).snoc (Step.flush rfl rfl)
  have h := whole_frames h1 h3 (by simp [newline])
  exact ⟨_, _, _, _, h1, h3, h.2.2.1, rfl⟩

end Whale.FrameWriter
