import Whale.Daemon.Notifier
import Whale.Daemon.Proof.Replay
import Whale.Lib.Slots

/-!
# Live notifications are in order, and the newest one is sent

`Upto`: every envelope up to a cursor was handed on, and `ordered_spec` says what a call adds to that. `step_cases`
sorts the steps: a commit, an activation, a publication, and the rest, which only move what is held (`Moved`).
`Live` is the invariant of every run, and `Kept` that of the runs in which no envelope takes the place of a newer one
that was not read: the newest of what was handed on is held, or it is the last that was sent.
-/

namespace Whale

open Check

theorem checkedSucc_eq {n m : Nat} : checkedSucc n = some m ↔ n < u64Max ∧ m = n + 1 := by
  unfold checkedSucc
  split <;> simp [*, eq_comm]

/-! ## The order -/

namespace NotificationOrder

/-- Everything up to `upto` was handed on. -/
structure Upto (order : NotificationOrder) (upto : Nat) : Prop where
  nextSeq : order.nextSeq = checkedSucc upto
  pending : ∀ {k : Nat} {e : SessionEventEnvelopeV2}, order.pending.get? k = some e → e.cursor.seq = k ∧ upto < k

/-- What a call adds to it: `ready` of the envelopes of `added`. -/
structure Handed (order order' : NotificationOrder) (ready : List SessionEventEnvelopeV2) (upto upto' : Nat) : Prop where
  enabled : order'.enabled = order.enabled
  reached : order'.Upto upto'
  le : upto ≤ upto'
  handed : ∀ e ∈ ready, order.pending.get? e.cursor.seq = some e ∧ upto < e.cursor.seq ∧ e.cursor.seq ≤ upto'
  last : upto < upto' → ∃ e ∈ ready, e.cursor.seq = upto'
  pending : ∀ {k : Nat} {e : SessionEventEnvelopeV2}, order'.pending.get? k = some e ↔
    order.pending.get? k = some e ∧ upto' < k
  stop : upto' < u64Max → order'.pending.get? (upto' + 1) = none

variable {order : NotificationOrder} {upto : Nat}

theorem Upto.stays (h : order.Upto upto) (hstop : upto < u64Max → order.pending.get? (upto + 1) = none) :
    Handed order order [] upto upto where
  enabled := rfl
  reached := h
  le := Nat.le_refl _
  handed := fun _ he => nomatch he
  last hlt := absurd hlt (Nat.lt_irrefl _)
  pending := ⟨fun hp => ⟨hp, (h.pending hp).2⟩, And.left⟩
  stop := hstop

theorem length_erase_lt {m : KeyMap Nat SessionEventEnvelopeV2} {k : Nat} {e : SessionEventEnvelopeV2}
    (h : m.get? k = some e) : (m.erase k).entries.length < m.entries.length := by
  refine List.length_filter_lt_length_iff_exists.mpr ⟨(k, e), KeyMap.get?_eq_some_iff.mp h, ?_⟩
  simp

/-- The loop, with a round for each entry. -/
theorem drain_spec {rounds : Nat} : ∀ {order : NotificationOrder} {upto : Nat}, order.Upto upto →
    order.pending.entries.length ≤ rounds →
      ∃ upto', Handed order (order.drain rounds).1 (order.drain rounds).2 upto upto' := by
  induction rounds with
  | zero =>
    intro order upto h hle
    refine ⟨upto, h.stays fun _ => ?_⟩
    cases hp : order.pending.get? (upto + 1) with
    | none => rfl
    | some e =>
      have hmem := KeyMap.get?_eq_some_iff.mp hp
      rw [List.eq_nil_of_length_eq_zero (Nat.le_zero.mp hle)] at hmem
      cases hmem
  | succ rounds ih =>
    intro order upto h hle
    rw [drain]
    cases hnext : order.nextSeq with
    | none =>
      refine ⟨upto, h.stays fun hlt => ?_⟩
      rw [h.nextSeq, checkedSucc_eq.mpr ⟨hlt, rfl⟩] at hnext
      cases hnext
    | some next =>
      obtain ⟨hlt, rfl⟩ := checkedSucc_eq.mp (h.nextSeq.symm.trans hnext)
      cases hp : order.pending.get? (upto + 1) with
      | none => exact ⟨upto, by simpa [hp] using h.stays fun _ => hp⟩
      | some e =>
        simp only [hp]
        have hrest : Upto { order with
            nextSeq := checkedSucc (upto + 1), pending := order.pending.erase (upto + 1) } (upto + 1) := by
          refine ⟨rfl, fun hk => ?_⟩
          obtain ⟨hk, hne⟩ := KeyMap.get?_erase.mp hk
          obtain ⟨hseq, hk⟩ := h.pending hk
          exact ⟨hseq, by omega⟩
        obtain ⟨upto', hd⟩ := ih hrest (by have := length_erase_lt hp; simp only; omega)
        have hseq : e.cursor.seq = upto + 1 := (h.pending hp).1
        have hup := hd.le
        refine ⟨upto', hd.enabled, hd.reached, by omega, ?_, fun _ => ?_, ?_, hd.stop⟩
        · intro x hx
          obtain rfl | hx := List.mem_cons.mp hx
          · exact ⟨hseq ▸ hp, by omega, by omega⟩
          · obtain ⟨hget, hlow, hx⟩ := hd.handed x hx
            exact ⟨(KeyMap.get?_erase.mp hget).1, by omega, hx⟩
        · obtain hlt' | heq := Nat.lt_or_eq_of_le hd.le
          · obtain ⟨x, hx, hxseq⟩ := hd.last hlt'
            exact ⟨x, List.mem_cons_of_mem _ hx, hxseq⟩
          · exact ⟨e, List.mem_cons_self, hseq.trans heq⟩
        · intro k x
          rw [hd.pending, KeyMap.get?_erase]
          constructor
          · rintro ⟨⟨hk, -⟩, hlt'⟩
            exact ⟨hk, hlt'⟩
          · rintro ⟨hk, hlt'⟩
            exact ⟨⟨hk, by omega⟩, hlt'⟩

/-- A call with the next envelope, or a later one, or one that was handed on already. -/
theorem ordered_spec (h : order.Upto upto) (hstop : upto < u64Max → order.pending.get? (upto + 1) = none)
    (henabled : order.enabled = true) (e : SessionEventEnvelopeV2) :
    ∃ upto', ∃ pending : KeyMap Nat SessionEventEnvelopeV2,
      Handed { order with pending } (order.ordered e).1 (order.ordered e).2 upto upto' ∧
      (∀ {k x}, pending.get? k = some x → order.pending.get? k = some x ∨ x = e) ∧
      ∀ {k x}, upto < k → (order.pending.get? k = some x ∧ k ≠ e.cursor.seq ∨ x = e ∧ k = e.cursor.seq ∧ k ≤ u64Max) →
        pending.get? k = some x := by
  obtain hnext | ⟨next, hnext⟩ := Option.eq_none_or_eq_some order.nextSeq
  · have heq : order.ordered e = (order, []) := by simp [ordered, henabled, hnext]
    rw [heq]
    refine ⟨upto, order.pending, h.stays hstop, .inl, fun hk hx => ?_⟩
    obtain ⟨hx, -⟩ | ⟨-, -, hx⟩ := hx
    · exact hx
    · have hlt : upto < u64Max := by omega
      rw [h.nextSeq, checkedSucc_eq.mpr ⟨hlt, rfl⟩] at hnext
      cases hnext
  · obtain ⟨hlt, rfl⟩ := checkedSucc_eq.mp (h.nextSeq.symm.trans hnext)
    by_cases hold : e.cursor.seq < upto + 1
    · have heq : order.ordered e = (order, []) := by simp [ordered, henabled, hnext, hold]
      rw [heq]
      refine ⟨upto, order.pending, h.stays hstop, .inl, fun hk hx => ?_⟩
      obtain ⟨hx, -⟩ | ⟨-, rfl, -⟩ := hx
      · exact hx
      · omega
    · have heq : order.ordered e = drain (order.pending.insert e.cursor.seq e).entries.length
          { order with pending := order.pending.insert e.cursor.seq e } := by simp [ordered, henabled, hnext, hold]
      rw [heq]
      have hinsert : Upto { order with pending := order.pending.insert e.cursor.seq e } upto := by
        refine ⟨h.nextSeq, fun hk => ?_⟩
        obtain ⟨rfl, rfl⟩ | ⟨hk, -⟩ := KeyMap.get?_insert.mp hk
        · exact ⟨rfl, by omega⟩
        · exact h.pending hk
      obtain ⟨upto', hd⟩ := drain_spec hinsert (Nat.le_refl _)
      refine ⟨upto', _, hd, fun hk => ?_, fun hk hx => KeyMap.get?_insert.mpr ?_⟩
      · obtain ⟨-, rfl⟩ | ⟨hk, -⟩ := KeyMap.get?_insert.mp hk
        · exact .inr rfl
        · exact .inl hk
      · obtain ⟨hx, hne⟩ | ⟨rfl, hk, -⟩ := hx
        · exact .inr ⟨hx, hne⟩
        · exact .inl ⟨hk, rfl⟩

end NotificationOrder

/-! ## What is held -/

/-- Behind the terminal event the session is closed. -/
theorem closed_of_applied [External] {s s' : SessionSnapshotV2} {e : SessionEventEnvelopeV2} (h : s.Applied e s')
    (hclosed : e.isClosed = true) : s'.lifecycle = .closed := by
  obtain ⟨next, hpayload, rfl⟩ := h.payload
  show next.lifecycle = .closed
  have hpay : e.payload = .lifecycleChanged .closed := by
    unfold SessionEventEnvelopeV2.isClosed at hclosed
    split at hclosed
    · assumption
    · cases hclosed
  rw [SessionSnapshotV2.applyPayload, hpay] at hpayload
  simp only [SessionSnapshotV2.applyLifecycle] at hpayload
  split at hpayload
  · simp_all
  · obtain ⟨-, hnext⟩ := refuse_bind_ok hpayload
    cases hnext
    rfl
  · cases hpayload

/-- The call has the envelope still to send. -/
def Publishing.Has (call : Publishing) (e : SessionEventEnvelopeV2) : Prop := e ∈ call.ready ∨ call.stage = .full e

namespace Notifier

/-- The envelope is on its way to the task, or with it. -/
def Held (s : Notifier) (e : SessionEventEnvelopeV2) : Prop :=
  (∃ call ∈ s.calls, call.Has e) ∨ (∃ work ∈ s.queue, work.envelope = e) ∨ s.unread = true ∧ s.latest = some e ∨
    ∃ work, s.current = some work ∧ work.envelope = e

/-- A step that moves what is held. -/
structure Moved (s : Notifier) (label : Option SessionEventEnvelopeV2) (s' : Notifier) : Prop where
  projection : s'.projection = s.projection
  committed : s'.committed = s.committed
  unpublished : s'.unpublished = s.unpublished
  order : s'.order = s.order
  activatedAt : s'.activatedAt = s.activatedAt
  held : ∀ {e}, s'.Held e → s.Held e
  closed : s.closed = true → s'.closed = true
  /-- Nothing is sent, or one that is newer than the last one. -/
  sent : s'.sent = s.sent ∧ s'.lastSent = s.lastSent ∨ ∃ e, s.Held e ∧ s.lastSent < e.cursor.seq ∧
    s'.sent = s.sent ++ [e.cursor.seq] ∧ s'.lastSent = e.cursor.seq
  /-- The task ends when it is closed, or behind the terminal event. -/
  stopped : s'.stopped = true → s.stopped = true ∧ s'.lastSent = s.lastSent ∨ s'.closed = true ∨
    ∃ e, s.Held e ∧ e.isClosed = true ∧ s'.lastSent = e.cursor.seq
  stays : s.stopped = true → s'.stopped = true
  /-- What is not held any more was not newer than the last that was sent, or another one took its place. -/
  lost : ∀ {e}, s.Held e → s'.Held e ∨ e.cursor.seq ≤ s'.lastSent ∨ s'.stopped = true ∨
    ∃ x, label = some x ∧ s'.Held x ∧ s.unread = true ∧ s.latest = some e

variable {s s' : Notifier} {i : Nat} {call call' : Publishing}

/-- What the calls have after one of them went on. -/
theorem has_put {e : SessionEventEnvelopeV2}
    (h : ∃ c ∈ (s.put i call').calls, c.Has e) : call'.Has e ∨ ∃ c ∈ s.calls, c.Has e := by
  obtain ⟨c, hc, he⟩ := h
  obtain hc | rfl := List.mem_or_eq_of_mem_set hc
  · exact .inr ⟨c, hc, he⟩
  · exact .inl he

theorem put_has (call' : Publishing) (hcall : s.calls[i]? = some call) {e : SessionEventEnvelopeV2}
    (h : ∃ c ∈ s.calls, c.Has e) :
    call.Has e ∨ ∃ c ∈ (s.put i call').calls, c.Has e := by
  obtain ⟨c, hc, he⟩ := h
  by_cases hne : c = call
  · exact .inl (hne ▸ he)
  · exact .inr ⟨c, Slots.mem_set_of_ne hcall hc hne, he⟩

theorem put_self (hcall : s.calls[i]? = some call) {e : SessionEventEnvelopeV2} (h : call'.Has e) :
    ∃ c ∈ (s.put i call').calls, c.Has e :=
  ⟨call', List.mem_of_getElem? ((Slots.get_set_iff hcall).mpr (.inl ⟨rfl, rfl⟩)), h⟩

/-- A call goes on. -/
theorem moved_put (hcall : s.calls[i]? = some call) (hnew : ∀ {e}, call'.Has e → call.Has e)
    (hkeep : ∀ {e}, call.Has e → call'.Has e ∨ s.stopped = true) : Moved s none (s.put i call') where
  projection := rfl
  committed := rfl
  unpublished := rfl
  order := rfl
  activatedAt := rfl
  held {e} he := by
    obtain he | he := he
    · refine .inl ?_
      obtain he | he := has_put he
      · exact ⟨call, List.mem_of_getElem? hcall, hnew he⟩
      · exact he
    · exact .inr he
  closed := id
  sent := .inl ⟨rfl, rfl⟩
  stopped h := .inl ⟨h, rfl⟩
  stays := id
  lost {e} he := by
    obtain he | he := he
    · obtain he | he := put_has call' hcall he
      · obtain he | hstopped := hkeep he
        · exact .inl (.inl (put_self hcall he))
        · exact .inr (.inr (.inl hstopped))
      · exact .inl (.inl he)
    · exact .inl (.inr he)

/-- A call puts an envelope into the queue. -/
theorem moved_send {work : NotificationWork} (hcall : s.calls[i]? = some call)
    (hnew : ∀ {e}, call'.Has e ∨ e = work.envelope → call.Has e)
    (hkeep : ∀ {e}, call.Has e → call'.Has e ∨ e = work.envelope) :
    Moved s none { s.put i call' with queue := s.queue ++ [work] } where
  projection := rfl
  committed := rfl
  unpublished := rfl
  order := rfl
  activatedAt := rfl
  held {e} he := by
    have hmem := List.mem_of_getElem? hcall
    obtain he | ⟨w, hw, he⟩ | he := he
    · refine .inl ?_
      obtain he | he := has_put he
      · exact ⟨call, hmem, hnew (.inl he)⟩
      · exact he
    · obtain hw | hw := List.mem_append.mp hw
      · exact .inr (.inl ⟨w, hw, he⟩)
      · obtain rfl := List.mem_singleton.mp hw
        exact .inl ⟨call, hmem, hnew (.inr he.symm)⟩
    · exact .inr (.inr he)
  closed := id
  sent := .inl ⟨rfl, rfl⟩
  stopped h := .inl ⟨h, rfl⟩
  stays := id
  lost {e} he := by
    refine .inl ?_
    obtain he | ⟨w, hw, he⟩ | he := he
    · obtain he | he := put_has call' hcall he
      · obtain he | rfl := hkeep he
        · exact .inl (put_self hcall he)
        · exact .inr (.inl ⟨work, List.mem_append_right _ (List.mem_singleton_self _), rfl⟩)
      · exact .inl he
    · exact .inr (.inl ⟨w, List.mem_append_left _ hw, he⟩)
    · exact .inr (.inr he)

/-- A call writes `latest`. -/
theorem moved_replace {envelope : SessionEventEnvelopeV2} {ready : List SessionEventEnvelopeV2}
    (hcall : s.calls[i]? = some { confirmed := none, ready, stage := .full envelope }) :
    Moved s (some envelope) { s.put i { confirmed := none, ready } with latest := some envelope, unread := true } where
  projection := rfl
  committed := rfl
  unpublished := rfl
  order := rfl
  activatedAt := rfl
  held {e} he := by
    have hmem := List.mem_of_getElem? hcall
    obtain he | he | ⟨-, he⟩ | he := he
    · refine .inl ?_
      obtain he | he := has_put he
      · obtain he | he := he
        · exact ⟨_, hmem, .inl he⟩
        · cases he
      · exact he
    · exact .inr (.inl he)
    · obtain rfl := Option.some.inj he
      exact .inl ⟨_, hmem, .inr rfl⟩
    · exact .inr (.inr (.inr he))
  closed := id
  sent := .inl ⟨rfl, rfl⟩
  stopped h := .inl ⟨h, rfl⟩
  stays := id
  lost {e} he := by
    obtain he | he | ⟨hunread, he⟩ | he := he
    · refine .inl ?_
      obtain he | he := put_has { confirmed := none, ready } hcall he
      · obtain he | he := he
        · exact .inl (put_self hcall (.inl he))
        · cases he
          exact .inr (.inr (.inl ⟨rfl, rfl⟩))
      · exact .inl he
    · exact .inl (.inr (.inl he))
    · exact .inr (.inr (.inr ⟨envelope, rfl, .inr (.inr (.inl ⟨rfl, rfl⟩)), hunread, he⟩))
    · exact .inl (.inr (.inr (.inr he)))

/-- The task takes an item, is done with one, or ends: the calls and `latest` are as they were. -/
theorem moved_task (hprojection : s'.projection = s.projection) (hcommitted : s'.committed = s.committed)
    (hunpublished : s'.unpublished = s.unpublished) (horder : s'.order = s.order)
    (hactivated : s'.activatedAt = s.activatedAt) (hcalls : s'.calls = s.calls)
    (hheld : ∀ {e}, s'.Held e → s.Held e) (hclosed : s.closed = true → s'.closed = true)
    (hsent : s'.sent = s.sent ∧ s'.lastSent = s.lastSent ∨ ∃ e, s.Held e ∧ s.lastSent < e.cursor.seq ∧
      s'.sent = s.sent ++ [e.cursor.seq] ∧ s'.lastSent = e.cursor.seq)
    (hstopped : s'.stopped = true → s.stopped = true ∧ s'.lastSent = s.lastSent ∨ s'.closed = true ∨
      ∃ e, s.Held e ∧ e.isClosed = true ∧ s'.lastSent = e.cursor.seq)
    (hstays : s.stopped = true → s'.stopped = true)
    (hqueue : ∀ {work}, work ∈ s.queue → work ∈ s'.queue ∨ s'.current = some work ∨ s'.stopped = true)
    (hlatest : ∀ {e}, s.unread = true → s.latest = some e →
      s'.unread = true ∧ s'.latest = some e ∨ ∃ work, s'.current = some work ∧ work.envelope = e)
    (hcurrent : ∀ {work}, s.current = some work →
      s'.current = some work ∨ work.envelope.cursor.seq ≤ s'.lastSent ∨ s'.stopped = true) : Moved s none s' where
  projection := hprojection
  committed := hcommitted
  unpublished := hunpublished
  order := horder
  activatedAt := hactivated
  held := hheld
  closed := hclosed
  sent := hsent
  stopped := hstopped
  stays := hstays
  lost {e} he := by
    obtain he | ⟨work, hw, rfl⟩ | ⟨hunread, he⟩ | ⟨work, hw, rfl⟩ := he
    · exact .inl (.inl (hcalls ▸ he))
    · obtain hw | hw | hw := hqueue hw
      · exact .inl (.inr (.inl ⟨work, hw, rfl⟩))
      · exact .inl (.inr (.inr (.inr ⟨work, hw, rfl⟩)))
      · exact .inr (.inr (.inl hw))
    · obtain he | he := hlatest hunread he
      · exact .inl (.inr (.inr (.inl he)))
      · exact .inl (.inr (.inr (.inr he)))
    · obtain hw | hw | hw := hcurrent hw
      · exact .inl (.inr (.inr (.inr ⟨work, hw, rfl⟩)))
      · exact .inr (.inl hw)
      · exact .inr (.inr (.inl hw))

variable [External] [EventSerde] {capacity : Nat}

/-- What a step does. -/
theorem step_cases {label : Option SessionEventEnvelopeV2} (hs : Step capacity s label s') :
    (∃ occurredAtMs payload runIdentity projection envelope,
      s.projection.prepare occurredAtMs payload runIdentity = .ok (projection, envelope) ∧
      s' = { s with
        projection, committed := s.committed ++ [envelope], unpublished := s.unpublished ++ [envelope] }) ∨
    s' = s.activate ∨ (∃ envelope confirmed, envelope ∈ s.unpublished ∧ s' = s.publish envelope confirmed) ∨
    Moved s label s' := by
  cases hs with
  | commit h => exact .inl ⟨_, _, _, _, _, h, rfl⟩
  | activate => exact .inr (.inl rfl)
  | publish h confirmed => exact .inr (.inr (.inl ⟨_, confirmed, h, rfl⟩))
  | queued hcall hopen hslots =>
    refine .inr (.inr (.inr (moved_send hcall (fun he => ?_) fun he => ?_)))
    · obtain (he | he) | rfl := he
      · exact .inl (List.mem_cons_of_mem _ he)
      · cases he
      · exact .inl List.mem_cons_self
    · obtain he | he := he
      · obtain rfl | he := List.mem_cons.mp he
        · exact .inr rfl
        · exact .inl (.inl he)
      · cases he
  | full hcall hopen hslots =>
    refine .inr (.inr (.inr (moved_put hcall (fun he => ?_) fun he => .inl ?_)))
    · obtain he | he := he
      · exact .inl (List.mem_cons_of_mem _ he)
      · cases he
        exact .inl List.mem_cons_self
    · obtain he | he := he
      · obtain rfl | he := List.mem_cons.mp he
        · exact .inr rfl
        · exact .inl he
      · cases he
  | replace hcall => exact .inr (.inr (.inr (moved_replace hcall)))
  | dropped hcall hstopped =>
    refine .inr (.inr (.inr (moved_put hcall (fun he => ?_) fun _ => .inr hstopped)))
    obtain he | he := he
    · exact .inl (List.mem_cons_of_mem _ he)
    · cases he
  | grant hcall hopen hslots =>
    refine .inr (.inr (.inr (moved_put hcall (fun he => ?_) fun he => .inl ?_)))
    · obtain he | he := he
      · exact .inl he
      · cases he
    · obtain he | he := he
      · exact .inl he
      · cases he
  | send hcall hopen =>
    refine .inr (.inr (.inr (moved_send hcall (fun he => ?_) fun he => ?_)))
    · obtain (he | he) | rfl := he
      · exact .inl (List.mem_cons_of_mem _ he)
      · simp only at he
        split at he <;> cases he
      · exact .inl List.mem_cons_self
    · obtain he | he := he
      · obtain rfl | he := List.mem_cons.mp he
        · exact .inr rfl
        · exact .inl (.inl he)
      · cases he
  | refused hcall hstage hstopped =>
    refine .inr (.inr (.inr (moved_put hcall (fun he => ?_) fun _ => .inr hstopped)))
    obtain he | he := he <;> cases he
  | resume hcall hdone =>
    refine .inr (.inr (.inr (moved_put hcall (fun he => ?_) fun he => .inl ?_)))
    · obtain he | he := he
      · exact .inl he
      · cases he
    · obtain he | he := he
      · exact .inl he
      · cases he
  | @take work queue hidle hopen hqueue =>
    refine .inr (.inr (.inr (moved_task rfl rfl rfl rfl rfl rfl ?_ id (.inl ⟨rfl, rfl⟩) (fun h => .inl ⟨h, rfl⟩) id
      (fun hw => ?_) (fun hunread he => .inl ⟨hunread, he⟩) fun hw => ?_)))
    · rintro e (he | ⟨w, hw, he⟩ | he | ⟨w, hw, he⟩)
      · exact .inl he
      · exact .inr (.inl ⟨w, hqueue ▸ List.mem_cons_of_mem _ hw, he⟩)
      · exact .inr (.inr (.inl he))
      · cases hw
        exact .inr (.inl ⟨work, hqueue ▸ List.mem_cons_self, he⟩)
    · rw [hqueue] at hw
      obtain rfl | hw := List.mem_cons.mp hw
      · exact .inr (.inl rfl)
      · exact .inl hw
    · rw [hidle] at hw
      cases hw
  | @takeLatest envelope hidle hopen hunread hlatest =>
    refine .inr (.inr (.inr (moved_task rfl rfl rfl rfl rfl rfl ?_ id (.inl ⟨rfl, rfl⟩) (fun h => .inl ⟨h, rfl⟩) id
      .inl (fun _ he => .inr ⟨_, rfl, ?_⟩) fun hw => ?_)))
    · rintro e (he | he | ⟨he, -⟩ | ⟨w, hw, he⟩)
      · exact .inl he
      · exact .inr (.inl he)
      · cases he
      · cases hw
        exact .inr (.inr (.inl ⟨hunread, hlatest.trans (congrArg some he)⟩))
    · exact Option.some.inj (hlatest.symm.trans he)
    · rw [hidle] at hw
      cases hw
  | @skip work hcurrent hopen hle =>
    refine .inr (.inr (.inr (moved_task rfl rfl rfl rfl rfl rfl ?_ id (.inl ⟨rfl, rfl⟩) (fun h => .inl ⟨h, rfl⟩) id
      .inl (fun hunread he => .inl ⟨hunread, he⟩) fun hw => .inr (.inl ?_))))
    · rintro e (he | he | he | ⟨w, hw, he⟩)
      · exact .inl he
      · exact .inr (.inl he)
      · exact .inr (.inr (.inl he))
      · cases hw
    · obtain rfl := Option.some.inj (hcurrent.symm.trans hw)
      exact hle
  | @deliver work hcurrent hopen hlt =>
    have hheld : s.Held work.envelope := .inr (.inr (.inr ⟨work, hcurrent, rfl⟩))
    have hwork : ∀ {w}, s.current = some w → w = work := fun hw => Option.some.inj (hw.symm.trans hcurrent)
    unfold deliver
    split
    · next hterminal =>
      refine .inr (.inr (.inr (moved_task rfl rfl rfl rfl rfl rfl ?_ id (.inr ⟨_, hheld, hlt, rfl, rfl⟩)
        (fun _ => .inr (.inr ⟨_, hheld, hterminal, rfl⟩)) (fun _ => rfl) (fun _ => .inr (.inr rfl))
        (fun hunread he => .inl ⟨hunread, he⟩) fun _ => .inr (.inr rfl))))
      rintro e (he | ⟨w, hw, -⟩ | he | ⟨w, hw, he⟩)
      · exact .inl he
      · cases hw
      · exact .inr (.inr (.inl he))
      · cases hw
    · refine .inr (.inr (.inr (moved_task rfl rfl rfl rfl rfl rfl ?_ id (.inr ⟨_, hheld, hlt, rfl, rfl⟩)
        (fun hstopped => ?_) id .inl (fun hunread he => .inl ⟨hunread, he⟩) fun hw => .inr (.inl ?_))))
      · rintro e (he | he | he | ⟨w, hw, he⟩)
        · exact .inl he
        · exact .inr (.inl he)
        · exact .inr (.inr (.inl he))
        · cases hw
      · cases hopen.symm.trans hstopped
      · obtain rfl := hwork hw
        exact Nat.le_refl _
  | close =>
    exact .inr (.inr (.inr (moved_task rfl rfl rfl rfl rfl rfl id (fun _ => rfl) (.inl ⟨rfl, rfl⟩)
      (fun h => .inl ⟨h, rfl⟩) id .inl (fun hunread he => .inl ⟨hunread, he⟩) .inl)))
  | abort hclosed =>
    refine .inr (.inr (.inr (moved_task rfl rfl rfl rfl rfl rfl ?_ id (.inl ⟨rfl, rfl⟩)
      (fun _ => .inr (.inl hclosed)) (fun _ => rfl) (fun _ => .inr (.inr rfl))
      (fun hunread he => .inl ⟨hunread, he⟩) fun _ => .inr (.inr rfl))))
    rintro e (he | ⟨w, hw, -⟩ | he | ⟨w, hw, -⟩)
    · exact .inl he
    · cases hw
    · exact .inr (.inr (.inl he))
    · cases hw

/-! ## Every run -/

/-- What was committed since the cursor `first`. -/
structure Commits (first : Nat) (s : Notifier) : Prop where
  le : first ≤ s.newest
  limit : s.newest = first ∨ s.newest ≤ u64Max
  all : ∀ {n}, first < n → n ≤ s.newest → ∃ e ∈ s.committed, e.cursor.seq = n
  bounds : ∀ {e}, e ∈ s.committed → first < e.cursor.seq ∧ e.cursor.seq ≤ s.newest
  unique : ∀ {e e'}, e ∈ s.committed → e' ∈ s.committed → e.cursor.seq = e'.cursor.seq → e = e'
  unpublished : ∀ {e}, e ∈ s.unpublished → e ∈ s.committed
  terminal : ∀ {e}, e ∈ s.committed → e.isClosed = true →
    e.cursor.seq = s.newest ∧ s.projection.snapshot.lifecycle = .closed

/-- Before the activation. -/
structure Off (s : Notifier) : Prop where
  enabled : s.order.enabled = false
  pending : ∀ k, s.order.pending.get? k = none
  activatedAt : s.activatedAt = none
  held : ∀ {e}, ¬s.Held e
  sent : s.sent = []
  lastSent : s.lastSent = 0
  stopped : s.stopped = true → s.closed = true

/-- Behind it, at the cursor `a`: everything up to `upto` was handed on. -/
structure Live (first a upto : Nat) (s : Notifier) : Prop where
  enabled : s.order.enabled = true
  activatedAt : s.activatedAt = some a
  first : first ≤ a
  le : a ≤ upto
  top : upto ≤ s.newest
  reached : s.order.Upto upto
  stop : upto < u64Max → s.order.pending.get? (upto + 1) = none
  pending : ∀ {k e}, s.order.pending.get? k = some e → e ∈ s.committed
  published : ∀ {e}, e ∈ s.committed → upto < e.cursor.seq →
    e ∈ s.unpublished ∨ s.order.pending.get? e.cursor.seq = some e
  held : ∀ {e}, s.Held e → e ∈ s.committed ∧ a < e.cursor.seq ∧ e.cursor.seq ≤ upto
  sent : ∀ {n}, n ∈ s.sent → a < n ∧ n ≤ s.lastSent ∧ ∃ e ∈ s.committed, e.cursor.seq = n
  sorted : s.sent.Pairwise (· < ·)
  last : s.sent = [] ∧ s.lastSent = 0 ∨ s.sent.getLast? = some s.lastSent
  lastSent : s.lastSent ≤ upto

/-- The newest of what was handed on is on its way, or it was sent; behind the terminal event it is the last of all. -/
def Keeps (a upto : Nat) (s : Notifier) : Prop :=
  s.closed = true ∨
    s.stopped = false ∧ (a < upto → s.lastSent = upto ∨ ∃ e, s.Held e ∧ e.cursor.seq = upto) ∨
    s.stopped = true ∧ s.lastSent = s.newest ∧ s.projection.snapshot.lifecycle = .closed

variable {first a upto : Nat}

theorem Commits.commit (h : Commits first s) {occurredAtMs : Nat} {payload : SessionEventPayloadV2}
    {runIdentity : Option (String × Nat)} {projection : ManagementProjection} {envelope : SessionEventEnvelopeV2}
    (hprepare : s.projection.prepare occurredAtMs payload runIdentity = .ok (projection, envelope)) :
    Commits first { s with
      projection, committed := s.committed ++ [envelope], unpublished := s.unpublished ++ [envelope] } := by
  obtain ⟨happlied, henvelope, -⟩ := ManagementProjection.prepare_ok hprepare
  have hcursor : projection.snapshot.cursor = envelope.cursor := happlied.cursor_eq
  have hseq : envelope.cursor.seq = s.newest + 1 := by rw [henvelope]; rfl
  have hnewest : projection.snapshot.cursor.seq = s.newest + 1 := by rw [hcursor, hseq]
  have hbound : s.newest < u64Max := happlied.bound
  have hle := h.le
  have hmem : ∀ {e}, e ∈ s.committed ++ [envelope] ↔ e ∈ s.committed ∨ e = envelope := by simp
  constructor
  · show first ≤ projection.snapshot.cursor.seq
    omega
  · show projection.snapshot.cursor.seq = first ∨ projection.snapshot.cursor.seq ≤ u64Max
    omega
  · intro n hn hle
    change n ≤ projection.snapshot.cursor.seq at hle
    by_cases hlast : n = s.newest + 1
    · exact ⟨envelope, hmem.mpr (.inr rfl), by omega⟩
    · obtain ⟨e, he, heseq⟩ := h.all hn (by omega)
      exact ⟨e, hmem.mpr (.inl he), heseq⟩
  · intro e he
    show first < _ ∧ _ ≤ projection.snapshot.cursor.seq
    obtain he | rfl := hmem.mp he
    · have hb := h.bounds he
      omega
    · omega
  · intro e e' he he' heq
    obtain hold | rfl := hmem.mp he <;> obtain hold' | rfl := hmem.mp he'
    · exact h.unique hold hold' heq
    · have hb := h.bounds hold
      omega
    · have hb := h.bounds hold'
      omega
    · rfl
  · intro e he
    obtain he | he := List.mem_append.mp he
    · exact List.mem_append_left _ (h.unpublished he)
    · exact List.mem_append_right _ he
  · intro e he hclosed
    obtain he | rfl := hmem.mp he
    · exact absurd (h.terminal he hclosed).2 happlied.running
    · exact ⟨by show _ = projection.snapshot.cursor.seq; omega, closed_of_applied happlied hclosed⟩

omit [External] [EventSerde] in
theorem Commits.same (h : Commits first s) (hprojection : s'.projection = s.projection)
    (hcommitted : s'.committed = s.committed) (hunpublished : ∀ {e}, e ∈ s'.unpublished → e ∈ s.unpublished) :
    Commits first s' := by
  have hnewest : s'.newest = s.newest := by rw [newest, hprojection, newest]
  constructor
  · rw [hnewest]; exact h.le
  · rw [hnewest]; exact h.limit
  · rw [hnewest, hcommitted]; exact h.all
  · rw [hnewest, hcommitted]; exact h.bounds
  · rw [hcommitted]; exact h.unique
  · intro e he
    rw [hcommitted]
    exact h.unpublished (hunpublished he)
  · rw [hnewest, hcommitted, hprojection]; exact h.terminal

/-! ## Before the activation -/

omit [External] [EventSerde] in
theorem Off.ordered (h : Off s) (e : SessionEventEnvelopeV2) : s.order.ordered e = (s.order, []) := by
  simp [NotificationOrder.ordered, h.enabled]

omit [External] [EventSerde] in
theorem held_publish {envelope x : SessionEventEnvelopeV2} {confirmed : Bool} :
    (s.publish envelope confirmed).Held x ↔ s.Held x ∨ x ∈ (s.order.ordered envelope).2 := by
  constructor
  · rintro (⟨call, hcall, hx⟩ | hx)
    · obtain hcall | hcall := List.mem_append.mp hcall
      · exact .inl (.inl ⟨call, hcall, hx⟩)
      · obtain rfl := List.mem_singleton.mp hcall
        obtain hx | hx := hx
        · exact .inr hx
        · cases hx
    · exact .inl (.inr hx)
  · rintro ((⟨call, hcall, hx⟩ | hx) | hx)
    · exact .inl ⟨call, List.mem_append_left _ hcall, hx⟩
    · exact .inr hx
    · exact .inl ⟨_, List.mem_append_right _ (List.mem_singleton_self _), .inl hx⟩

omit [External] [EventSerde] in
theorem Off.publish (h : Off s) (e : SessionEventEnvelopeV2) (confirmed : Bool) : Off (s.publish e confirmed) := by
  have horder : (s.publish e confirmed).order = s.order := congrArg Prod.fst (h.ordered e)
  constructor
  · rw [horder]; exact h.enabled
  · rw [horder]; exact h.pending
  · exact h.activatedAt
  · intro x hx
    obtain hx | hx := held_publish.mp hx
    · exact h.held hx
    · rw [h.ordered] at hx
      cases hx
  · exact h.sent
  · exact h.lastSent
  · exact h.stopped

omit [External] [EventSerde] in
theorem Off.moved {label : Option SessionEventEnvelopeV2} (h : Off s) (hm : Moved s label s') : Off s' where
  enabled := by rw [hm.order]; exact h.enabled
  pending := by rw [hm.order]; exact h.pending
  activatedAt := hm.activatedAt.trans h.activatedAt
  held hx := h.held (hm.held hx)
  sent := by
    obtain ⟨hsent, -⟩ | ⟨e, he, -⟩ := hm.sent
    · exact hsent.trans h.sent
    · exact absurd he h.held
  lastSent := by
    obtain ⟨-, hlast⟩ | ⟨e, he, -⟩ := hm.sent
    · exact hlast.trans h.lastSent
    · exact absurd he h.held
  stopped hstopped := by
    obtain ⟨hold, -⟩ | hclosed | ⟨e, he, -⟩ := hm.stopped hstopped
    · exact hm.closed (h.stopped hold)
    · exact hclosed
    · exact absurd he h.held

omit [External] [EventSerde] in
/-- The activation. -/
theorem Off.activate (h : Off s) (hcommits : Commits first s) :
    Live first s.newest s.newest s.activate ∧ Keeps s.newest s.newest s.activate := by
  have hpending : ∀ k, ((s.order.activate s.newest).pending.get? k) = none := by
    intro k
    cases hk : (s.order.activate s.newest).pending.get? k with
    | none => rfl
    | some e =>
      simp only [NotificationOrder.activate, h.enabled, Bool.false_eq_true, if_false] at hk
      exact absurd ((h.pending k).symm.trans (KeyMap.get?_filter.mp hk).1) (Option.some_ne_none _).symm
  refine ⟨?_, ?_⟩
  · constructor
    · simp [Notifier.activate, NotificationOrder.activate, h.enabled]
    · simp [Notifier.activate, h.enabled]
    · exact hcommits.le
    · exact Nat.le_refl _
    · exact Nat.le_refl _
    · refine ⟨by simp [Notifier.activate, NotificationOrder.activate, h.enabled], fun {k e} hk => ?_⟩
      exact absurd ((hpending k).symm.trans hk) (Option.some_ne_none _).symm
    · exact fun _ => hpending _
    · exact fun {k e} hk => absurd ((hpending k).symm.trans hk) (Option.some_ne_none _).symm
    · exact fun he hlt => absurd (hcommits.bounds he).2 (Nat.not_le.mpr hlt)
    · exact fun he => absurd he h.held
    · intro n hn
      rw [show s.activate.sent = [] from h.sent] at hn
      cases hn
    · rw [show s.activate.sent = [] from h.sent]
      exact .nil
    · exact .inl ⟨h.sent, h.lastSent⟩
    · rw [show s.activate.lastSent = 0 from h.lastSent]
      exact Nat.zero_le _
  · cases hstopped : s.stopped with
    | true => exact .inl (h.stopped hstopped)
    | false => exact .inr (.inl ⟨hstopped, fun hlt => absurd hlt (Nat.lt_irrefl _)⟩)

/-! ## Behind the activation -/

omit [External] [EventSerde] in
theorem Live.moved {label : Option SessionEventEnvelopeV2} (h : Live first a upto s) (hm : Moved s label s') :
    Live first a upto s' := by
  have hnewest : s'.newest = s.newest := by rw [newest, hm.projection, newest]
  constructor
  · rw [hm.order]; exact h.enabled
  · exact hm.activatedAt.trans h.activatedAt
  · exact h.first
  · exact h.le
  · rw [hnewest]; exact h.top
  · rw [hm.order]; exact h.reached
  · rw [hm.order]; exact h.stop
  · rw [hm.order, hm.committed]; exact h.pending
  · rw [hm.order, hm.committed, hm.unpublished]; exact h.published
  · rw [hm.committed]; exact fun he => h.held (hm.held he)
  · intro n hn
    rw [hm.committed]
    obtain ⟨hsent, hlast⟩ | ⟨e, he, hlt, hsent, hlast⟩ := hm.sent
    · rw [hlast]
      exact h.sent (hsent ▸ hn)
    · rw [hsent] at hn
      rw [hlast]
      obtain ⟨hmem, hlow, hhigh⟩ := h.held he
      obtain hn | hn := List.mem_append.mp hn
      · obtain ⟨hlow, hle, hcommitted⟩ := h.sent hn
        exact ⟨hlow, by omega, hcommitted⟩
      · obtain rfl := List.mem_singleton.mp hn
        exact ⟨hlow, Nat.le_refl _, e, hmem, rfl⟩
  · obtain ⟨hsent, -⟩ | ⟨e, he, hlt, hsent, -⟩ := hm.sent
    · rw [hsent]; exact h.sorted
    · rw [hsent]
      refine List.pairwise_append.mpr ⟨h.sorted, List.pairwise_singleton _ _, fun n hn m hmem => ?_⟩
      obtain rfl := List.mem_singleton.mp hmem
      exact Nat.lt_of_le_of_lt (h.sent hn).2.1 hlt
  · obtain ⟨hsent, hlast⟩ | ⟨e, -, -, hsent, hlast⟩ := hm.sent
    · rw [hsent, hlast]; exact h.last
    · rw [hsent, hlast]
      exact .inr List.getLast?_concat
  · obtain ⟨-, hlast⟩ | ⟨e, he, -, -, hlast⟩ := hm.sent
    · rw [hlast]; exact h.lastSent
    · rw [hlast]; exact (h.held he).2.2

omit [External] [EventSerde] in
/-- What is held stays, or something newer takes its place, or it is sent. -/
theorem Keeps.moved {label : Option SessionEventEnvelopeV2} (hk : Keeps a upto s) (h : Live first a upto s)
    (hcommits : Commits first s) (hm : Moved s label s') (hno : ∀ x, label = some x → ¬s.Overtakes x) :
    Keeps a upto s' := by
  have hnewest : s'.newest = s.newest := by rw [newest, hm.projection, newest]
  have hlast' := (h.moved hm).lastSent
  obtain hclosed | ⟨hstopped, hkept⟩ | ⟨hstopped, hlast, hlifecycle⟩ := hk
  · exact .inl (hm.closed hclosed)
  · cases hstopped' : s'.stopped with
    | true =>
      obtain ⟨hold, -⟩ | hclosed | ⟨e, he, hterminal, hlast⟩ := hm.stopped hstopped'
      · cases hstopped.symm.trans hold
      · exact .inl hclosed
      · obtain ⟨hseq, hlifecycle⟩ := hcommits.terminal (h.held he).1 hterminal
        exact .inr (.inr ⟨hstopped', by rw [hnewest, hlast, hseq], by rw [hm.projection]; exact hlifecycle⟩)
    | false =>
      refine .inr (.inl ⟨hstopped', fun hlt => ?_⟩)
      obtain hlast | ⟨e, he, hseq⟩ := hkept hlt
      · obtain ⟨-, hsame⟩ | ⟨e, he, hnewer, -⟩ := hm.sent
        · exact .inl (hsame.trans hlast)
        · have hhigh := (h.held he).2.2
          omega
      · obtain he' | hle | hover | ⟨x, hlabel, hx, hunread, hlatest⟩ := hm.lost he
        · exact .inr ⟨e, he', hseq⟩
        · exact .inl (by omega)
        · cases hstopped'.symm.trans hover
        · have hhigh := (h.held (hm.held hx)).2.2
          have hnot : ¬x.cursor.seq < e.cursor.seq := fun hxe => hno x hlabel ⟨hunread, e, hlatest, hxe⟩
          exact .inr ⟨x, hx, by omega⟩
  · refine .inr (.inr ⟨hm.stays hstopped, ?_, by rw [hm.projection]; exact hlifecycle⟩)
    rw [hnewest]
    obtain ⟨-, hsame⟩ | ⟨e, he, hnewer, -⟩ := hm.sent
    · exact hsame.trans hlast
    · have hhigh := (h.held he).2.2
      have htop := h.top
      omega

omit [External] [EventSerde] in
/-- A publication behind the activation. -/
theorem Live.publish (h : Live first a upto s) (hcommits : Commits first s) {envelope : SessionEventEnvelopeV2}
    (hmem : envelope ∈ s.unpublished) (confirmed : Bool) :
    ∃ upto', Live first a upto' (s.publish envelope confirmed) ∧
      (Keeps a upto s → Keeps a upto' (s.publish envelope confirmed)) := by
  obtain ⟨upto', pending, hd, hsub, hkeep⟩ := NotificationOrder.ordered_spec h.reached h.stop h.enabled envelope
  have hcommitted : ∀ {k x}, pending.get? k = some x → x ∈ s.committed := by
    intro k x hx
    obtain hx | rfl := hsub hx
    · exact h.pending hx
    · exact hcommits.unpublished hmem
  have hready : ∀ {x}, x ∈ (s.order.ordered envelope).2 →
      x ∈ s.committed ∧ upto < x.cursor.seq ∧ x.cursor.seq ≤ upto' := by
    intro x hx
    obtain ⟨hget, hlow, hhigh⟩ := hd.handed x hx
    exact ⟨hcommitted hget, hlow, hhigh⟩
  have hle := hd.le
  have hfirst := h.le
  refine ⟨upto', ?_, fun hk => ?_⟩
  · constructor
    · exact hd.enabled.trans h.enabled
    · exact h.activatedAt
    · exact h.first
    · omega
    · show upto' ≤ s.newest
      obtain hlt | rfl := Nat.lt_or_eq_of_le hle
      · obtain ⟨x, hx, rfl⟩ := hd.last hlt
        exact (hcommits.bounds (hready hx).1).2
      · exact h.top
    · exact hd.reached
    · exact hd.stop
    · exact fun hk => hcommitted (hd.pending.mp hk).1
    · intro x hx hlt
      have hpending : pending.get? x.cursor.seq = some x → (s.publish envelope confirmed).order.pending.get?
          x.cursor.seq = some x := fun hp => hd.pending.mpr ⟨hp, hlt⟩
      by_cases he : x = envelope
      · right
        have hbounds := hcommits.bounds hx
        have hlimit := hcommits.limit
        exact hpending (hkeep (by omega) (.inr ⟨he, by rw [he], by omega⟩))
      · obtain hx' | hx' := h.published hx (by omega)
        · exact .inl ((List.mem_erase_of_ne he).mpr hx')
        · right
          have hne : x.cursor.seq ≠ envelope.cursor.seq :=
            fun heq => he (hcommits.unique hx (hcommits.unpublished hmem) heq)
          exact hpending (hkeep (by omega) (.inl ⟨hx', hne⟩))
    · intro x hx
      show x ∈ s.committed ∧ _
      obtain hx | hx := held_publish.mp hx
      · obtain ⟨hmem, hlow, hhigh⟩ := h.held hx
        exact ⟨hmem, hlow, by omega⟩
      · obtain ⟨hmem, hlow, hhigh⟩ := hready hx
        exact ⟨hmem, by omega, hhigh⟩
    · exact h.sent
    · exact h.sorted
    · exact h.last
    · exact Nat.le_trans h.lastSent hle
  · obtain hclosed | ⟨hstopped, hkept⟩ | hover := hk
    · exact .inl hclosed
    · refine .inr (.inl ⟨hstopped, fun hlt => ?_⟩)
      obtain hmore | rfl := Nat.lt_or_eq_of_le hle
      · obtain ⟨x, hx, hseq⟩ := hd.last hmore
        exact .inr ⟨x, held_publish.mpr (.inr hx), hseq⟩
      · obtain hlast | ⟨x, hx, hseq⟩ := hkept hlt
        · exact .inl hlast
        · exact .inr ⟨x, held_publish.mpr (.inl hx), hseq⟩
    · exact .inr (.inr hover)

omit [External] [EventSerde] in
theorem Live.activate (h : Live first a upto s) : s.activate = s := by
  simp [Notifier.activate, NotificationOrder.activate, h.enabled]

/-- A commit behind the activation. -/
theorem Live.commit (h : Live first a upto s) {occurredAtMs : Nat} {payload : SessionEventPayloadV2}
    {runIdentity : Option (String × Nat)} {projection : ManagementProjection} {envelope : SessionEventEnvelopeV2}
    (hprepare : s.projection.prepare occurredAtMs payload runIdentity = .ok (projection, envelope)) :
    Live first a upto { s with
      projection, committed := s.committed ++ [envelope], unpublished := s.unpublished ++ [envelope] } ∧
    (Keeps a upto s → Keeps a upto { s with
      projection, committed := s.committed ++ [envelope], unpublished := s.unpublished ++ [envelope] }) := by
  obtain ⟨happlied, henvelope, -⟩ := ManagementProjection.prepare_ok hprepare
  have hcursor : projection.snapshot.cursor = envelope.cursor := happlied.cursor_eq
  have hseq : envelope.cursor.seq = s.newest + 1 := by rw [henvelope]; rfl
  have hsub : ∀ {e}, e ∈ s.committed → e ∈ s.committed ++ [envelope] := fun he => List.mem_append_left _ he
  have htop := h.top
  refine ⟨?_, fun hk => ?_⟩
  · refine { h with
      top := ?_, pending := fun hp => hsub (h.pending hp), published := fun {e} he hlt => ?_,
      held := fun he => ⟨hsub (h.held he).1, (h.held he).2⟩, sent := fun {n} hn => ?_ }
    · show upto ≤ projection.snapshot.cursor.seq
      rw [hcursor]
      omega
    · obtain he | he := List.mem_append.mp he
      · exact (h.published he hlt).imp_left fun he => List.mem_append_left _ he
      · exact .inl (List.mem_append_right _ he)
    · obtain ⟨hlow, hhigh, e, he, hn⟩ := h.sent hn
      exact ⟨hlow, hhigh, e, hsub he, hn⟩
  · obtain hclosed | hopen | ⟨-, -, hlifecycle⟩ := hk
    · exact .inl hclosed
    · exact .inr (.inl hopen)
    · exact absurd hlifecycle happlied.running

/-! ## Runs -/

/-- No envelope takes the place of a newer one that was not read. -/
def CarefulStep (capacity : Nat) (s : Notifier) (label : Option SessionEventEnvelopeV2) (s' : Notifier) : Prop :=
  Step capacity s label s' ∧ ∀ x, label = some x → ¬s.Overtakes x

structure Invariant (first : Nat) (s : Notifier) : Prop where
  commits : Commits first s
  phase : Off s ∨ ∃ a upto, Live first a upto s

/-- The same, when nothing is overtaken. -/
structure CarefulInvariant (first : Nat) (s : Notifier) : Prop where
  commits : Commits first s
  phase : Off s ∨ ∃ a upto, Live first a upto s ∧ Keeps a upto s

theorem Commits.step {label : Option SessionEventEnvelopeV2} (h : Commits first s) (hs : Step capacity s label s') :
    Commits first s' := by
  obtain ⟨_, _, _, _, _, hprepare, rfl⟩ | rfl | ⟨envelope, confirmed, hmem, rfl⟩ | hm := step_cases hs
  · exact h.commit hprepare
  · exact h.same rfl rfl id
  · exact h.same rfl rfl fun he => List.mem_of_mem_erase he
  · exact h.same hm.projection hm.committed fun he => hm.unpublished ▸ he

/-- One step, of a run in which nothing is overtaken or of any other. -/
theorem Live.step {label : Option SessionEventEnvelopeV2} (h : Live first a upto s) (hcommits : Commits first s)
    (hs : Step capacity s label s') : ∃ upto', Live first a upto' s' ∧
      ((∀ x, label = some x → ¬s.Overtakes x) → Keeps a upto s → Keeps a upto' s') := by
  obtain ⟨_, _, _, _, _, hprepare, rfl⟩ | rfl | ⟨envelope, confirmed, hmem, rfl⟩ | hm := step_cases hs
  · exact ⟨upto, (h.commit hprepare).1, fun _ => (h.commit hprepare).2⟩
  · rw [h.activate]
    exact ⟨upto, h, fun _ => id⟩
  · obtain ⟨upto', hlive, hkeeps⟩ := h.publish hcommits hmem confirmed
    exact ⟨upto', hlive, fun _ => hkeeps⟩
  · exact ⟨upto, h.moved hm, fun hno hk => hk.moved h hcommits hm hno⟩

theorem Off.step {label : Option SessionEventEnvelopeV2} (h : Off s) (hcommits : Commits first s)
    (hs : Step capacity s label s') : Off s' ∨ Live first s.newest s.newest s' ∧ Keeps s.newest s.newest s' := by
  obtain ⟨_, _, _, _, _, hprepare, rfl⟩ | rfl | ⟨envelope, confirmed, hmem, rfl⟩ | hm := step_cases hs
  · exact .inl { h with }
  · exact .inr (h.activate hcommits)
  · exact .inl (h.publish envelope confirmed)
  · exact .inl (h.moved hm)

theorem Invariant.step {label : Option SessionEventEnvelopeV2} (h : Invariant first s)
    (hs : Step capacity s label s') : Invariant first s' where
  commits := h.commits.step hs
  phase := by
    obtain hoff | ⟨a, upto, hlive⟩ := h.phase
    · exact (hoff.step h.commits hs).imp_right fun hlive => ⟨_, _, hlive.1⟩
    · obtain ⟨upto', hlive', -⟩ := hlive.step h.commits hs
      exact .inr ⟨a, upto', hlive'⟩

theorem CarefulInvariant.step {label : Option SessionEventEnvelopeV2} (h : CarefulInvariant first s)
    (hs : CarefulStep capacity s label s') : CarefulInvariant first s' where
  commits := h.commits.step hs.1
  phase := by
    obtain hoff | ⟨a, upto, hlive, hkeeps⟩ := h.phase
    · exact (hoff.step h.commits hs.1).imp_right fun hlive => ⟨_, _, hlive⟩
    · obtain ⟨upto', hlive', hkeeps'⟩ := hlive.step h.commits hs.1
      exact .inr ⟨a, upto', hlive', hkeeps' hs.2 hkeeps⟩

omit [External] [EventSerde] in
theorem commits_start (projection : ManagementProjection) :
    Commits projection.snapshot.cursor.seq { projection } where
  le := Nat.le_refl _
  limit := .inl rfl
  all hn hle := absurd hle (Nat.not_le.mpr hn)
  bounds := fun he => nomatch he
  unique := fun he => nomatch he
  unpublished := fun he => nomatch he
  terminal := fun he => nomatch he

omit [External] [EventSerde] in
theorem off_start (projection : ManagementProjection) : Off { projection } := by
  refine ⟨rfl, fun _ => rfl, rfl, ?_, rfl, rfl, nofun⟩
  rintro e (⟨_, he, -⟩ | ⟨_, he, -⟩ | ⟨he, -⟩ | ⟨_, he, -⟩) <;> cases he

omit [External] [EventSerde] in
/-- When all is quiet, everything was handed on. -/
theorem Live.quiet (h : Live first a upto s) (hcommits : Commits first s) (hquiet : s.Quiet) :
    upto = s.newest ∧ ∀ {e}, ¬s.Held e := by
  refine ⟨?_, ?_⟩
  · by_contra hne
    have htop := h.top
    have hle := h.le
    have hfirst := h.first
    have hlimit := hcommits.limit
    obtain ⟨e, he, hseq⟩ := hcommits.all (n := upto + 1) (by omega) (by omega)
    obtain hp | hp := h.published he (by omega)
    · rw [hquiet.published] at hp
      cases hp
    · rw [hseq] at hp
      cases (h.stop (by omega)).symm.trans hp
  · rintro e (⟨call, hcall, he⟩ | ⟨work, hw, -⟩ | ⟨hunread, -⟩ | ⟨work, hw, -⟩)
    · have hdone := hquiet.calls call hcall
      unfold Publishing.isDone at hdone
      obtain he | he := he
      · split at hdone
        · rw [List.isEmpty_iff.mp hdone] at he
          cases he
        · cases hdone
      · rw [he] at hdone
        cases hdone
    · rw [hquiet.queue] at hw
      cases hw
    · cases hquiet.unread.symm.trans hunread
    · cases hquiet.current.symm.trans hw

/-- **Live notifications.** The cursors that are sent only grow, and each is of an event that was committed behind the
activation. If none takes the place of a newer one in the slot `latest` before it is read, the last one sent is the
newest of all once everything is published and the task idle, unless the notifier was closed. -/
theorem live_notifications {projection : ManagementProjection} {labels : List (Option SessionEventEnvelopeV2)}
    (h : Lts.Run (Step capacity) { projection } labels s) :
    s.sent.Pairwise (· < ·) ∧
    (∀ n ∈ s.sent, ∃ a, s.activatedAt = some a ∧ a < n ∧ n ≤ s.newest ∧ ∃ e ∈ s.committed, e.cursor.seq = n) ∧
    (Lts.Run (CarefulStep capacity) { projection } labels s → s.Quiet → s.closed = false →
      ∀ a, s.activatedAt = some a → a < s.newest → s.sent.getLast? = some s.newest) := by
  have hinv : Invariant projection.snapshot.cursor.seq s :=
    h.invariant (Invariant _) (fun _ _ _ hs hstep => hs.step hstep)
      ⟨commits_start projection, .inl (off_start projection)⟩
  refine ⟨?_, ?_, fun hcareful hquiet hopen a ha hlt => ?_⟩
  · obtain hoff | ⟨a, upto, hlive⟩ := hinv.phase
    · rw [hoff.sent]
      exact .nil
    · exact hlive.sorted
  · intro n hn
    obtain hoff | ⟨a, upto, hlive⟩ := hinv.phase
    · rw [hoff.sent] at hn
      cases hn
    · obtain ⟨hlow, -, e, he, hseq⟩ := hlive.sent hn
      exact ⟨a, hlive.activatedAt, hlow, hseq ▸ (hinv.commits.bounds he).2, e, he, hseq⟩
  · have hinv : CarefulInvariant projection.snapshot.cursor.seq s :=
      hcareful.invariant (CarefulInvariant _) (fun _ _ _ hs hstep => hs.step hstep)
        ⟨commits_start projection, .inl (off_start projection)⟩
    obtain hoff | ⟨a', upto, hlive, hkeeps⟩ := hinv.phase
    · cases hoff.activatedAt.symm.trans ha
    · obtain rfl := Option.some.inj (hlive.activatedAt.symm.trans ha)
      obtain ⟨rfl, hnone⟩ := hlive.quiet hinv.commits hquiet
      have hlast : s.lastSent = s.newest := by
        obtain hclosed | ⟨-, hkept⟩ | ⟨-, hlast, -⟩ := hkeeps
        · cases hopen.symm.trans hclosed
        · obtain hlast | ⟨e, he, -⟩ := hkept hlt
          · exact hlast
          · exact absurd he hnone
        · exact hlast
      obtain ⟨-, hzero⟩ | hsent := hlive.last
      · omega
      · rw [hsent, hlast]

/-- A step that does not write to `latest`. -/
theorem careful (h : Step capacity s none s') : CarefulStep capacity s none s' :=
  ⟨h, fun _ he => nomatch he⟩

/-- It is activated, and nothing was sent. -/
structure Fresh (s : Notifier) : Prop where
  stopped : s.stopped = false
  closed : s.closed = false
  unread : s.unread = false
  lastSent : s.lastSent = 0
  activatedAt : s.activatedAt = some 0

/-- An event that is committed, published and sent. -/
theorem first_sent {projection projection' : ManagementProjection} {envelope : SessionEventEnvelopeV2}
    (hstart : projection.snapshot.cursor.seq = 0)
    (hprepare : projection.prepare 7 (.metadataChanged []) none = .ok (projection', envelope)) :
    ∃ labels s, Lts.Run (CarefulStep 1) { projection } labels s ∧ s.Quiet ∧ s.closed = false ∧
      s.activatedAt = some 0 ∧ s.newest = 1 := by
  obtain ⟨happlied, henvelope, -⟩ := ManagementProjection.prepare_ok hprepare
  have hseq : envelope.cursor.seq = 1 := by
    have hnext : envelope.cursor.seq = projection.snapshot.cursor.seq + 1 := by rw [henvelope]
    rw [hnext, hstart]
  have hready : ((({} : NotificationOrder).activate 0).ordered envelope).2 = [envelope] := by
    have hlen : ((KeyMap.empty : KeyMap Nat SessionEventEnvelopeV2).insert 1 envelope).entries.length = 1 := rfl
    have hactivate : ({} : NotificationOrder).activate 0 = { enabled := true, nextSeq := some 1 } := rfl
    simp [hactivate, NotificationOrder.ordered, hseq, hlen, NotificationOrder.drain, KeyMap.get?_insert_self]
  have hopen : NotificationWork.terminal ⟨envelope, false⟩ = false := by
    rw [henvelope]
    rfl
  -- every state is abstracted to what the next step reads of it
  obtain ⟨s, hs, horder, hprojection, hcalls, hqueue, hunpublished, hcurrent, hfresh⟩ :
      ∃ s, Lts.Run (CarefulStep 1) { projection } [none] s ∧ s.order = ({} : NotificationOrder).activate 0 ∧
        s.projection = projection ∧ s.calls = [] ∧ s.queue = [] ∧ s.unpublished = [] ∧ s.current = none ∧ s.Fresh :=
    have hactivate : CarefulStep 1 { projection } none (Notifier.activate { projection }) := careful Step.activate
    ⟨_, .single hactivate, congrArg ({} : NotificationOrder).activate hstart, rfl, rfl, rfl, rfl, rfl,
      rfl, rfl, rfl, rfl, congrArg some hstart⟩
  obtain ⟨t, ht, horder, hnewest, hcalls, hqueue, hunpublished, hcurrent, hfresh⟩ :
      ∃ t, Lts.Run (CarefulStep 1) { projection } _ t ∧ t.order = ({} : NotificationOrder).activate 0 ∧
        t.newest = 1 ∧ t.calls = [] ∧ t.queue = [] ∧ t.unpublished = [envelope] ∧ t.current = none ∧ t.Fresh :=
    ⟨_, hs.snoc (careful (Step.commit (hprojection.symm ▸ hprepare))), horder,
      (congrArg Cursor.seq happlied.cursor_eq).trans hseq, hcalls, hqueue, by rw [hunpublished]; rfl, hcurrent,
      hfresh.stopped, hfresh.closed, hfresh.unread, hfresh.lastSent, hfresh.activatedAt⟩
  have hone : t.calls ++ [{ confirmed := none, ready := (t.order.ordered envelope).2 : Publishing }] =
      [{ confirmed := none, ready := [envelope] }] := by
    rw [hcalls, horder, hready, List.nil_append]
  have hnone : t.unpublished.erase envelope = [] := by
    rw [hunpublished]
    exact List.erase_cons_head _ _
  have hmem : envelope ∈ t.unpublished := hunpublished ▸ List.mem_singleton_self _
  obtain ⟨u, hu, hnewest, hcalls, hqueue, hunpublished, hcurrent, hfresh⟩ :
      ∃ u, Lts.Run (CarefulStep 1) { projection } _ u ∧ u.newest = 1 ∧
        u.calls = [{ confirmed := none, ready := [envelope] }] ∧ u.queue = [] ∧ u.unpublished = [] ∧
        u.current = none ∧ u.Fresh :=
    ⟨_, ht.snoc (careful (Step.publish hmem false)), hnewest, hone, hqueue, hnone, hcurrent,
      hfresh.stopped, hfresh.closed, hfresh.unread, hfresh.lastSent, hfresh.activatedAt⟩
  have hslots : u.slots < 1 := by simp [slots, hqueue, hcalls, Publishing.isGranted]
  have hcall : u.calls[0]? = some { confirmed := none, ready := [envelope] } := by
    rw [hcalls]
    rfl
  obtain ⟨v, hv, hnewest, hcalls, hqueue, hunpublished, hcurrent, hfresh⟩ :
      ∃ v, Lts.Run (CarefulStep 1) { projection } _ v ∧ v.newest = 1 ∧
        v.calls = [{ confirmed := none, ready := [] }] ∧ v.queue = [⟨envelope, false⟩] ∧ v.unpublished = [] ∧
        v.current = none ∧ v.Fresh :=
    ⟨_, hu.snoc (careful (Step.queued hcall hfresh.stopped hslots)), hnewest, by simp [put, hcalls], by rw [hqueue]; rfl,
      hunpublished, hcurrent, hfresh.stopped, hfresh.closed, hfresh.unread, hfresh.lastSent, hfresh.activatedAt⟩
  obtain ⟨w, hw, hnewest, hcalls, hqueue, hunpublished, hcurrent, hfresh⟩ :
      ∃ w, Lts.Run (CarefulStep 1) { projection } _ w ∧ w.newest = 1 ∧
        w.calls = [{ confirmed := none, ready := [] }] ∧ w.queue = [] ∧ w.unpublished = [] ∧
        w.current = some ⟨envelope, false⟩ ∧ w.Fresh :=
    ⟨_, hv.snoc (careful (Step.take hcurrent hfresh.stopped hqueue)), hnewest, hcalls, rfl,
      hunpublished, rfl, hfresh.stopped, hfresh.closed, hfresh.unread, hfresh.lastSent, hfresh.activatedAt⟩
  have hlt : w.lastSent < envelope.cursor.seq := by
    rw [hfresh.lastSent, hseq]
    exact Nat.zero_lt_one
  refine ⟨_, _, hw.snoc (careful (Step.deliver hcurrent hfresh.stopped hlt)), ?_, ?_, ?_, ?_⟩ <;>
    simp only [deliver, hopen, Bool.false_eq_true, if_false]
  · refine ⟨hunpublished, fun call hcall => ?_, hqueue, hfresh.unread, rfl⟩
    obtain rfl := List.mem_singleton.mp (hcalls ▸ hcall)
    rfl
  · exact hfresh.closed
  · exact hfresh.activatedAt
  · exact hnewest

omit [External] [EventSerde] in
/-- An event that is committed, published and sent. -/
theorem live_notifications_sample : let _ : External := Sample.host
    let _ : EventSerde := Sample.serde
    ∃ labels s, Lts.Run (CarefulStep 1) { projection := Sample.managementRecord.projection } labels s ∧ s.Quiet ∧
      s.sent.getLast? = some 1 := by
  let _ : External := Sample.host
  let _ : EventSerde := Sample.serde
  obtain ⟨⟨projection, envelope⟩, hprepare⟩ :
      ∃ next, Sample.managementRecord.projection.prepare 7 (.metadataChanged []) none = .ok next := by
    have hok : (Sample.managementRecord.projection.prepare 7 (.metadataChanged []) none).isOk = true := by decide
    cases hp : Sample.managementRecord.projection.prepare 7 (.metadataChanged []) none with
    | error => rw [hp] at hok; cases hok
    | ok next => exact ⟨next, rfl⟩
  obtain ⟨labels, s, hs, hquiet, hclosed, hactive, hnewest⟩ := first_sent rfl hprepare
  obtain ⟨-, -, hsent⟩ := live_notifications (hs.mono And.left)
  have hlt : 0 < s.newest := hnewest ▸ Nat.zero_lt_one
  exact ⟨labels, s, hs, hquiet, (hsent hs hquiet hclosed 0 hactive hlt).trans (congrArg some hnewest)⟩

end Notifier

end Whale
