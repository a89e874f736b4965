import Whale.Protocol.Proof.Reducer

/-!
# Terminal events are accepted

A `Finished` event of the active run is accepted by both reducers when its snapshot is a terminal one of
the run, every id it offers is a valid identity and no counter is exhausted
(`SessionSnapshot.applied_finished`, `SessionSnapshotV2.applied_finished`). The window itself stays valid:
an item is appended only when its id is not in it.
-/

namespace Whale

open Check

/-! ## Windows -/

namespace SessionHistoryWindow

/-- What `validate` says of a window. -/
structure Valid (w : SessionHistoryWindow) : Prop where
  capacity : 0 < w.capacity ∧ w.capacity ≤ maxSessionHistoryLimit
  length : w.items.length = min w.totalItems w.capacity
  start : w.startIndex + w.items.length = w.totalItems
  bound : w.totalItems ≤ u64Max
  identities : ∀ item ∈ w.items, validateIdentity item.id "history item_id" = .ok ()
  distinct : (w.items.map (·.id)).Nodup

theorem validate_iff {w : SessionHistoryWindow} : w.validate = .ok () ↔ w.Valid := by
  constructor
  · intro h
    unfold validate at h
    obtain ⟨_, hcap, h⟩ := bind_ok h
    obtain ⟨hsize, h⟩ := refuse_bind_ok h
    obtain ⟨h1, h2⟩ := Bool.or_eq_false_iff.mp (refuse_ok hcap)
    obtain ⟨h3, h4⟩ := Bool.or_eq_false_iff.mp hsize
    obtain ⟨h5, h6, -⟩ := distinct_ok_iff.mp h
    obtain ⟨h7, h8⟩ := UsageMetrics.checkedAdd64_some.mp (bne_eq_false_iff_eq.mp h4)
    refine ⟨⟨Nat.pos_of_ne_zero (by simpa using h1), ?_⟩, bne_eq_false_iff_eq.mp h3, h7, h8, h5, h6⟩
    exact Nat.le_of_not_lt (of_decide_eq_false h2)
  · intro h
    have hcap : validateHistoryCapacity w.capacity = .ok () := by
      unfold validateHistoryCapacity
      rw [refuse_ok_iff, Bool.or_eq_false_iff]
      exact ⟨beq_eq_false_iff_ne.mpr (Nat.ne_of_gt h.capacity.1),
        decide_eq_false (Nat.not_lt.mpr h.capacity.2)⟩
    unfold validate
    rw [hcap, ok_bind, refuse_bind_ok_iff]
    refine ⟨?_, distinct_ok_iff.mpr ⟨h.identities, h.distinct, by simp⟩⟩
    rw [Bool.or_eq_false_iff]
    exact ⟨bne_eq_false_iff_eq.mpr h.length,
      bne_eq_false_iff_eq.mpr (UsageMetrics.checkedAdd64_some.mpr ⟨h.start, h.bound⟩)⟩

variable {w : SessionHistoryWindow}

/-- An item with a valid id is appended or known, and the window stays valid. -/
theorem Valid.append (h : w.Valid) (known : Bool) {item : CanonicalItem}
    (hid : validateIdentity item.id "history item_id" = .ok ()) (hlt : w.totalItems < u64Max) :
    ∃ w', w.appendUnlessKnown item known = .ok w' ∧ w'.Valid ∧ w'.totalItems ≤ w.totalItems + 1 := by
  unfold appendUnlessKnown
  by_cases hk : (known || w.holds item.id) = true
  · rw [if_pos hk]
    exact ⟨w, rfl, h, Nat.le_succ _⟩
  · rw [if_neg hk, hid, ok_bind]
    unfold checkedSucc
    rw [if_pos hlt]
    simp only [orElse_some, ok_bind]
    obtain ⟨hpos, hmax⟩ := h.capacity
    have hlen := h.length
    have hstart := h.start
    have hdrop : ((w.items ++ [item]).drop ((w.items ++ [item]).length - w.capacity)).length =
        min (w.totalItems + 1) w.capacity := by
      rw [List.length_drop, List.length_append, List.length_singleton]
      omega
    have hsmall : ¬ w.totalItems + 1 <
        ((w.items ++ [item]).drop ((w.items ++ [item]).length - w.capacity)).length := by
      rw [hdrop]
      omega
    rw [decide_eq_false hsmall, refuse_false, ok_bind]
    have hsub := List.drop_sublist ((w.items ++ [item]).length - w.capacity) (w.items ++ [item])
    refine ⟨_, rfl, ⟨h.capacity, hdrop, ?_, hlt, ?_, ?_⟩, Nat.le_refl _⟩
    · show w.totalItems + 1 - _ + _ = w.totalItems + 1
      rw [hdrop]
      omega
    · intro i hi
      rcases List.mem_append.mp (hsub.subset hi) with hi | hi
      · exact h.identities i hi
      · rw [List.mem_singleton.mp hi]
        exact hid
    · -- the new id is not in the window
      refine (hsub.map _).nodup ?_
      rw [List.map_append]
      refine List.nodup_append.mpr ⟨h.distinct, by simp, ?_⟩
      intro a ha b hb heq
      rw [Bool.or_eq_true, not_or] at hk
      apply hk.2
      obtain ⟨i, hi, rfl⟩ := List.mem_map.mp ha
      have hb' : b = item.id := by simpa using hb
      exact List.any_eq_true.mpr ⟨i, hi, by simp [heq, hb']⟩

/-- Items with valid ids, one after another. -/
theorem Valid.appendItems (known : List CanonicalItem) : ∀ {items : List CanonicalItem}
    {w : SessionHistoryWindow}, w.Valid →
    (∀ item ∈ items, validateIdentity item.id "history item_id" = .ok ()) →
    w.totalItems + items.length ≤ u64Max →
    ∃ w', SessionSnapshot.appendItems known w items = .ok w' ∧ w'.Valid
  | [], w, h, _, _ => ⟨w, rfl, h⟩
  | item :: items, w, h, hids, hbound => by
    rw [List.length_cons] at hbound
    obtain ⟨w₁, hw₁, hv₁, hle⟩ := h.append (known.any (·.id == item.id))
      (hids item List.mem_cons_self) (by omega)
    obtain ⟨w₂, hw₂, hv₂⟩ := Valid.appendItems known hv₁
      (fun i hi => hids i (List.mem_cons_of_mem _ hi)) (by omega)
    refine ⟨w₂, ?_, hv₂⟩
    unfold SessionSnapshot.appendItems
    rw [hw₁, ok_bind]
    exact hw₂

end SessionHistoryWindow

/-! ## Summaries -/

namespace SessionSummary

variable {s : SessionSummary} (occurredAtMs revision : Nat)

theorem validateRest_advance (h : s.validateRest = .ok ()) :
    ({ s with updatedAtMs := max s.updatedAtMs occurredAtMs, revision } : SessionSummary).validateRest =
      .ok () := by
  obtain ⟨hname, htime⟩ := refuse_bind_ok h
  have htime' := of_decide_eq_false (refuse_ok htime)
  refine refuse_bind_ok_iff.mpr ⟨hname, refuse_ok_iff.mpr (decide_eq_false ?_)⟩
  show ¬ max s.updatedAtMs occurredAtMs < s.createdAtMs
  omega

theorem validate_advance (h : s.validate = .ok ()) :
    ({ s with updatedAtMs := max s.updatedAtMs occurredAtMs, revision } : SessionSummary).validate =
      .ok () := by
  obtain ⟨_, hid, hrest⟩ := bind_ok h
  unfold validate
  rw [hid, ok_bind]
  exact validateRest_advance _ _ hrest

theorem validateV2_advance (h : s.validateV2 = .ok ()) :
    ({ s with updatedAtMs := max s.updatedAtMs occurredAtMs, revision } : SessionSummary).validateV2 =
      .ok () := by
  obtain ⟨_, hid, hrest⟩ := bind_ok h
  unfold validateV2
  rw [hid, ok_bind]
  exact validateRest_advance _ _ hrest

end SessionSummary

/-! ## V1 -/

namespace SessionSnapshot

variable {s : SessionSnapshot}

/-- A terminal snapshot of a run, in the event of the run's last position. -/
structure Finishes (event : RunEvent) (snapshot : RunSnapshot) (threadId turnId : String) : Prop where
  payload : event.payload = .finished snapshot
  thread : event.threadId = threadId ∧ snapshot.threadId = threadId
  turn : event.turnId = turnId ∧ snapshot.turnId = turnId
  seq : 0 < event.seq ∧ snapshot.lastSeq = event.seq
  status : snapshot.status.isTerminal = true

/-- The envelope of the next cursor. -/
def nextEnvelope (s : SessionSnapshot) (occurredAtMs : Nat) (payload : SessionEventPayload) :
    SessionEventEnvelope :=
  ⟨s.summary.threadId, { s.cursor with seq := s.cursor.seq + 1 }, occurredAtMs, payload⟩

theorem Valid.turnId_active (hv : s.Valid) {active : SessionRunView} (hact : s.activeRun = some active) :
    validateIdentity active.snapshot.turnId "turn_id" = .ok () := by
  obtain ⟨_, -, h⟩ := bind_ok (hv.active active hact).1
  obtain ⟨_, h, -⟩ := bind_ok h
  exact h

/-- The envelope of an event of the active run is valid. -/
theorem validate_nextEnvelope (hv : s.Valid) {event : RunEvent} {active : SessionRunView}
    (hact : s.activeRun = some active) (hturn : event.turnId = active.snapshot.turnId)
    (hthread : event.threadId = s.summary.threadId) (hseq : 0 < event.seq) (occurredAtMs : Nat) :
    (s.nextEnvelope occurredAtMs (.runEvent event)).validate = .ok () := by
  have hid : validateIdentity s.summary.threadId "thread_id" = .ok () := by
    obtain ⟨_, h, -⟩ := bind_ok hv.summary
    exact h
  have hrun : validateIdentity event.turnId "turn_id" = .ok () := by
    rw [hturn]
    exact hv.turnId_active hact
  unfold SessionEventEnvelope.validate nextEnvelope
  simp only
  rw [hid, ok_bind, show ({ s.cursor with seq := s.cursor.seq + 1 } : Cursor).validate = .ok () from
    hv.cursor, ok_bind, refuse_bind_ok_iff]
  refine ⟨by simp [hv.thread], ?_⟩
  rw [refuse_bind_ok_iff]
  refine ⟨by simp, ?_⟩
  rw [hrun, ok_bind, refuse_ok_iff]
  simp only [hthread, bne_self_eq_false, Bool.false_or, beq_eq_false_iff_ne]
  omega

/-- The reducer accepts a terminal event of the active run. -/
theorem applied_finished (hs : s.validate = .ok ()) (hlt : s.cursor.seq < u64Max) {event : RunEvent}
    {snapshot : RunSnapshot} {active : SessionRunView} (hact : s.activeRun = some active)
    (hf : Finishes event snapshot s.summary.threadId active.snapshot.turnId)
    (hids : ∀ item ∈ snapshot.items, validateIdentity item.id "history item_id" = .ok ())
    (hbound : s.history.totalItems + snapshot.items.length ≤ u64Max) (occurredAtMs : Nat) :
    ∃ s', s.Applied (s.nextEnvelope occurredAtMs (.runEvent event)) s' ∧ s'.activeRun = none ∧
      s'.lastRun = some (finishedSummary active event snapshot occurredAtMs) := by
  have hv := validate_iff.mp hs
  obtain ⟨w, hw, hwv⟩ := SessionHistoryWindow.Valid.appendItems active.snapshot.items
    (SessionHistoryWindow.validate_iff.mp hv.history) hids hbound
  have hterm : (!snapshot.status.isTerminal || snapshot.threadId != s.summary.threadId ||
      snapshot.turnId != event.turnId || snapshot.lastSeq != event.seq) = false := by
    simp [hf.status, hf.thread.2, hf.turn.1, hf.turn.2, hf.seq.2]
  have hpay : s.applyPayload (s.nextEnvelope occurredAtMs (.runEvent event)) = .ok { s with
      history := w
      lastRun := some (finishedSummary active event snapshot occurredAtMs)
      activeRun := none } := by
    unfold applyPayload nextEnvelope
    simp only [hf.payload]
    unfold applyFinished
    rw [hterm, refuse_false, ok_bind, hact, orElse_some, ok_bind, refuse_bind_ok_iff]
    refine ⟨by simp [hf.turn.1], ?_⟩
    rw [hw, ok_bind]
  refine ⟨_, ⟨hs, validate_nextEnvelope hv hact hf.turn.1 hf.thread.1 hf.seq.1 occurredAtMs, rfl, hlt,
    ⟨_, hpay, rfl⟩, ?_⟩, rfl, rfl⟩
  rw [validate_iff]
  refine ⟨SessionSummary.validate_advance _ _ hv.summary, hv.cursor, hv.thread, rfl,
    SessionHistoryWindow.validate_iff.mpr hwv, nofun, fun run hr => ?_⟩
  cases hr
  show validateIdentity event.turnId _ >>= _ = _
  rw [hf.turn.1, hv.turnId_active hact, ok_bind]
  refine refuse_bind_ok_iff.mpr ⟨by simp [finishedSummary, hf.status], refuse_ok_iff.mpr ?_⟩
  rw [decide_eq_false_iff_not]
  exact Nat.not_lt.mpr (Nat.le_max_right _ _)

end SessionSnapshot

/-! ## V2 -/

theorem validateIdentity_of_V2 {value name : String} (h : validateIdentityV2 value name = .ok ())
    (label : String) : validateIdentity value label = .ok () := by
  have := refuse_ok h
  rw [Bool.or_eq_false_iff] at this
  exact refuse_ok_iff.mpr this.1

theorem Cursor.validate_of_V2 {c : Cursor} (h : c.validateV2 = .ok ()) : c.validate = .ok () := by
  obtain ⟨_, h1, h2⟩ := bind_ok h
  unfold validate
  rw [validateIdentity_of_V2 h1, ok_bind, validateIdentity_of_V2 h2]

namespace SessionSnapshotV2

section
variable [External] {s : SessionSnapshotV2}

/-- The V1 snapshot of a valid V2 snapshot is valid. -/
theorem Valid.legacy (hv : s.Valid) : s.legacy.validate = .ok () := by
  obtain ⟨_, hid, hrest⟩ := bind_ok hv.summary
  refine SessionSnapshot.validate_iff.mpr ⟨?_, Cursor.validate_of_V2 hv.cursor, hv.thread, rfl, hv.history,
    fun run hr => ⟨(hv.active run hr).1, (hv.active run hr).2.1⟩, hv.last⟩
  show validateIdentity s.summary.threadId _ >>= _ = _
  rw [validateIdentity_of_V2 hid, ok_bind]
  exact hrest

/-- The envelope of the next cursor. -/
def nextEnvelope (s : SessionSnapshotV2) (occurredAtMs : Nat) (payload : SessionEventPayloadV2) :
    SessionEventEnvelopeV2 :=
  ⟨s.summary.threadId, { s.cursor with seq := s.cursor.seq + 1 }, occurredAtMs, payload⟩

/-- The envelope of the next cursor is valid when its payload is. -/
theorem Valid.validate_nextEnvelope (hv : s.Valid) (occurredAtMs : Nat) {payload : SessionEventPayloadV2}
    (hp : match payload with
      | .runEvent event =>
        ((s.nextEnvelope occurredAtMs payload).legacy (.runEvent event)).validate = .ok ()
      | .lifecycleChanged _ => True
      | _ => False) : (s.nextEnvelope occurredAtMs payload).validate = .ok () := by
  obtain ⟨_, hid, -⟩ := bind_ok hv.summary
  unfold SessionEventEnvelopeV2.validate
  rw [show (s.nextEnvelope occurredAtMs payload).threadId = s.summary.threadId from rfl, hid, ok_bind,
    show (s.nextEnvelope occurredAtMs payload).cursor.validateV2 = .ok () from hv.cursor, ok_bind,
    refuse_bind_ok_iff]
  refine ⟨by simp [nextEnvelope, hv.thread], ?_⟩
  rw [refuse_bind_ok_iff]
  refine ⟨by simp [nextEnvelope], ?_⟩
  cases payload with
  | runEvent event => exact hp
  | lifecycleChanged lifecycle => rfl
  | runChanged run => exact hp.elim
  | metadataChanged metadata => exact hp.elim

/-- The reducer accepts a terminal event of the active run. -/
theorem applied_finished (hs : s.validate = .ok ()) (hlt : s.cursor.seq < u64Max) {event : RunEvent}
    {snapshot : RunSnapshot} {active : SessionRunView} (hact : s.activeRun = some active)
    (hf : SessionSnapshot.Finishes event snapshot s.summary.threadId active.snapshot.turnId)
    (hids : ∀ item ∈ snapshot.items, validateIdentity item.id "history item_id" = .ok ())
    (hbound : s.history.totalItems + snapshot.items.length ≤ u64Max) (occurredAtMs : Nat) :
    ∃ s', s.Applied (s.nextEnvelope occurredAtMs (.runEvent event)) s' ∧ s'.activeRun = none ∧
      s'.lifecycle = s.lifecycle := by
  have hv := validate_iff.mp hs
  obtain ⟨next, happ, hnone, -⟩ := SessionSnapshot.applied_finished hv.legacy hlt hact hf hids hbound
    occurredAtMs
  have htarget := SessionSnapshot.validate_iff.mp happ.target
  have hpay : s.applyPayload (s.nextEnvelope occurredAtMs (.runEvent event)) = .ok { s with
      history := next.history
      activeRun := next.activeRun
      lastRun := next.lastRun } := by
    show s.applyV1Payload _ _ = _
    unfold applyV1Payload
    rw [show s.legacy.apply ((s.nextEnvelope occurredAtMs (.runEvent event)).legacy (.runEvent event)) =
      .ok (next, true) from SessionSnapshot.apply_of_applied happ]
    rfl
  refine ⟨_, ⟨hs, hv.validate_nextEnvelope occurredAtMs happ.event, (hv.active active hact).2.2, rfl, hlt,
    ⟨_, hpay, rfl⟩, ?_⟩, hnone, rfl⟩
  rw [validate_iff]
  refine ⟨SessionSummary.validateV2_advance _ _ hv.summary, hv.persistence, htarget.history, hv.cursor,
    hv.thread, rfl, fun run hr => ?_, htarget.last⟩
  have hr' : next.activeRun = some run := hr
  rw [hnone] at hr'
  cases hr'

/-- A session without an active run takes the next step of its lifecycle. -/
theorem applied_lifecycle (hs : s.validate = .ok ()) (hlt : s.cursor.seq < u64Max)
    (hidle : s.activeRun = none) {next : SessionLifecycleState}
    (hnext : (s.lifecycle = .opened ∧ next = .closing) ∨ (s.lifecycle = .closing ∧ next = .closed))
    (occurredAtMs : Nat) :
    ∃ s', s.Applied (s.nextEnvelope occurredAtMs (.lifecycleChanged next)) s' ∧ s'.activeRun = none ∧
      s'.lifecycle = next ∧ s'.persistence = s.persistence ∧ s'.summary.threadId = s.summary.threadId := by
  have hv := validate_iff.mp hs
  have hpay : s.applyPayload (s.nextEnvelope occurredAtMs (.lifecycleChanged next)) =
      .ok { s with lifecycle := next } := by
    show s.applyLifecycle next = _
    unfold applyLifecycle
    rcases hnext with ⟨hl, rfl⟩ | ⟨hl, rfl⟩
    · rw [hl]
    · simp [hl, hidle]
  have hopen : s.lifecycle ≠ .closed := by
    rcases hnext with ⟨hl, -⟩ | ⟨hl, -⟩
    · simp [hl]
    · simp [hl]
  refine ⟨_, ⟨hs, hv.validate_nextEnvelope occurredAtMs trivial, hopen, rfl, hlt, ⟨_, hpay, rfl⟩, ?_⟩,
    hidle, rfl, rfl, rfl⟩
  rw [validate_iff]
  refine ⟨SessionSummary.validateV2_advance _ _ hv.summary, hv.persistence, hv.history, hv.cursor,
    hv.thread, rfl, fun run hr => ?_, hv.last⟩
  have hr' : s.activeRun = some run := hr
  rw [hidle] at hr'
  cases hr'

end

end SessionSnapshotV2

end Whale
