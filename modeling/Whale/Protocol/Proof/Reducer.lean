import Whale.Protocol.Proof.Views

/-!
# What the reducer reads

`applyPayload` reads the thread, the history window and the active run of a snapshot, and nothing else
of its summary and its cursor (`SessionSnapshot.applyPayload_under`). V2 sends run events through V1, so
both versions make the same change of history, active run and last run.
-/

namespace Whale

open Check

namespace SessionSnapshot

/-- The snapshot under another summary and at another cursor. -/
def under (s : SessionSnapshot) (summary : SessionSummary) (cursor : Cursor) : SessionSnapshot :=
  { s with summary, cursor }

variable {s : SessionSnapshot} {summary : SessionSummary} {cursor : Cursor}

theorem applyToRun_under (h : summary.threadId = s.summary.threadId) (run : SessionRunView)
    (stream : AgentStreamEvent) :
    (s.under summary cursor).applyToRun run stream =
      (s.applyToRun run stream).map (·.under summary cursor) := by
  cases stream with
  | toolProgress | toolExecutionStarted | approvalRequested | turnCompleted | turnFailed => rfl
  | turnStarted turnId threadId =>
    simp only [applyToRun, except_map_bind, under, h]
    rfl
  | itemStarted turnId itemId itemType phase =>
    simp only [applyToRun]
    rw [apply_ite (Except.map _)]
    rfl
  | textDelta | reasoningDelta | reasoningSignature | toolCallDelta | itemCompleted =>
    simp only [applyToRun, except_map_bind]
    rfl

theorem applyStreamEvent_under (h : summary.threadId = s.summary.threadId) (event : RunEvent)
    (stream : AgentStreamEvent) (occurredAtMs : Nat) :
    (s.under summary cursor).applyStreamEvent event stream occurredAtMs =
      (s.applyStreamEvent event stream occurredAtMs).map (·.under summary cursor) := by
  unfold applyStreamEvent
  simp only [except_map_bind]
  refine bind_congr fun run => bind_congr fun _ => bind_congr fun _ => ?_
  exact applyToRun_under h _ stream

/-- Another summary of the same thread and another cursor change nothing of what a payload does. -/
theorem applyPayload_under (s : SessionSnapshot) (summary : SessionSummary) (cursor : Cursor)
    (h : summary.threadId = s.summary.threadId) {e f : SessionEventEnvelope}
    (hp : f.payload = e.payload) (ht : f.occurredAtMs = e.occurredAtMs) :
    (s.under summary cursor).applyPayload f = (s.applyPayload e).map (·.under summary cursor) := by
  unfold applyPayload
  rw [hp, ht]
  cases e.payload with
  | runChanged run => rfl
  | runEvent event =>
    cases hev : event.payload with
    | stream stream =>
      simp only
      rw [hev]
      exact applyStreamEvent_under h event stream e.occurredAtMs
    | finished snapshot =>
      simp only
      rw [hev]
      simp only [applyFinished, except_map_bind, under, h]
      rfl

/-- The items of a run after a stream event. -/
def itemsAfter (items : List CanonicalItem) : AgentStreamEvent → List CanonicalItem
  | .itemCompleted _ item => appendCanonicalOnce items item
  | _ => items

theorem updateDraft_snapshot {run run' : SessionRunView} {itemId : String}
    {f : InProgressItem → InProgressItem} (h : run.updateDraft itemId f = .ok run') :
    run'.snapshot = run.snapshot := by
  unfold SessionRunView.updateDraft at h
  split at h
  · cases h
    rfl
  · cases h

/-- The active run after a stream event. -/
theorem applyToRun_active {n : SessionSnapshot} {run : SessionRunView} {stream : AgentStreamEvent}
    (h : s.applyToRun run stream = .ok n) :
    ∃ run', n.activeRun = some run' ∧ run'.snapshot.turnId = run.snapshot.turnId ∧
      run'.snapshot.items = itemsAfter run.snapshot.items stream := by
  cases stream with
  | toolProgress | toolExecutionStarted | approvalRequested | turnCompleted | turnFailed =>
    cases h
    exact ⟨_, rfl, rfl, rfl⟩
  | turnStarted turnId threadId =>
    obtain ⟨-, h⟩ := refuse_bind_ok h
    cases h
    exact ⟨_, rfl, rfl, rfl⟩
  | itemStarted turnId itemId itemType phase =>
    simp only [applyToRun] at h
    split at h
    · cases h
      exact ⟨_, rfl, rfl, rfl⟩
    · cases h
      exact ⟨_, rfl, rfl, rfl⟩
  | textDelta turnId itemId delta | reasoningDelta turnId itemId delta
  | reasoningSignature turnId itemId signature | toolCallDelta turnId itemId callId delta =>
    obtain ⟨drafted, hd, h⟩ := bind_ok h
    cases h
    have hs := updateDraft_snapshot hd
    exact ⟨drafted, rfl, by rw [hs], by rw [hs]; rfl⟩
  | itemCompleted turnId item =>
    obtain ⟨w, -, h⟩ := bind_ok h
    cases h
    exact ⟨_, rfl, rfl, rfl⟩

/-- Only a completed item changes the history. -/
theorem applyToRun_history {n : SessionSnapshot} {run : SessionRunView} {stream : AgentStreamEvent}
    (h : s.applyToRun run stream = .ok n) (hne : ∀ turnId item, stream ≠ .itemCompleted turnId item) :
    n.history = s.history := by
  cases stream with
  | toolProgress | toolExecutionStarted | approvalRequested | turnCompleted | turnFailed =>
    cases h
    rfl
  | turnStarted turnId threadId =>
    obtain ⟨-, h⟩ := refuse_bind_ok h
    cases h
    rfl
  | itemStarted turnId itemId itemType phase =>
    simp only [applyToRun] at h
    split at h
    · cases h
      rfl
    · cases h
      rfl
  | textDelta | reasoningDelta | reasoningSignature | toolCallDelta =>
    obtain ⟨drafted, -, h⟩ := bind_ok h
    cases h
    rfl
  | itemCompleted turnId item => exact absurd rfl (hne turnId item)

/-- What an accepted stream event found and left. -/
theorem applyStreamEvent_ok {n : SessionSnapshot} {event : RunEvent} {stream : AgentStreamEvent}
    {occurredAtMs : Nat} (h : s.applyStreamEvent event stream occurredAtMs = .ok n) :
    ∃ run, s.activeRun = some run ∧ run.snapshot.turnId = event.turnId ∧
      s.applyToRun (run.touched event.seq occurredAtMs) stream = .ok n := by
  obtain ⟨run, hrun, h⟩ := orElse_bind_ok h
  obtain ⟨hturn, h⟩ := refuse_bind_ok h
  obtain ⟨-, h⟩ := refuse_bind_ok h
  exact ⟨run, hrun, by simpa using hturn, h⟩

/-- What an accepted terminal event found and left. -/
theorem applyFinished_ok {n : SessionSnapshot} {event : RunEvent} {snapshot : RunSnapshot}
    {occurredAtMs : Nat} (h : s.applyFinished event snapshot occurredAtMs = .ok n) :
    ∃ active history, s.activeRun = some active ∧ active.snapshot.turnId = event.turnId ∧
      appendItems active.snapshot.items s.history snapshot.items = .ok history ∧
      n = { s with
        history
        lastRun := some (finishedSummary active event snapshot occurredAtMs)
        activeRun := none } := by
  obtain ⟨-, h⟩ := refuse_bind_ok h
  obtain ⟨active, hact, h⟩ := orElse_bind_ok h
  obtain ⟨hturn, h⟩ := refuse_bind_ok h
  obtain ⟨history, hh, h⟩ := bind_ok h
  cases h
  exact ⟨active, history, hact, by simpa using hturn, hh, rfl⟩

/-! ### Applied events -/

section
variable {s' : SessionSnapshot} {e : SessionEventEnvelope}

theorem Applied.runChanged (h : s.Applied e s') {run : SessionRunView} (hp : e.payload = .runChanged run) :
    s'.history = s.history ∧ s'.activeRun = some run := by
  obtain ⟨n, hn, rfl⟩ := h.payload
  unfold applyPayload at hn
  rw [hp] at hn
  cases hn
  exact ⟨rfl, rfl⟩

theorem Applied.stream (h : s.Applied e s') {event : RunEvent} {stream : AgentStreamEvent}
    (hp : e.payload = .runEvent event) (hev : event.payload = .stream stream) :
    ∃ run run', s.activeRun = some run ∧ s'.activeRun = some run' ∧
      run'.snapshot.items = itemsAfter run.snapshot.items stream ∧
      run'.snapshot.turnId = run.snapshot.turnId ∧
      ((∀ turnId item, stream ≠ .itemCompleted turnId item) → s'.history = s.history) := by
  obtain ⟨n, hn, rfl⟩ := h.payload
  unfold applyPayload at hn
  rw [hp] at hn
  simp only [hev] at hn
  obtain ⟨run, hrun, -, hn⟩ := applyStreamEvent_ok hn
  obtain ⟨run', hrun', hturn, hitems⟩ := applyToRun_active hn
  refine ⟨run, run', hrun, hrun', hitems, hturn, fun hne => ?_⟩
  show n.history = s.history
  exact applyToRun_history hn hne

theorem Applied.finished (h : s.Applied e s') {event : RunEvent} {snapshot : RunSnapshot}
    (hp : e.payload = .runEvent event) (hev : event.payload = .finished snapshot) :
    ∃ active, s.activeRun = some active ∧ s'.activeRun = none ∧
      s'.lastRun = some (finishedSummary active event snapshot e.occurredAtMs) ∧
      appendItems active.snapshot.items s.history snapshot.items = .ok s'.history := by
  obtain ⟨n, hn, rfl⟩ := h.payload
  unfold applyPayload at hn
  rw [hp] at hn
  simp only [hev] at hn
  obtain ⟨active, history, hact, -, hh, rfl⟩ := applyFinished_ok hn
  exact ⟨active, hact, rfl, rfl, hh⟩

end

end SessionSnapshot

/-! ## What both versions show -/

/-- The part of a snapshot that run events change. -/
structure SessionView where
  history : SessionHistoryWindow
  activeRun : Option SessionRunView
  lastRun : Option SessionRunSummary

def SessionSnapshot.view (s : SessionSnapshot) : SessionView := ⟨s.history, s.activeRun, s.lastRun⟩

def SessionSnapshotV2.view (s : SessionSnapshotV2) : SessionView := ⟨s.history, s.activeRun, s.lastRun⟩

/-- The V1 payload of a run event. -/
def SessionEventPayloadV2.run? : SessionEventPayloadV2 → Option SessionEventPayload
  | runChanged run => some (.runChanged run)
  | runEvent event => some (.runEvent event)
  | metadataChanged _ | lifecycleChanged _ => none

namespace SessionSnapshotV2

section
variable [External] {s s' : SessionSnapshotV2} {e : SessionEventEnvelopeV2}

omit [External] in
/-- A V1 payload that V2 accepts at its next cursor goes through the V1 reducer. -/
theorem applyV1Payload_ok {payload : SessionEventPayload}
    (hc : e.cursor = { s.cursor with seq := s.cursor.seq + 1 })
    (h : s.applyV1Payload e payload = .ok s') :
    ∃ next, s.legacy.Applied (e.legacy payload) next ∧
      s' = { s with
        history := next.history
        activeRun := next.activeRun
        lastRun := next.lastRun } := by
  obtain ⟨⟨next, b⟩, ha, h⟩ := bind_ok h
  rw [mapError_ok_iff] at ha
  cases h
  rcases SessionSnapshot.apply_ok ha with ⟨hle, -, -⟩ | ⟨-, ha, -⟩
  · have hseq : e.cursor.seq ≤ s.cursor.seq := hle
    rw [hc] at hseq
    exact absurd hseq (Nat.not_succ_le_self _)
  · exact ⟨next, ha, rfl⟩

theorem applyPayload_run {payload : SessionEventPayload} (hp : e.payload.run? = some payload)
    (h : s.applyPayload e = .ok s') : s.applyV1Payload e payload = .ok s' := by
  unfold applyPayload at h
  cases hpay : e.payload with
  | runChanged run =>
    rw [hpay] at h hp
    cases hp
    obtain ⟨_, -, h⟩ := bind_ok h
    exact h
  | runEvent event =>
    rw [hpay] at h hp
    cases hp
    exact h
  | metadataChanged metadata =>
    rw [hpay] at hp
    cases hp
  | lifecycleChanged lifecycle =>
    rw [hpay] at hp
    cases hp

/-- An applied run event shows what the V1 reducer makes of it. -/
theorem Applied.view_run (h : s.Applied e s') {payload : SessionEventPayload}
    (hp : e.payload.run? = some payload) :
    ∃ next, s.legacy.applyPayload (e.legacy payload) = .ok next ∧ s'.view = next.view := by
  obtain ⟨n, hn, rfl⟩ := h.payload
  obtain ⟨m, hm, rfl⟩ := applyV1Payload_ok h.cursor (applyPayload_run hp hn)
  obtain ⟨next, hnext, rfl⟩ := hm.payload
  exact ⟨next, hnext, rfl⟩

/-- The other events show nothing new. -/
theorem Applied.view_frame (h : s.Applied e s') (hp : e.payload.run? = none) : s'.view = s.view := by
  obtain ⟨n, hn, rfl⟩ := h.payload
  unfold applyPayload at hn
  cases hpay : e.payload with
  | runChanged run =>
    rw [hpay] at hp
    cases hp
  | runEvent event =>
    rw [hpay] at hp
    cases hp
  | metadataChanged metadata =>
    rw [hpay] at hn
    obtain ⟨-, hn⟩ := refuse_bind_ok hn
    obtain ⟨_, -, hn⟩ := bind_ok hn
    cases hn
    rfl
  | lifecycleChanged lifecycle =>
    rw [hpay] at hn
    simp only [applyLifecycle] at hn
    split at hn
    · cases hn
      rfl
    · obtain ⟨-, hn⟩ := refuse_bind_ok hn
      cases hn
      rfl
    · cases hn

/-- What a payload does to the parts that only V2 has. -/
inductive Managed (s s' : SessionSnapshotV2) : SessionEventPayloadV2 → Prop
  | run {payload : SessionEventPayloadV2} (run : payload.run?.isSome = true)
      (lifecycle : s'.lifecycle = s.lifecycle) (metadata : s'.summary.metadata = s.summary.metadata) :
      Managed s s' payload
  | metadata {metadata : JsonMap} (opened : s.lifecycle = .opened) (lifecycle : s'.lifecycle = .opened)
      (changed : s'.summary.metadata = metadata) : Managed s s' (.metadataChanged metadata)
  | closing (opened : s.lifecycle = .opened) (lifecycle : s'.lifecycle = .closing)
      (metadata : s'.summary.metadata = s.summary.metadata) : Managed s s' (.lifecycleChanged .closing)
  | closed (closing : s.lifecycle = .closing) (lifecycle : s'.lifecycle = .closed)
      (metadata : s'.summary.metadata = s.summary.metadata) : Managed s s' (.lifecycleChanged .closed)

theorem Applied.managed (h : s.Applied e s') :
    Managed s s' e.payload ∧ s'.persistence = s.persistence := by
  obtain ⟨n, hn, rfl⟩ := h.payload
  cases hrun : e.payload.run? with
  | some payload =>
    obtain ⟨m, -, rfl⟩ := applyV1Payload_ok h.cursor (applyPayload_run hrun hn)
    exact ⟨.run (by rw [hrun]; rfl) rfl rfl, rfl⟩
  | none =>
    unfold applyPayload at hn
    cases hpay : e.payload with
    | runChanged run =>
      rw [hpay] at hrun
      cases hrun
    | runEvent event =>
      rw [hpay] at hrun
      cases hrun
    | metadataChanged metadata =>
      rw [hpay] at hn
      obtain ⟨hopen, hn⟩ := refuse_bind_ok hn
      obtain ⟨_, -, hn⟩ := bind_ok hn
      cases hn
      have hopen : s.lifecycle = .opened := by simpa using hopen
      exact ⟨.metadata hopen hopen rfl, rfl⟩
    | lifecycleChanged lifecycle =>
      rw [hpay] at hn
      simp only [applyLifecycle] at hn
      split at hn
      · cases hn
        exact ⟨.closing ‹_› rfl rfl, rfl⟩
      · obtain ⟨-, hn⟩ := refuse_bind_ok hn
        cases hn
        exact ⟨.closed ‹_› rfl rfl, rfl⟩
      · cases hn

/-- The thread of a session does not change. -/
theorem Applied.threadId_eq (h : s.Applied e s') : s'.summary.threadId = s.summary.threadId := by
  have ht := (validate_iff.mp h.target).thread
  rw [h.cursor_eq, h.cursor] at ht
  rw [ht, (validate_iff.mp h.source).thread]

end

end SessionSnapshotV2

theorem SessionSnapshot.Applied.threadId_eq {s s' : SessionSnapshot} {e : SessionEventEnvelope}
    (h : s.Applied e s') : s'.summary.threadId = s.summary.threadId := by
  have ht := (validate_iff.mp h.target).thread
  rw [h.cursor_eq, h.cursor] at ht
  rw [ht, (validate_iff.mp h.source).thread]

/-- **Both versions make the same step.** Snapshots of one thread that show the same show the same after
an event with the same payload and time. -/
theorem view_eq_of_applied [External] {s₁ s₁' : SessionSnapshot} {s₂ s₂' : SessionSnapshotV2}
    {e₁ : SessionEventEnvelope} {e₂ : SessionEventEnvelopeV2} (h₁ : s₁.Applied e₁ s₁')
    (h₂ : s₂.Applied e₂ s₂') (hthread : s₁.summary.threadId = s₂.summary.threadId)
    (hview : s₁.view = s₂.view) (hp : e₂.payload.run? = some e₁.payload)
    (ht : e₂.occurredAtMs = e₁.occurredAtMs) : s₁'.view = s₂'.view := by
  obtain ⟨n₁, hn₁, rfl⟩ := h₁.payload
  obtain ⟨n₂, hn₂, hv₂⟩ := h₂.view_run hp
  have hleg : s₂.legacy = s₁.under s₂.legacy.summary s₂.cursor := by
    cases s₁
    simp only [SessionSnapshot.view, SessionSnapshotV2.view, SessionView.mk.injEq] at hview
    obtain ⟨hh, ha, hl⟩ := hview
    simp only [SessionSnapshotV2.legacy, SessionSnapshot.under, hh, ha, hl]
  have hstep := SessionSnapshot.applyPayload_under s₁ s₂.legacy.summary s₂.cursor hthread.symm
    (e := e₁) (f := e₂.legacy e₁.payload) rfl ht
  rw [← hleg, hn₂, hn₁] at hstep
  cases hstep
  rw [hv₂]
  rfl

end Whale
