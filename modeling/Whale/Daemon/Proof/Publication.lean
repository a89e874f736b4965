import Whale.Daemon.Proof.Replay
import Whale.Protocol.Proof.Reducer

/-!
# Dual publication

Every call to the lane is atomic (`Lane.Call.perform_atomic`): it checks and prepares first, and writes
when nothing can fail any more. `Projections.Sound` says that the two versions show the same and that
both journals are windows of their logs; every call keeps it (`Projections.Sound.perform`).
-/

namespace Whale

open Check Transaction

/-! ## Atomicity -/

namespace Lane

theorem readOnly_prepared {α : Type} (x : Except String α) : ReadOnly (prepared x) := readOnly_of _

theorem readOnly_store (s : Projections) (journal : Option (Except StoreError Unit)) :
    ReadOnly (store s journal) := by
  intro t
  unfold store
  split
  · rfl
  · split
    · rfl
    · rfl

theorem prepared_bind_ok {α β : Type} {x : Except String α} {f : α → Lane β} {s u : Projections} {b : β}
    (h : outcome (prepared x >>= f) s = (.ok b, u)) :
    ∃ a, x = .ok a ∧ outcome (f a) s = (.ok b, u) := by
  obtain ⟨a, ha, h⟩ := outcome_of_bind_ok h
  exact ⟨a, mapError_ok_iff.mp ha, h⟩

section
variable [External] [EventSerde]

theorem publishRun_atomic (owner : String) (mutation : RunPublicationMutation) (occurredAtMs : Nat) :
    Atomic (publishRun owner mutation occurredAtMs) := by
  refine readOnly_get.bind fun s => (readOnly_of _).bind fun _ => ?_
  refine (readOnly_prepared _).bind fun v1 => (readOnly_prepared _).bind fun v2 => ?_
  refine (readOnly_prepared _).bind fun history => Infallible.atomic ?_
  exact .modify_bind (.modify_bind (.modify_bind (infallible_pure _)))

theorem beginClosing_atomic (owner threadId : String) (now : Nat) :
    Atomic (beginClosing owner threadId now) := by
  refine readOnly_get.bind fun s => (readOnly_of _).bind fun _ => ?_
  cases s.management.projection.snapshot.lifecycle with
  | opened => exact (readOnly_prepared _).bind fun next => (infallible_modify _).atomic
  | closing => exact (infallible_pure _).atomic
  | closed => exact (infallible_pure _).atomic

theorem completeClosed_atomic (owner threadId : String) (now : Nat)
    (journal : Option (Except StoreError Unit)) :
    Atomic (completeClosed owner threadId now journal) := by
  refine readOnly_get.bind fun s => (readOnly_of _).bind fun _ => ?_
  cases s.management.projection.snapshot.lifecycle with
  | opened => exact (readOnly_of _).atomic
  | closing =>
    exact (readOnly_prepared _).bind fun next =>
      (readOnly_store s journal).bind fun _ => (infallible_modify _).atomic
  | closed => exact (infallible_pure _).atomic

theorem replaceMetadata_atomic (owner threadId : String) (expectedViewRevision : Nat)
    (metadata : JsonMap) (now : Nat) (journal : Option (Except StoreError Unit)) :
    Atomic (replaceMetadata owner threadId expectedViewRevision metadata now journal) := by
  refine (readOnly_of _).bind fun _ => (readOnly_of _).bind fun _ => readOnly_get.bind fun s => ?_
  refine (readOnly_of _).bind fun _ => (readOnly_of _).bind fun _ => ?_
  refine (readOnly_of _).bind fun _ => (readOnly_of _).bind fun _ => ?_
  by_cases hsame : s.management.projection.snapshot.summary.metadata = metadata
  · simp only [if_pos hsame]
    exact (infallible_pure _).atomic
  · simp only [if_neg hsame]
    refine (readOnly_prepared _).bind fun next => (readOnly_store s journal).bind fun _ => ?_
    exact Infallible.atomic (.modify_bind (infallible_pure _))

/-! ## What a successful call does -/

theorem publishRun_ok {owner : String} {mutation : RunPublicationMutation} {occurredAtMs : Nat}
    {s s' : Projections} {r : SessionEventEnvelope × SessionEventEnvelopeV2}
    (h : outcome (publishRun owner mutation occurredAtMs) s = (.ok r, s')) :
    ∃ views projection history,
      s.management.owned mutation.threadId owner = .ok () ∧
      s.prepareView owner mutation occurredAtMs = .ok (views, r.1) ∧
      s.prepareManagement mutation occurredAtMs = .ok (projection, r.2) ∧
      s.prepareHistory mutation = .ok history ∧
      s' = ((s.installView views).installProjection projection).installHistory history := by
  unfold publishRun at h
  have h := outcome_get_bind_ok h
  obtain ⟨_, howned, h⟩ := outcome_of_bind_ok h
  obtain ⟨⟨views, e₁⟩, hv, h⟩ := prepared_bind_ok h
  obtain ⟨⟨projection, e₂⟩, hp, h⟩ := prepared_bind_ok h
  obtain ⟨history, hh, h⟩ := prepared_bind_ok h
  rw [outcome_modify_bind, outcome_modify_bind, outcome_modify_bind] at h
  cases h
  exact ⟨views, projection, history, howned, hv, hp, hh, rfl⟩

/-- The calls that only V2 knows install the projection that an event of theirs prepared, or nothing. -/
def OnlyV2 (s s' : Projections) : Prop :=
  s' = s ∨ ∃ now payload next e, payload.run? = none ∧
    s.management.projection.prepare now payload none = .ok (next, e) ∧
    s' = s.installProjection next

theorem beginClosing_ok {owner threadId : String} {now : Nat} {s s' : Projections} {u : Unit}
    (h : outcome (beginClosing owner threadId now) s = (.ok u, s')) : OnlyV2 s s' := by
  unfold beginClosing at h
  have h := outcome_get_bind_ok h
  obtain ⟨_, -, h⟩ := outcome_of_bind_ok h
  cases hl : s.management.projection.snapshot.lifecycle with
  | opened =>
    rw [hl] at h
    obtain ⟨⟨next, e⟩, hp, h⟩ := prepared_bind_ok h
    cases h
    exact .inr ⟨now, _, next, e, rfl, hp, rfl⟩
  | closing =>
    rw [hl] at h
    cases h
    exact .inl rfl
  | closed =>
    rw [hl] at h
    cases h
    exact .inl rfl

/-- What is prepared and stored is installed. -/
theorem stored_ok {β : Type} {journal : Option (Except StoreError Unit)} {now : Nat}
    {payload : SessionEventPayloadV2} {s s' : Projections} {b c : β} (hrun : payload.run? = none)
    (h : outcome (do
      let next ← prepared (s.management.projection.prepare now payload none)
      store s journal
      modify (·.installProjection next.1)
      return b) s = (.ok c, s')) : OnlyV2 s s' := by
  obtain ⟨⟨next, e⟩, hp, hrest⟩ := prepared_bind_ok h
  obtain ⟨_, t, hst, hwrite⟩ := outcome_bind_ok hrest
  have ht : t = s := by
    have := readOnly_store s journal s
    rwa [hst] at this
  rw [ht, outcome_modify_bind] at hwrite
  cases hwrite
  exact .inr ⟨now, payload, next, e, hrun, hp, rfl⟩

theorem completeClosed_ok {owner threadId : String} {now : Nat}
    {journal : Option (Except StoreError Unit)} {s s' : Projections} {u : Unit}
    (h : outcome (completeClosed owner threadId now journal) s = (.ok u, s')) : OnlyV2 s s' := by
  unfold completeClosed at h
  have h := outcome_get_bind_ok h
  obtain ⟨_, -, h⟩ := outcome_of_bind_ok h
  cases hl : s.management.projection.snapshot.lifecycle with
  | opened =>
    rw [hl] at h
    cases h
  | closing =>
    rw [hl] at h
    exact stored_ok rfl h
  | closed =>
    rw [hl] at h
    cases h
    exact .inl rfl

theorem replaceMetadata_ok {owner threadId : String} {expectedViewRevision : Nat} {metadata : JsonMap}
    {now : Nat} {journal : Option (Except StoreError Unit)} {s s' : Projections} {b : Bool}
    (h : outcome (replaceMetadata owner threadId expectedViewRevision metadata now journal) s =
      (.ok b, s')) : OnlyV2 s s' := by
  unfold replaceMetadata at h
  obtain ⟨_, -, h⟩ := outcome_of_bind_ok h
  obtain ⟨_, -, h⟩ := outcome_of_bind_ok h
  have h := outcome_get_bind_ok h
  obtain ⟨_, -, h⟩ := outcome_of_bind_ok h
  obtain ⟨_, -, h⟩ := outcome_of_bind_ok h
  obtain ⟨_, -, h⟩ := outcome_of_bind_ok h
  obtain ⟨_, -, h⟩ := outcome_of_bind_ok h
  by_cases hsame : s.management.projection.snapshot.summary.metadata = metadata
  · rw [if_pos hsame] at h
    cases h
    exact .inl rfl
  · rw [if_neg hsame] at h
    exact stored_ok rfl h

end

/-- A retirement takes both records or none. -/
theorem retireRun_eq (owner threadId turnId : String) (identity : Nat) (s : Projections) :
    (∃ views projection, s.views.prepareRetireRun turnId identity = some views ∧
      s.management.projection.prepareRetireRun turnId identity = some projection ∧
      StateT.run (retireRun owner threadId turnId identity) s =
        (true, (s.installView views).installProjection projection)) ∨
    StateT.run (retireRun owner threadId turnId identity) s = (false, s) := by
  cases ho : s.management.owned threadId owner with
  | error e =>
    right
    simp [retireRun, ho]
    rfl
  | ok u =>
    cases hv : s.views.prepareRetireRun turnId identity with
    | none =>
      right
      simp [retireRun, ho, hv]
      rfl
    | some views =>
      cases hm : s.management.projection.prepareRetireRun turnId identity with
      | none =>
        right
        simp [retireRun, ho, hv, hm]
        rfl
      | some projection =>
        left
        exact ⟨views, projection, rfl, rfl, by simp [retireRun, ho, hv, hm]; rfl⟩

end Lane

/-! ## Agreement -/

/-- The V1 payload that a mutation publishes beside an active run. -/
def RunPublicationMutation.Publishes (mutation : RunPublicationMutation)
    (activeRun : Option SessionRunView) (occurredAtMs : Nat) (payload : SessionEventPayload) : Prop :=
  match mutation with
  | .begin snapshot _ => payload = .runChanged (.new snapshot occurredAtMs)
  | .changed snapshot => ∃ active, activeRun = some active ∧
    payload = .runChanged (SessionViewRecord.changedRun active snapshot occurredAtMs)
  | .event e => payload = .runEvent e

theorem RunPublicationMutation.Publishes.unique {mutation : RunPublicationMutation}
    {activeRun : Option SessionRunView} {occurredAtMs : Nat} {p q : SessionEventPayload}
    (hp : mutation.Publishes activeRun occurredAtMs p)
    (hq : mutation.Publishes activeRun occurredAtMs q) : p = q := by
  cases mutation with
  | begin snapshot identity => exact hp.trans hq.symm
  | changed snapshot =>
    obtain ⟨a, ha, rfl⟩ := hp
    obtain ⟨b, hb, rfl⟩ := hq
    rw [ha] at hb
    cases hb
    rfl
  | event event => exact hp.trans hq.symm

section
variable [External] [EventSerde]

/-- Both versions show the same of one thread, and each journal is a window of its log. -/
structure Projections.Sound (s : Projections) : Prop where
  views : ∃ log, s.views.Good log
  management : ∃ log, s.management.projection.Good log
  thread : s.views.snapshot.summary.threadId = s.management.projection.snapshot.summary.threadId
  view : s.views.snapshot.view = s.management.projection.snapshot.view

omit [External] in
theorem Projections.prepareView_ok {s : Projections} {owner : String}
    {mutation : RunPublicationMutation} {occurredAtMs : Nat} {r : SessionViewRecord}
    {e : SessionEventEnvelope} (h : s.prepareView owner mutation occurredAtMs = .ok (r, e)) :
    ∃ payload identity, mutation.Publishes s.views.snapshot.activeRun occurredAtMs payload ∧
      s.views.prepare occurredAtMs payload identity = .ok (r, e) := by
  unfold prepareView at h
  cases mutation with
  | begin snapshot identity =>
    obtain ⟨_, -, h⟩ := bind_ok h
    exact ⟨_, _, rfl, h⟩
  | changed snapshot =>
    obtain ⟨_, -, h⟩ := bind_ok h
    obtain ⟨active, ha, h⟩ := orElse_bind_ok h
    obtain ⟨-, h⟩ := refuse_bind_ok h
    exact ⟨_, _, ⟨active, ha, rfl⟩, h⟩
  | event event =>
    obtain ⟨_, -, h⟩ := bind_ok h
    exact ⟨_, _, rfl, h⟩

theorem Projections.prepareManagement_ok {s : Projections} {mutation : RunPublicationMutation}
    {occurredAtMs : Nat} {p : ManagementProjection} {e : SessionEventEnvelopeV2}
    (h : s.prepareManagement mutation occurredAtMs = .ok (p, e)) :
    ∃ payload payload' identity, payload'.run? = some payload ∧
      mutation.Publishes s.management.projection.snapshot.activeRun occurredAtMs payload ∧
      s.management.projection.prepare occurredAtMs payload' identity = .ok (p, e) := by
  unfold prepareManagement at h
  cases mutation with
  | begin snapshot identity => exact ⟨_, _, _, rfl, rfl, h⟩
  | changed snapshot =>
    obtain ⟨active, ha, h⟩ := orElse_bind_ok h
    obtain ⟨-, h⟩ := refuse_bind_ok h
    exact ⟨_, _, _, rfl, ⟨active, ha, rfl⟩, h⟩
  | event event => exact ⟨_, _, _, rfl, rfl, h⟩

namespace Projections.Sound

variable {s s' : Projections}

/-- A mutation that both versions accept keeps them in agreement. -/
theorem publish (h : s.Sound) {owner : String} {mutation : RunPublicationMutation}
    {occurredAtMs : Nat} {r : SessionViewRecord} {p : ManagementProjection} {e : SessionEventEnvelope}
    {e' : SessionEventEnvelopeV2} (hv : s.prepareView owner mutation occurredAtMs = .ok (r, e))
    (hm : s.prepareManagement mutation occurredAtMs = .ok (p, e')) (history : Option HistoryArchive) :
    (((s.installView r).installProjection p).installHistory history).Sound := by
  obtain ⟨log, hlog⟩ := h.views
  obtain ⟨log', hlog'⟩ := h.management
  obtain ⟨p₁, id₁, hp₁, hprep₁⟩ := prepareView_ok hv
  obtain ⟨p₂, p₂', id₂, hrun, hp₂, hprep₂⟩ := prepareManagement_ok hm
  obtain ⟨ha₁, he₁, -⟩ := SessionViewRecord.prepare_ok hprep₁
  obtain ⟨ha₂, he₂, -⟩ := ManagementProjection.prepare_ok hprep₂
  have hactive : s.views.snapshot.activeRun = s.management.projection.snapshot.activeRun :=
    congrArg SessionView.activeRun h.view
  rw [← hactive] at hp₂
  have hpay : e'.payload.run? = some e.payload := by
    rw [he₁, he₂, hp₁.unique hp₂]
    exact hrun
  have htime : e'.occurredAtMs = e.occurredAtMs := by rw [he₁, he₂]
  have hsound : ((s.installView r).installProjection p).Sound :=
    ⟨⟨_, hlog.publish hprep₁⟩, ⟨_, hlog'.publish hprep₂⟩,
      ha₁.threadId_eq.trans (h.thread.trans ha₂.threadId_eq.symm),
      view_eq_of_applied ha₁ ha₂ h.thread h.view hpay htime⟩
  cases history with
  | none => exact hsound
  | some archive => exact ⟨hsound.views, hsound.management, hsound.thread, hsound.view⟩

/-- An event that only V2 knows shows nothing new. -/
theorem onlyV2 (h : s.Sound) (hs : Lane.OnlyV2 s s') : s'.Sound := by
  rcases hs with rfl | ⟨now, payload, next, e, hrun, hp, rfl⟩
  · exact h
  · obtain ⟨log, hlog⟩ := h.management
    obtain ⟨ha, he, -⟩ := ManagementProjection.prepare_ok hp
    have hpay : e.payload.run? = none := by
      rw [he]
      exact hrun
    exact ⟨h.views, ⟨_, hlog.publish hp⟩, h.thread.trans ha.threadId_eq.symm,
      h.view.trans (ha.view_frame hpay).symm⟩

/-- A retirement changes the journals only. -/
theorem retire (h : s.Sound) {turnId : String} {identity : Nat} {r : SessionViewRecord}
    {p : ManagementProjection} (hv : s.views.prepareRetireRun turnId identity = some r)
    (hm : s.management.projection.prepareRetireRun turnId identity = some p) :
    ((s.installView r).installProjection p).Sound := by
  obtain ⟨log, hlog⟩ := h.views
  obtain ⟨log', hlog'⟩ := h.management
  refine ⟨⟨log, SessionViewRecord.feed_lawful.retire hlog (.retire turnId identity hv)⟩,
    ⟨log', ManagementProjection.feed_lawful.retire hlog' (.retire turnId identity hm)⟩, ?_, ?_⟩
  · rw [SessionViewRecord.prepareRetireRun_some hv, ManagementProjection.prepareRetireRun_some hm]
    exact h.thread
  · rw [SessionViewRecord.prepareRetireRun_some hv, ManagementProjection.prepareRetireRun_some hm]
    exact h.view

end Projections.Sound

namespace Lane

/-- A call that answers an error changes nothing. -/
theorem Call.perform_atomic (call : Call) (s : Projections) (e : SessionManagementFailure)
    (h : (call.perform s).1 = .error e) : (call.perform s).2 = s := by
  cases call with
  | publishRun owner mutation occurredAtMs =>
    have hp := publishRun_atomic owner mutation occurredAtMs
    exact hp.bind_pure (fun _ => true) s e h
  | replaceMetadata owner threadId expectedViewRevision metadata now journal =>
    exact replaceMetadata_atomic owner threadId expectedViewRevision metadata now journal s e h
  | beginClosing owner threadId now =>
    exact (beginClosing_atomic owner threadId now).bind_pure (fun _ => true) s e h
  | completeClosed owner threadId now journal =>
    exact (completeClosed_atomic owner threadId now journal).bind_pure (fun _ => true) s e h
  | retireRun owner threadId turnId identity => cases h

/-- Every call keeps the two versions in agreement. -/
theorem Call.perform_sound (call : Call) {s : Projections} (h : s.Sound) : (call.perform s).2.Sound := by
  rcases hc : call.perform s with ⟨r, s'⟩
  cases r with
  | error e =>
    have heq : s' = s := by
      have := call.perform_atomic s e
      rw [hc] at this
      exact this rfl
    rw [heq]
    exact h
  | ok b =>
    cases call with
    | publishRun owner mutation occurredAtMs =>
      obtain ⟨r, t, hr, ht⟩ := outcome_bind_ok hc
      cases ht
      obtain ⟨views, projection, history, -, hv, hm, -, rfl⟩ := publishRun_ok hr
      exact h.publish hv hm history
    | replaceMetadata owner threadId expectedViewRevision metadata now journal =>
      exact h.onlyV2 (replaceMetadata_ok hc)
    | beginClosing owner threadId now =>
      obtain ⟨_, t, hr, ht⟩ := outcome_bind_ok hc
      cases ht
      exact h.onlyV2 (beginClosing_ok hr)
    | completeClosed owner threadId now journal =>
      obtain ⟨_, t, hr, ht⟩ := outcome_bind_ok hc
      cases ht
      exact h.onlyV2 (completeClosed_ok hr)
    | retireRun owner threadId turnId identity =>
      rcases retireRun_eq owner threadId turnId identity s with ⟨views, projection, hv, hm, he⟩ | he
      · simp only [Call.perform, he, Prod.mk.injEq] at hc
        rw [← hc.2]
        exact h.retire hv hm
      · simp only [Call.perform, he, Prod.mk.injEq] at hc
        rw [← hc.2]
        exact h

/-- The state after a sequence of calls, whatever each of them answers. -/
def performAll : List Call → Projections → Projections
  | [], s => s
  | call :: calls, s => performAll calls (call.perform s).2

theorem performAll_sound {s : Projections} (h : s.Sound) (calls : List Call) :
    (performAll calls s).Sound := by
  induction calls generalizing s with
  | nil => exact h
  | cons call calls ih => exact ih (call.perform_sound h)

end Lane

/-- Two records that were inserted with one history show the same. -/
theorem Projections.sound_of_insert {owner threadId : String} {agentName : Option String}
    {metadata : JsonMap} {history : List CanonicalItem} {createdAtMs : Nat}
    {limits : EventJournalLimits} {persistence : SessionPersistence} {maxHistoryBytes : Option Nat}
    {streamId streamIdV2 : String} {views : SessionViewRecord} {management : ManagementRecord}
    (hv : SessionViewRecord.insert owner threadId agentName metadata history createdAtMs streamId
      limits = .ok views)
    (hm : ManagementRecord.insert owner threadId agentName metadata history createdAtMs persistence
      maxHistoryBytes streamIdV2 = .ok management) :
    Projections.Sound ⟨views, management⟩ := by
  have hgood := SessionViewRecord.good_of_insert hv
  have hgood' := ManagementRecord.good_of_insert hm
  obtain ⟨w, hw, hv⟩ := bind_ok hv
  obtain ⟨_, -, hv⟩ := bind_ok hv
  obtain ⟨w', hw', hm⟩ := bind_ok hm
  obtain ⟨_, -, hm⟩ := bind_ok hm
  obtain ⟨archive, -, hm⟩ := bind_ok hm
  rw [mapError_ok_iff, hw] at hw'
  cases hw'
  cases hv
  cases hm
  exact ⟨⟨_, hgood⟩, ⟨_, hgood'⟩, rfl, rfl⟩

/-- **Dual publication is atomic and the two views agree.** After every sequence of calls to the lane of
a session whose records were inserted with the same history and agent, whatever the calls answered:
both snapshots show the same history window, active run and last run; a call that answers an error
leaves the records as they are; and a retirement removes the run from both journals or does nothing. -/
theorem dual_publication_atomic (owner threadId : String) (agentName : Option String)
    (metadata : JsonMap) (history : List CanonicalItem) (createdAtMs : Nat)
    (limits : EventJournalLimits) (persistence : SessionPersistence) (maxHistoryBytes : Option Nat)
    (streamId streamIdV2 : String) (views : SessionViewRecord) (management : ManagementRecord)
    (hv : SessionViewRecord.insert owner threadId agentName metadata history createdAtMs streamId
      limits = .ok views)
    (hm : ManagementRecord.insert owner threadId agentName metadata history createdAtMs persistence
      maxHistoryBytes streamIdV2 = .ok management)
    (calls : List Lane.Call) (s : Projections) (hs : s = Lane.performAll calls ⟨views, management⟩) :
    (s.views.snapshot.history = s.management.projection.snapshot.history ∧
      s.views.snapshot.activeRun = s.management.projection.snapshot.activeRun ∧
      s.views.snapshot.lastRun = s.management.projection.snapshot.lastRun) ∧
    (∀ (call : Lane.Call) (e : SessionManagementFailure), (call.perform s).1 = .error e →
      (call.perform s).2 = s) ∧
    (∀ (caller thread turnId : String) (identity : Nat) (answer : Except SessionManagementFailure Bool)
        (s' : Projections), (Lane.Call.retireRun caller thread turnId identity).perform s = (answer, s') →
      (answer = .ok true ∧ (∀ entry ∈ s'.views.journal.entries, entry.runId ≠ some turnId) ∧
        ∀ entry ∈ s'.management.projection.journal.entries, entry.runId ≠ some turnId) ∨
      (answer = .ok false ∧ s' = s)) := by
  have hsound : s.Sound := hs ▸ Lane.performAll_sound (Projections.sound_of_insert hv hm) calls
  refine ⟨⟨congrArg SessionView.history hsound.view, congrArg SessionView.activeRun hsound.view,
    congrArg SessionView.lastRun hsound.view⟩, fun call e => call.perform_atomic s e, ?_⟩
  intro caller thread turnId identity answer s' hret
  obtain ⟨log, hlog⟩ := hsound.views
  obtain ⟨log', hlog'⟩ := hsound.management
  rcases Lane.retireRun_eq caller thread turnId identity s with ⟨r, p, hr, hp, he⟩ | he
  · left
    simp only [Lane.Call.perform, he, Prod.mk.injEq] at hret
    obtain ⟨rfl, rfl⟩ := hret
    refine ⟨rfl, fun entry hentry => ?_, fun entry hentry => ?_⟩
    · rw [SessionViewRecord.prepareRetireRun_some hr] at hentry
      exact hlog.window.scrubRun_runId hlog.logged hentry
    · rw [ManagementProjection.prepareRetireRun_some hp] at hentry
      exact hlog'.window.scrubRun_runId hlog'.logged hentry
  · right
    simp only [Lane.Call.perform, he, Prod.mk.injEq] at hret
    exact ⟨hret.1.symm, hret.2.symm⟩

end

namespace Sample

/-- Begin a run, let it finish, retire it. -/
def runCalls : List Lane.Call :=
  [.publishRun "o" (.begin (started "r") 1) 7,
    .publishRun "o" (.event ⟨"t", "r", 1,
      .finished { started "r" with status := .completed, lastSeq := 1 }⟩) 8,
    .retireRun "o" "t" "r" 1]

/-- The two views after these calls. -/
def afterRun : Projections :=
  @Lane.performAll host serde runCalls ⟨viewRecord, managementRecord⟩

end Sample

/-- The views of a session after its first run. -/
theorem dual_publication_atomic_after_run :
    Sample.afterRun.views.snapshot.lastRun =
        Sample.afterRun.management.projection.snapshot.lastRun ∧
      Sample.afterRun.views.snapshot.lastRun.isSome = true ∧
      Sample.afterRun.views.journal.entries = [] := by
  have h := @dual_publication_atomic Sample.host Sample.serde "o" "t" none [] [] 0
    defaultJournalLimits .ephemeral none "s" "s" Sample.viewRecord Sample.managementRecord
    rfl rfl Sample.runCalls Sample.afterRun rfl
  exact ⟨h.1.2.2, by decide, by decide⟩

end Whale
