import Whale.Core.Session
import Whale.Daemon.Execution
import Whale.Daemon.Proof.Completeness
import Whale.Protocol.Proof.Terminal
import Whale.Store.Runtime

/-!
# Runs settle their sessions

The terminal event of a run is accepted by both reducers and by the archive when every item id of the
history is a valid identity and no two items share one (`Tenure.every_run_settles`). Between the `Begin` of
the run and that event, whatever calls there are, the run stays the active one and keeps its registration
(`Projections.KeepsRun`), and the archive stays as it is.
-/

namespace Whale

open Check Transaction SessionHistoryWindow

theorem blank_of_identity {value label : String} (h : validateIdentity value label = .ok ()) :
    blank value = false :=
  (Bool.or_eq_false_iff.mp (refuse_ok h)).1

/-! ## The terminal snapshot -/

namespace RunSnapshot

variable {s : RunSnapshot} {o : Outcome} {items history : List CanonicalItem}
  {journal : Option (Except StoreError FinalizedRun)}

/-- The candidate is a terminal snapshot of its run at the next position. -/
theorem candidate_terminal (s : RunSnapshot) (items : List CanonicalItem) (h : o.Ends) :
    (s.candidate o items).status.isTerminal = true ∧
    (s.candidate o items).threadId = s.threadId ∧ (s.candidate o items).turnId = s.turnId ∧
    0 < (s.candidate o items).lastSeq := by
  unfold candidate
  dsimp only
  by_cases hc : s.status = .cancelling ∨ o.cancelled = true
  · rw [if_pos hc]
    exact ⟨rfl, rfl, rfl, Nat.succ_pos _⟩
  · rw [if_neg hc]
    cases hr : o.result with
    | ok usage => exact ⟨rfl, rfl, rfl, Nat.succ_pos _⟩
    | error e =>
      obtain ⟨status, failure⟩ := e
      refine ⟨?_, rfl, rfl, Nat.succ_pos _⟩
      rcases h status failure hr with rfl | rfl
      · rfl
      · rfl

/-- What a record makes of a candidate of a run that is not terminal. -/
theorem finalize_terminal {r r' : SessionRecord} {turn : String} {candidate : RunSnapshot}
    {f : FinalizedRun} {run : StoredRun} (h : r.finalize turn candidate = .ok (f, r'))
    (hget : r.runs.get? turn = some run) (hrun : run.snapshot.status.isTerminal = false) :
    f.snapshot.status.isTerminal = true ∧ f.snapshot.threadId = candidate.threadId ∧
      f.snapshot.turnId = candidate.turnId ∧ candidate.lastSeq ≤ f.snapshot.lastSeq ∧
      f.snapshot.items = f.history.drop run.historyStart ∧
      f.history = r.history ++ settledResults run.calls ∧ r'.history = f.history := by
  unfold SessionRecord.finalize at h
  rw [hget, orElse_some, ok_bind, hrun] at h
  simp only [Bool.false_eq_true, if_false] at h
  obtain ⟨hid, h⟩ := refuse_bind_ok h
  obtain ⟨usage, -, h⟩ := bind_ok h
  cases h
  simp only [Bool.or_eq_false_iff, Bool.not_eq_false'] at hid
  unfold terminalSnapshot
  dsimp only
  by_cases hc : (run.calls.any (·.outcome.isNone) && candidate.status == .completed) = true
  · rw [if_pos hc]
    exact ⟨rfl, rfl, rfl, Nat.le_max_left _ _, rfl, rfl, rfl⟩
  · rw [if_neg hc]
    exact ⟨hid.2, rfl, rfl, Nat.le_max_left _ _, rfl, rfl, rfl⟩

/-- The terminal event of `execute_run`. -/
theorem terminalEvent_finishes {threadId turnId : String} (ho : o.Ends) (hthread : s.threadId = threadId)
    (hturn : s.turnId = turnId) (hj : (s.candidate o items).Finalizes history journal)
    {final : RunSnapshot} (hf : final = (s.candidate o items).finalized journal) :
    SessionSnapshot.Finishes final.terminalEvent final threadId turnId := by
  obtain ⟨h1, h2, h3, h4⟩ := candidate_terminal s items ho
  have key : final.status.isTerminal = true ∧ final.threadId = threadId ∧ final.turnId = turnId ∧
      0 < final.lastSeq := by
    rw [← hthread, ← hturn, ← h2, ← h3, hf]
    cases journal with
    | none => exact ⟨h1, rfl, rfl, h4⟩
    | some answer =>
      cases answer with
      | error e => exact ⟨rfl, rfl, rfl, h4⟩
      | ok f =>
        obtain ⟨r, r', run, hfin, hget, hrun, -, -⟩ := hj f rfl
        obtain ⟨k1, k2, k3, k4, -⟩ := finalize_terminal hfin hget hrun
        exact ⟨k1, k2, k3, Nat.lt_of_lt_of_le h4 k4⟩
  exact ⟨rfl, ⟨key.2.1, key.2.1⟩, ⟨key.2.2.1, key.2.2.1⟩, ⟨key.2.2.2, rfl⟩, key.1⟩

/-- The history that the record of a durable session has afterwards. -/
theorem finalized_history (hj : (s.candidate o items).Finalizes history journal) {f : FinalizedRun}
    (hf : journal = some (.ok f)) : f.history = history ++ f.snapshot.items := by
  obtain ⟨r, r', run, hfin, hget, hrun, hle, htake⟩ := hj f hf
  obtain ⟨-, -, -, -, hitems, hhist, -⟩ := finalize_terminal hfin hget hrun
  have hstart : f.history.take run.historyStart = history := by
    rw [hhist, List.take_append_of_le_length hle, htake]
  rw [hitems, ← hstart, List.take_append_drop]

end RunSnapshot

/-! ## What a call keeps -/

/-- The registered runs after a publication. -/
def registering (m : String → Option Nat) : Option (String × Nat) → String → Option Nat
  | some (turnId, identity) => setKey m turnId (some identity)
  | none => m

section
variable [EventSerde]

theorem SessionViewRecord.prepare_identities {r r' : SessionViewRecord} {e : SessionEventEnvelope}
    {now : Nat} {payload : SessionEventPayload} {runIdentity : Option (String × Nat)}
    (h : r.prepare now payload runIdentity = .ok (r', e)) :
    r'.runIdentities = registering r.runIdentities runIdentity := by
  obtain ⟨env, -, h⟩ := bind_ok h
  obtain ⟨_, -, h⟩ := bind_ok h
  obtain ⟨bytes, -, h⟩ := bind_ok h
  obtain ⟨_, -, h⟩ := bind_ok h
  cases h
  cases runIdentity with
  | none => rfl
  | some run => rfl

variable [External]

theorem ManagementProjection.prepare_identities {p p' : ManagementProjection}
    {e : SessionEventEnvelopeV2} {now : Nat} {payload : SessionEventPayloadV2}
    {runIdentity : Option (String × Nat)} (h : p.prepare now payload runIdentity = .ok (p', e)) :
    p'.runIdentities = registering p.runIdentities runIdentity := by
  obtain ⟨env, -, h⟩ := bind_ok h
  obtain ⟨_, -, h⟩ := bind_ok h
  obtain ⟨bytes, -, h⟩ := bind_ok h
  obtain ⟨_, -, h⟩ := bind_ok h
  cases h
  cases runIdentity with
  | none => rfl
  | some run => rfl

end

theorem setKey_self {α : Type} (m : String → Option α) (key : String) (value : Option α) :
    setKey m key value key = value := by simp [setKey]

theorem setKey_ne {α : Type} (m : String → Option α) {key k : String} (value : Option α) (h : k ≠ key) :
    setKey m key value k = m k := by simp [setKey, h]

namespace Projections

/-- The records belong to the same owner and the same thread. -/
structure SameSession (s s' : Projections) : Prop where
  owner : s'.views.owner = s.views.owner ∧ s'.management.owner = s.management.owner
  thread : s'.views.snapshot.summary.threadId = s.views.snapshot.summary.threadId

/-- What the calls between the `Begin` and the end of a run keep. -/
structure KeepsRun (s s' : Projections) : Prop extends s.SameSession s' where
  archive : s'.management.history = s.management.history
  active : ∀ run, s.views.snapshot.activeRun = some run →
    ∃ run', s'.views.snapshot.activeRun = some run' ∧ run'.snapshot.turnId = run.snapshot.turnId
  registered : ∀ run, s.views.snapshot.activeRun = some run →
    s'.views.runIdentities run.snapshot.turnId = s.views.runIdentities run.snapshot.turnId ∧
    s'.management.projection.runIdentities run.snapshot.turnId =
      s.management.projection.runIdentities run.snapshot.turnId

theorem KeepsRun.refl (s : Projections) : s.KeepsRun s :=
  ⟨⟨⟨rfl, rfl⟩, rfl⟩, rfl, fun run h => ⟨run, h, rfl⟩, fun _ _ => ⟨rfl, rfl⟩⟩

section
variable [External] [EventSerde] {s s' : Projections}

theorem KeepsRun.of_onlyV2 (h : Lane.OnlyV2 s s') : s.KeepsRun s' := by
  rcases h with rfl | ⟨now, payload, next, e, -, hp, rfl⟩
  · exact .refl _
  · have hid := ManagementProjection.prepare_identities hp
    refine ⟨⟨⟨rfl, rfl⟩, rfl⟩, rfl, fun run hr => ⟨run, hr, rfl⟩, fun run _ => ⟨rfl, ?_⟩⟩
    exact congrFun hid _

omit [External] [EventSerde] in
/-- The active run is not retired. -/
theorem KeepsRun.of_retire {turnId : String} {identity : Nat} {r : SessionViewRecord}
    {p : ManagementProjection} (hv : s.views.prepareRetireRun turnId identity = some r)
    (hm : s.management.projection.prepareRetireRun turnId identity = some p) :
    s.KeepsRun ((s.installView r).installProjection p) := by
  have hne : ∀ run, s.views.snapshot.activeRun = some run → run.snapshot.turnId ≠ turnId := by
    intro run hrun heq
    unfold SessionViewRecord.prepareRetireRun at hv
    rw [hrun] at hv
    simp [heq] at hv
  rw [SessionViewRecord.prepareRetireRun_some hv, ManagementProjection.prepareRetireRun_some hm]
  exact ⟨⟨⟨rfl, rfl⟩, rfl⟩, rfl, fun run hr => ⟨run, hr, rfl⟩,
    fun run hr => ⟨setKey_ne _ _ (hne run hr), setKey_ne _ _ (hne run hr)⟩⟩

/-- A copy or a stream event of the run that both versions accept. -/
theorem KeepsRun.of_publish {owner : String} {mutation : RunPublicationMutation} (hw : mutation.Within)
    {now : Nat} {r : SessionViewRecord} {p : ManagementProjection} {e : SessionEventEnvelope}
    {e' : SessionEventEnvelopeV2} {history : Option HistoryArchive}
    (hv : s.prepareView owner mutation now = .ok (r, e))
    (hm : s.prepareManagement mutation now = .ok (p, e')) (hh : s.prepareHistory mutation = .ok history) :
    s.KeepsRun (((s.installView r).installProjection p).installHistory history) := by
  cases mutation with
  | begin snapshot identity => exact hw.elim
  | changed snapshot =>
    obtain ⟨_, -, hv⟩ := bind_ok hv
    obtain ⟨active, hact, hv⟩ := orElse_bind_ok hv
    obtain ⟨hturn, hv⟩ := refuse_bind_ok hv
    obtain ⟨_, -, hm⟩ := orElse_bind_ok hm
    obtain ⟨-, hm⟩ := refuse_bind_ok hm
    obtain ⟨ha, he, bytes, hr⟩ := SessionViewRecord.prepare_ok hv
    cases hh
    refine ⟨⟨⟨by rw [hr]; rfl, rfl⟩, ha.threadId_eq⟩, rfl, fun run hrun => ?_, fun run _ =>
      ⟨congrFun (SessionViewRecord.prepare_identities hv) _,
        congrFun (ManagementProjection.prepare_identities hm) _⟩⟩
    rw [hact] at hrun
    cases hrun
    refine ⟨_, (ha.runChanged (by rw [he])).2, ?_⟩
    exact (bne_eq_false_iff_eq.mp hturn).symm
  | event event =>
    obtain ⟨stream, hstream⟩ := hw
    obtain ⟨_, -, hv⟩ := bind_ok hv
    have hm : s.management.projection.prepare now (.runEvent event) none = .ok (p, e') := hm
    obtain ⟨ha, he, bytes, hr⟩ := SessionViewRecord.prepare_ok hv
    have hnone : (RunPublicationMutation.event event).committedHistory = none := by
      obtain ⟨threadId, turnId, seq, payload⟩ := event
      simp only at hstream
      rw [hstream]
      rfl
    unfold prepareHistory at hh
    rw [hnone] at hh
    cases hh
    obtain ⟨run₀, run', hrun₀, hrun', -, hturn, -⟩ := ha.stream (by rw [he]) hstream
    refine ⟨⟨⟨by rw [hr]; rfl, rfl⟩, ha.threadId_eq⟩, rfl, fun run hrun => ?_, fun run _ =>
      ⟨congrFun (SessionViewRecord.prepare_identities hv) _,
        congrFun (ManagementProjection.prepare_identities hm) _⟩⟩
    rw [hrun₀] at hrun
    cases hrun
    exact ⟨run', hrun', hturn⟩

end

end Projections

section
variable [External] [EventSerde]

/-- Every call but the first and the last one of a run keeps the run. -/
theorem Lane.Call.perform_keepsRun (call : Lane.Call) (hw : call.Within) (s : Projections) :
    s.KeepsRun (call.perform s).2 := by
  rcases hc : call.perform s with ⟨r, s'⟩
  cases r with
  | error e =>
    have heq := call.perform_atomic s e
    rw [hc] at heq
    rw [show s' = s from heq rfl]
    exact .refl s
  | ok b =>
    cases call with
    | publishRun owner mutation now =>
      obtain ⟨r, t, hr, ht⟩ := outcome_bind_ok hc
      cases ht
      obtain ⟨views, projection, history, -, hv, hm, hh, rfl⟩ := Lane.publishRun_ok hr
      exact .of_publish hw hv hm hh
    | replaceMetadata owner threadId expectedViewRevision metadata now journal =>
      exact .of_onlyV2 (Lane.replaceMetadata_ok hc)
    | beginClosing owner threadId now =>
      obtain ⟨_, t, hr, ht⟩ := outcome_bind_ok hc
      cases ht
      exact .of_onlyV2 (Lane.beginClosing_ok hr)
    | completeClosed owner threadId now journal =>
      obtain ⟨_, t, hr, ht⟩ := outcome_bind_ok hc
      cases ht
      exact .of_onlyV2 (Lane.completeClosed_ok hr)
    | retireRun owner threadId turnId identity =>
      rcases Lane.retireRun_eq owner threadId turnId identity s with ⟨views, projection, hv, hm, he⟩ | he
      · simp only [Lane.Call.perform, he, Prod.mk.injEq] at hc
        rw [← hc.2]
        exact .of_retire hv hm
      · simp only [Lane.Call.perform, he, Prod.mk.injEq] at hc
        rw [← hc.2]
        exact .refl s

/-- An accepted `Begin` makes the run the active one and registers it. -/
theorem Execution.Accepts.began {p p' : Projections} {owner : String} {snapshot : RunSnapshot}
    {identity now : Nat} (h : Execution.Accepts p owner (.begin snapshot identity) now p') :
    p.SameSession p' ∧ p'.management.history = p.management.history ∧
      p'.views.snapshot.activeRun = some (.new snapshot now) ∧
      p'.views.runIdentities snapshot.turnId = some identity ∧
      p'.management.projection.runIdentities snapshot.turnId = some identity := by
  obtain ⟨r, h⟩ := h
  obtain ⟨views, projection, history, -, hv, hm, hh, rfl⟩ := Lane.publishRun_ok h
  obtain ⟨_, -, hv⟩ := bind_ok hv
  have hm : p.management.projection.prepare now (.runChanged (.new snapshot now))
      (some (snapshot.turnId, identity)) = .ok (projection, r.2) := hm
  obtain ⟨ha, he, bytes, hr⟩ := SessionViewRecord.prepare_ok hv
  cases hh
  refine ⟨⟨⟨by rw [hr]; rfl, rfl⟩, ha.threadId_eq⟩, rfl, (ha.runChanged (by rw [he])).2, ?_, ?_⟩
  · show views.runIdentities _ = _
    rw [SessionViewRecord.prepare_identities hv]
    exact setKey_self _ _ _
  · show projection.runIdentities _ = _
    rw [ManagementProjection.prepare_identities hm]
    exact setKey_self _ _ _

/-! ## Acceptance -/

/-- The serializers answer every event and every item; a length is that of a vector. -/
structure EventSerde.Total : Prop where
  event : ∀ e, ∃ bytes, EventSerde.eventBytes e = .ok bytes
  eventV2 : ∀ e, ∃ bytes, EventSerde.eventV2Bytes e = .ok bytes
  item : ∀ item, ∃ bytes, EventSerde.itemBytes item = .ok bytes ∧ bytes < 2 ^ 63

omit [External] in
theorem EventSerde.Total.sized (h : EventSerde.Total) (item : CanonicalItem) :
    ∃ size, EventSerde.itemBytes item = .ok size ∧ maxSessionManagementHistoryBytes + size ≤ u64Max := by
  obtain ⟨size, hsize, hlt⟩ := h.item item
  refine ⟨size, hsize, ?_⟩
  unfold maxSessionManagementHistoryBytes u64Max
  omega

omit [External] in
theorem SessionViewRecord.prepare_of_applied {r : SessionViewRecord} {now : Nat}
    {payload : SessionEventPayload} {s' : SessionSnapshot} (hser : EventSerde.Total)
    (h : r.snapshot.Applied (r.snapshot.nextEnvelope now payload) s') :
    ∃ r', r.prepare now payload none = .ok (r', r.snapshot.nextEnvelope now payload) ∧
      r'.snapshot = s' ∧ r'.owner = r.owner ∧ r'.runIdentities = r.runIdentities := by
  obtain ⟨bytes, hbytes⟩ := hser.event (r.snapshot.nextEnvelope now payload)
  have henv : r.envelope now payload = .ok (r.snapshot.nextEnvelope now payload) := by
    unfold envelope
    rw [show r.snapshot.cursor.checkedNext = .ok { r.snapshot.cursor with seq := r.snapshot.cursor.seq + 1 }
      from Cursor.next_of_lt (SessionSnapshot.validate_iff.mp h.source).cursor h.bound]
    rfl
  unfold prepare
  rw [henv, ok_bind, h.event, ok_bind, hbytes]
  simp only [Except.mapError, ok_bind]
  rw [SessionSnapshot.apply_of_applied h]
  exact ⟨_, rfl, rfl, rfl, rfl⟩

theorem ManagementProjection.prepare_of_applied {p : ManagementProjection} {now : Nat}
    {payload : SessionEventPayloadV2} {s' : SessionSnapshotV2} (hser : EventSerde.Total)
    (h : p.snapshot.Applied (p.snapshot.nextEnvelope now payload) s') :
    ∃ p', p.prepare now payload none = .ok (p', p.snapshot.nextEnvelope now payload) ∧
      p'.snapshot = s' ∧ p'.runIdentities = p.runIdentities := by
  obtain ⟨bytes, hbytes⟩ := hser.eventV2 (p.snapshot.nextEnvelope now payload)
  have henv : p.envelope now payload = .ok (p.snapshot.nextEnvelope now payload) := by
    unfold envelope
    rw [show p.snapshot.cursor.checkedNextV2 =
      .ok { p.snapshot.cursor with seq := p.snapshot.cursor.seq + 1 }
      from Cursor.next_of_lt (SessionSnapshotV2.validate_iff.mp h.source).cursor h.bound]
    rfl
  unfold prepare
  rw [henv, ok_bind, h.event, ok_bind, hbytes, ok_bind]
  simp only [Except.mapError]
  rw [SessionSnapshotV2.apply_of_applied h]
  exact ⟨_, rfl, rfl, rfl⟩

/-- A publication whose three parts are accepted is installed. -/
theorem Lane.publishRun_of (owner : String) {mutation : RunPublicationMutation} {now : Nat}
    {s : Projections} {v1 : SessionViewRecord × SessionEventEnvelope}
    {v2 : ManagementProjection × SessionEventEnvelopeV2} {history : Option HistoryArchive}
    (ho : s.management.owned mutation.threadId owner = .ok ())
    (hv : s.prepareView owner mutation now = .ok v1) (hm : s.prepareManagement mutation now = .ok v2)
    (hh : s.prepareHistory mutation = .ok history) :
    outcome (Lane.publishRun owner mutation now) s =
      (.ok (v1.2, v2.2), ((s.installView v1.1).installProjection v2.1).installHistory history) := by
  unfold Lane.publishRun Lane.prepared
  rw [outcome_bind, outcome_get]
  simp only [ho, hv, hm, hh, Except.mapError]
  rfl

/-! ## Closing -/

namespace Projections

/-- A V2 projection that can take the last steps of its lifecycle: nothing runs, and the cursor has room
for `n` events. -/
structure Closable (s : Projections) (owner threadId : String) (n : Nat) : Prop where
  owned : s.management.owned threadId owner = .ok ()
  valid : s.management.projection.snapshot.validate = .ok ()
  idle : s.management.projection.snapshot.activeRun = none
  room : s.management.projection.snapshot.cursor.seq + n ≤ u64Max

variable {s : Projections} {owner threadId : String}

/-- A step of the lifecycle is prepared. -/
theorem Closable.prepare (hser : EventSerde.Total) {n : Nat} (h : s.Closable owner threadId (n + 1))
    {next : SessionLifecycleState} (hnext : (s.management.projection.snapshot.lifecycle = .opened ∧
      next = .closing) ∨ (s.management.projection.snapshot.lifecycle = .closing ∧ next = .closed))
    (now : Nat) :
    ∃ p' e, s.management.projection.prepare now (.lifecycleChanged next) none = .ok (p', e) ∧
      p'.snapshot.lifecycle = next ∧
      p'.snapshot.persistence = s.management.projection.snapshot.persistence ∧
      (s.installProjection p').Closable owner threadId n := by
  have hroom := h.room
  obtain ⟨s', ha, hidle, hl, hp, hthread⟩ := SessionSnapshotV2.applied_lifecycle h.valid (by omega) h.idle
    hnext now
  obtain ⟨p', hprep, rfl, -⟩ := ManagementProjection.prepare_of_applied hser ha
  refine ⟨p', _, hprep, hl, hp, ?_, ha.target, hidle, ?_⟩
  · have howned := h.owned
    unfold ManagementRecord.owned at howned ⊢
    rw [show (s.installProjection p').management.projection.snapshot.summary.threadId =
      s.management.projection.snapshot.summary.threadId from hthread]
    exact howned
  · show p'.snapshot.cursor.seq + n ≤ u64Max
    rw [ha.cursor_eq, ha.cursor]
    simp only
    omega

/-- `begin_closing` and `complete_closed` close a session in which nothing runs. -/
theorem Closable.closes (hser : EventSerde.Total) (h : s.Closable owner threadId 2)
    (hopen : s.management.projection.snapshot.lifecycle ≠ .closed) (now now' : Nat)
    {journal : Option (Except StoreError Unit)}
    (hj : s.management.projection.snapshot.persistence = .ephemeral ∨ journal = some (.ok ())) :
    ∃ p, outcome (do
      Lane.beginClosing owner threadId now
      Lane.completeClosed owner threadId now' journal) s = (.ok (), p) ∧
      p.management.projection.snapshot.lifecycle = .closed := by
  -- whatever the lifecycle was, the session is closing after the first of the two
  have hbegin : ∃ t, outcome (Lane.beginClosing owner threadId now) s = (.ok (), t) ∧
      t.management.projection.snapshot.lifecycle = .closing ∧
      t.management.projection.snapshot.persistence = s.management.projection.snapshot.persistence ∧
      t.Closable owner threadId 1 := by
    unfold Lane.beginClosing Lane.prepared
    rw [outcome_bind, outcome_get]
    simp only
    cases hl : s.management.projection.snapshot.lifecycle with
    | opened =>
      obtain ⟨p', e, hprep, hl', hp', hc⟩ := h.prepare hser (.inl ⟨hl, rfl⟩) now
      refine ⟨s.installProjection p', ?_, hl', hp', hc⟩
      rw [outcome_bind, outcome_of, h.owned]
      simp only [hprep, Except.mapError]
      rfl
    | closing =>
      refine ⟨s, ?_, hl, rfl, h.owned, h.valid, h.idle, Nat.le_of_succ_le h.room⟩
      rw [outcome_bind, outcome_of, h.owned]
      rfl
    | closed => exact absurd hl hopen
  obtain ⟨t, ht, hl, hp, hc⟩ := hbegin
  obtain ⟨p', e, hprep, hl', -, -⟩ := hc.prepare hser (.inr ⟨hl, rfl⟩) now'
  have hstore : outcome (Lane.store t journal) t = (.ok (), t) := by
    unfold Lane.store
    rw [hp]
    rcases hj with hj | hj
    · rw [hj]
      rfl
    · rw [hj]
      split <;> rfl
  refine ⟨t.installProjection p', ?_, hl'⟩
  rw [outcome_bind, ht]
  simp only
  unfold Lane.completeClosed Lane.prepared
  rw [outcome_bind, outcome_get]
  simp only
  rw [outcome_bind, outcome_of, hc.owned]
  simp only
  rw [hl, hprep]
  simp only [Except.mapError]
  rw [outcome_bind, outcome_of]
  simp only
  rw [outcome_bind, hstore]
  rfl

end Projections

/-! ## Settled sessions -/

/-- What a settled run leaves: both versions show it as the last one and none as active, the session can
be closed, and the run can be retired. -/
structure Projections.Settled (p : Projections) (owner threadId : String) (run : AcceptedRun) : Prop where
  idle : p.views.snapshot.activeRun = none ∧ p.management.projection.snapshot.activeRun = none
  last : p.views.snapshot.lastRun.map (·.turnId) = some run.turnId ∧
    p.management.projection.snapshot.lastRun.map (·.turnId) = some run.turnId
  closes : ∀ (now now' : Nat) (journal : Option (Except StoreError Unit)),
    p.management.projection.snapshot.persistence = .ephemeral ∨ journal = some (.ok ()) →
    ∃ p', outcome (do
      Lane.beginClosing owner threadId now
      Lane.completeClosed owner threadId now' journal) p = (.ok (), p') ∧
      p'.management.projection.snapshot.lifecycle = .closed
  retires : ((Lane.Call.retireRun owner threadId run.turnId run.identity).perform p).1 = .ok true

omit [External] [EventSerde] in
/-- Every item has a valid identity of its own. -/
def Identified (history : List CanonicalItem) : Prop :=
  (∀ item ∈ history, validateIdentity item.id "history item_id" = .ok ()) ∧ (ids history).Nodup

omit [External] in
/-- The constructors that an attach uses accept a history. -/
def Attachable (history : List CanonicalItem) : Prop :=
  (∃ w, fromHistory history maxSessionHistoryLimit = .ok w) ∧
    ∀ threadId streamId configuredMaxBytes,
      ∃ a, HistoryArchive.new threadId streamId history configuredMaxBytes = .ok a

omit [External] in
theorem attachable_of_identified (hser : EventSerde.Total) {history : List CanonicalItem}
    (h : Identified history) (hroom : history.length ≤ u64Max) : Attachable history := by
  constructor
  · unfold fromHistory
    rw [show validateHistoryCapacity maxSessionHistoryLimit = .ok () from rfl, ok_bind,
      distinct_ok_iff.mpr ⟨h.1, h.2, fun _ _ => List.not_mem_nil⟩, ok_bind]
    exact ⟨_, rfl⟩
  · intro threadId streamId configuredMaxBytes
    obtain ⟨a, ha, -⟩ := (HistoryArchive.archives_empty threadId streamId configuredMaxBytes).append
      hser.sized (fun item hi => blank_of_identity (h.1 item hi)) h.2
      (by rwa [List.length_nil, Nat.zero_add])
    exact ⟨a, ha⟩

omit [External] in
theorem identified_of_attachable {history : List CanonicalItem} (h : Attachable history) :
    Identified history := by
  obtain ⟨⟨w, hw⟩, -⟩ := h
  obtain ⟨_, -, hw⟩ := bind_ok hw
  obtain ⟨_, hd, -⟩ := bind_ok hw
  obtain ⟨hv, hn, -⟩ := distinct_ok_iff.mp hd
  exact ⟨hv, hn⟩

/-- What an accepted terminal event does to the projections. -/
structure Projections.Ended (s s' : Projections) (turnId : String) : Prop extends s.SameSession s' where
  idle : s'.views.snapshot.activeRun = none ∧ s'.management.projection.snapshot.activeRun = none
  last : s'.views.snapshot.lastRun.map (·.turnId) = some turnId
  identities : s'.views.runIdentities = s.views.runIdentities ∧
    s'.management.projection.runIdentities = s.management.projection.runIdentities
  lifecycle : s'.management.projection.snapshot.lifecycle = s.management.projection.snapshot.lifecycle
  cursor : s'.management.projection.snapshot.cursor.seq =
    s.management.projection.snapshot.cursor.seq + 1

/-- A registered run that is not active is retired. -/
theorem Lane.retireRun_of {p : Projections} {owner threadId turnId : String} {identity : Nat}
    (ho : p.management.owned threadId owner = .ok ()) (hv : p.views.runIdentities turnId = some identity)
    (hm : p.management.projection.runIdentities turnId = some identity)
    (hidle : p.views.snapshot.activeRun = none ∧ p.management.projection.snapshot.activeRun = none) :
    ((Lane.Call.retireRun owner threadId turnId identity).perform p).1 = .ok true := by
  rcases Lane.retireRun_eq owner threadId turnId identity p with ⟨r, q, -, -, he⟩ | he
  · simp [Lane.Call.perform, he]
  · simp [Lane.retireRun, ho, SessionViewRecord.prepareRetireRun,
      ManagementProjection.prepareRetireRun, hv, hm, hidle.1, hidle.2] at he
    cases he

namespace Tenure

/-- No counter is exhausted by this many items and by the events that close the session. -/
structure Room (s : Tenure) (items : List CanonicalItem) : Prop where
  views : s.projections.views.snapshot.cursor.seq < u64Max
  management : s.projections.management.projection.snapshot.cursor.seq + 3 ≤ u64Max
  window : s.projections.views.snapshot.history.totalItems + items.length ≤ u64Max
  archive : s.history.length + items.length ≤ u64Max

/-- Runs end with identified items, while there is room for them. -/
def Clean (s : Tenure) : Label → Prop
  | .begin | .call => True
  | .finished final _ => Identified (s.history ++ final.items) ∧ s.Room final.items

/-- The run, if there is one, is the active run of both versions and registered, and the archive is that
of the history. -/
structure Lively (s : Tenure) (owner threadId : String) : Prop where
  sound : s.projections.Sound
  owner : s.projections.views.owner = owner ∧ s.projections.management.owner = owner
  thread : s.projections.views.snapshot.summary.threadId = threadId
  archive : s.projections.management.history.Archives s.history
  run : ∀ run, s.run = some run →
    (∃ active, s.projections.views.snapshot.activeRun = some active ∧
      active.snapshot.turnId = run.turnId) ∧
    s.projections.views.runIdentities run.turnId = some run.identity ∧
    s.projections.management.projection.runIdentities run.turnId = some run.identity

variable {s : Tenure} {owner threadId : String}

theorem Lively.begin (h : s.Lively owner threadId) {p : Projections} {snapshot : RunSnapshot}
    {identity now : Nat}
    (ha : Execution.Accepts s.projections owner (.begin snapshot identity) now p) :
    ({ s with projections := p, run := some ⟨snapshot.turnId, identity⟩ } : Tenure).Lively owner
      threadId := by
  obtain ⟨hsame, harch, hact, hv, hm⟩ := ha.began
  refine ⟨(ha.applied h.sound).1, ?_, ?_, ?_, ?_⟩
  · rw [hsame.owner.1, hsame.owner.2]
    exact h.owner
  · rw [hsame.thread]
    exact h.thread
  · rw [harch]
    exact h.archive
  · rintro run ⟨⟩
    exact ⟨⟨_, hact, rfl⟩, hv, hm⟩

theorem Lively.call (h : s.Lively owner threadId) {call : Lane.Call} (hw : call.Within) :
    ({ s with projections := (call.perform s.projections).2 } : Tenure).Lively owner threadId := by
  have hk := call.perform_keepsRun hw s.projections
  refine ⟨call.perform_sound h.sound, ?_, ?_, ?_, fun run hrun => ?_⟩
  · rw [hk.owner.1, hk.owner.2]
    exact h.owner
  · rw [hk.thread]
    exact h.thread
  · rw [hk.archive]
    exact h.archive
  · obtain ⟨⟨active, hact, hturn⟩, hv, hm⟩ := h.run run hrun
    obtain ⟨run', hrun', hturn'⟩ := hk.active active hact
    obtain ⟨hv', hm'⟩ := hk.registered active hact
    rw [hturn] at hv' hm'
    exact ⟨⟨run', hrun', hturn'.trans hturn⟩, hv'.trans hv, hm'.trans hm⟩

omit [EventSerde] in
theorem Lively.owned (h : s.Lively owner threadId) :
    s.projections.management.owned threadId owner = .ok () := by
  unfold ManagementRecord.owned
  rw [← h.sound.thread, h.thread, h.owner.2]
  simp

/-- The terminal event of the run is accepted by both reducers and by the archive. -/
theorem Lively.accepts (h : s.Lively owner threadId) (hser : EventSerde.Total) {run : AcceptedRun}
    (hrun : s.run = some run) {final : RunSnapshot}
    (hf : SessionSnapshot.Finishes final.terminalEvent final threadId run.turnId)
    (hid : Identified (s.history ++ final.items)) (hroom : s.Room final.items) (now : Nat) :
    ∃ p, (Lane.Call.publishRun owner (.event final.terminalEvent) now).perform s.projections =
        (.ok true, p) ∧
      s.projections.Ended p run.turnId ∧ p.management.history.Archives (s.history ++ final.items) := by
  obtain ⟨⟨active, hact, hturn⟩, -⟩ := h.run run hrun
  obtain ⟨log, hlog⟩ := h.sound.views
  obtain ⟨log', hlog'⟩ := h.sound.management
  have hitems : ∀ item ∈ final.items, validateIdentity item.id "history item_id" = .ok () :=
    fun item hi => hid.1 item (List.mem_append_right _ hi)
  have hact' : s.projections.management.projection.snapshot.activeRun = some active :=
    (congrArg SessionView.activeRun h.sound.view).symm.trans hact
  have hthread' : s.projections.management.projection.snapshot.summary.threadId = threadId :=
    h.sound.thread.symm.trans h.thread
  have hwin : s.projections.management.projection.snapshot.history =
      s.projections.views.snapshot.history := (congrArg SessionView.history h.sound.view).symm
  -- each of the three parts accepts its own
  obtain ⟨s₁, ha₁, hnone₁, hlast₁⟩ := SessionSnapshot.applied_finished hlog.snapshot hroom.views hact
    (by rw [h.thread, hturn]; exact hf) hitems hroom.window now
  obtain ⟨s₂, ha₂, hnone₂, hlife⟩ := SessionSnapshotV2.applied_finished hlog'.snapshot
    (by have := hroom.management; omega) hact' (by rw [hthread', hturn]; exact hf) hitems
    (by rw [hwin]; exact hroom.window) now
  obtain ⟨a, happ, harch⟩ := h.archive.append hser.sized
    (fun item hi => blank_of_identity (hitems item hi)) hid.2 hroom.archive
  obtain ⟨r, hprep₁, rfl, howner, hids⟩ := SessionViewRecord.prepare_of_applied hser ha₁
  obtain ⟨p, hprep₂, rfl, hids'⟩ := ManagementProjection.prepare_of_applied hser ha₂
  have hview : s.projections.prepareView owner (.event final.terminalEvent) now =
      .ok (r, s.projections.views.snapshot.nextEnvelope now (.runEvent final.terminalEvent)) := by
    show s.projections.views.prepareRunEvent owner final.terminalEvent now = _
    unfold SessionViewRecord.prepareRunEvent SessionViewRecord.owned
    rw [h.thread, h.owner.1, hf.thread.1]
    simpa using hprep₁
  have hhistory : s.projections.prepareHistory (.event final.terminalEvent) = .ok (some a) := by
    show (s.projections.management.history.append final.items).map some = _
    rw [happ]
    rfl
  have hout := Lane.publishRun_of owner (by
    show s.projections.management.owned final.terminalEvent.threadId owner = .ok ()
    rw [hf.thread.1]
    exact h.owned) hview hprep₂ hhistory
  refine ⟨((s.projections.installView r).installProjection p).installHistory (some a), ?_,
    ⟨⟨⟨howner, rfl⟩, ha₁.threadId_eq⟩, ⟨hnone₁, hnone₂⟩, ?_, ⟨hids, hids'⟩, hlife, ?_⟩, harch⟩
  · show outcome (do
      let _ ← Lane.publishRun owner _ now
      return true) s.projections = _
    rw [outcome_bind, hout]
    rfl
  · show r.snapshot.lastRun.map _ = _
    rw [hlast₁]
    exact congrArg some hf.turn.1
  · show p.snapshot.cursor.seq = _
    rw [ha₂.cursor_eq, ha₂.cursor]

/-- The terminal event of the run settles it. -/
theorem Lively.finish (h : s.Lively owner threadId) (hser : EventSerde.Total) {run : AcceptedRun}
    (hrun : s.run = some run) {final : RunSnapshot}
    (hf : SessionSnapshot.Finishes final.terminalEvent final threadId run.turnId)
    (hid : Identified (s.history ++ final.items)) (hroom : s.Room final.items) (now : Nat) :
    ∃ p, (Lane.Call.publishRun owner (.event final.terminalEvent) now).perform s.projections =
        (.ok true, p) ∧ p.Settled owner threadId run ∧
      Tenure.Lively { projections := p, history := s.history ++ final.items } owner threadId := by
  obtain ⟨p, hperform, hend, harch⟩ := h.accepts hser hrun hf hid hroom now
  obtain ⟨⟨active, hact, -⟩, hreg, hreg'⟩ := h.run run hrun
  obtain ⟨log, hlog⟩ := h.sound.management
  have hsound := (Lane.Call.publishRun owner (.event final.terminalEvent) now).perform_sound h.sound
  rw [hperform] at hsound
  have hlive : Tenure.Lively { projections := p, history := s.history ++ final.items } owner threadId :=
    ⟨hsound, by rw [hend.owner.1, hend.owner.2]; exact h.owner, by rw [hend.thread]; exact h.thread,
      harch, nofun⟩
  obtain ⟨log', hlog'⟩ := hsound.management
  have hclosable : p.Closable owner threadId 2 := by
    have := hroom.management
    exact ⟨hlive.owned, hlog'.snapshot, hend.idle.2, by rw [hend.cursor]; omega⟩
  have hopen : p.management.projection.snapshot.lifecycle ≠ .closed := by
    rw [hend.lifecycle]
    exact ((SessionSnapshotV2.validate_iff.mp hlog.snapshot).active active
      ((congrArg SessionView.activeRun h.sound.view).symm.trans hact)).2.2
  have hlast : p.views.snapshot.lastRun = p.management.projection.snapshot.lastRun :=
    congrArg SessionView.lastRun hsound.view
  refine ⟨p, hperform, ⟨hend.idle, ⟨hend.last, hlast ▸ hend.last⟩, fun now now' journal hj =>
    hclosable.closes hser hopen now now' hj, ?_⟩, hlive⟩
  exact Lane.retireRun_of hlive.owned (by rw [hend.identities.1]; exact hreg)
    (by rw [hend.identities.2]; exact hreg') hend.idle

theorem Lively.step (h : s.Lively owner threadId) (hser : EventSerde.Total) {l : Label} {s' : Tenure}
    (hstep : Step owner s l s') (hc : s.Clean l) : s'.Lively owner threadId := by
  cases hstep with
  | begin snapshot identity now idle accepted => exact h.begin accepted
  | call call within => exact h.call within
  | finish snapshot o items journal now final running thread turn ends durable last =>
    have hf := RunSnapshot.terminalEvent_finishes ends (thread.trans h.thread) turn durable last
    obtain ⟨p, hperform, -, hlive⟩ := h.finish hser running hf hc.1 hc.2 now
    rw [hperform]
    exact hlive

/-- A session that was just inserted. -/
theorem lively_of_insert {agentName : Option String} {metadata : JsonMap}
    {history : List CanonicalItem} {createdAtMs : Nat} {limits : EventJournalLimits}
    {persistence : SessionPersistence} {maxHistoryBytes : Option Nat} {streamId streamIdV2 : String}
    {views : SessionViewRecord} {management : ManagementRecord}
    (hv : SessionViewRecord.insert owner threadId agentName metadata history createdAtMs streamId
      limits = .ok views)
    (hm : ManagementRecord.insert owner threadId agentName metadata history createdAtMs persistence
      maxHistoryBytes streamIdV2 = .ok management) :
    Tenure.Lively ⟨⟨views, management⟩, history, none⟩ owner threadId := by
  have hsound := Projections.sound_of_insert hv hm
  obtain ⟨w, -, hv⟩ := bind_ok hv
  obtain ⟨_, -, hv⟩ := bind_ok hv
  obtain ⟨w', -, hm⟩ := bind_ok hm
  obtain ⟨_, -, hm⟩ := bind_ok hm
  obtain ⟨archive, harch, hm⟩ := bind_ok hm
  cases hv
  cases hm
  refine ⟨hsound, ⟨rfl, rfl⟩, rfl, ?_, nofun⟩
  exact (HistoryArchive.archives_empty _ _ _).append_ok (mapError_ok_iff.mp harch)

/-- **Runs settle their sessions.** In every session whose runs so far ended with identified items, whatever
calls there were: when the run ends, its terminal event is accepted by both reducers and by the archive,
no run is active and this one is the last, the session can be closed and the run retired, and the history,
which is that of the record of a durable session, can be attached again; if every item id of the history,
the items of this run included, is a valid identity and no two are the same. A history that can be
attached is such a history. -/
theorem every_run_settles (hser : EventSerde.Total) (owner threadId : String)
    (agentName : Option String) (metadata : JsonMap) (history : List CanonicalItem) (createdAtMs : Nat)
    (limits : EventJournalLimits) (persistence : SessionPersistence) (maxHistoryBytes : Option Nat)
    (streamId streamIdV2 : String) (views : SessionViewRecord) (management : ManagementRecord)
    (hv : SessionViewRecord.insert owner threadId agentName metadata history createdAtMs streamId
      limits = .ok views)
    (hm : ManagementRecord.insert owner threadId agentName metadata history createdAtMs persistence
      maxHistoryBytes streamIdV2 = .ok management)
    (labels : List Label) (s : Tenure)
    (hreach : Lts.Run (fun s l s' => Step owner s l s' ∧ s.Clean l) ⟨⟨views, management⟩, history, none⟩
      labels s) (run : AcceptedRun) (running : s.run = some run)
    (snapshot : RunSnapshot) (o : RunSnapshot.Outcome) (items : List CanonicalItem)
    (journal : Option (Except StoreError FinalizedRun)) (now : Nat) (final : RunSnapshot)
    (thread : snapshot.threadId = s.projections.views.snapshot.summary.threadId)
    (turn : snapshot.turnId = run.turnId) (ends : o.Ends)
    (durable : (snapshot.candidate o items).Finalizes s.history journal)
    (last : final = (snapshot.candidate o items).finalized journal) (room : s.Room final.items) :
    (Identified (s.history ++ final.items) →
      (∃ p, (Lane.Call.publishRun owner (.event final.terminalEvent) now).perform s.projections =
          (.ok true, p) ∧ p.Settled owner threadId run) ∧
        Attachable (s.history ++ final.items)) ∧
    (Attachable (s.history ++ final.items) → Identified (s.history ++ final.items)) ∧
    ∀ f, journal = some (.ok f) → f.history = s.history ++ final.items := by
  have hlive : s.Lively owner threadId := hreach.invariant (Lively · owner threadId)
    (fun s l s' h hs => h.step hser hs.1 hs.2) (lively_of_insert hv hm)
  refine ⟨fun hid => ⟨?_, ?_⟩, identified_of_attachable, fun f hf => ?_⟩
  · have hf := RunSnapshot.terminalEvent_finishes ends (thread.trans hlive.thread) turn durable last
    obtain ⟨p, hperform, hsettled, -⟩ := hlive.finish hser running hf hid room now
    exact ⟨p, hperform, hsettled⟩
  · refine attachable_of_identified hser hid ?_
    rw [List.length_append]
    exact room.archive
  · rw [RunSnapshot.finalized_history durable hf, last, hf]
    rfl

end Tenure

end

namespace Sample

/-- A start whose only item has a blank id. -/
def blankStart : StartTurnParams :=
  { threadId := "t", turnId := "r", inputItems := [note " "] }

/-- A stored session that the start goes to. -/
def durable : SessionRecord :=
  @createdRecord host ⟨"k", "s"⟩ (.object []) "o" "t" 7

def thread : ThreadSession := { id := "t", samplingOptions := { model := "m" } }

/-- The session when the run is acknowledged. -/
def running : Tenure := ⟨opened, [], some ⟨"r", 1⟩⟩

/-- The engine completes the run with the items it was given. -/
def completed (items : List CanonicalItem) : RunSnapshot :=
  (started "r").candidate ⟨{}, [], false, .ok {}⟩ items

/-- The projections after the terminal event of the run is published with these items. -/
def settled (items : List CanonicalItem) :
    Except SessionManagementFailure Bool × Projections :=
  @Lane.Call.perform host serde (.publishRun "o" (.event (completed items).terminalEvent) 7)
    running.projections

theorem serde_total : @EventSerde.Total serde :=
  @EventSerde.Total.mk serde (fun _ => ⟨2, rfl⟩) (fun _ => ⟨2, rfl⟩)
    fun _ => ⟨2, rfl, by decide⟩

end Sample

/-- A start with a blank item id is admitted, by the store too, and its run is never settled: neither
version accepts its terminal event, so it stays the active run. -/
theorem blank_item_unsettled :
    Sample.blankStart.check = .ok () ∧
    @ThreadSession.checkRunAdmission Sample.host Sample.thread Sample.blankStart.inputItems = .ok () ∧
    (@SessionRecord.begin Sample.host Sample.durable Sample.blankStart (Sample.started "r")
      (.object [])).isOk = true ∧
    Lts.Run (@Tenure.Step Sample.host Sample.serde "o")
      ⟨⟨Sample.viewRecord, Sample.managementRecord⟩, [], none⟩ [.begin] Sample.running ∧
    (Sample.settled [Sample.note " "]).1.isOk = false ∧
    (Sample.settled [Sample.note " "]).2.views.snapshot.activeRun.isSome = true ∧
    (Sample.settled [Sample.note " "]).2.management.projection.snapshot.activeRun.isSome = true :=
  ⟨rfl, by decide +kernel, by decide +kernel, .single (@Tenure.Step.begin Sample.host Sample.serde "o" _
    Sample.opened (Sample.started "r") 1 7 rfl (Sample.accepts_of_accepted (by decide +kernel))),
    by decide +kernel, by decide +kernel, by decide +kernel⟩

/-- The same run with another id is settled. -/
theorem every_run_settles_sample :
    ∃ p, Sample.settled [Sample.note "a"] = (.ok true, p) ∧ p.views.snapshot.activeRun = none ∧
      p.management.projection.snapshot.activeRun = none := by
  have hrun : Lts.Run (fun s l s' => @Tenure.Step Sample.host Sample.serde "o" s l s' ∧ s.Clean l)
      ⟨⟨Sample.viewRecord, Sample.managementRecord⟩, [], none⟩ [.begin] Sample.running :=
    .single ⟨@Tenure.Step.begin Sample.host Sample.serde "o" _ Sample.opened (Sample.started "r") 1 7 rfl
      (Sample.accepts_of_accepted (by decide +kernel)), trivial⟩
  obtain ⟨h, -, -⟩ := @Tenure.every_run_settles Sample.host Sample.serde Sample.serde_total "o" "t" none
    [] [] 0 defaultJournalLimits .ephemeral none "s" "s" Sample.viewRecord Sample.managementRecord rfl rfl
    _ _ hrun ⟨"r", 1⟩ rfl (Sample.started "r") ⟨{}, [], false, .ok {}⟩ [Sample.note "a"] none 7 _ rfl rfl
    (by simp [RunSnapshot.Outcome.Ends]) (by simp [RunSnapshot.Finalizes]) rfl
    ⟨by decide +kernel, by decide +kernel, by decide +kernel, by decide +kernel⟩
  obtain ⟨⟨p, hp, hsettled⟩, -⟩ := h ⟨by decide +kernel, by decide +kernel⟩
  exact ⟨p, hp, @Projections.Settled.idle Sample.host Sample.serde _ _ _ _ hsettled⟩

end Whale
