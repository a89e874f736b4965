import Whale.Daemon.Proof.FirstResponse
import Whale.Daemon.Proof.Settlement
import Whale.Daemon.Runs
import Whale.Store.Proof.Ok

/-!
# An acknowledged cancellation is final

Once `turn.cancel` has returned a snapshot that is `Cancelling`, the snapshot of the run stays so until the
run ends, and the run ends as cancelled unless its journal refuses the terminal snapshot
(`acknowledged_cancellation_final`). Every step but the last one of a run leaves its snapshot as
`RunSnapshot.Keeps` says; `LiveRun.Sound` is the invariant.

What the projections make of a mutation depends on the status it shows
(`RunPublicationMutation.status?`).
-/

namespace Whale

open Check

/-! ## The projected status -/

/-- The status that a stream event gives the projected run. -/
def AgentStreamEvent.status? : AgentStreamEvent → Option RunStatus
  | turnStarted .. => some .running
  | approvalRequested .. => some .waitingApproval
  | _ => none

/-- The status that the projections take over from a mutation. -/
def RunPublicationMutation.status? : RunPublicationMutation → Option RunStatus
  | begin snapshot _ | changed snapshot => some snapshot.status
  | event e =>
    match e.payload with
    | .finished snapshot => some snapshot.status
    | .stream stream => stream.status?

/-- It is the terminal event of its run. -/
def RunEvent.Finished (e : RunEvent) : Prop := ∃ snapshot, e.payload = .finished snapshot

/-- It is the event that the turn has started. -/
def RunPublicationMutation.StartsTurn (m : RunPublicationMutation) : Prop :=
  ∃ e turnId threadId, m = event e ∧ e.payload = .stream (.turnStarted turnId threadId)

/-- A run that is at work, or waits for an approval. -/
def RunStatus.Live (s : RunStatus) : Prop := s = running ∨ s = waitingApproval

/-- The projected run is shown at work. -/
def SessionView.ShowsLive (v : SessionView) : Prop :=
  ∃ run, v.activeRun = some run ∧ run.snapshot.status.Live

/-- One of the versions shows the run at work. -/
def Projections.ShowsLive (p : Projections) : Prop :=
  p.views.snapshot.view.ShowsLive ∨ p.management.projection.snapshot.view.ShowsLive

namespace SessionSnapshot

variable {s n : SessionSnapshot}

/-- The status of the run after a stream event. -/
theorem applyToRun_status {run : SessionRunView} {stream : AgentStreamEvent}
    (h : s.applyToRun run stream = .ok n) :
    ∃ run', n.activeRun = some run' ∧
      run'.snapshot.status = stream.status?.getD run.snapshot.status := by
  cases stream with
  | toolProgress | toolExecutionStarted | approvalRequested | turnCompleted | turnFailed =>
    cases h
    exact ⟨_, rfl, rfl⟩
  | turnStarted turnId threadId =>
    obtain ⟨-, h⟩ := refuse_bind_ok h
    cases h
    exact ⟨_, rfl, rfl⟩
  | itemStarted turnId itemId itemType phase =>
    simp only [applyToRun] at h
    split at h
    · cases h
      exact ⟨_, rfl, rfl⟩
    · cases h
      exact ⟨_, rfl, rfl⟩
  | textDelta turnId itemId delta | reasoningDelta turnId itemId delta
  | reasoningSignature turnId itemId signature | toolCallDelta turnId itemId callId delta =>
    obtain ⟨drafted, hd, h⟩ := bind_ok h
    cases h
    exact ⟨drafted, rfl, by rw [updateDraft_snapshot hd]; rfl⟩
  | itemCompleted turnId item =>
    obtain ⟨w, -, h⟩ := bind_ok h
    cases h
    exact ⟨_, rfl, rfl⟩

/-- A payload whose mutation does not show the run at work does not make it appear so. -/
theorem applyPayload_quiet {e : SessionEventEnvelope} {m : RunPublicationMutation}
    {active : Option SessionRunView} {now : Nat} (hm : ∀ status, m.status? = some status → ¬ status.Live)
    (hp : m.Publishes active now e.payload) (h : s.applyPayload e = .ok n)
    (hs : ¬ s.view.ShowsLive) : ¬ n.view.ShowsLive := by
  rintro ⟨run, hrun, hlive⟩
  unfold applyPayload at h
  cases m with
  | begin snapshot identity =>
    have hp : e.payload = .runChanged (.new snapshot now) := hp
    rw [hp] at h
    cases h
    cases hrun
    exact hm _ rfl hlive
  | changed snapshot =>
    obtain ⟨active, -, hp⟩ := hp
    rw [hp] at h
    cases h
    cases hrun
    exact hm _ rfl hlive
  | event event =>
    have hp : e.payload = .runEvent event := hp
    rw [hp] at h
    obtain ⟨threadId, turnId, seq, payload⟩ := event
    cases payload with
    | finished snapshot =>
      obtain ⟨active, history, -, -, -, rfl⟩ := applyFinished_ok h
      cases hrun
    | stream stream =>
      obtain ⟨run₀, hrun₀, -, h⟩ := applyStreamEvent_ok h
      obtain ⟨run', hrun', hstatus⟩ := applyToRun_status h
      rw [show n.view.activeRun = n.activeRun from rfl, hrun'] at hrun
      cases hrun
      cases hst : stream.status? with
      | none =>
        rw [hst] at hstatus
        exact hs ⟨run₀, hrun₀, by rwa [hstatus] at hlive⟩
      | some status =>
        rw [hst] at hstatus
        exact hm status hst (by rwa [hstatus] at hlive)

end SessionSnapshot

/-- An accepted mutation that does not show the run at work does not make it appear so. -/
theorem Execution.Accepts.quiet [External] [EventSerde] {p p' : Projections} {owner : String}
    {m : RunPublicationMutation} {now : Nat} (h : Execution.Accepts p owner m now p')
    (hm : ∀ status, m.status? = some status → ¬ status.Live) (hp : ¬ p.ShowsLive) : ¬ p'.ShowsLive := by
  obtain ⟨r, h⟩ := h
  obtain ⟨views, projection, history, -, hv, hmg, hh, rfl⟩ := Lane.publishRun_ok h
  obtain ⟨payload, identity, hpub, hprep⟩ := Projections.prepareView_ok hv
  obtain ⟨payload₂, payload', identity', hrun, hpub₂, hprep₂⟩ := Projections.prepareManagement_ok hmg
  obtain ⟨ha, he, -⟩ := SessionViewRecord.prepare_ok hprep
  obtain ⟨ha₂, he₂, -⟩ := ManagementProjection.prepare_ok hprep₂
  have hviews : ¬ views.snapshot.view.ShowsLive := by
    obtain ⟨n, hn, hadv⟩ := ha.payload
    rw [show views.snapshot.view = n.view by rw [hadv]; rfl]
    exact SessionSnapshot.applyPayload_quiet hm (by rw [he]; exact hpub) hn fun hs => hp (.inl hs)
  have hprojection : ¬ projection.snapshot.view.ShowsLive := by
    obtain ⟨n, hn, hview⟩ := ha₂.view_run (by rw [he₂]; exact hrun)
    rw [hview]
    exact SessionSnapshot.applyPayload_quiet hm hpub₂ hn fun hs => hp (.inr hs)
  cases history with
  | none => exact fun hs => hs.elim hviews hprojection
  | some archive => exact fun hs => hs.elim hviews hprojection

/-! ## What the steps of a run make of its snapshot -/

namespace RunSnapshot

/-- What every step but the last one makes of a snapshot. -/
structure Keeps (a b : RunSnapshot) : Prop where
  turnId : b.turnId = a.turnId
  live : a.status.isTerminal = false → b.status.isTerminal = false
  settled : a.status.isTerminal = true → b.status = a.status ∧ b.error = a.error
  cancelling : a.status = .cancelling → b.status = .cancelling

variable {s : RunSnapshot}

theorem Keeps.refl (s : RunSnapshot) : s.Keeps s := ⟨rfl, id, fun _ => ⟨rfl, rfl⟩, id⟩

/-- Whatever changed beside, the identity, the status and the error are the same. -/
theorem Keeps.of_eq {a b : RunSnapshot} (ht : b.turnId = a.turnId) (hs : b.status = a.status)
    (he : b.error = a.error) : a.Keeps b :=
  ⟨ht, fun h => by rw [hs]; exact h, fun _ => ⟨hs, he⟩, fun h => by rw [hs]; exact h⟩

theorem keeps_streamed (h : s.status.isTerminal = false) (executions : List ToolExecutionRecord)
    (event : AgentStreamEvent) : s.Keeps (s.streamed executions event).1 := by
  unfold streamed numbered
  cases event with
  | approvalRequested turnId requestId toolCall reason =>
    dsimp only
    split
    · exact .of_eq rfl rfl rfl
    · rename_i hc
      exact ⟨rfl, fun _ => rfl, fun ht => absurd (ht.symm.trans h) (by decide),
        fun hs => absurd hs hc⟩
  | toolProgress | toolExecutionStarted | turnStarted | itemStarted | textDelta | reasoningDelta
  | reasoningSignature | toolCallDelta | itemCompleted | turnCompleted | turnFailed =>
    exact .of_eq rfl rfl rfl

theorem keeps_cancelRequested (s : RunSnapshot) (usage : UsageMetrics)
    (executions : List ToolExecutionRecord) : s.Keeps (s.cancelRequested usage executions).1 := by
  unfold cancelRequested
  dsimp only
  split
  · exact .of_eq rfl rfl rfl
  · rename_i h
    simp only [Bool.or_eq_true, not_or, Bool.not_eq_true] at h
    exact ⟨rfl, fun _ => rfl, fun ht => absurd (ht.symm.trans h.1) (by decide), fun _ => rfl⟩

theorem keeps_approvalResolved (s : RunSnapshot) (requestId : String) :
    s.Keeps (s.approvalResolved requestId).1 := by
  unfold approvalResolved
  dsimp only
  split
  · exact .refl s
  · by_cases hw : s.status = .waitingApproval
    · refine ⟨rfl, fun _ => ?_, fun ht => ?_, fun hc => ?_⟩
      · dsimp only
        split
        · rfl
        · rw [hw]
          rfl
      · rw [hw] at ht
        cases ht
      · rw [hw] at hc
        cases hc
    · refine .of_eq rfl ?_ rfl
      rw [if_neg]
      simp [hw]

/-- A stream event gets the next number or none. -/
theorem streamed_numbered (s : RunSnapshot) (executions : List ToolExecutionRecord)
    (event : AgentStreamEvent) :
    ((s.streamed executions event).2 = none ∧ (s.streamed executions event).1.lastSeq = s.lastSeq) ∨
    ∃ e, (s.streamed executions event).2 = some e ∧ e.payload = .stream event ∧
      e.seq = s.lastSeq + 1 ∧ (s.streamed executions event).1.lastSeq = s.lastSeq + 1 ∧
      ∀ status, event.status? = some status →
        (∃ turnId threadId, event = .turnStarted turnId threadId) ∨
        (s.streamed executions event).1.status = status := by
  unfold streamed numbered
  cases event with
  | approvalRequested turnId requestId toolCall reason =>
    dsimp only
    split
    · exact .inl ⟨rfl, rfl⟩
    · refine .inr ⟨_, rfl, rfl, rfl, rfl, fun status hst => .inr ?_⟩
      cases hst
      rfl
  | turnStarted turnId threadId =>
    exact .inr ⟨_, rfl, rfl, rfl, rfl, fun _ _ => .inl ⟨turnId, threadId, rfl⟩⟩
  | turnCompleted | turnFailed => exact .inl ⟨rfl, rfl⟩
  | toolProgress | toolExecutionStarted | itemStarted | textDelta | reasoningDelta
  | reasoningSignature | toolCallDelta | itemCompleted =>
    refine .inr ⟨_, rfl, rfl, rfl, rfl, fun status hst => ?_⟩
    cases hst

/-- The event that is handed over shows the status of the snapshot, unless it starts the turn. -/
theorem streamed_handed (s : RunSnapshot) (executions : List ToolExecutionRecord)
    (event : AgentStreamEvent) :
    ∀ m ∈ ((s.streamed executions event).2.map RunPublicationMutation.event).toList, m.StartsTurn ∨
      ∀ status, m.status? = some status → (s.streamed executions event).1.status = status := by
  intro m hm
  rcases s.streamed_numbered executions event with ⟨hn, -⟩ | ⟨e, he, hp, -, -, hstatus⟩
  · rw [hn] at hm
    cases hm
  · rw [he] at hm
    obtain rfl := List.mem_singleton.mp hm
    have hshown : (RunPublicationMutation.event e).status? = event.status? := by
      unfold RunPublicationMutation.status?
      simp only [hp]
    cases hst : event.status? with
    | none =>
      refine .inr fun status hm => ?_
      rw [hshown, hst] at hm
      cases hm
    | some status =>
      rcases hstatus status hst with ⟨turnId, threadId, rfl⟩ | hs
      · exact .inl ⟨e, turnId, threadId, rfl, hp⟩
      · refine .inr fun status' hm => ?_
        rw [hshown, hst] at hm
        cases hm
        exact hs

theorem cancelRequested_lastSeq (s : RunSnapshot) (usage : UsageMetrics)
    (executions : List ToolExecutionRecord) :
    (s.cancelRequested usage executions).1.lastSeq = s.lastSeq := by
  unfold cancelRequested
  dsimp only
  split
  · rfl
  · rfl

theorem approvalResolved_lastSeq (s : RunSnapshot) (requestId : String) :
    (s.approvalResolved requestId).1.lastSeq = s.lastSeq := by
  unfold approvalResolved
  dsimp only
  split
  · rfl
  · rfl

/-! ### The last step -/

/-- The run failed because its journal did not store its terminal snapshot. -/
def StoreFailed (s : RunSnapshot) : Prop :=
  s.status = .failed ∧ s.error = some ⟨"STORE_FAILED",
    "Session storage commit failed; close and reopen the store before recovery"⟩

theorem candidate_lastSeq (s : RunSnapshot) (o : Outcome) (items : List CanonicalItem) :
    (s.candidate o items).lastSeq = s.lastSeq + 1 := by
  unfold candidate
  dsimp only
  by_cases hc : s.status = .cancelling ∨ o.cancelled = true
  · rw [if_pos hc]
  · rw [if_neg hc]
    cases o.result with
    | ok usage => rfl
    | error e => rfl

/-- The candidate of a run that ends: its identity, its number, and that it is terminal. -/
theorem concluded_spec (s : RunSnapshot) (accepted : Bool) {o : Outcome} (items : List CanonicalItem)
    (ho : o.Ends) :
    (s.concluded accepted o items).status.isTerminal = true ∧
      (s.concluded accepted o items).turnId = s.turnId ∧
      (s.concluded accepted o items).lastSeq = s.lastSeq + 1 := by
  cases accepted with
  | true =>
    obtain ⟨h1, -, h3, -⟩ := candidate_terminal s items ho
    exact ⟨h1, h3, candidate_lastSeq s o items⟩
  | false =>
    have ho : ({ o with cancelled := false } : Outcome).Ends := ho
    obtain ⟨h1, -, h3, -⟩ := candidate_terminal { s with status := .running } items ho
    exact ⟨h1, h3, candidate_lastSeq _ _ items⟩

/-- The candidate of a run whose cancellation was requested, or that was never accepted. -/
theorem concluded_cancelled {accepted : Bool} {o : Outcome} {items : List CanonicalItem}
    (hs : s.status = .cancelling) (h : accepted = true ∨ o.result = rejectedResult) :
    (s.concluded accepted o items).status = .cancelled := by
  unfold concluded
  cases accepted with
  | true =>
    unfold candidate
    simp only [hs, true_or, if_true]
  | false =>
    have hr : o.result = rejectedResult := h.resolve_left (by decide)
    unfold candidate
    simp only [hr, rejectedResult, Bool.false_eq_true, reduceCtorEq, or_self, if_false]

/-- What a record stores as the terminal snapshot of a run that it has as active. -/
theorem finalize_snapshot {r r' : SessionRecord} {turn : String} {candidate : RunSnapshot}
    {f : FinalizedRun} {run : StoredRun} (h : r.finalize turn candidate = .ok (f, r'))
    (hget : r.runs.get? turn = some run) (hrun : run.snapshot.status.isTerminal = false) :
    ∃ usage, f.snapshot = terminalSnapshot turn run f.history usage candidate := by
  unfold SessionRecord.finalize at h
  rw [hget, orElse_some, ok_bind, hrun] at h
  simp only [Bool.false_eq_true, if_false] at h
  obtain ⟨-, h⟩ := refuse_bind_ok h
  obtain ⟨usage, -, h⟩ := bind_ok h
  cases h
  exact ⟨usage, rfl⟩

theorem terminalSnapshot_lastSeq {turn : String} {run : StoredRun} {history : List CanonicalItem}
    {usage : UsageMetrics} {candidate : RunSnapshot} (hrun : run.snapshot.lastSeq = 0)
    (hc : 0 < candidate.lastSeq) :
    (terminalSnapshot turn run history usage candidate).lastSeq = candidate.lastSeq := by
  have hle : saturatingSucc run.snapshot.lastSeq ≤ candidate.lastSeq := by
    rw [hrun]
    exact hc
  unfold terminalSnapshot
  dsimp only
  split
  · exact Nat.max_eq_left hle
  · exact Nat.max_eq_left hle

theorem terminalSnapshot_status {turn : String} {run : StoredRun} {history : List CanonicalItem}
    {usage : UsageMetrics} {candidate : RunSnapshot} (hc : candidate.status ≠ .completed) :
    (terminalSnapshot turn run history usage candidate).status = candidate.status := by
  unfold terminalSnapshot
  dsimp only
  rw [if_neg]
  simp [hc]

end RunSnapshot

/-! ## The record of a run that has begun -/

namespace LiveRun

variable {turnId : String} {r r' : SessionRecord}

/-- A run that is begun anew has the snapshot it was begun with. -/
theorem Begun.of_begin [External] {params : StartTurnParams} {snapshot : RunSnapshot} {options : Value}
    (h : r.begin params snapshot options = .ok (true, r')) (hseq : snapshot.lastSeq = 0) :
    Begun params.turnId r' := by
  unfold SessionRecord.begin at h
  split at h
  · split at h
    · cases h
    · cases h
  · obtain ⟨-, h⟩ := refuse_bind_ok h
    obtain ⟨-, h⟩ := refuse_bind_ok h
    obtain ⟨hc, h⟩ := refuse_bind_ok h
    obtain ⟨_, -, h⟩ := bind_ok h
    obtain ⟨-, h⟩ := refuse_bind_ok h
    simp only [Bool.or_eq_false_iff] at hc
    cases h
    exact ⟨_, OrdMap.get?_insert_self _ _ _, hc.1.2, hseq⟩

/-- No other run is begun beside an active one. -/
theorem Begun.not_idle (h : Begun turnId r) : ¬ r.ledger.Idle := by
  obtain ⟨run, hget, hrun, -⟩ := h
  intro hidle
  have ht := hidle run (OrdMap.mem_values hget)
  rw [hrun] at ht
  cases ht

/-- A mutation changes the items of a snapshot only. -/
theorem Begun.mutate {l : Ledger} {turn : String} {fresh : FreshIds} {op : RunMutation} {revision : Nat}
    (h : Begun turnId r) (hl : Ledger.Change revision r.ledger (.update turn fresh op) l) :
    Begun turnId (r.withLedger l) := by
  obtain ⟨run, hget, hrun, hseq⟩ := h
  cases hl with
  | @update turn fresh op run₁ run' history found active edit =>
    by_cases ht : turn = turnId
    · subst ht
      have hget' : r.ledger.runs.get? turn = some run := hget
      rw [found] at hget'
      cases hget'
      have hsnap := edit.frame.snapshot
      refine ⟨_, OrdMap.get?_insert_self _ _ _, ?_, ?_⟩
      · show run'.snapshot.status.isTerminal = false
        rw [hsnap]
        exact hrun
      · show run'.snapshot.lastSeq = 0
        rw [hsnap]
        exact hseq
    · exact ⟨run, (OrdMap.get?_insert_ne _ _ ht).trans hget, hrun, hseq⟩

/-- What else the session asks of its journal while the run goes on. -/
theorem Begun.apply [External] {inp : Inputs} {action : Action} {response : Response} (h : Begun turnId r)
    (hj : Journals action) (ha : Whale.apply r inp action = .ok (response, r')) : Begun turnId r' := by
  cases action with
  | record =>
    cases ha
    exact h
  | begin params snapshot options =>
    obtain ⟨⟨accepted, r₁⟩, hb, ha⟩ := bind_ok ha
    cases ha
    rcases begin_change hb with ⟨-, rfl, -⟩ | ⟨-, -, l, hl, -⟩
    · exact h
    · cases hl with
      | accept absent idle => exact absurd idle h.not_idle
  | commit turn op =>
    obtain ⟨⟨item, r₁⟩, hm, ha⟩ := bind_ok ha
    cases ha
    obtain ⟨l, hl, rfl⟩ := mutate_change hm
    exact h.mutate hl
  | finalize turn candidate => exact hj.elim
  | replace configuration =>
    obtain ⟨hactive, -⟩ := refuse_bind_ok ha
    exact absurd (active_eq_false_iff.mp hactive) h.not_idle
  | replaceMetadata metadata =>
    obtain ⟨_, -, ha⟩ := bind_ok ha
    obtain ⟨_, -, ha⟩ := bind_ok ha
    cases ha
    exact h
  | acknowledge expected ids =>
    obtain ⟨-, ha⟩ := refuse_bind_ok ha
    obtain ⟨hactive, -⟩ := refuse_bind_ok ha
    exact absurd (active_eq_false_iff.mp hactive) h.not_idle
  | detach => exact hj.elim

/-! ## The invariant -/

variable {ρ : Type}

/-- Every way in which `execute_run` leaves its loop ends the run. -/
def Ending (result : Except (RunStatus × RunFailure) UsageMetrics) : Prop :=
  ∀ status failure, result = .error (status, failure) → status = .failed ∨ status = .cancelled

/-- Where the tasks of a run may be, and what they left in its snapshot and in the record. -/
structure Underway (s : LiveRun ρ) : Prop where
  turn : s.snapshot.turnId = s.turnId
  live : s.phase ≠ .finished → s.snapshot.status.isTerminal = false
  fresh : s.phase = .preparing → s.snapshot.lastSeq = 0
  record : s.phase ≠ .finished → ∀ r, s.record = some r → Begun s.turnId r
  executing : s.phase = .executing → s.acceptance = some true
  draining : ∀ result, s.phase = .draining result →
    Ending result ∧ (s.acceptance = some true ∨ result = rejectedResult)

/-- What a step before the last one does. -/
structure Moves (s t : LiveRun ρ) : Prop where
  keeps : s.snapshot.Keeps t.snapshot
  phase : t.phase = .finished ↔ s.phase = .finished
  assigned : (t.assigned = s.assigned ∧ t.snapshot.lastSeq = s.snapshot.lastSeq) ∨
    ∃ e stream, t.assigned = s.assigned ++ [e] ∧ e.payload = .stream stream ∧
      e.seq = s.snapshot.lastSeq + 1 ∧ t.snapshot.lastSeq = s.snapshot.lastSeq + 1 ∧
      s.phase ≠ .finished
  handed : ∃ more, t.handed = s.handed ++ more ∧ ∀ m ∈ more, m.StartsTurn ∨
    ∀ status, m.status? = some status → t.snapshot.status = status
  acknowledged : t.acknowledged = true → s.acknowledged = true ∨ t.snapshot.status = .cancelling
  stays : s.acknowledged = true → t.acknowledged = true
  unstored : t.unstored = s.unstored

/-- What the last step does. -/
structure Concludes (s t : LiveRun ρ) : Prop where
  turn : t.snapshot.turnId = s.snapshot.turnId
  before : s.phase ≠ .finished
  after : t.phase = .finished
  terminal : t.snapshot.status.isTerminal = true
  lastSeq : t.snapshot.lastSeq = s.snapshot.lastSeq + 1
  assigned : t.assigned = s.assigned ++ [t.snapshot.terminalEvent]
  handed : ∃ more, t.handed = s.handed ++ more ∧ ∀ m ∈ more, m.status? = some t.snapshot.status
  acknowledged : t.acknowledged = s.acknowledged
  cancelled : s.snapshot.status = .cancelling → t.unstored = false → t.snapshot.status = .cancelled
  failed : t.unstored = true → t.snapshot.StoreFailed

/-- What a journal makes of a candidate that is terminal, while it has the run as begun. -/
theorem Finalized.spec {c : RunSnapshot} {stored : Option SessionRecord}
    {journal : Option (Except StoreError FinalizedRun)} {record : Option SessionRecord}
    (h : Finalized c stored journal record) (hbegun : ∀ r, stored = some r → Begun c.turnId r)
    (hterm : c.status.isTerminal = true) (hseq : 0 < c.lastSeq) :
    (c.finalized journal).status.isTerminal = true ∧ (c.finalized journal).turnId = c.turnId ∧
      (c.finalized journal).lastSeq = c.lastSeq ∧
      ((∃ e, journal = some (.error e)) ∧ (c.finalized journal).StoreFailed ∨
        (∀ e, journal ≠ some (.error e)) ∧
          (c.status = .cancelled → (c.finalized journal).status = .cancelled)) := by
  cases h with
  | ephemeral => exact ⟨hterm, rfl, rfl, .inr ⟨nofun, id⟩⟩
  | failed error => exact ⟨rfl, rfl, rfl, .inl ⟨⟨error, rfl⟩, rfl, rfl⟩⟩
  | @stored r r' f answer =>
    obtain ⟨run, hget, hrun, hzero⟩ := hbegun r rfl
    obtain ⟨k1, -, k3, -⟩ := RunSnapshot.finalize_terminal answer hget hrun
    obtain ⟨total, hf⟩ := RunSnapshot.finalize_snapshot answer hget hrun
    refine ⟨k1, k3, ?_, .inr ⟨nofun, fun hc => ?_⟩⟩
    · show f.snapshot.lastSeq = _
      rw [hf]
      exact RunSnapshot.terminalSnapshot_lastSeq hzero hseq
    · show f.snapshot.status = _
      rw [hf, RunSnapshot.terminalSnapshot_status (by rw [hc]; decide)]
      exact hc

/-- The last step, from what the tasks and the record were. -/
theorem Underway.conclude {s : LiveRun ρ} (h : s.Underway) {journal : Option (Except StoreError FinalizedRun)}
    {record : Option SessionRecord} {o : RunSnapshot.Outcome} (items : List CanonicalItem)
    (phase : s.phase = .draining o.result)
    (answer : Finalized (s.candidate o items) s.record journal record) :
    Concludes s (s.conclude o items journal record) := by
  have hbefore : s.phase ≠ .finished := by
    rw [phase]
    exact nofun
  obtain ⟨hends, hacc⟩ := h.draining o.result phase
  have ho : ({ o with cancelled := s.cancel } : RunSnapshot.Outcome).Ends := hends
  obtain ⟨hterm, hturn, hseq⟩ :=
    RunSnapshot.concluded_spec s.snapshot (s.acceptance == some true) items ho
  have hcancelled : s.snapshot.status = .cancelling → (s.candidate o items).status = .cancelled :=
    fun hc => RunSnapshot.concluded_cancelled hc (hacc.imp (fun hs => by rw [hs]; rfl) id)
  have hbegun : ∀ r, s.record = some r → Begun (s.candidate o items).turnId r := fun r hr => by
    rw [show (s.candidate o items).turnId = s.turnId from hturn.trans h.turn]
    exact h.record hbefore r hr
  have hpos : 0 < (s.candidate o items).lastSeq := by
    rw [show (s.candidate o items).lastSeq = _ from hseq]
    exact Nat.succ_pos _
  obtain ⟨hterm', hturn', hseq', hfin⟩ := answer.spec hbegun hterm hpos
  refine ⟨hturn'.trans hturn, hbefore, rfl, hterm', hseq'.trans hseq, rfl, ?_, rfl, fun hc hu => ?_, fun hu => ?_⟩
  · by_cases ha : s.acceptance = some true
    · refine ⟨_, if_pos ha, fun m hm => ?_⟩
      rw [List.mem_singleton.mp hm]
      rfl
    · exact ⟨[], (if_neg ha).trans (List.append_nil _).symm, List.forall_mem_nil _⟩
  · rcases hfin with ⟨⟨e, rfl⟩, -⟩ | ⟨-, hkeep⟩
    · cases hu
    · exact hkeep (hcancelled hc)
  · rcases hfin with ⟨-, hfail⟩ | ⟨hnone, -⟩
    · exact hfail
    · unfold LiveRun.conclude at hu
      dsimp only at hu
      split at hu
      · exact absurd rfl (hnone _)
      · cases hu

/-- A copy that is handed over if there is one. -/
theorem copies (handed : List RunPublicationMutation) (changed : RunSnapshot × Bool) :
    ∃ more, (if changed.2 then handed ++ [.changed changed.1] else handed) = handed ++ more ∧
      ∀ m ∈ more, m.StartsTurn ∨ ∀ status, m.status? = some status → changed.1.status = status := by
  obtain ⟨snapshot, changed⟩ := changed
  cases changed with
  | false => exact ⟨[], (List.append_nil _).symm, List.forall_mem_nil _⟩
  | true =>
    refine ⟨[.changed snapshot], rfl, fun m hm => .inr fun status hs => ?_⟩
    rw [List.mem_singleton.mp hm] at hs
    cases hs
    rfl

section
variable [DecidableEq ρ] [External] [InteractionHost] {submit : ρ → ResponseSubmission} {s t : LiveRun ρ}
  {l : Label}

/-- Every step is one before the last, or the last. -/
theorem Underway.cases (h : s.Underway) (hs : Step submit s l t) : Moves s t ∨ Concludes s t := by
  have hquiet : ∀ {t : LiveRun ρ}, s.snapshot.Keeps t.snapshot → t.snapshot.lastSeq = s.snapshot.lastSeq →
      (t.phase = .finished ↔ s.phase = .finished) → t.assigned = s.assigned → t.handed = s.handed →
      t.acknowledged = s.acknowledged → t.unstored = s.unstored → Moves s t := by
    intro t hk hseq hp ha hh hack hu
    exact ⟨hk, hp, .inl ⟨ha, hseq⟩, ⟨[], by rw [hh, List.append_nil], List.forall_mem_nil _⟩,
      fun h => .inl (hack ▸ h), fun h => hack.symm ▸ h, hu⟩
  cases hs with
  | prepare params options phase turn begun earlier =>
    exact .inl (hquiet (.refl _) rfl (by rw [phase]; exact ⟨nofun, nofun⟩) rfl rfl rfl rfl)
  | refuse phase => exact .inl (hquiet (.refl _) rfl (by rw [phase]; exact ⟨nofun, nofun⟩) rfl rfl rfl rfl)
  | execute phase | reject phase =>
    exact .inl (hquiet (.refl _) rfl (by rw [phase]; exact ⟨nofun, nofun⟩) rfl rfl rfl rfl)
  | leave result phase =>
    exact .inl (hquiet (.refl _) rfl (by rw [phase]; exact ⟨nofun, nofun⟩) rfl rfl rfl rfl)
  | accept | interrupt | send | request | announce | registry | journal =>
    exact .inl (hquiet (.refl _) rfl .rfl rfl rfl rfl rfl)
  | read usage executions => exact .inl (hquiet (.of_eq rfl rfl rfl) rfl .rfl rfl rfl rfl rfl)
  | abandon =>
    exact .inl (hquiet (RunSnapshot.keeps_cancelRequested _ _ _) (RunSnapshot.cancelRequested_lastSeq _ _ _)
      .rfl rfl rfl rfl rfl)
  | @take event rest executions queued phase =>
    have hlive : s.phase ≠ .finished := by
      rintro hp
      rcases phase with hph | ⟨result, hph⟩ <;> exact nomatch hph.symm.trans hp
    refine .inl ⟨RunSnapshot.keeps_streamed (h.live hlive) executions event, .rfl, ?_, ?_, .inl, id, rfl⟩
    · rcases s.snapshot.streamed_numbered executions event with ⟨hn, hseq⟩ | ⟨e, he, hp, hs, hseq, -⟩
      · exact .inl ⟨by simp [publishStream, hn], hseq⟩
      · exact .inr ⟨e, event, by simp [publishStream, he], hp, hs, hseq, hlive⟩
    · exact ⟨((s.snapshot.streamed executions event).2.map RunPublicationMutation.event).toList, rfl,
        RunSnapshot.streamed_handed _ _ _⟩
  | cancel usage executions known =>
    refine .inl ⟨RunSnapshot.keeps_cancelRequested _ _ _, .rfl,
      .inl ⟨rfl, RunSnapshot.cancelRequested_lastSeq _ _ _⟩, ?_, fun ha => ?_, fun ha => ?_, rfl⟩
    · exact copies _ _
    · simpa [requestCancel] using ha
    · simp [requestCancel, ha]
  | project g txn typed turn stage due =>
    exact .inl ⟨RunSnapshot.keeps_approvalResolved _ _, .rfl,
      .inl ⟨rfl, RunSnapshot.approvalResolved_lastSeq _ _⟩, copies _ _, .inl, id, rfl⟩
  | finish usage executions items phase drained answer =>
    exact .inr (h.conclude items phase answer)

omit [DecidableEq ρ] [External] [InteractionHost] in
/-- Where the tasks, the acceptance and the record are the same, the snapshot may have changed. -/
theorem Underway.of_keeps (h : s.Underway) (hk : s.snapshot.Keeps t.snapshot)
    (hseq : t.snapshot.lastSeq = s.snapshot.lastSeq) (hid : t.turnId = s.turnId)
    (hp : t.phase = s.phase) (hr : t.record = s.record) (ha : t.acceptance = s.acceptance) :
    t.Underway := by
  refine ⟨?_, fun hne => hk.live (h.live (hp ▸ hne)), fun hpre => ?_, fun hne r hrec => ?_,
    fun hex => ?_, fun result hd => ?_⟩
  · rw [hk.turnId, hid]
    exact h.turn
  · rw [hseq]
    exact h.fresh (hp ▸ hpre)
  · rw [hid]
    exact h.record (hp ▸ hne) r (hr ▸ hrec)
  · rw [ha]
    exact h.executing (hp ▸ hex)
  · rw [ha]
    exact h.draining result (hp ▸ hd)

theorem Underway.step (h : s.Underway) (hs : Step submit s l t) : t.Underway := by
  cases hs with
  | @prepare r₀ r fresh params options phase turn begun earlier =>
    have hlive : s.phase ≠ .finished := by
      rw [phase]
      exact nofun
    refine ⟨h.turn, fun _ => h.live hlive, nofun, fun _ r' hr => ?_, nofun, nofun⟩
    cases hr
    cases fresh with
    | false => exact earlier rfl
    | true => exact turn ▸ Begun.of_begin begun (h.fresh phase)
  | refuse phase =>
    have hlive : s.phase ≠ .finished := by
      rw [phase]
      exact nofun
    exact ⟨h.turn, fun _ => h.live hlive, nofun, fun _ => h.record hlive, nofun, nofun⟩
  | accept accepted open_ =>
    have hnone : s.acceptance ≠ some true := by
      rw [open_]
      exact nofun
    exact ⟨h.turn, h.live, h.fresh, h.record, fun hp => absurd (h.executing hp) hnone,
      fun result hp => (h.draining result hp).imp id fun hd => .inr (hd.resolve_left hnone)⟩
  | interrupt | send | request | announce | registry =>
    exact h.of_keeps (.refl _) rfl rfl rfl rfl rfl
  | execute phase accepted =>
    have hlive : s.phase ≠ .finished := by
      rw [phase]
      exact nofun
    exact ⟨h.turn, fun _ => h.live hlive, nofun, fun _ => h.record hlive, fun _ => accepted, nofun⟩
  | reject phase accepted =>
    have hlive : s.phase ≠ .finished := by
      rw [phase]
      exact nofun
    refine ⟨h.turn, fun _ => h.live hlive, nofun, fun _ => h.record hlive, nofun, fun result hp => ?_⟩
    cases hp
    refine ⟨fun status failure he => ?_, .inr rfl⟩
    cases he
    exact .inr rfl
  | journal inp action stored journals applied =>
    refine ⟨h.turn, h.live, h.fresh, fun hp r hr => ?_, h.executing, h.draining⟩
    cases hr
    exact (h.record hp _ stored).apply journals applied
  | take executions queued phase =>
    have hlive : s.phase ≠ .finished := by
      rintro hp
      rcases phase with hph | ⟨result, hph⟩ <;> exact nomatch hph.symm.trans hp
    have hk := RunSnapshot.keeps_streamed (h.live hlive) executions
    refine ⟨(hk _).turnId.trans h.turn, fun _ => (hk _).live (h.live hlive), fun hp => ?_, h.record,
      h.executing, h.draining⟩
    rcases phase with hph | ⟨result, hph⟩ <;> exact nomatch hph.symm.trans hp
  | cancel usage executions known =>
    exact h.of_keeps (RunSnapshot.keeps_cancelRequested _ _ _)
      (RunSnapshot.cancelRequested_lastSeq _ _ _) rfl rfl rfl rfl
  | abandon =>
    exact h.of_keeps (RunSnapshot.keeps_cancelRequested _ _ _)
      (RunSnapshot.cancelRequested_lastSeq _ _ _) rfl rfl rfl rfl
  | read usage executions => exact h.of_keeps (.of_eq rfl rfl rfl) rfl rfl rfl rfl rfl
  | project g txn typed turn stage due =>
    exact h.of_keeps (RunSnapshot.keeps_approvalResolved _ _)
      (RunSnapshot.approvalResolved_lastSeq _ _) rfl rfl rfl rfl
  | leave result phase cause =>
    have hlive : s.phase ≠ .finished := by
      rw [phase]
      exact nofun
    refine ⟨h.turn, fun _ => h.live hlive, nofun, fun _ => h.record hlive, nofun, fun result' hp => ?_⟩
    cases hp
    refine ⟨fun status failure he => ?_, .inl (h.executing phase)⟩
    rcases cause with ⟨rfl, -⟩ | rfl | ⟨usage, rfl⟩ | ⟨code, message, rfl⟩
    · cases he
      exact .inr rfl
    · cases he
      exact .inl rfl
    · cases he
    · cases he
      exact .inl rfl
  | finish usage executions items phase drained answer =>
    refine ⟨?_, fun hp => absurd rfl hp, nofun, fun hp => absurd rfl hp, nofun, nofun⟩
    exact (h.conclude items phase answer).turn.trans h.turn

/-! ## Runs -/

/-- What was numbered, handed over and acknowledged so far. -/
structure Told (s : LiveRun ρ) : Prop where
  numbered : Numbered (·.seq) 0 s.assigned
  length : s.assigned.length = s.snapshot.lastSeq
  streams : s.phase ≠ .finished → ∀ e ∈ s.assigned, ¬ e.Finished
  last : s.phase = .finished →
    ∃ before final, s.assigned = before ++ [final] ∧ final.Finished ∧ ∀ e ∈ before, ¬ e.Finished
  cancelling : s.acknowledged = true → s.phase ≠ .finished → s.snapshot.status = .cancelling
  ended : s.phase = .finished → s.snapshot.status.isTerminal = true
  cancelled : s.acknowledged = true → s.phase = .finished → s.unstored = false →
    s.snapshot.status = .cancelled
  stored : s.phase ≠ .finished → s.unstored = false
  failed : s.unstored = true → s.snapshot.StoreFailed
  silent : s.phase ≠ .finished ∨ s.unstored = true → ∀ m ∈ s.handed, m.status? ≠ some .completed

omit [DecidableEq ρ] [External] [InteractionHost] in
theorem Moves.told (h : s.Told) (hlive : s.phase ≠ .finished → s.snapshot.status.isTerminal = false)
    (hm : Moves s t) : t.Told := by
  have hlive' : t.phase ≠ .finished → t.snapshot.status.isTerminal = false := fun hp =>
    hm.keeps.live (hlive fun hs => hp (hm.phase.mpr hs))
  have hended : t.phase = .finished → t.snapshot.status = s.snapshot.status ∧
      t.snapshot.error = s.snapshot.error := fun hp =>
    hm.keeps.settled (h.ended (hm.phase.mp hp))
  have hfailed : t.unstored = true → t.snapshot.StoreFailed := by
    intro hu
    have hf := h.failed (hm.unstored ▸ hu)
    have hp : s.phase = .finished := by
      by_contra hne
      rw [hm.unstored, h.stored hne] at hu
      cases hu
    obtain ⟨h1, h2⟩ := hended (hm.phase.mpr hp)
    exact ⟨h1.trans hf.1, h2.trans hf.2⟩
  refine ⟨?_, ?_, ?_, ?_, fun ha hp => ?_, fun hp => ?_, fun ha hp hu => ?_, fun hp => ?_, hfailed,
    fun hp => ?_⟩
  · rcases hm.assigned with ⟨ha, -⟩ | ⟨e, stream, ha, -, hseq, -⟩
    · rw [ha]
      exact h.numbered
    · rw [ha]
      exact h.numbered.snoc (by rw [hseq, h.length, Nat.zero_add])
  · rcases hm.assigned with ⟨ha, hseq⟩ | ⟨e, stream, ha, -, -, hseq, -⟩
    · rw [ha, hseq]
      exact h.length
    · rw [ha, hseq, List.length_append, h.length]
      rfl
  · intro hp
    have hs := h.streams fun hs => hp (hm.phase.mpr hs)
    rcases hm.assigned with ⟨ha, -⟩ | ⟨e, stream, ha, hpay, -⟩
    · rw [ha]
      exact hs
    · rw [ha]
      intro e' he'
      rcases List.mem_append.mp he' with he' | he'
      · exact hs e' he'
      · rw [List.mem_singleton.mp he']
        rintro ⟨snapshot, hsn⟩
        rw [hpay] at hsn
        cases hsn
  · intro hp
    rcases hm.assigned with ⟨ha, -⟩ | ⟨-, -, -, -, -, -, hne⟩
    · rw [ha]
      exact h.last (hm.phase.mp hp)
    · exact absurd (hm.phase.mp hp) hne
  · rcases hm.acknowledged ha with hs | hs
    · exact hm.keeps.cancelling (h.cancelling hs fun hf => hp (hm.phase.mpr hf))
    · exact hs
  · rw [(hended hp).1]
    exact h.ended (hm.phase.mp hp)
  · rw [(hended hp).1]
    rcases hm.acknowledged ha with hs | hs
    · exact h.cancelled hs (hm.phase.mp hp) (hm.unstored ▸ hu)
    · -- a run that has ended is not cancelling
      have hterm := h.ended (hm.phase.mp hp)
      rw [← (hended hp).1, hs] at hterm
      cases hterm
  · rw [hm.unstored]
    exact h.stored fun hs => hp (hm.phase.mpr hs)
  · have hs : s.phase ≠ .finished ∨ s.unstored = true :=
      hp.imp (fun hp hs => hp (hm.phase.mpr hs)) fun hu => hm.unstored ▸ hu
    have hstatus : t.snapshot.status ≠ .completed := by
      intro hc
      rcases hp with hp | hu
      · have hl := hlive' hp
        rw [hc] at hl
        cases hl
      · have hf := (hfailed hu).1
        rw [hc] at hf
        cases hf
    obtain ⟨more, hmore, hall⟩ := hm.handed
    rw [hmore]
    intro m hmem
    rcases List.mem_append.mp hmem with hmem | hmem
    · exact h.silent hs m hmem
    · rcases hall m hmem with ⟨e, turnId, threadId, rfl, hpay⟩ | hall
      · unfold RunPublicationMutation.status?
        simp [hpay, AgentStreamEvent.status?]
      · exact fun hst => hstatus (hall _ hst)

omit [DecidableEq ρ] [External] [InteractionHost] in
theorem Concludes.told (h : s.Told) (hc : Concludes s t) : t.Told := by
  refine ⟨?_, ?_, fun hp => absurd hc.after hp, fun _ => ?_, fun _ hp => absurd hc.after hp,
    fun _ => hc.terminal, fun ha _ hu => ?_, fun hp => absurd hc.after hp, hc.failed, fun hp => ?_⟩
  · rw [hc.assigned]
    refine h.numbered.snoc ?_
    show t.snapshot.lastSeq = _
    rw [hc.lastSeq, h.length, Nat.zero_add]
  · rw [hc.assigned, hc.lastSeq, List.length_append, h.length]
    rfl
  · exact ⟨s.assigned, _, hc.assigned, ⟨t.snapshot, rfl⟩, h.streams hc.before⟩
  · exact hc.cancelled (h.cancelling (hc.acknowledged ▸ ha) hc.before) hu
  · have hu : t.unstored = true := hp.resolve_left fun hne => hne hc.after
    obtain ⟨more, hmore, hall⟩ := hc.handed
    rw [hmore]
    intro m hm
    rcases List.mem_append.mp hm with hm | hm
    · exact h.silent (.inl hc.before) m hm
    · rw [hall m hm, (hc.failed hu).1]
      exact nofun

/-- The invariant of a run. -/
structure Sound (s : LiveRun ρ) : Prop where
  underway : s.Underway
  told : s.Told

theorem Sound.step (h : s.Sound) (hs : Step submit s l t) : t.Sound := by
  refine ⟨h.underway.step hs, ?_⟩
  rcases h.underway.cases hs with hm | hc
  · exact hm.told h.told h.underway.live
  · exact hc.told h.told

theorem Sound.run (h : s.Sound) {ls : List Label} (hrun : Lts.Run (Step submit) s ls t) : t.Sound :=
  hrun.invariant Sound (fun _ _ _ h hs => h.step hs) h

omit [DecidableEq ρ] [External] [InteractionHost] in
theorem sound_start (params : StartTurnParams) (interactions : Interactions ρ) (durable : Bool) :
    (start (initialSnapshot params) interactions durable).Sound := by
  have hphase : (start (initialSnapshot params) interactions durable).phase = .preparing ∨
      (start (initialSnapshot params) interactions durable).phase = .accepting := by
    cases durable with
    | true => exact .inl rfl
    | false => exact .inr rfl
  have hne : (start (initialSnapshot params) interactions durable).phase ≠ .finished := by
    rcases hphase with hp | hp <;> rw [hp] <;> exact nofun
  refine ⟨⟨rfl, fun _ => rfl, fun _ => rfl, fun _ r hr => (nomatch hr), fun hp => ?_,
      fun result hp => ?_⟩,
    ⟨trivial, rfl, fun _ e he => (by cases he), fun hp => absurd hp hne, nofun, fun hp => absurd hp hne,
      nofun, fun _ => rfl, nofun, fun _ m hm => (by cases hm)⟩⟩
  · rcases hphase with h | h <;> exact nomatch h.symm.trans hp
  · rcases hphase with h | h <;> exact nomatch h.symm.trans hp

/-- After an acknowledged cancellation nothing that is handed over shows the run at work, but the event
that its turn has started. -/
structure Stands (s t : LiveRun ρ) : Prop where
  stays : s.acknowledged = true → t.acknowledged = true
  handed : s.acknowledged = true → ∃ later, t.handed = s.handed ++ later ∧
    ∀ m ∈ later, m.StartsTurn ∨ ∀ status, m.status? = some status → ¬ status.Live

omit [DecidableEq ρ] [External] [InteractionHost] in
theorem Sound.not_live (h : s.Sound) (ha : s.acknowledged = true) : ¬ s.snapshot.status.Live := by
  by_cases hp : s.phase = .finished
  · have hterm := h.told.ended hp
    rintro (hl | hl)
    · rw [hl] at hterm
      cases hterm
    · rw [hl] at hterm
      cases hterm
  · rw [h.told.cancelling ha hp]
    exact fun hl => hl.elim nofun nofun

theorem Sound.stands (h : s.Sound) (hs : Step submit s l t) : Stands s t := by
  have ht := h.step hs
  rcases h.underway.cases hs with hm | hc
  · refine ⟨hm.stays, fun ha => ?_⟩
    obtain ⟨more, hmore, hall⟩ := hm.handed
    refine ⟨more, hmore, fun m hmem => (hall m hmem).imp id fun hst status hstatus => ?_⟩
    rw [← hst status hstatus]
    exact ht.not_live (hm.stays ha)
  · refine ⟨fun ha => hc.acknowledged ▸ ha, fun ha => ?_⟩
    obtain ⟨more, hmore, hall⟩ := hc.handed
    refine ⟨more, hmore, fun m hmem => .inr fun status hstatus => ?_⟩
    rw [hall m hmem] at hstatus
    cases hstatus
    exact ht.not_live (hc.acknowledged ▸ ha)

theorem Sound.stands_run (h : s.Sound) {ls : List Label} (hrun : Lts.Run (Step submit) s ls t) :
    Stands s t := by
  refine hrun.rel Sound Stands (fun _ _ _ h hs => h.step hs) (fun s => ?_) (fun s t u h1 h2 => ?_)
    (fun _ _ _ h hs => h.stands hs) h
  · exact ⟨id, fun _ => ⟨[], (List.append_nil _).symm, List.forall_mem_nil _⟩⟩
  · refine ⟨fun ha => h2.stays (h1.stays ha), fun ha => ?_⟩
    obtain ⟨l1, he1, hl1⟩ := h1.handed ha
    obtain ⟨l2, he2, hl2⟩ := h2.handed (h1.stays ha)
    refine ⟨l1 ++ l2, by rw [he2, he1, List.append_assoc], fun m hm => ?_⟩
    exact (List.mem_append.mp hm).elim (hl1 m) (hl2 m)

end

end LiveRun

/-- Once a cancellation was acknowledged, the run is `Cancelling` until it ends, and ends as cancelled
unless its journal refused the terminal snapshot; of what is handed to the projections later, nothing but
the start of the turn makes them show the run at work. In every run the numbers of the events are
consecutive, the terminal event is the last one, and a run whose terminal snapshot was not stored is
nowhere shown as completed. -/
theorem acknowledged_cancellation_final [External] [InteractionHost] [EventSerde] {ρ : Type}
    [DecidableEq ρ] (submit : ρ → ResponseSubmission) (params : StartTurnParams)
    (interactions : Interactions ρ) (durable : Bool) {ls : List LiveRun.Label} {s : LiveRun ρ}
    (hrun : Lts.Run (LiveRun.Step submit)
      (LiveRun.start (LiveRun.initialSnapshot params) interactions durable) ls s) :
    (s.acknowledged = true → ∀ ls' t, Lts.Run (LiveRun.Step submit) s ls' t →
      (t.phase ≠ .finished → t.snapshot.status = .cancelling) ∧
      (t.phase = .finished →
        t.snapshot.status = .cancelled ∨ t.unstored = true ∧ t.snapshot.StoreFailed) ∧
      ∃ later, t.handed = s.handed ++ later ∧ ∀ m ∈ later, ¬ m.StartsTurn →
        (∀ status, m.status? = some status → ¬ status.Live) ∧
        ∀ owner now p p', Execution.Accepts p owner m now p' → ¬ p.ShowsLive → ¬ p'.ShowsLive) ∧
    Numbered (·.seq) 0 s.assigned ∧
    (s.phase ≠ .finished → ∀ e ∈ s.assigned, ¬ e.Finished) ∧
    (s.phase = .finished →
      ∃ before final, s.assigned = before ++ [final] ∧ final.Finished ∧ ∀ e ∈ before, ¬ e.Finished) ∧
    (s.unstored = true → s.snapshot.StoreFailed ∧ ∀ m ∈ s.handed, m.status? ≠ some .completed) := by
  have hs := (LiveRun.sound_start params interactions durable).run hrun
  refine ⟨fun ha ls' t hrun' => ?_, hs.told.numbered, hs.told.streams, hs.told.last,
    fun hu => ⟨hs.told.failed hu, hs.told.silent (.inr hu)⟩⟩
  have ht := hs.run hrun'
  have hstands := hs.stands_run hrun'
  have hack := hstands.stays ha
  refine ⟨ht.told.cancelling hack, fun hp => ?_, ?_⟩
  · cases hu : t.unstored with
    | true => exact .inr ⟨rfl, ht.told.failed hu⟩
    | false => exact .inl (ht.told.cancelled hack hp hu)
  · obtain ⟨later, hlater, hall⟩ := hstands.handed ha
    refine ⟨later, hlater, fun m hm hstart => ?_⟩
    have hquiet := (hall m hm).resolve_left hstart
    exact ⟨hquiet, fun owner now p p' hacc => hacc.quiet hquiet⟩

/-! ## A cancellation whose terminal snapshot is not stored -/

namespace Sample

open LiveRun

/-- A turn of the session of `desk`. -/
def turnParams : StartTurnParams := { threadId := "t", turnId := "r", inputItems := [] }

/-- The record of the session, attached. -/
def attached : SessionRecord := @createdRecord host ⟨"k", "s"⟩ (.object []) "o" "t" 7

/-- The run of the sample, without any response. -/
abbrev TurnStep := @LiveRun.Step Bool _ host tags approve

def turnStart (durable : Bool) : LiveRun Bool :=
  LiveRun.start (initialSnapshot turnParams) (Interactions.start desk) durable

def executing (r : SessionRecord) : LiveRun Bool :=
  { turnStart true with record := some r, acceptance := some true, phase := .executing }

/-- A durable run is accepted and executed. -/
theorem executing_run :
    ∃ r, Lts.Run TurnStep (turnStart true) [.other, .other, .other] (executing r) := by
  let := host
  let := tags
  obtain ⟨r, hr⟩ : ∃ r, attached.begin turnParams (initialSnapshot turnParams) (.object []) =
      .ok (true, r) := by
    have hok : (attached.begin turnParams (initialSnapshot turnParams) (.object [])).toOption.map (·.1) =
        some true := by decide +kernel
    rcases h : attached.begin turnParams (initialSnapshot turnParams) (.object []) with e | ⟨b, r⟩
    · rw [h] at hok
      cases hok
    · rw [h] at hok
      cases hok
      exact ⟨r, rfl⟩
  have h1 : TurnStep (turnStart true) .other
      { turnStart true with record := some r, phase := .accepting } :=
    .prepare turnParams (.object []) rfl rfl hr nofun
  exact ⟨r, .cons h1 (.cons (.accept true rfl) (.single (.execute rfl rfl)))⟩

/-- The cancellation is acknowledged while the start of the turn is in the channel. -/
def stopping (r : SessionRecord) : LiveRun Bool :=
  { executing r with channel := [.turnStarted "r" "t"] }.requestCancel {} []

/-- The copy that `turn.cancel` commits. -/
def cancellingCopy : RunSnapshot := { initialSnapshot turnParams with status := .cancelling }

/-- The event that was in the channel. -/
def startedEvent : RunEvent := ⟨"t", "r", 1, .stream (.turnStarted "r" "t")⟩

end Sample

/-- The cancellation of a durable run is acknowledged while the start of its turn is in the channel. The
projections show the run at work again, and as the journal does not store the terminal snapshot, it
fails. -/
theorem acknowledged_cancellation_fails : ∃ (ls ls' : List LiveRun.Label) (s t : LiveRun Bool),
    Lts.Run Sample.TurnStep (Sample.turnStart true) ls s ∧ s.acknowledged = true ∧
    Lts.Run Sample.TurnStep s ls' t ∧ t.phase = .finished ∧ t.snapshot.status = .failed ∧
    (∃ rest, t.handed = .changed Sample.cancellingCopy :: .event Sample.startedEvent :: rest) ∧
    ∃ p p', @Execution.Accepts Sample.host Sample.serde Sample.opened "o"
        (.changed Sample.cancellingCopy) 7 p ∧
      p.views.snapshot.activeRun.map (·.snapshot.status) = some .cancelling ∧
      @Execution.Accepts Sample.host Sample.serde p "o" (.event Sample.startedEvent) 7 p' ∧
      p'.views.snapshot.activeRun.map (·.snapshot.status) = some .running ∧
      p'.management.projection.snapshot.activeRun.map (·.snapshot.status) = some .running := by
  let := Sample.host
  let := Sample.tags
  obtain ⟨r, hrun⟩ := Sample.executing_run
  have hstop : Lts.Run Sample.TurnStep (Sample.executing r) [.other, .other] (Sample.stopping r) :=
    .cons (.send (.turnStarted "r" "t") nofun) (.single (.cancel {} [] nofun))
  have hend : ∃ t, Lts.Run Sample.TurnStep (Sample.stopping r)
      [.took (.turnStarted "r" "t"), .other, .other] t ∧ t.phase = .finished ∧
      t.snapshot.status = .failed ∧ ∃ rest,
        t.handed = .changed Sample.cancellingCopy :: .event Sample.startedEvent :: rest :=
    ⟨_, .cons (.take [] rfl (.inl rfl)) (.cons (.leave cancelledResult rfl (.inl ⟨rfl, rfl⟩))
      (.single (.finish {} [] [] rfl rfl (@LiveRun.Finalized.failed _ r r .conflict)))), rfl, rfl, _, rfl⟩
  obtain ⟨t, hend, hphase, hfailed, hhanded⟩ := hend
  exact ⟨_, _, _, t, hrun.append hstop, rfl, hend, hphase, hfailed, hhanded,
    Sample.published Sample.opened (.changed Sample.cancellingCopy),
    Sample.published (Sample.published Sample.opened (.changed Sample.cancellingCopy))
      (.event Sample.startedEvent),
    Sample.accepts_of_accepted (by decide +kernel), by decide +kernel,
    Sample.accepts_of_accepted (by decide +kernel), by decide +kernel, by decide +kernel⟩

/-- A run of an ephemeral session that is cancelled ends as cancelled. -/
theorem acknowledged_cancellation_final_sample : ∃ (ls : List LiveRun.Label) (t : LiveRun Bool),
    Lts.Run Sample.TurnStep (Sample.turnStart false) ls t ∧ t.phase = .finished ∧
    t.snapshot.status = .cancelled ∧ Numbered (·.seq) 0 t.assigned := by
  let := Sample.host
  let := Sample.tags
  have hstop : ∃ s, Lts.Run Sample.TurnStep (Sample.turnStart false) [.other, .other, .other] s ∧
      s.acknowledged = true ∧ ∃ t, Lts.Run Sample.TurnStep s [.other, .other] t ∧
        t.phase = .finished ∧ t.unstored = false :=
    ⟨_, .cons (.accept true rfl) (.cons (.execute rfl rfl) (.single (.cancel {} [] nofun))), rfl, _,
      .cons (.leave cancelledResult rfl (.inl ⟨rfl, rfl⟩))
        (.single (.finish {} [] [] rfl rfl .ephemeral)), rfl, rfl⟩
  obtain ⟨s, hrun, hack, t, hend, hphase, hstored⟩ := hstop
  have hfinal := @acknowledged_cancellation_final Sample.host Sample.tags Sample.serde Bool _
    Sample.approve Sample.turnParams (Interactions.start Sample.desk) false _ s hrun
  have hnumbered := @acknowledged_cancellation_final Sample.host Sample.tags Sample.serde Bool _
    Sample.approve Sample.turnParams (Interactions.start Sample.desk) false _ t (hrun.append hend)
  have hended := (hfinal.1 hack _ t hend).2.1 hphase
  refine ⟨_, t, hrun.append hend, hphase, hended.resolve_right fun hu => ?_, hnumbered.2.1⟩
  rw [hstored] at hu
  exact absurd hu.1 (by decide)

end Whale
