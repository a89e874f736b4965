import Whale.Daemon.Proof.Replay
import Whale.Protocol.Proof.History

/-!
# A client that replays

A client starts from a snapshot whose history is cut to `k` items and applies the events that follow.
The reducer decides from the window and from the active run whether an item is known, so a shorter
window may answer differently. `ItemLedger` is what the events themselves tell about the items of a
session: those of earlier runs and those of the current one. Where ids are not reused across runs
(`ItemLedger.Proviso`) and a run that changes keeps listing what it completed (`ItemLedger.Keeps`),
every item offered a second time is listed by the active run (`ItemLedger.Tracks.fresh`), and the client
follows the server.
-/

namespace Whale

open Check SessionHistoryWindow

/-- The items of a session that were completed, by id. -/
structure ItemLedger where
  /-- The active run. -/
  turn : Option String
  earlier : List String
  /-- Of the active run, or of the last one when none is active. -/
  current : List String

namespace ItemLedger

/-- A session that starts with a history. -/
def start (history : List CanonicalItem) : ItemLedger := ⟨none, ids history, []⟩

/-- The ledger after an event. A changed run with another id than the active one is a new run. -/
def record (l : ItemLedger) : SessionEventPayload → ItemLedger
  | .runChanged run =>
    if l.turn = some run.snapshot.turnId then l
    else ⟨some run.snapshot.turnId, l.earlier ++ l.current, []⟩
  | .runEvent ⟨_, _, _, .stream (.itemCompleted _ item)⟩ =>
    { l with current := l.current ++ [item.id] }
  | .runEvent ⟨_, _, _, .finished snapshot⟩ =>
    { l with turn := none, current := l.current ++ ids snapshot.items }
  | .runEvent ⟨_, _, _, .stream _⟩ => l

/-- Ids are not reused across runs, and a started item was not completed before. -/
def Proviso (l : ItemLedger) : SessionEventPayload → Prop
  | .runEvent ⟨_, _, _, .stream (.itemStarted _ itemId _ _)⟩ =>
    itemId ∉ l.earlier ∧ itemId ∉ l.current
  | .runEvent ⟨_, _, _, .stream (.itemCompleted _ item)⟩ => item.id ∉ l.earlier
  | .runEvent ⟨_, _, _, .finished snapshot⟩ => ∀ id ∈ ids snapshot.items, id ∉ l.earlier
  | .runEvent ⟨_, _, _, .stream _⟩ | .runChanged _ => True

/-- A change of the active run keeps every item that the run has completed, and no finished run lists
an id twice. -/
def Keeps (l : ItemLedger) : SessionEventPayload → Prop
  | .runChanged run => l.turn = some run.snapshot.turnId →
    ∀ id ∈ l.current, id ∈ ids run.snapshot.items
  | .runEvent ⟨_, _, _, .finished snapshot⟩ => (ids snapshot.items).Nodup
  | .runEvent ⟨_, _, _, .stream _⟩ => True

/-- A condition on every event of a session. -/
def Every (P : ItemLedger → SessionEventPayload → Prop) : ItemLedger → List SessionEventPayload → Prop
  | _, [] => True
  | l, p :: ps => P l p ∧ Every P (l.record p) ps

def recordAll (l : ItemLedger) (ps : List SessionEventPayload) : ItemLedger := ps.foldl record l

theorem every_append {P : ItemLedger → SessionEventPayload → Prop} {l : ItemLedger}
    {ps qs : List SessionEventPayload} :
    Every P l (ps ++ qs) ↔ Every P l ps ∧ Every P (l.recordAll ps) qs := by
  induction ps generalizing l with
  | nil => simp [Every, recordAll]
  | cons p ps ih => simp only [List.cons_append, Every, ih, recordAll, List.foldl_cons, and_assoc]

/-- The ledger tells the truth about a snapshot over the history `h`. -/
structure Tracks (l : ItemLedger) (s : SessionSnapshot) (h : List CanonicalItem) : Prop where
  turn : l.turn = s.activeRun.map (·.snapshot.turnId)
  known : ∀ id ∈ ids h, id ∈ l.earlier ∨ id ∈ l.current
  listed : ∀ run, s.activeRun = some run → ∀ id ∈ l.current, id ∈ ids run.snapshot.items

variable {l : ItemLedger} {s : SessionSnapshot} {h : List CanonicalItem}

/-- What an event offers again is listed by the active run. -/
theorem Tracks.fresh (ht : l.Tracks s h) {e : SessionEventEnvelope} {n : SessionSnapshot}
    (hp : l.Proviso e.payload) (hk : l.Keeps e.payload) (hn : s.applyPayload e = .ok n) :
    s.Fresh h e.payload := by
  have hcurrent : ∀ run, s.activeRun = some run → ∀ id ∈ ids h, id ∉ l.earlier →
      id ∈ ids s.listed := by
    intro run hrun id hid hne
    unfold SessionSnapshot.listed
    rw [hrun]
    rcases ht.known id hid with he | hc
    · exact absurd he hne
    · exact ht.listed run hrun id hc
  obtain ⟨threadId, cursor, occurredAtMs, payload⟩ := e
  unfold SessionSnapshot.applyPayload at hn
  cases payload with
  | runChanged run => trivial
  | runEvent event =>
    obtain ⟨eventThread, turnId, seq, payload⟩ := event
    cases payload with
    | stream stream =>
      obtain ⟨run, hrun, -, -⟩ := SessionSnapshot.applyStreamEvent_ok hn
      cases stream with
      | itemStarted turn itemId itemType phase =>
        intro hid
        rcases ht.known itemId hid with he | hc
        · exact hp.1 he
        · exact hp.2 hc
      | itemCompleted turn item => exact fun hid => hcurrent run hrun _ hid hp
      | toolProgress | toolExecutionStarted | turnStarted | textDelta | reasoningDelta
      | reasoningSignature | toolCallDelta | approvalRequested | turnCompleted | turnFailed => trivial
    | finished snapshot =>
      obtain ⟨active, -, hact, -⟩ := SessionSnapshot.applyFinished_ok hn
      exact ⟨fun item hi hid => hcurrent active hact _ hid (hp _ (List.mem_map_of_mem hi)), hk⟩

/-- The ledger follows the snapshot. -/
theorem Tracks.apply (ht : l.Tracks s h) {e : SessionEventEnvelope} {n : SessionSnapshot}
    (hk : l.Keeps e.payload) (hn : s.applyPayload e = .ok n) :
    (l.record e.payload).Tracks n (h ++ s.news e.payload) := by
  obtain ⟨threadId, cursor, occurredAtMs, payload⟩ := e
  unfold SessionSnapshot.applyPayload at hn
  cases payload with
  | runChanged run =>
    cases hn
    simp only [SessionSnapshot.news, List.append_nil, record]
    by_cases hsame : l.turn = some run.snapshot.turnId
    · rw [if_pos hsame]
      refine ⟨hsame, ht.known, fun r hr => ?_⟩
      cases hr
      exact hk hsame
    · rw [if_neg hsame]
      refine ⟨rfl, fun id hid => .inl (List.mem_append.mpr (ht.known id hid)), by simp⟩
  | runEvent event =>
    obtain ⟨eventThread, turnId, seq, payload⟩ := event
    cases payload with
    | stream stream =>
      obtain ⟨run, hrun, -, hn⟩ := SessionSnapshot.applyStreamEvent_ok hn
      obtain ⟨run', hrun', hturn, hitems⟩ := SessionSnapshot.applyToRun_active hn
      have hturn' : l.turn = n.activeRun.map (·.snapshot.turnId) := by
        rw [ht.turn, hrun, hrun', Option.map_some, Option.map_some, hturn]
        rfl
      cases stream with
      | itemCompleted turn item =>
        refine ⟨hturn', fun id hid => ?_, fun r hr id hid => ?_⟩
        · simp only [SessionSnapshot.news, ids_append, List.mem_append] at hid
          simp only [record, List.mem_append]
          rcases hid with hid | hid
          · rcases ht.known id hid with he | hc
            · exact .inl he
            · exact .inr (.inl hc)
          · refine .inr (.inr ?_)
            obtain ⟨i, hi, rfl⟩ := List.mem_map.mp hid
            have := List.mem_of_mem_filter hi
            rw [List.mem_singleton.mp this]
            exact List.mem_singleton_self _
        · rw [hrun'] at hr
          cases hr
          rw [hitems]
          simp only [SessionSnapshot.itemsAfter, mem_ids_appendCanonicalOnce]
          rcases List.mem_append.mp hid with hid | hid
          · exact .inl (ht.listed run hrun id hid)
          · exact .inr (List.mem_singleton.mp hid)
      | itemStarted | toolProgress | toolExecutionStarted | turnStarted | textDelta | reasoningDelta
      | reasoningSignature | toolCallDelta | approvalRequested | turnCompleted | turnFailed =>
        simp only [SessionSnapshot.news, List.append_nil, record]
        refine ⟨hturn', ht.known, fun r hr id hid => ?_⟩
        rw [hrun'] at hr
        cases hr
        rw [hitems]
        exact ht.listed run hrun id hid
    | finished snapshot =>
      obtain ⟨active, history, -, -, -, rfl⟩ := SessionSnapshot.applyFinished_ok hn
      refine ⟨rfl, fun id hid => ?_, fun r hr => by cases hr⟩
      simp only [SessionSnapshot.news, ids_append, List.mem_append] at hid
      simp only [record, List.mem_append]
      rcases hid with hid | hid
      · rcases ht.known id hid with he | hc
        · exact .inl he
        · exact .inr (.inl hc)
      · obtain ⟨i, hi, rfl⟩ := List.mem_map.mp hid
        exact .inr (.inr (List.mem_map_of_mem (List.mem_of_mem_filter hi)))

end ItemLedger

/-- A tail that is cut again is a tail. -/
theorem SessionHistoryWindow.limited_tail {h : List CanonicalItem} {k m : Nat} (hk : k ≤ m) :
    (tail h m).limited k = tail h k := by
  have hkeep : (tail h m).items.length - min (tail h m).items.length k =
      (h.rtake m).length - k := by
    simp only [tail]
    omega
  have hitems : (h.rtake m).drop ((h.rtake m).length - k) = h.rtake k := by
    have := rtake_rtake_append h [] hk
    rwa [List.append_nil, List.append_nil] at this
  unfold limited
  simp only [hkeep]
  unfold tail
  simp only [hitems, mk.injEq, and_true, true_and]
  rw [length_rtake]
  omega

/-! ## V1 -/

/-- A client that applies events in order. -/
def SessionSnapshot.replayAll : SessionSnapshot → List SessionEventEnvelope →
    Except SessionProjectionError SessionSnapshot
  | s, [] => .ok s
  | s, e :: es => do
    let (s, _) ← s.apply e
    replayAll s es

namespace SessionViewRecord

section
variable [EventSerde]

/-- The record shows a tail of the history `h`, and the ledger tracks it. -/
structure Followed (r : SessionViewRecord) (l : ItemLedger) (h : List CanonicalItem) : Prop where
  valid : r.snapshot.validate = .ok ()
  history : r.snapshot.history = tail h maxSessionHistoryLimit
  ledger : l.Tracks r.snapshot h

namespace Followed

variable {r r' : SessionViewRecord} {l : ItemLedger} {h : List CanonicalItem} {k : Nat}

omit [EventSerde] in
theorem limited (hr : r.Followed l h) (hk : k ≤ maxSessionHistoryLimit) :
    r.snapshotWithHistoryLimit k = r.snapshot.withHistory (tail h k) := by
  unfold snapshotWithHistoryLimit SessionSnapshot.withHistory
  rw [hr.history, limited_tail hk]

omit [EventSerde] in
theorem valid_limited (hr : r.Followed l h) (hpos : 0 < k) (hk : k ≤ maxSessionHistoryLimit) :
    (r.snapshotWithHistoryLimit k).validate = .ok () := by
  rw [hr.limited hk]
  have hw := (SessionSnapshot.validate_iff.mp hr.valid).history
  rw [hr.history] at hw
  exact SessionSnapshot.validate_withHistory hr.valid (validate_tail hw hpos hk)

/-- A client of a followed record makes the step of the record. -/
theorem publish (hr : r.Followed l h) {e : SessionEventEnvelope} {occurredAtMs : Nat}
    {payload : SessionEventPayload} {runIdentity : Option (String × Nat)}
    (hprep : r.prepare occurredAtMs payload runIdentity = .ok (r', e)) (hp : l.Proviso e.payload)
    (hk : l.Keeps e.payload) :
    (∃ h', r'.Followed (l.record e.payload) h') ∧
      ∀ k, 0 < k → k ≤ maxSessionHistoryLimit → (r.snapshotWithHistoryLimit k).apply e =
        .ok (r'.snapshotWithHistoryLimit k, true) := by
  obtain ⟨ha, -, -⟩ := prepare_ok hprep
  obtain ⟨n, hn, hadv⟩ := ha.payload
  obtain ⟨hhist, hall⟩ := ha.tail hr.history (hr.ledger.fresh hp hk hn)
  have ht := hr.ledger.apply hk hn
  have hr' : r'.Followed (l.record e.payload) (h ++ r.snapshot.news e.payload) :=
    ⟨ha.target, hhist, by rw [hadv]; exact ⟨ht.turn, ht.known, ht.listed⟩⟩
  refine ⟨⟨_, hr'⟩, fun k hpos hkm => ?_⟩
  rw [hr.limited hkm, hr'.limited hkm]
  exact SessionSnapshot.apply_of_applied (hall k hpos hkm)

/-- What a client of any limit makes of the events of a run. -/
theorem run {labels : List (Option SessionEventEnvelope)} (hrun : Lts.Run Step r labels r')
    (hr : r.Followed l h)
    (hp : ItemLedger.Every ItemLedger.Proviso l (labels.reduceOption.map (·.payload)))
    (hk : ItemLedger.Every ItemLedger.Keeps l (labels.reduceOption.map (·.payload))) :
    (∃ h', r'.Followed (l.recordAll (labels.reduceOption.map (·.payload))) h') ∧
      ∀ k, 0 < k → k ≤ maxSessionHistoryLimit →
        (r.snapshotWithHistoryLimit k).replayAll labels.reduceOption =
          .ok (r'.snapshotWithHistoryLimit k) := by
  induction hrun generalizing l h with
  | nil r => exact ⟨⟨h, hr⟩, fun k _ _ => rfl⟩
  | @cons r t u label labels hstep hrest ih =>
    cases hstep with
    | retire turnId identity hret =>
      rw [prepareRetireRun_some hret] at ih
      exact ih ⟨hr.valid, hr.history, hr.ledger⟩ hp hk
    | @publish _ e occurredAtMs payload runIdentity hprep =>
      rw [List.reduceOption_cons_of_some] at hp hk ⊢
      obtain ⟨⟨h', hr'⟩, hall⟩ := hr.publish hprep hp.1 hk.1
      obtain ⟨hend, hrec⟩ := ih hr' hp.2 hk.2
      refine ⟨hend, fun k hpos hkm => ?_⟩
      unfold SessionSnapshot.replayAll
      rw [hall k hpos hkm]
      exact hrec k hpos hkm

end Followed

end

/-- The record of a new session is followed from the start. -/
theorem followed_of_insert {owner threadId : String} {agentName : Option String} {metadata : JsonMap}
    {history : List CanonicalItem} {createdAtMs : Nat} {streamId : String}
    {limits : EventJournalLimits} {r : SessionViewRecord}
    (h : insert owner threadId agentName metadata history createdAtMs streamId limits = .ok r) :
    r.Followed (.start history) history := by
  have hgood := good_of_insert h
  obtain ⟨w, hw, h⟩ := bind_ok h
  obtain ⟨_, -, h⟩ := bind_ok h
  cases h
  exact ⟨hgood.snapshot, fromHistory_ok hw, rfl, fun id hid => .inl hid, fun r hr => by cases hr⟩

end SessionViewRecord

/-! ## V2 -/

/-- A client that applies events in order. -/
def SessionSnapshotV2.replayAll [External] : SessionSnapshotV2 → List SessionEventEnvelopeV2 →
    Except SessionProjectionError SessionSnapshotV2
  | s, [] => .ok s
  | s, e :: es => do
    let (s, _) ← s.apply e
    replayAll s es

/-- The run events among V2 events. -/
def runPayloads (events : List SessionEventEnvelopeV2) : List SessionEventPayload :=
  events.filterMap (·.payload.run?)

namespace ManagementProjection

section
variable [External] [EventSerde]

/-- The projection shows a tail of the history `h`, and the ledger tracks it. -/
structure Followed (p : ManagementProjection) (l : ItemLedger) (h : List CanonicalItem) : Prop where
  valid : p.snapshot.validate = .ok ()
  history : p.snapshot.history = tail h maxSessionHistoryLimit
  ledger : l.Tracks p.snapshot.legacy h

namespace Followed

variable {p p' : ManagementProjection} {l : ItemLedger} {h : List CanonicalItem} {k : Nat}

omit [EventSerde] in
theorem limited (hp : p.Followed l h) (hk : k ≤ maxSessionHistoryLimit) :
    p.snapshotWithHistoryLimit k = p.snapshot.withHistory (tail h k) := by
  unfold snapshotWithHistoryLimit SessionSnapshotV2.withHistory
  rw [hp.history, limited_tail hk]

omit [EventSerde] in
theorem valid_limited (hp : p.Followed l h) (hpos : 0 < k) (hk : k ≤ maxSessionHistoryLimit) :
    (p.snapshotWithHistoryLimit k).validate = .ok () := by
  rw [hp.limited hk]
  have hw := (SessionSnapshotV2.validate_iff.mp hp.valid).history
  rw [hp.history] at hw
  exact SessionSnapshotV2.validate_withHistory hp.valid (validate_tail hw hpos hk)

omit [EventSerde] in
/-- What an applied event offers again is listed, and the ledger follows it. -/
theorem applied (hp : p.Followed l h) {e : SessionEventEnvelopeV2} {s' : SessionSnapshotV2}
    (ha : p.snapshot.Applied e s') (hprov : ItemLedger.Every ItemLedger.Proviso l (runPayloads [e]))
    (hkeep : ItemLedger.Every ItemLedger.Keeps l (runPayloads [e])) :
    p.snapshot.Fresh h e.payload ∧
      (l.recordAll (runPayloads [e])).Tracks s'.legacy (h ++ p.snapshot.news e.payload) := by
  cases hrun : e.payload.run? with
  | none =>
    have hview := ha.view_frame hrun
    have hact : s'.activeRun = p.snapshot.activeRun := congrArg SessionView.activeRun hview
    refine ⟨fun q hq => ?_, ?_⟩
    · rw [hrun] at hq
      cases hq
    · simp only [runPayloads, List.filterMap_cons, hrun, List.filterMap_nil, ItemLedger.recordAll,
        List.foldl_nil, SessionSnapshotV2.news, Option.map_none, Option.getD_none, List.append_nil]
      refine ⟨?_, hp.ledger.known, ?_⟩
      · rw [hp.ledger.turn]
        simp only [SessionSnapshotV2.legacy, hact]
      · intro run hr
        rw [show s'.legacy.activeRun = p.snapshot.legacy.activeRun from hact] at hr
        exact hp.ledger.listed run hr
  | some q =>
    simp only [runPayloads, List.filterMap_cons, hrun, List.filterMap_nil, ItemLedger.Every, and_true]
      at hprov hkeep
    obtain ⟨next, hnext, hview⟩ := ha.view_run hrun
    have hact : s'.activeRun = next.activeRun := congrArg SessionView.activeRun hview
    refine ⟨fun q' hq => ?_, ?_⟩
    · rw [hrun] at hq
      cases hq
      exact hp.ledger.fresh (e := e.legacy q) hprov hkeep hnext
    · have ht := hp.ledger.apply (e := e.legacy q) hkeep hnext
      simp only [runPayloads, List.filterMap_cons, hrun, List.filterMap_nil, ItemLedger.recordAll,
        List.foldl_cons, List.foldl_nil, SessionSnapshotV2.news, Option.map_some, Option.getD_some]
      refine ⟨ht.turn.trans ?_, ht.known, fun run hr => ht.listed run (hact ▸ hr)⟩
      simp only [SessionSnapshotV2.legacy, hact]

/-- A client of a followed projection makes the step of the projection. -/
theorem publish (hp : p.Followed l h) {e : SessionEventEnvelopeV2} {occurredAtMs : Nat}
    {payload : SessionEventPayloadV2} {runIdentity : Option (String × Nat)}
    (hprep : p.prepare occurredAtMs payload runIdentity = .ok (p', e))
    (hprov : ItemLedger.Every ItemLedger.Proviso l (runPayloads [e]))
    (hkeep : ItemLedger.Every ItemLedger.Keeps l (runPayloads [e])) :
    (∃ h', p'.Followed (l.recordAll (runPayloads [e])) h') ∧
      ∀ k, 0 < k → k ≤ maxSessionHistoryLimit → (p.snapshotWithHistoryLimit k).apply e =
        .ok (p'.snapshotWithHistoryLimit k, true) := by
  obtain ⟨ha, -, -⟩ := prepare_ok hprep
  obtain ⟨hfresh, ht⟩ := hp.applied ha hprov hkeep
  obtain ⟨hhist, hall⟩ := ha.tail hp.history hfresh
  have hp' : p'.Followed _ _ := ⟨ha.target, hhist, ht⟩
  refine ⟨⟨_, hp'⟩, fun k hpos hkm => ?_⟩
  rw [hp.limited hkm, hp'.limited hkm]
  exact SessionSnapshotV2.apply_of_applied (hall k hpos hkm)

/-- What a client of any limit makes of the events of a run. -/
theorem run {labels : List (Option SessionEventEnvelopeV2)} (hrun : Lts.Run Step p labels p')
    (hp : p.Followed l h) (hprov : ItemLedger.Every ItemLedger.Proviso l (runPayloads labels.reduceOption))
    (hkeep : ItemLedger.Every ItemLedger.Keeps l (runPayloads labels.reduceOption)) :
    (∃ h', p'.Followed (l.recordAll (runPayloads labels.reduceOption)) h') ∧
      ∀ k, 0 < k → k ≤ maxSessionHistoryLimit →
        (p.snapshotWithHistoryLimit k).replayAll labels.reduceOption =
          .ok (p'.snapshotWithHistoryLimit k) := by
  induction hrun generalizing l h with
  | nil p => exact ⟨⟨h, hp⟩, fun k _ _ => rfl⟩
  | @cons p t u label labels hstep hrest ih =>
    cases hstep with
    | retire turnId identity hret =>
      rw [prepareRetireRun_some hret] at ih
      exact ih ⟨hp.valid, hp.history, hp.ledger⟩ hprov hkeep
    | @publish _ e occurredAtMs payload runIdentity hprep =>
      rw [List.reduceOption_cons_of_some] at hprov hkeep ⊢
      have hsplit : runPayloads (e :: labels.reduceOption) =
          runPayloads [e] ++ runPayloads labels.reduceOption := by
        unfold runPayloads
        rw [← List.filterMap_append]
        rfl
      rw [hsplit, ItemLedger.every_append] at hprov hkeep
      obtain ⟨⟨h', hp'⟩, hall⟩ := hp.publish hprep hprov.1 hkeep.1
      obtain ⟨⟨h'', hend⟩, hrec⟩ := ih hp' hprov.2 hkeep.2
      refine ⟨⟨h'', ?_⟩, fun k hpos hkm => ?_⟩
      · rw [hsplit]
        unfold ItemLedger.recordAll at hend ⊢
        rwa [List.foldl_append]
      · unfold SessionSnapshotV2.replayAll
        rw [hall k hpos hkm]
        exact hrec k hpos hkm

end Followed

end

end ManagementProjection

section
variable [External] [EventSerde]

/-- The projection of a new session is followed from the start. -/
theorem ManagementRecord.followed_of_insert {owner threadId : String} {agentName : Option String}
    {metadata : JsonMap} {history : List CanonicalItem} {createdAtMs : Nat}
    {persistence : SessionPersistence} {maxHistoryBytes : Option Nat} {streamId : String}
    {m : ManagementRecord} (h : ManagementRecord.insert owner threadId agentName metadata history
      createdAtMs persistence maxHistoryBytes streamId = .ok m) :
    m.projection.Followed (.start history) history := by
  have hgood := good_of_insert h
  obtain ⟨w, hw, h⟩ := bind_ok h
  obtain ⟨_, -, h⟩ := bind_ok h
  obtain ⟨archive, -, h⟩ := bind_ok h
  cases h
  exact ⟨hgood.snapshot, fromHistory_ok (mapError_ok_iff.mp hw), rfl, fun id hid => .inl hid,
    fun r hr => by cases hr⟩

/-- **A client that replays equals the server**, in both versions. From the snapshot of any history limit
taken at any cursor, the events that follow lead to the snapshot of that limit at the end, where ids are
not reused across runs, a started item was not completed before, a run that changes keeps the items it
completed and no finished run lists an id twice. An event seen before changes nothing, and one of another
stream or beyond the next cursor is refused. -/
theorem client_replay_equals_server (owner threadId : String) (agentName : Option String)
    (metadata : JsonMap) (history : List CanonicalItem) (createdAtMs : Nat) (streamId : String) :
    (∀ (limits : EventJournalLimits) (r₀ rc rd : SessionViewRecord)
        (before later : List (Option SessionEventEnvelope)) (k : Nat),
      SessionViewRecord.insert owner threadId agentName metadata history createdAtMs streamId
        limits = .ok r₀ →
      Lts.Run SessionViewRecord.Step r₀ before rc → Lts.Run SessionViewRecord.Step rc later rd →
      0 < k → k ≤ maxSessionHistoryLimit →
      ItemLedger.Every ItemLedger.Proviso (.start history) ((before ++ later).reduceOption.map (·.payload)) →
      ItemLedger.Every ItemLedger.Keeps (.start history) ((before ++ later).reduceOption.map (·.payload)) →
      (rc.snapshotWithHistoryLimit k).replayAll later.reduceOption =
          .ok (rd.snapshotWithHistoryLimit k) ∧
        (∀ e : SessionEventEnvelope, e.validate = .ok () →
          e.cursor.sameStream rd.snapshot.cursor = true → e.cursor.seq ≤ rd.snapshot.cursor.seq →
          (rd.snapshotWithHistoryLimit k).apply e = .ok (rd.snapshotWithHistoryLimit k, false)) ∧
        (∀ e : SessionEventEnvelope, e.cursor.sameStream rd.snapshot.cursor = false ∨
            rd.snapshot.cursor.seq + 1 < e.cursor.seq →
          ∃ error, (rd.snapshotWithHistoryLimit k).apply e = .error error)) ∧
    (∀ (persistence : SessionPersistence) (maxHistoryBytes : Option Nat) (m : ManagementRecord)
        (pc pd : ManagementProjection) (before later : List (Option SessionEventEnvelopeV2)) (k : Nat),
      ManagementRecord.insert owner threadId agentName metadata history createdAtMs persistence
        maxHistoryBytes streamId = .ok m →
      Lts.Run ManagementProjection.Step m.projection before pc →
      Lts.Run ManagementProjection.Step pc later pd → 0 < k → k ≤ maxSessionHistoryLimit →
      ItemLedger.Every ItemLedger.Proviso (.start history) (runPayloads (before ++ later).reduceOption) →
      ItemLedger.Every ItemLedger.Keeps (.start history) (runPayloads (before ++ later).reduceOption) →
      (pc.snapshotWithHistoryLimit k).replayAll later.reduceOption =
          .ok (pd.snapshotWithHistoryLimit k) ∧
        (∀ e : SessionEventEnvelopeV2, e.validate = .ok () →
          e.cursor.sameStream pd.snapshot.cursor = true → e.cursor.seq ≤ pd.snapshot.cursor.seq →
          (pd.snapshotWithHistoryLimit k).apply e = .ok (pd.snapshotWithHistoryLimit k, false)) ∧
        (∀ e : SessionEventEnvelopeV2, e.cursor.sameStream pd.snapshot.cursor = false ∨
            pd.snapshot.cursor.seq + 1 < e.cursor.seq →
          ∃ error, (pd.snapshotWithHistoryLimit k).apply e = .error error)) := by
  refine ⟨?_, ?_⟩
  · intro limits r₀ rc rd before later k h₀ hc hd hpos hk hprov hkeep
    rw [List.reduceOption_append, List.map_append, ItemLedger.every_append] at hprov hkeep
    obtain ⟨⟨_, hfc⟩, -⟩ := (SessionViewRecord.followed_of_insert h₀).run hc hprov.1 hkeep.1
    obtain ⟨⟨_, hfd⟩, hall⟩ := hfc.run hd hprov.2 hkeep.2
    refine ⟨hall k hpos hk, fun e he hs hle => ?_, fun e he => ?_⟩
    · exact SessionSnapshot.apply_of_seen (hfd.valid_limited hpos hk) he hs hle
    · exact SessionSnapshot.apply_error he
  · intro persistence maxHistoryBytes m pc pd before later k h₀ hc hd hpos hk hprov hkeep
    have hsplit : runPayloads (before ++ later).reduceOption =
        runPayloads before.reduceOption ++ runPayloads later.reduceOption := by
      rw [List.reduceOption_append]
      exact List.filterMap_append
    rw [hsplit, ItemLedger.every_append] at hprov hkeep
    obtain ⟨⟨_, hfc⟩, -⟩ := (ManagementRecord.followed_of_insert h₀).run hc hprov.1 hkeep.1
    obtain ⟨⟨_, hfd⟩, hall⟩ := hfc.run hd hprov.2 hkeep.2
    refine ⟨hall k hpos hk, fun e he hs hle => ?_, fun e he => ?_⟩
    · exact SessionSnapshotV2.apply_of_seen (hfd.valid_limited hpos hk) he hs hle
    · exact SessionSnapshotV2.apply_error he

end

/-! ## A run that is published from a stale copy -/

namespace Sample

/-- The run with these items. -/
def listing (items : List CanonicalItem) : RunSnapshot := { started "r" with items, lastSeq := 3 }

def completes (seq : Nat) (id : String) : SessionEventPayload :=
  .runEvent ⟨"t", "r", seq, .stream (.itemCompleted "r" (note id))⟩

def changes (items : List CanonicalItem) : SessionEventPayload :=
  .runChanged (.new (listing items) 7)

def finishes (items : List CanonicalItem) : SessionEventPayload :=
  .runEvent ⟨"t", "r", 4, .finished { listing items with status := .completed, lastSeq := 4 }⟩

/-- Three items are completed, then a copy of the run from before the last two is published. -/
def staleRun : List SessionEventPayload :=
  [changes [], completes 1 "a", completes 2 "b", completes 3 "c", changes [note "a"],
    finishes [note "a", note "b", note "c"]]

/-- The same run, published from a current copy. -/
def currentRun : List SessionEventPayload :=
  [changes [], completes 1 "a", completes 2 "b", completes 3 "c",
    changes [note "a", note "b", note "c"], finishes [note "a", note "b", note "c"]]

/-- Publish payloads one after another. -/
def publishAll : SessionViewRecord → List SessionEventPayload →
    Except String (SessionViewRecord × List SessionEventEnvelope)
  | r, [] => .ok (r, [])
  | r, p :: ps => do
    let (r, e) ← @SessionViewRecord.prepare serde r 7 p none
    let (r, es) ← publishAll r ps
    .ok (r, e :: es)

theorem run_of_publishAll {ps : List SessionEventPayload} {r r' : SessionViewRecord}
    {es : List SessionEventEnvelope} (h : publishAll r ps = .ok (r', es)) :
    Lts.Run (@SessionViewRecord.Step serde) r (es.map some) r' ∧ es.map (·.payload) = ps := by
  induction ps generalizing r es with
  | nil =>
    cases h
    exact ⟨.nil _, rfl⟩
  | cons p ps ih =>
    obtain ⟨⟨r₁, e⟩, hp, h⟩ := bind_ok h
    obtain ⟨⟨r₂, es'⟩, hrest, h⟩ := bind_ok h
    cases h
    obtain ⟨hrun, hpay⟩ := ih hrest
    have he := (@SessionViewRecord.prepare_ok serde _ _ _ _ _ _ hp).2.1
    refine ⟨.cons (@SessionViewRecord.Step.publish serde r r₁ e 7 p none hp) hrun, ?_⟩
    rw [List.map_cons, hpay, he]

/-- The item counts of the server and of a client that keeps one item. -/
def counts (ps : List SessionEventPayload) : Option (Nat × Nat) := do
  let (r, es) ← (publishAll viewRecord ps).toOption
  let client ← ((viewRecord.snapshotWithHistoryLimit 1).replayAll es).toOption
  return ((r.snapshotWithHistoryLimit 1).history.totalItems, client.history.totalItems)

theorem counts_some {ps : List SessionEventPayload} {n m : Nat} (h : counts ps = some (n, m)) :
    ∃ r es client, publishAll viewRecord ps = .ok (r, es) ∧
      (viewRecord.snapshotWithHistoryLimit 1).replayAll es = .ok client ∧
      (r.snapshotWithHistoryLimit 1).history.totalItems = n ∧ client.history.totalItems = m := by
  unfold counts at h
  rcases hp : publishAll viewRecord ps with e | ⟨r, es⟩
  · rw [hp] at h
    cases h
  · rcases hc : (viewRecord.snapshotWithHistoryLimit 1).replayAll es with e | client
    · simp [hp, hc, Except.toOption] at h
    · simp only [hp, hc, Except.toOption, Option.bind_eq_bind, Option.bind_some, Option.pure_def,
        Option.some.injEq, Prod.mk.injEq] at h
      exact ⟨r, es, client, rfl, hc, h.1, h.2⟩

end Sample

/-- The client that keeps one item counts five where the server counts three: the run no longer lists
two items of its own, and when it finishes they are appended a second time. -/
theorem stale_run_diverges :
    SessionViewRecord.insert "o" "t" none [] [] 0 "s" defaultJournalLimits =
        .ok Sample.viewRecord ∧
      ∃ (rd : SessionViewRecord) (later : List (Option SessionEventEnvelope))
        (client : SessionSnapshot),
        Lts.Run (@SessionViewRecord.Step Sample.serde) Sample.viewRecord later rd ∧
        ItemLedger.Every ItemLedger.Proviso (.start []) (later.reduceOption.map (·.payload)) ∧
        (Sample.viewRecord.snapshotWithHistoryLimit 1).replayAll later.reduceOption = .ok client ∧
        client ≠ rd.snapshotWithHistoryLimit 1 := by
  have hcounts : Sample.counts Sample.staleRun = some (3, 5) := by decide +kernel
  obtain ⟨r, es, client, hp, hc, hn, hm⟩ := Sample.counts_some hcounts
  obtain ⟨hrun, hpay⟩ := Sample.run_of_publishAll hp
  have hred : (es.map some).reduceOption = es := by simp [List.reduceOption]
  refine ⟨rfl, r, es.map some, client, hrun, ?_, by rw [hred]; exact hc, ?_⟩
  · rw [hred, hpay]
    simp [Sample.staleRun, Sample.changes, Sample.completes, Sample.finishes, ItemLedger.Every,
      ItemLedger.Proviso, ItemLedger.record, ItemLedger.start, ids, Sample.listing, Sample.started,
      SessionRunView.new]
  · intro heq
    rw [heq, hn] at hm
    cases hm

/-- The run that is published from a current copy, replayed from the start with one item. -/
theorem client_replay_equals_server_current :
    ∃ (rd : SessionViewRecord) (later : List (Option SessionEventEnvelope)),
      later.reduceOption.map (·.payload) = Sample.currentRun ∧
      Lts.Run (@SessionViewRecord.Step Sample.serde) Sample.viewRecord later rd ∧
      (Sample.viewRecord.snapshotWithHistoryLimit 1).replayAll later.reduceOption =
        .ok (rd.snapshotWithHistoryLimit 1) := by
  have hcounts : Sample.counts Sample.currentRun = some (3, 3) := by decide +kernel
  obtain ⟨r, es, client, hp, -, -, -⟩ := Sample.counts_some hcounts
  obtain ⟨hrun, hpay⟩ := Sample.run_of_publishAll hp
  have hred : (es.map some).reduceOption = es := by simp [List.reduceOption]
  have h := (@client_replay_equals_server Sample.host Sample.serde "o" "t" none [] [] 0
    "s").1 defaultJournalLimits Sample.viewRecord Sample.viewRecord r [] (es.map some) 1 rfl
    (.nil _) hrun (by decide) (by decide)
  refine ⟨r, es.map some, by rw [hred]; exact hpay, hrun, (h ?_ ?_).1⟩
  · rw [List.nil_append, hred, hpay]
    simp [Sample.currentRun, Sample.changes, Sample.completes, Sample.finishes, ItemLedger.Every,
      ItemLedger.Proviso, ItemLedger.record, ItemLedger.start, ids, Sample.listing, Sample.started,
      SessionRunView.new]
  · rw [List.nil_append, hred, hpay]
    simp [Sample.currentRun, Sample.changes, Sample.completes, Sample.finishes, ItemLedger.Every,
      ItemLedger.Keeps, ItemLedger.record, ItemLedger.start, ids, Sample.listing, Sample.started, Sample.note,
      SessionRunView.new, CanonicalItem.id]

end Whale
