import Whale.Daemon.Proof.Subscription
import Whale.Daemon.Management
import Whale.Protocol.Proof.Views

/-!
# The replay windows are exact

The V1 record and the V2 projection are lawful feeds, so `Feed.Exact` holds of both after every sequence
of publications and retirements (`replay_windows_exact`).
-/

namespace Whale

open Check

/-! ## What both clients check -/

section
variable {ε : Type} [Envelope ε]

/-- A gap that matches the request and the record. -/
structure SubscribeResult.GapSound (r : SubscribeResult ε) (p : SubscribeParams) (g : ReplayGap) :
    Prop where
  gap : r.gap = some g
  requested : g.requested = p.after
  resume : r.resumeAfter = p.after
  empty : r.events = [] ∧ r.hasMore = false
  thread : p.after.threadId = p.threadId ∧ r.through.threadId = p.threadId ∧
    g.current.threadId = p.threadId
  floor : g.replayFloor.sameStream g.current = true ∧ g.replayFloor.seq ≤ g.current.seq
  revision : g.revision = g.current.seq
  reason : (g.reason = .retention ∧ p.after.sameStream g.current = true ∧
      p.after.seq < g.replayFloor.seq ∧ r.through = p.through.getD g.current) ∨
    (g.reason = .streamReset ∧ p.after.streamId ≠ g.current.streamId ∧ r.through = g.current)

/-- A page that continues the request. -/
structure SubscribeResult.PageSound (r : SubscribeResult ε) (p : SubscribeParams)
    (check : Cursor → List ε → Except String Cursor) : Prop where
  gap : r.gap = none
  watermark : ∀ t, p.through = some t → r.through = t
  thread : p.after.threadId = p.threadId
  stream : p.after.sameStream r.through = true ∧ r.resumeAfter.sameStream r.through = true
  ahead : p.after.seq ≤ r.through.seq
  limit : r.events.length ≤ p.limit
  events : check p.after r.events = .ok r.resumeAfter
  more : r.hasMore = decide (r.resumeAfter.seq < r.through.seq)

omit [Envelope ε] in
/-- The watermark of a sound gap passes the check of either version. -/
theorem SubscribeResult.GapSound.checkThrough {r : SubscribeResult ε} {p : SubscribeParams}
    {g : ReplayGap} (h : r.GapSound p g) (changed initial reset : String) :
    g.checkThrough p.through r.through changed initial reset = .ok () := by
  unfold ReplayGap.checkThrough
  rcases h.reason with ⟨hr, -, -, hw⟩ | ⟨hr, -, hw⟩
  · rw [hr, hw]
    cases p.through with
    | none => simp
    | some t => simp
  · rw [hr, hw]
    simp

end

/-- V1 clients accept a sound gap. -/
theorem SubscribeResult.GapSound.validateFor {r : SubscribeResult SessionEventEnvelope}
    {p : SubscribeParams} {g : ReplayGap} (h : r.GapSound p g) (hp : p.validate = .ok ())
    (hc : p.after.validate = .ok () ∧ g.replayFloor.validate = .ok () ∧ g.current.validate = .ok () ∧
      r.through.validate = .ok ()) : r.validateFor p = .ok () := by
  obtain ⟨ha, hf, hcur, ht⟩ := hc
  have hgap : g.validate = .ok () := by
    unfold ReplayGap.validate
    rw [h.requested, ha, ok_bind, hf, ok_bind, hcur, ok_bind, refuse_bind_ok_iff]
    refine ⟨by simp [h.thread.1, h.thread.2.2], ?_⟩
    rw [refuse_bind_ok_iff]
    have := h.floor.2
    refine ⟨by simp [h.floor.1, this], ?_⟩
    rcases h.reason with ⟨hr, hs, hlt, -⟩ | ⟨hr, hne, -⟩
    · rw [hr]
      simp only [refuse_ok_iff, hs, Bool.not_true, Bool.false_or, decide_eq_false_iff_not]
      omega
    · rw [hr]
      simp [refuse_ok_iff, hne]
  unfold SubscribeResult.validateFor
  rw [hp, ok_bind, h.resume, ha, ok_bind, ht, ok_bind, refuse_bind_ok_iff]
  refine ⟨by simp [h.thread.1, h.thread.2.1], ?_⟩
  rw [h.gap]
  simp only [hgap, ok_bind]
  rw [refuse_bind_ok_iff]
  refine ⟨by simp [h.requested], ?_⟩
  rw [h.checkThrough, ok_bind]
  simp [h.empty.1, h.empty.2]

/-- V1 clients accept a sound page. -/
theorem SubscribeResult.PageSound.validateFor {r : SubscribeResult SessionEventEnvelope}
    {p : SubscribeParams}
    (h : r.PageSound p (checkEvents SessionEventEnvelope.validate Cursor.checkedNext r.through.seq
      "Replay events must be contiguous and in Session cursor order"))
    (hp : p.validate = .ok ())
    (hc : r.resumeAfter.validate = .ok () ∧ r.through.validate = .ok ()) :
    r.validateFor p = .ok () := by
  have hthread := (Cursor.sameStream_iff.mp h.stream.1).1
  have hresume := (Cursor.sameStream_iff.mp h.stream.2).1
  unfold SubscribeResult.validateFor
  rw [hp, ok_bind, hc.1, ok_bind, hc.2, ok_bind, refuse_bind_ok_iff]
  refine ⟨by simp [hresume, ← hthread, h.thread], ?_⟩
  rw [h.gap]
  simp only
  rw [refuse_bind_ok_iff]
  refine ⟨?_, ?_⟩
  · cases ht : p.through with
    | none => rfl
    | some t => simp [h.watermark t ht]
  rw [refuse_bind_ok_iff]
  refine ⟨by simp [h.stream.1], ?_⟩
  rw [refuse_bind_ok_iff]
  refine ⟨by simpa using h.ahead, ?_⟩
  rw [refuse_bind_ok_iff]
  refine ⟨by simp [h.stream.2], ?_⟩
  rw [refuse_bind_ok_iff]
  refine ⟨by simpa using h.limit, ?_⟩
  rw [h.events, ok_bind, refuse_bind_ok_iff]
  exact ⟨by simp, by simp [h.more]⟩

section
variable [External]

omit [External] in
/-- The V2 check of a sound gap. -/
theorem SubscribeResult.GapSound.validateGapV2 {r : SubscribeResult SessionEventEnvelopeV2}
    {p : SubscribeParams} {g : ReplayGap} (h : r.GapSound p g)
    (hc : p.after.validateV2 = .ok () ∧ g.replayFloor.validateV2 = .ok () ∧
      g.current.validateV2 = .ok ()) : g.validateV2 = .ok () := by
  obtain ⟨ha, hf, hcur⟩ := hc
  have := h.floor.2
  unfold ReplayGap.validateV2
  rw [h.requested, ha, ok_bind, hf, ok_bind, hcur, ok_bind, refuse_bind_ok_iff]
  refine ⟨by simp [h.thread.1, h.thread.2.2], ?_⟩
  rw [refuse_bind_ok_iff]
  refine ⟨by simp [h.floor.1, this], ?_⟩
  rw [refuse_bind_ok_iff]
  refine ⟨by simp [h.revision], ?_⟩
  rcases h.reason with ⟨hr, hs, hlt, -⟩ | ⟨hr, hne, -⟩
  · rw [hr]
    simp only [refuse_ok_iff, hs, Bool.not_true, Bool.false_or, decide_eq_false_iff_not]
    omega
  · rw [hr]
    simp [refuse_ok_iff, hne]

/-- V2 clients accept a sound gap. -/
theorem SubscribeResult.GapSound.validateForV2 {r : SubscribeResult SessionEventEnvelopeV2}
    {p : SubscribeParams} {g : ReplayGap} (h : r.GapSound p g) (hp : p.validateV2 = .ok ())
    (hc : p.after.validateV2 = .ok () ∧ g.replayFloor.validateV2 = .ok () ∧
      g.current.validateV2 = .ok ()) (ht : r.through.validateV2 = .ok ()) :
    r.validateForV2 p = .ok () := by
  unfold SubscribeResult.validateForV2
  rw [hp, ok_bind, h.resume, hc.1, ok_bind, ht, ok_bind, refuse_bind_ok_iff]
  refine ⟨by simp [h.thread.1, h.thread.2.1], ?_⟩
  rw [h.gap]
  simp only [h.validateGapV2 hc, ok_bind]
  rw [refuse_bind_ok_iff]
  refine ⟨by simp [h.requested], ?_⟩
  rw [h.checkThrough, ok_bind]
  simp [h.empty.1, h.empty.2]

/-- V2 clients accept a sound page. -/
theorem SubscribeResult.PageSound.validateForV2 {r : SubscribeResult SessionEventEnvelopeV2}
    {p : SubscribeParams}
    (h : r.PageSound p (checkEvents SessionEventEnvelopeV2.validate Cursor.checkedNextV2 r.through.seq
      "V2 replay events must be contiguous and ordered"))
    (hp : p.validateV2 = .ok ())
    (hc : r.resumeAfter.validateV2 = .ok () ∧ r.through.validateV2 = .ok ()) :
    r.validateForV2 p = .ok () := by
  have hthread := (Cursor.sameStream_iff.mp h.stream.1).1
  have hresume := (Cursor.sameStream_iff.mp h.stream.2).1
  unfold SubscribeResult.validateForV2
  rw [hp, ok_bind, hc.1, ok_bind, hc.2, ok_bind, refuse_bind_ok_iff]
  refine ⟨by simp [hresume, ← hthread, h.thread], ?_⟩
  rw [h.gap]
  simp only
  rw [refuse_bind_ok_iff]
  refine ⟨?_, ?_⟩
  · cases ht : p.through with
    | none => rfl
    | some t => simp [h.watermark t ht]
  rw [refuse_bind_ok_iff]
  refine ⟨by simp [h.stream.1, h.stream.2], ?_⟩
  rw [refuse_bind_ok_iff]
  refine ⟨by simpa using h.ahead, ?_⟩
  rw [refuse_bind_ok_iff]
  refine ⟨by simpa using h.limit, ?_⟩
  rw [h.events, ok_bind, refuse_bind_ok_iff]
  exact ⟨by simp, by simp [h.more]⟩

end

/-! ## Answers are sound -/

theorem Cursor.validate_congr {a b : Cursor} (h : a.sameStream b = true) :
    a.validate = b.validate := by
  obtain ⟨h1, h2⟩ := Cursor.sameStream_iff.mp h
  unfold Cursor.validate
  rw [h1, h2]

theorem Cursor.validateV2_congr {a b : Cursor} (h : a.sameStream b = true) :
    a.validateV2 = b.validateV2 := by
  obtain ⟨h1, h2⟩ := Cursor.sameStream_iff.mp h
  unfold Cursor.validateV2
  rw [h1, h2]

theorem Cursor.sameStream_withSeq (c : Cursor) (n : Nat) :
    ({ c with seq := n } : Cursor).sameStream c = true := by simp [Cursor.sameStream]

theorem Cursor.sameStream_trans {a b c : Cursor} (h : a.sameStream b = true)
    (h' : b.sameStream c = true) : a.sameStream c = true := by
  rw [Cursor.sameStream_iff] at h h' ⊢
  exact ⟨h.1.trans h'.1, h.2.trans h'.2⟩

theorem Cursor.sameStream_symm {a b : Cursor} (h : a.sameStream b = true) : b.sameStream a = true := by
  rw [Cursor.sameStream_iff] at h ⊢
  exact ⟨h.1.symm, h.2.symm⟩

section
variable {ε : Type} [Envelope ε]

/-- The answer of a journal that is a window of its log is sound. -/
theorem Journal.replay_sound {limits : EventJournalLimits} {log : List ε} {j : Journal ε}
    (head : Journal.Head) {texts : Journal.AheadTexts} {p : SubscribeParams} {r : SubscribeResult ε}
    {validate : ε → Except String Unit} {next : Cursor → Except String Cursor} (gap : String)
    (hw : j.Window limits head.cursor log) (hl : Journal.Log head.cursor log)
    (hcur : head.cursor.seq = log.length) (hmax : head.cursor.seq ≤ u64Max)
    (hrev : head.revision = head.cursor.seq) (hv : ∀ e ∈ log, validate e = .ok ())
    (hnext : ∀ n, n < u64Max →
      next { head.cursor with seq := n } = .ok { head.cursor with seq := n + 1 })
    (hp : p.Request) (ht : p.threadId = head.cursor.threadId) (h : j.replay texts head p = .ok r) :
    (r.through = head.cursor ∨ p.through = some r.through) ∧
      ((∃ g, r.GapSound p g ∧ g.replayFloor = j.replayFloor ∧ g.current = head.cursor) ∨
        (r.PageSound p (checkEvents validate next r.through.seq gap) ∧
          r.resumeAfter.sameStream head.cursor = true)) := by
  have hfloor : j.replayFloor.sameStream head.cursor = true ∧ j.replayFloor.seq ≤ head.cursor.seq :=
    ⟨hw.floor_stream, by rw [hcur]; exact hw.floor_le⟩
  have hmark : Journal.watermark head p = head.cursor ∨
      p.through = some (Journal.watermark head p) := by
    unfold Journal.watermark
    cases p.through with
    | none => exact .inl rfl
    | some t => exact .inr rfl
  rcases Journal.replay_ok hp ht h with ⟨hne, rfl⟩ | ⟨hs, h1, h2, hrest⟩
  · exact ⟨.inl rfl, .inl ⟨_, ⟨rfl, rfl, rfl, ⟨rfl, rfl⟩, ⟨hp.thread, ht.symm, ht.symm⟩, hfloor, hrev,
      .inr ⟨rfl, hne, rfl⟩⟩, rfl, rfl⟩⟩
  · have hstream : (Journal.watermark head p).sameStream head.cursor = true := by
      rcases hmark with hm | hm
      · rw [hm]
        simp [Cursor.sameStream]
      · exact Cursor.sameStream_trans (Cursor.sameStream_symm (hp.through _ hm).1) hs
    rcases hrest with ⟨hlt, rfl⟩ | ⟨hle, rfl⟩
    · refine ⟨hmark, .inl ⟨_, ⟨rfl, rfl, rfl, ⟨rfl, rfl⟩, ⟨hp.thread, ?_, ht.symm⟩, hfloor, hrev,
        .inl ⟨rfl, hs, hlt, rfl⟩⟩, rfl, rfl⟩⟩
      exact (Cursor.sameStream_iff.mp hstream).1.trans ht.symm
    · obtain ⟨hev, hlen, hres⟩ := Journal.answer_spec p _ hw hl hs hle h1 (by omega)
      have hafter : p.after = { head.cursor with seq := p.after.seq } :=
        Cursor.eq_of_sameStream (by simpa [Cursor.sameStream] using hs) rfl
      have hcheck : checkEvents validate next (Journal.watermark head p).seq gap p.after
          (j.answer head p (Journal.watermark head p)).events =
          .ok (j.answer head p (Journal.watermark head p)).resumeAfter := by
        have hnum : Numbered Journal.pos p.after.seq
            (j.answer head p (Journal.watermark head p)).events := by
          rw [hev]
          have := (hl.numbered.drop (n := p.after.seq) (by omega)).take
            (min p.limit ((Journal.watermark head p).seq - p.after.seq))
          rwa [Nat.zero_add] at this
        have hmem : ∀ e ∈ (j.answer head p (Journal.watermark head p)).events, e ∈ log := by
          intro e he
          rw [hev] at he
          exact List.mem_of_mem_drop (List.mem_of_mem_take he)
        rw [hafter, hres, ← hlen]
        exact Journal.checkEvents_ok hnext hnum (fun e he => hl.stream e (hmem e he))
          (fun e he => hv e (hmem e he)) (by omega) (by omega)
      have hresume : (j.answer head p (Journal.watermark head p)).resumeAfter.sameStream
          head.cursor = true := by
        rw [hres]
        exact Cursor.sameStream_withSeq _ _
      refine ⟨hmark, .inr ⟨⟨rfl, ?_, hp.thread, ⟨?_, ?_⟩, h1, by omega, hcheck, rfl⟩, hresume⟩⟩
      · intro t hth
        show Journal.watermark head p = t
        unfold Journal.watermark
        rw [hth]
        rfl
      · exact Cursor.sameStream_trans hs (Cursor.sameStream_symm hstream)
      · exact Cursor.sameStream_trans hresume (Cursor.sameStream_symm hstream)

end

/-! ## V1 -/

theorem SubscribeParams.validate_ok {p : SubscribeParams} (h : p.validate = .ok ()) :
    p.Request ∧ p.after.validate = .ok () ∧ ∀ t, p.through = some t → t.validate = .ok () := by
  unfold SubscribeParams.validate at h
  obtain ⟨_, -, h⟩ := bind_ok h
  obtain ⟨_, ha, h⟩ := bind_ok h
  obtain ⟨hth, h⟩ := refuse_bind_ok h
  obtain ⟨_, hw, h⟩ := bind_ok h
  have hlim := refuse_ok h
  have hfixed : ∀ t, p.through = some t →
      t.validate = .ok () ∧ p.after.sameStream t = true ∧ p.after.seq ≤ t.seq := by
    intro t ht
    rw [SubscribeParams.validateThrough, ht] at hw
    obtain ⟨_, hv, hw⟩ := bind_ok hw
    obtain ⟨hs, hw⟩ := refuse_bind_ok hw
    exact ⟨hv, by simpa using hs, by simpa using refuse_ok hw⟩
  refine ⟨⟨by simpa using hth, fun t ht => (hfixed t ht).2, ?_⟩, ha, fun t ht => (hfixed t ht).1⟩
  simp only [Bool.or_eq_false_iff, beq_eq_false_iff_ne] at hlim
  exact Nat.pos_of_ne_zero hlim.1

namespace SessionViewRecord

section
variable [EventSerde]

/-- A publication that is prepared and installed, or a run that is retired. -/
inductive Step : SessionViewRecord → Option SessionEventEnvelope → SessionViewRecord → Prop
  | publish {r r' : SessionViewRecord} {e : SessionEventEnvelope} (occurredAtMs : Nat)
      (payload : SessionEventPayload) (runIdentity : Option (String × Nat))
      (prepared : r.prepare occurredAtMs payload runIdentity = .ok (r', e)) : Step r (some e) r'
  | retire {r r' : SessionViewRecord} (turnId : String) (identity : Nat)
      (prepared : r.prepareRetireRun turnId identity = some r') : Step r none r'

/-- The V1 record as a feed. -/
def feed : Feed SessionViewRecord SessionEventEnvelope where
  step := Step
  cursor r := r.snapshot.cursor
  limits r := r.limits
  journal r := r.journal
  validateParams := SubscribeParams.validate
  replay := replay
  validateFor := SubscribeResult.validateFor

/-- The record is valid and its journal is a window of the log. -/
structure Good (r : SessionViewRecord) (log : List SessionEventEnvelope) : Prop where
  snapshot : r.snapshot.validate = .ok ()
  logged : Journal.Log r.snapshot.cursor log
  window : r.journal.Window r.limits r.snapshot.cursor log
  current : r.snapshot.cursor.seq = log.length
  bound : r.snapshot.cursor.seq ≤ u64Max
  events : ∀ e ∈ log, e.validate = .ok ()

/-- What a successful preparation does. -/
theorem prepare_ok {r r' : SessionViewRecord} {e : SessionEventEnvelope} {occurredAtMs : Nat}
    {payload : SessionEventPayload} {runIdentity : Option (String × Nat)}
    (h : r.prepare occurredAtMs payload runIdentity = .ok (r', e)) :
    r.snapshot.Applied e r'.snapshot ∧
      e = ⟨r.snapshot.summary.threadId, { r.snapshot.cursor with seq := r.snapshot.cursor.seq + 1 },
        occurredAtMs, payload⟩ ∧
      ∃ bytes, r' = { r with
        snapshot := r'.snapshot
        journal := r.journal.retain r.limits e bytes (some e.turnId)
        runIdentities := r'.runIdentities } := by
  unfold prepare at h
  obtain ⟨env, henv, h⟩ := bind_ok h
  obtain ⟨_, -, h⟩ := bind_ok h
  obtain ⟨bytes, -, h⟩ := bind_ok h
  obtain ⟨⟨snapshot, b⟩, happ, h⟩ := bind_ok h
  rw [mapError_ok_iff] at happ
  obtain ⟨c, hc, henv⟩ := bind_ok henv
  obtain ⟨-, -, rfl⟩ := Cursor.next_ok hc
  cases henv
  cases h
  rcases SessionSnapshot.apply_ok happ with ⟨hle, -, -⟩ | ⟨-, ha, -⟩
  · simp at hle
  · exact ⟨ha, rfl, bytes, rfl⟩

theorem Good.publish {r r' : SessionViewRecord} {log : List SessionEventEnvelope}
    {e : SessionEventEnvelope} {occurredAtMs : Nat} {payload : SessionEventPayload}
    {runIdentity : Option (String × Nat)} (hg : r.Good log)
    (h : r.prepare occurredAtMs payload runIdentity = .ok (r', e)) : r'.Good (log ++ [e]) := by
  obtain ⟨ha, -, bytes, hr⟩ := prepare_ok h
  have hcur : r'.snapshot.cursor = e.cursor := ha.cursor_eq
  obtain ⟨hlog, hwin, hlen⟩ :=
    hg.window.publish hg.logged hg.current ha.cursor bytes (some e.turnId)
  have hb := ha.bound
  rw [hr]
  refine ⟨ha.target, hcur ▸ hlog, hcur ▸ hwin, hcur ▸ hlen, ?_, ?_⟩
  · simp only [hcur, ha.cursor]
    omega
  · intro x hx
    rcases List.mem_append.mp hx with hx | hx
    · exact hg.events x hx
    · rw [List.mem_singleton.mp hx]
      exact ha.event

omit [EventSerde] in
/-- What a retirement does. -/
theorem prepareRetireRun_some {r r' : SessionViewRecord} {turnId : String} {identity : Nat}
    (h : r.prepareRetireRun turnId identity = some r') :
    r' = { r with
      journal := r.journal.scrubRun turnId
      runIdentities := setKey r.runIdentities turnId none } := by
  unfold prepareRetireRun at h
  split at h
  · cases h
  · cases h
    rfl

omit [EventSerde] in
theorem replay_eq {r : SessionViewRecord} {p : SubscribeParams} (hp : p.validate = .ok ()) :
    r.replay p = r.journal.replay ⟨"Replay cursor is ahead of the current Session cursor",
      "Fixed replay high watermark is ahead of the current Session cursor"⟩ r.head p := by
  unfold replay
  rw [hp, ok_bind]

omit [EventSerde] in
theorem Good.answers {r : SessionViewRecord} {log : List SessionEventEnvelope} (hg : r.Good log)
    {p : SubscribeParams} {result : SubscribeResult SessionEventEnvelope}
    (ht : p.threadId = r.snapshot.cursor.threadId) (h : r.replay p = .ok result) :
    result.validateFor p = .ok () := by
  have hv := SessionSnapshot.validate_iff.mp hg.snapshot
  have hp : p.validate = .ok () := by
    unfold replay at h
    obtain ⟨_, hp, -⟩ := bind_ok h
    exact hp
  obtain ⟨hreq, hafter, hthrough⟩ := SubscribeParams.validate_ok hp
  rw [replay_eq hp] at h
  have hnext : ∀ n, n < u64Max → Cursor.checkedNext { r.snapshot.cursor with seq := n } =
      .ok { r.snapshot.cursor with seq := n + 1 } := by
    intro n hn
    exact Cursor.next_of_lt (c := { r.snapshot.cursor with seq := n }) hv.cursor hn
  obtain ⟨hw, hsound⟩ := Journal.replay_sound r.head
    "Replay events must be contiguous and in Session cursor order" hg.window hg.logged
    hg.current hg.bound hv.revision hg.events hnext hreq ht h
  have hwv : result.through.validate = .ok () := by
    rcases hw with hw | hw
    · rw [hw]
      exact hv.cursor
    · exact hthrough _ hw
  rcases hsound with ⟨g, hgap, hf, hc⟩ | ⟨hpage, hres⟩
  · refine hgap.validateFor hp ⟨hafter, ?_, ?_, hwv⟩
    · rw [hf, Cursor.validate_congr hg.window.floor_stream]
      exact hv.cursor
    · rw [hc]
      exact hv.cursor
  · exact hpage.validateFor hp ⟨(Cursor.validate_congr hres).trans hv.cursor, hwv⟩

/-- The V1 record is a lawful feed. -/
theorem feed_lawful : feed.Lawful Good where
  publish hg h := by
    cases h with
    | publish _ _ _ hp => exact hg.publish hp
  retire hg h := by
    cases h with
    | retire turnId _ hp =>
      rw [prepareRetireRun_some hp]
      exact { hg with window := hg.window.scrubRun hg.logged turnId }
  stream h := by
    cases h with
    | publish _ _ _ hp =>
      obtain ⟨ha, -⟩ := prepare_ok hp
      have hcur := ha.cursor_eq.trans ha.cursor
      simp only [feed, hcur, and_self]
    | retire _ _ hp =>
      rw [prepareRetireRun_some hp]
      exact ⟨rfl, rfl⟩
  log hg := hg.logged
  window hg := hg.window
  current hg := hg.current
  request hp := (SubscribeParams.validate_ok hp).1
  valid h := by
    obtain ⟨_, hp, -⟩ := bind_ok h
    exact hp
  replay r := ⟨_, r.head, rfl, fun hp => replay_eq hp⟩
  answers hg := hg.answers

omit [EventSerde] in
/-- A record that was just inserted. -/
theorem good_of_insert {owner threadId : String} {agentName : Option String} {metadata : JsonMap}
    {history : List CanonicalItem} {createdAtMs : Nat} {streamId : String}
    {limits : EventJournalLimits} {r : SessionViewRecord}
    (h : insert owner threadId agentName metadata history createdAtMs streamId limits = .ok r) :
    r.Good [] := by
  unfold insert at h
  obtain ⟨window, -, h⟩ := bind_ok h
  unfold withOwner at h
  obtain ⟨_, hv, h⟩ := bind_ok h
  cases h
  exact ⟨hv, .nil, .initial rfl rfl rfl (by simp [Cursor.sameStream]), rfl, Nat.zero_le _, by simp⟩

end

end SessionViewRecord

/-! ## V2 -/

theorem SubscribeParams.validateV2_ok {p : SubscribeParams} (h : p.validateV2 = .ok ()) :
    p.Request ∧ p.after.validateV2 = .ok () ∧ ∀ t, p.through = some t → t.validateV2 = .ok () := by
  unfold SubscribeParams.validateV2 at h
  obtain ⟨_, -, h⟩ := bind_ok h
  obtain ⟨_, ha, h⟩ := bind_ok h
  obtain ⟨hth, h⟩ := refuse_bind_ok h
  obtain ⟨_, hw, h⟩ := bind_ok h
  have hlim := refuse_ok h
  have hfixed : ∀ t, p.through = some t →
      t.validateV2 = .ok () ∧ p.after.sameStream t = true ∧ p.after.seq ≤ t.seq := by
    intro t ht
    rw [SubscribeParams.validateThroughV2, ht] at hw
    obtain ⟨_, hv, hw⟩ := bind_ok hw
    obtain ⟨hs, hw⟩ := refuse_bind_ok hw
    exact ⟨hv, by simpa using hs, by simpa using refuse_ok hw⟩
  refine ⟨⟨by simpa using hth, fun t ht => (hfixed t ht).2, ?_⟩, ha, fun t ht => (hfixed t ht).1⟩
  simp only [Bool.or_eq_false_iff, beq_eq_false_iff_ne] at hlim
  exact Nat.pos_of_ne_zero hlim.1

namespace ManagementProjection

section
variable [External] [EventSerde]

/-- A publication that is prepared and installed, or a run that is retired. -/
inductive Step : ManagementProjection → Option SessionEventEnvelopeV2 → ManagementProjection → Prop
  | publish {p p' : ManagementProjection} {e : SessionEventEnvelopeV2} (occurredAtMs : Nat)
      (payload : SessionEventPayloadV2) (runIdentity : Option (String × Nat))
      (prepared : p.prepare occurredAtMs payload runIdentity = .ok (p', e)) : Step p (some e) p'
  | retire {p p' : ManagementProjection} (turnId : String) (identity : Nat)
      (prepared : p.prepareRetireRun turnId identity = some p') : Step p none p'

/-- The V2 projection as a feed. -/
def feed : Feed ManagementProjection SessionEventEnvelopeV2 where
  step := Step
  cursor p := p.snapshot.cursor
  limits _ := managementJournalLimits
  journal p := p.journal
  validateParams := SubscribeParams.validateV2
  replay := replay
  validateFor := SubscribeResult.validateForV2

omit [EventSerde] in
/-- The projection is valid and its journal is a window of the log. -/
structure Good (p : ManagementProjection) (log : List SessionEventEnvelopeV2) : Prop where
  snapshot : p.snapshot.validate = .ok ()
  logged : Journal.Log p.snapshot.cursor log
  window : p.journal.Window managementJournalLimits p.snapshot.cursor log
  current : p.snapshot.cursor.seq = log.length
  bound : p.snapshot.cursor.seq ≤ u64Max
  events : ∀ e ∈ log, e.validate = .ok ()

/-- What a successful preparation does. -/
theorem prepare_ok {p p' : ManagementProjection} {e : SessionEventEnvelopeV2} {occurredAtMs : Nat}
    {payload : SessionEventPayloadV2} {runIdentity : Option (String × Nat)}
    (h : p.prepare occurredAtMs payload runIdentity = .ok (p', e)) :
    p.snapshot.Applied e p'.snapshot ∧
      e = ⟨p.snapshot.summary.threadId, { p.snapshot.cursor with seq := p.snapshot.cursor.seq + 1 },
        occurredAtMs, payload⟩ ∧
      ∃ bytes, p'.journal = p.journal.retain managementJournalLimits e bytes (p.runOf e) := by
  unfold prepare at h
  obtain ⟨env, henv, h⟩ := bind_ok h
  obtain ⟨_, -, h⟩ := bind_ok h
  obtain ⟨bytes, -, h⟩ := bind_ok h
  obtain ⟨⟨snapshot, b⟩, happ, h⟩ := bind_ok h
  rw [mapError_ok_iff] at happ
  obtain ⟨c, hc, henv⟩ := bind_ok henv
  obtain ⟨-, -, rfl⟩ := Cursor.next_ok hc
  cases henv
  cases h
  rcases SessionSnapshotV2.apply_ok happ with ⟨hle, -, -⟩ | ⟨-, ha, -⟩
  · simp at hle
  · exact ⟨ha, rfl, bytes, rfl⟩

theorem Good.publish {p p' : ManagementProjection} {log : List SessionEventEnvelopeV2}
    {e : SessionEventEnvelopeV2} {occurredAtMs : Nat} {payload : SessionEventPayloadV2}
    {runIdentity : Option (String × Nat)} (hg : p.Good log)
    (h : p.prepare occurredAtMs payload runIdentity = .ok (p', e)) : p'.Good (log ++ [e]) := by
  obtain ⟨ha, -, bytes, hj⟩ := prepare_ok h
  have hcur : p'.snapshot.cursor = e.cursor := ha.cursor_eq
  obtain ⟨hlog, hwin, hlen⟩ :=
    hg.window.publish hg.logged hg.current ha.cursor bytes (p.runOf e)
  have hb := ha.bound
  refine ⟨ha.target, hcur ▸ hlog, ?_, hcur ▸ hlen, ?_, ?_⟩
  · rw [hj, hcur]
    exact hwin
  · rw [hcur, ha.cursor]
    simp only
    omega
  · intro x hx
    rcases List.mem_append.mp hx with hx | hx
    · exact hg.events x hx
    · rw [List.mem_singleton.mp hx]
      exact ha.event

omit [External] [EventSerde] in
/-- What a retirement does. -/
theorem prepareRetireRun_some {p p' : ManagementProjection} {turnId : String} {identity : Nat}
    (h : p.prepareRetireRun turnId identity = some p') :
    p' = { p with
      journal := p.journal.scrubRun turnId
      runIdentities := setKey p.runIdentities turnId none } := by
  unfold prepareRetireRun at h
  split at h
  · cases h
  · cases h
    rfl

omit [External] [EventSerde] in
theorem replay_eq {r : ManagementProjection} {p : SubscribeParams} (hp : p.validateV2 = .ok ()) :
    r.replay p = r.journal.replay ⟨"Replay cursor is ahead of the current V2 Session cursor",
      "Fixed V2 replay high watermark is ahead of the current cursor"⟩ r.head p := by
  unfold replay
  rw [hp, ok_bind]

omit [EventSerde] in
theorem Good.answers {r : ManagementProjection} {log : List SessionEventEnvelopeV2} (hg : r.Good log)
    {p : SubscribeParams} {result : SubscribeResult SessionEventEnvelopeV2}
    (ht : p.threadId = r.snapshot.cursor.threadId) (h : r.replay p = .ok result) :
    result.validateForV2 p = .ok () := by
  have hv := SessionSnapshotV2.validate_iff.mp hg.snapshot
  have hp : p.validateV2 = .ok () := by
    unfold replay at h
    obtain ⟨_, hp, -⟩ := bind_ok h
    exact hp
  obtain ⟨hreq, hafter, hthrough⟩ := SubscribeParams.validateV2_ok hp
  rw [replay_eq hp] at h
  have hnext : ∀ n, n < u64Max → Cursor.checkedNextV2 { r.snapshot.cursor with seq := n } =
      .ok { r.snapshot.cursor with seq := n + 1 } := by
    intro n hn
    exact Cursor.next_of_lt (c := { r.snapshot.cursor with seq := n }) hv.cursor hn
  obtain ⟨hw, hsound⟩ := Journal.replay_sound r.head
    "V2 replay events must be contiguous and ordered" hg.window hg.logged hg.current
    hg.bound hv.revision hg.events hnext hreq ht h
  have hwv : result.through.validateV2 = .ok () := by
    rcases hw with hw | hw
    · rw [hw]
      exact hv.cursor
    · exact hthrough _ hw
  rcases hsound with ⟨g, hgap, hf, hc⟩ | ⟨hpage, hres⟩
  · refine hgap.validateForV2 hp ⟨hafter, ?_, ?_⟩ hwv
    · rw [hf, Cursor.validateV2_congr hg.window.floor_stream]
      exact hv.cursor
    · rw [hc]
      exact hv.cursor
  · exact hpage.validateForV2 hp ⟨(Cursor.validateV2_congr hres).trans hv.cursor, hwv⟩

/-- The V2 projection is a lawful feed. -/
theorem feed_lawful : feed.Lawful Good where
  publish hg h := by
    cases h with
    | publish _ _ _ hp => exact hg.publish hp
  retire hg h := by
    cases h with
    | retire turnId _ hp =>
      rw [prepareRetireRun_some hp]
      exact { hg with window := hg.window.scrubRun hg.logged turnId }
  stream h := by
    cases h with
    | publish _ _ _ hp =>
      obtain ⟨ha, -⟩ := prepare_ok hp
      have hcur := ha.cursor_eq.trans ha.cursor
      simp only [feed, hcur, and_self]
    | retire _ _ hp =>
      rw [prepareRetireRun_some hp]
      exact ⟨rfl, rfl⟩
  log hg := hg.logged
  window hg := hg.window
  current hg := hg.current
  request hp := (SubscribeParams.validateV2_ok hp).1
  valid h := by
    obtain ⟨_, hp, -⟩ := bind_ok h
    exact hp
  replay r := ⟨_, r.head, rfl, fun hp => replay_eq hp⟩
  answers hg := hg.answers

end

end ManagementProjection

section
variable [External] [EventSerde]

/-- A projection that was just inserted. -/
theorem ManagementRecord.good_of_insert {owner threadId : String} {agentName : Option String}
    {metadata : JsonMap} {history : List CanonicalItem} {createdAtMs : Nat}
    {persistence : SessionPersistence} {maxHistoryBytes : Option Nat} {streamId : String}
    {m : ManagementRecord} (h : ManagementRecord.insert owner threadId agentName metadata history
      createdAtMs persistence maxHistoryBytes streamId = .ok m) : m.projection.Good [] := by
  unfold ManagementRecord.insert at h
  obtain ⟨window, -, h⟩ := bind_ok h
  obtain ⟨_, hv, h⟩ := bind_ok h
  obtain ⟨archive, -, h⟩ := bind_ok h
  rw [mapError_ok_iff] at hv
  cases h
  exact ⟨hv, .nil, .initial rfl rfl rfl (by simp [Cursor.sameStream]), rfl, Nat.zero_le _, by simp⟩

/-- **Replay windows are exact**, in both versions: after every sequence of publications and
retirements on a record that was inserted, whatever the sizes of its events and the limits of its
journal. -/
theorem replay_windows_exact (owner threadId : String) (agentName : Option String)
    (metadata : JsonMap) (history : List CanonicalItem) (createdAtMs : Nat) (streamId : String) :
    (∀ (limits : EventJournalLimits) (r₀ r : SessionViewRecord)
        (labels : List (Option SessionEventEnvelope)),
      SessionViewRecord.insert owner threadId agentName metadata history createdAtMs streamId
        limits = .ok r₀ →
      Lts.Run SessionViewRecord.Step r₀ labels r →
      SessionViewRecord.feed.Exact r labels.reduceOption) ∧
    (∀ (persistence : SessionPersistence) (maxHistoryBytes : Option Nat) (m : ManagementRecord)
        (p : ManagementProjection) (labels : List (Option SessionEventEnvelopeV2)),
      ManagementRecord.insert owner threadId agentName metadata history createdAtMs persistence
        maxHistoryBytes streamId = .ok m →
      Lts.Run ManagementProjection.Step m.projection labels p →
      ManagementProjection.feed.Exact p labels.reduceOption) := by
  refine ⟨fun limits r₀ r labels h₀ h => ?_, fun persistence maxHistoryBytes m p labels h₀ h => ?_⟩
  · exact SessionViewRecord.feed_lawful.exact (SessionViewRecord.good_of_insert h₀) h
  · exact ManagementProjection.feed_lawful.exact (ManagementRecord.good_of_insert h₀) h

end

/-! ## A first run -/

namespace Sample

/-- Every event and every item is two bytes long. -/
@[reducible] def serde : EventSerde where
  eventBytes _ := .ok 2
  eventV2Bytes _ := .ok 2
  itemBytes _ := .ok 2

/-- A host that measures a text by its length. -/
@[reducible] def host : External where
  parseUuid s := s.length == 36
  sha256Hex s := s
  itemsBytes items := .ok items.length
  valueBytes _ := .ok 1
  deserializeError _ := "invalid type"

def origin : Cursor := ⟨"t", "s", 0⟩

/-- The V1 record of an empty session. -/
def viewRecord : SessionViewRecord where
  owner := "o"
  snapshot := {
    summary := .new "t" 0
    history := ⟨[], 0, 0, maxSessionHistoryLimit⟩
    cursor := origin }
  journal := { replayFloor := origin }
  limits := defaultJournalLimits
  runIdentities := fun _ => none

/-- The V2 record of the same session. -/
def managementRecord : ManagementRecord where
  owner := "o"
  history := .empty "t" "s" none
  projection := {
    snapshot := {
      summary := .new "t" 0
      lifecycle := .opened
      persistence := .ephemeral
      history := ⟨[], 0, 0, maxSessionHistoryLimit⟩
      cursor := origin }
    journal := { replayFloor := origin }
    runIdentities := fun _ => none }

def note (id : String) : CanonicalItem := .userMessage id []

/-- The snapshot a run begins with. -/
def started (turnId : String) : RunSnapshot where
  threadId := "t"
  turnId := turnId
  status := .running
  items := []
  usage := {}
  pendingApprovals := []
  lastSeq := 0

/-- A publication that is not refused. -/
def publishedV2 (p : ManagementProjection) (payload : SessionEventPayloadV2) (runIdentity : Option (String × Nat)) :
    ManagementProjection × SessionEventEnvelopeV2 :=
  match @ManagementProjection.prepare host serde p 7 payload runIdentity with
  | .ok next => next
  | .error _ => (p, ⟨"t", origin, 0, payload⟩)

theorem publishedV2_step {p : ManagementProjection} {payload : SessionEventPayloadV2}
    {runIdentity : Option (String × Nat)}
    (h : (@ManagementProjection.prepare host serde p 7 payload runIdentity).isOk = true) :
    @ManagementProjection.Step host serde p (some (publishedV2 p payload runIdentity).2)
      (publishedV2 p payload runIdentity).1 := by
  refine @ManagementProjection.Step.publish host serde _ _ _ 7 payload runIdentity ?_
  unfold publishedV2
  cases hp : @ManagementProjection.prepare host serde p 7 payload runIdentity with
  | error _ =>
    rw [hp] at h
    cases h
  | ok next => rfl

end Sample

/-- The windows of a session whose first run has begun. -/
theorem replay_windows_exact_after_begin :
    ∃ (r : SessionViewRecord) (p : ManagementProjection) (e : SessionEventEnvelope)
      (e' : SessionEventEnvelopeV2),
      Lts.Run (@SessionViewRecord.Step Sample.serde) Sample.viewRecord [some e] r ∧
      (@SessionViewRecord.feed Sample.serde).Exact r [e] ∧
      Lts.Run (@ManagementProjection.Step Sample.host Sample.serde)
        Sample.managementRecord.projection [some e'] p ∧
      (@ManagementProjection.feed Sample.host Sample.serde).Exact p [e'] := by
  have h := @replay_windows_exact Sample.host Sample.serde "o" "t" none [] [] 0 "s"
  have hv := @SessionViewRecord.Step.publish Sample.serde Sample.viewRecord _ _ 7
    (.runChanged (.new (Sample.started "r") 7)) (some ("r", 1)) rfl
  have hm := @ManagementProjection.Step.publish Sample.host Sample.serde
    Sample.managementRecord.projection _ _ 7 (.runChanged (.new (Sample.started "r") 7))
    (some ("r", 1)) rfl
  exact ⟨_, _, _, _, .single hv, h.1 defaultJournalLimits _ _ _ rfl (.single hv), .single hm,
    h.2 .ephemeral none Sample.managementRecord _ _ rfl (.single hm)⟩

end Whale
