import Whale.Sdk.Proof.Subscription
import Whale.Protocol.Proof.Reducer

/-!
# Subscriptions deliver a gap-free stream

A V2 worker that ends without an error has its session's `Closed` event at or before its last cursor,
because the daemon says `Closed` of a position only then (`ManagementRecord.subscribe_closes`).
`Subscription` is such a worker together with the daemon's record of its thread.
-/

namespace Whale

open Check

/-- The session was closed at or before a cursor. -/
def ClosedBy (published : List SessionEventEnvelopeV2) (last : Cursor) : Prop :=
  ∃ e ∈ published, isClosedEventV2 e = true ∧ e.cursor.sameStream last = true ∧ e.cursor.seq ≤ last.seq

/-- A page says `Closed` only of a session that was closed by its high watermark. -/
def Closes (published : List SessionEventEnvelopeV2) (page : SubscribeResult SessionEventEnvelopeV2) :
    Prop :=
  page.lifecycle = some .closed → ClosedBy published page.through

theorem ClosedBy.mono {published published' : List SessionEventEnvelopeV2} {last : Cursor}
    (h : ClosedBy published last) (hsub : ∀ e ∈ published, e ∈ published') :
    ClosedBy published' last := by
  obtain ⟨e, he, h⟩ := h
  exact ⟨e, hsub e he, h⟩

theorem isClosedEventV2_iff {e : SessionEventEnvelopeV2} :
    isClosedEventV2 e = true ↔ e.payload = .lifecycleChanged .closed := by
  unfold isClosedEventV2
  split
  · simp [*]
  · simp_all

/-! ### What the daemon says -/

section
variable [External]

omit [External] in
/-- The lifecycle of a list of entries is `Closed` only after a `Closed` event. -/
theorem ManagementProjection.lastLifecycle_closed
    {entries : List (JournalEntry SessionEventEnvelopeV2)} {lifecycle : SessionLifecycleState}
    (h : lastLifecycle entries lifecycle = .closed) :
    lifecycle = .closed ∨ ∃ entry ∈ entries, isClosedEventV2 entry.envelope = true := by
  induction entries generalizing lifecycle with
  | nil => exact .inl h
  | cons entry entries ih =>
    unfold lastLifecycle at h
    split at h
    · rename_i next hpay
      rcases ih h with rfl | ⟨e, he, hc⟩
      · exact .inr ⟨entry, List.mem_cons_self, isClosedEventV2_iff.mpr hpay⟩
      · exact .inr ⟨e, List.mem_cons_of_mem _ he, hc⟩
    · rcases ih h with hl | ⟨e, he, hc⟩
      · exact .inl hl
      · exact .inr ⟨e, List.mem_cons_of_mem _ he, hc⟩

/-- A projection and its log: the session is `Closed` only after a `Closed` event. -/
structure ManagementProjection.Logged (p : ManagementProjection) (log : List SessionEventEnvelopeV2) :
    Prop where
  good : p.Good log
  closed : p.snapshot.lifecycle = .closed → ∃ e ∈ log, isClosedEventV2 e = true

theorem ManagementProjection.Logged.step [EventSerde] {p p' : ManagementProjection}
    {log : List SessionEventEnvelopeV2} (h : p.Logged log) {label : Option SessionEventEnvelopeV2}
    (hs : ManagementProjection.Step p label p') : p'.Logged (log ++ label.toList) := by
  cases label with
  | none =>
    have hgood := feed_lawful.retire h.good hs
    rw [Option.toList_none, List.append_nil]
    cases hs with
    | retire turnId identity prepared =>
      rw [prepareRetireRun_some prepared] at hgood ⊢
      exact ⟨hgood, h.closed⟩
  | some e =>
    have hgood := feed_lawful.publish h.good hs
    rw [Option.toList_some]
    refine ⟨hgood, fun hclosed => ?_⟩
    cases hs with
    | publish occurredAtMs payload runIdentity prepared =>
      obtain ⟨happ, -⟩ := prepare_ok prepared
      obtain ⟨hman, -⟩ := happ.managed
      generalize hpay : e.payload = pay at hman
      cases hman with
      | run run lifecycle metadata =>
        obtain ⟨e', he', hc⟩ := h.closed (lifecycle ▸ hclosed)
        exact ⟨e', List.mem_append_left _ he', hc⟩
      | metadata opened lifecycle changed =>
        rw [hclosed] at lifecycle
        cases lifecycle
      | closing opened lifecycle metadata =>
        rw [hclosed] at lifecycle
        cases lifecycle
      | closed closing lifecycle metadata =>
        exact ⟨e, List.mem_append_right _ List.mem_cons_self, isClosedEventV2_iff.mpr hpay⟩

/-- The daemon says `Closed` of a position only if the `Closed` event is at or before it. -/
theorem ManagementProjection.Logged.lifecycleAt {p : ManagementProjection}
    {log : List SessionEventEnvelopeV2} (h : p.Logged log) {through : Nat}
    (hc : p.lifecycleAt through = .closed) :
    ∃ e ∈ log, isClosedEventV2 e = true ∧ e.cursor.seq ≤ through := by
  unfold ManagementProjection.lifecycleAt at hc
  split at hc
  · rename_i heq
    obtain ⟨e, he, hclosed⟩ := h.closed hc
    have hle := (h.good.logged.numbered.mem_bounds he).2
    have hcur := h.good.current
    rw [beq_iff_eq] at heq
    refine ⟨e, he, hclosed, ?_⟩
    change Journal.pos e ≤ through
    omega
  · rcases lastLifecycle_closed hc with hl | ⟨entry, he, hclosed⟩
    · cases hl
    · have hle := List.all_eq_true.mp List.all_takeWhile _ he
      have hmem : entry.envelope ∈ p.journal.entries.map (·.envelope) :=
        List.mem_map_of_mem ((List.takeWhile_prefix _).subset he)
      rw [h.good.window.entries] at hmem
      exact ⟨entry.envelope, List.mem_of_mem_drop hmem, hclosed, of_decide_eq_true hle⟩

/-- The daemon's pages say `Closed` only of a session that was closed by their high watermark. -/
theorem ManagementRecord.subscribe_closes {m : ManagementRecord} {log : List SessionEventEnvelopeV2}
    (h : m.projection.Logged log) {owner : String} {params : SubscribeParams}
    {page : SubscribeResult SessionEventEnvelopeV2} (hs : m.subscribe owner params = .ok page)
    (hg : page.gap = none) : Closes log page := by
  intro hlife
  unfold ManagementRecord.subscribe at hs
  obtain ⟨_, howned, hs⟩ := bind_ok hs
  have hs := mapError_ok_iff.mp hs
  have hvalid : params.validateV2 = .ok () := by
    obtain ⟨_, hp, -⟩ := bind_ok hs
    exact hp
  have hreq := (SubscribeParams.validateV2_ok hvalid).1
  have hthread : params.threadId = m.projection.snapshot.cursor.threadId := by
    have howned := refuse_ok howned
    simp only [Bool.or_eq_false_iff, bne_eq_false_iff_eq] at howned
    rw [howned.1]
    exact (SessionSnapshotV2.validate_iff.mp h.good.snapshot).thread
  rw [ManagementProjection.replay_eq hvalid] at hs
  rcases Journal.replay_ok hreq hthread hs with ⟨-, rfl⟩ | ⟨hstream, -, -, ⟨-, rfl⟩ | ⟨-, rfl⟩⟩
  · cases hg
  · cases hg
  · simp only [Journal.answer, ManagementProjection.head, Option.some.injEq] at hlife
    obtain ⟨e, he, hc, hle⟩ := h.lifecycleAt hlife
    have hthrough : m.projection.snapshot.cursor.sameStream
        (Journal.watermark m.projection.head params) = true := by
      unfold Journal.watermark
      cases ht : params.through with
      | none => simp [ManagementProjection.head, Cursor.sameStream]
      | some t =>
        exact Cursor.sameStream_trans (Cursor.sameStream_symm hstream) (hreq.through t ht).1
    exact ⟨e, he, hc, Cursor.sameStream_trans (h.good.logged.stream e he) hthrough, hle⟩

end

/-! ### A subscription and its daemon -/

/-- A V2 subscription and the daemon's record of its thread. -/
structure Subscription where
  record : Option ManagementRecord := none
  /-- Everything the daemon has published for the thread. -/
  published : List SessionEventEnvelopeV2 := []
  /-- The answer to the worker's request, while it is under way. -/
  reply : Option (Except SdkError (SubscribeResult SessionEventEnvelopeV2)) := none
  worker : ViewWorker SessionEventEnvelopeV2

/-- The request a worker waits for. -/
def ViewWorker.asks {ε : Type} (w : ViewWorker ε) : Option SubscribeParams :=
  match w.await with
  | .opening params | .requesting params => some params
  | _ => none

namespace Subscription

section
variable [External] [EventSerde]

/-- A step of the daemon or of the worker. The daemon inserts, changes and removes the record of the
thread at any time; the answer of a request is the one of some moment before it arrives, or a failure. A
live event is one that was published, in any order and as often as it comes. -/
inductive Step : Subscription → Option (ViewWorker.Input SessionEventEnvelopeV2) → Subscription → Prop
  | inserted {s : Subscription} {m : ManagementRecord} (owner threadId : String)
      (agentName : Option String) (metadata : JsonMap) (history : List CanonicalItem)
      (createdAtMs : Nat) (persistence : SessionPersistence) (maxHistoryBytes : Option Nat)
      (streamId : String)
      (insert : ManagementRecord.insert owner threadId agentName metadata history createdAtMs
        persistence maxHistoryBytes streamId = .ok m) : Step s none { s with record := some m }
  | changed {s : Subscription} {m : ManagementRecord} {p : ManagementProjection}
      {event : Option SessionEventEnvelopeV2} (record : s.record = some m)
      (step : ManagementProjection.Step m.projection event p) :
      Step s none { s with
        record := some { m with projection := p }
        published := s.published ++ event.toList }
  | removed {s : Subscription} : Step s none { s with record := none }
  | served {s : Subscription} {m : ManagementRecord} {params : SubscribeParams}
      {page : SubscribeResult SessionEventEnvelopeV2} (owner : String) (record : s.record = some m)
      (asked : s.worker.asks = some params) (answer : m.subscribe owner params = .ok page) :
      Step s none { s with reply := some (.ok page) }
  | failed {s : Subscription} (failure : SdkError) :
      Step s none { s with reply := some (.error failure) }
  | delivered {s : Subscription} {answer : Except SdkError (SubscribeResult SessionEventEnvelopeV2)}
      {w : ViewWorker SessionEventEnvelopeV2} (reply : s.reply = some answer)
      (step : s.worker.Step (.answered answer) w) :
      Step s (some (.answered answer)) { s with reply := none, worker := w }
  | live {s : Subscription} {event : SessionEventEnvelopeV2} {w : ViewWorker SessionEventEnvelopeV2}
      (known : event ∈ s.published) (step : s.worker.Step (.received event) w) :
      Step s (some (.received event)) { s with worker := w }
  | moved {s : Subscription} {input : ViewWorker.Input SessionEventEnvelopeV2}
      {w : ViewWorker SessionEventEnvelopeV2} (unanswered : ∀ answer, input ≠ .answered answer)
      (unreceived : ∀ event, input ≠ .received event) (step : s.worker.Step input w) :
      Step s (some input) { s with worker := w }

end

end Subscription

/-! ### Only a closed session ends a stream -/

namespace ViewWorker

section
variable [External] {w : ViewWorker SessionEventEnvelopeV2} {published : List SessionEventEnvelopeV2}

omit [External] in
/-- What a worker was told by the daemon: its page, its live event and its end agree with what was
published. -/
structure Told (published : List SessionEventEnvelopeV2) (w : ViewWorker SessionEventEnvelopeV2) :
    Prop where
  page : ∀ {event page}, w.await = .sending event page → Closes published page
  live : ∀ {event}, w.await = .sendingLive event → event ∈ published
  closed : w.await = .ended .closed → ClosedBy published w.lastEnqueued
  /-- The worker holds its hub. -/
  held : w.await ≠ .ended .hubDropped

omit [External] in
theorem Told.mono (h : w.Told published) {published' : List SessionEventEnvelopeV2}
    (hsub : ∀ e ∈ published, e ∈ published') : w.Told published' :=
  ⟨fun ha hc => (h.page ha hc).mono hsub, fun ha => hsub _ (h.live ha),
    fun ha => (h.closed ha).mono hsub, h.held⟩

omit [External] in
/-- A worker that waits for something else, or that ended for another reason. -/
theorem told_of_await (hs : ∀ event page, w.await ≠ .sending event page)
    (hl : ∀ event, w.await ≠ .sendingLive event)
    (hc : w.await ≠ .ended .closed ∧ w.await ≠ .ended .hubDropped) : w.Told published :=
  ⟨fun ha => absurd ha (hs _ _), fun ha => absurd ha (hl _), fun ha => absurd ha hc.1, hc.2⟩

theorem Fed.told {page : SubscribeResult SessionEventEnvelopeV2} {w' : ViewWorker SessionEventEnvelopeV2}
    (h : Fed w page w') (hp : PageRest w.lastEnqueued page) (hc : Closes published page) :
    w'.Told published := by
  cases h with
  | sending events next later =>
    refine ⟨fun ha => ?_, fun ha => ?_, fun ha => ?_, by simp⟩
    · cases ha
      exact hc
    · cases ha
    · cases ha
  | requesting events resume more =>
    exact told_of_await (by simp [request]) (by simp [request]) (by simp [request])
  | waiting events resume => exact told_of_await (by simp) (by simp) (by simp)
  | closed events resume holds lifecycle =>
    refine ⟨fun ha => ?_, fun ha => ?_, fun _ => ?_, by simp [close]⟩
    · cases ha
    · cases ha
    · obtain ⟨e, he, hcl, hs, hle⟩ := hc lifecycle
      exact ⟨e, he, hcl, Cursor.sameStream_trans hs (Cursor.sameStream_symm hp.stream), resume ▸ hle⟩

theorem readPage_told {params : SubscribeParams} {page : SubscribeResult SessionEventEnvelopeV2}
    (hl : params.after = w.lastEnqueued) (hc : page.gap = none → Closes published page) :
    (w.readPage params page).Told published := by
  rcases readPage_cases params page hl with ⟨e, he⟩ | ⟨hcheck, hf⟩
  · rw [he]
    exact told_of_await (by simp [report]) (by simp [report]) (by simp [report])
  · obtain ⟨hp, -, hg, -⟩ := checkPage_ok hcheck
    exact hf.told (hl ▸ hp) (hc hg)

/-- What a worker was told stays true as it moves on. -/
theorem Told.step {start : Cursor} (h : w.Told published) (hi : w.Inv start)
    {input : Input SessionEventEnvelopeV2} {w' : ViewWorker SessionEventEnvelopeV2}
    (hs : w.Step input w')
    (hanswer : ∀ page, input = .answered (.ok page) → page.gap = none → Closes published page)
    (hlive : ∀ event, input = .received event → event ∈ published) : w'.Told published := by
  have hready := hi.ready
  cases hs.move with
  | stopped stops =>
    refine told_of_await (by simp [stop]) (by simp [stop]) ?_
    rcases stops with ⟨-, rfl⟩ | ⟨-, rfl⟩ | ⟨-, rfl, hholds⟩
    · simp [stop]
    · simp [stop]
    · cases hholds
  | @opened params answer await =>
    rw [await] at hready
    unfold openWith
    split
    · exact told_of_await (by simp [stop]) (by simp [stop]) (by simp [stop])
    · rename_i page hget
      split
      · exact told_of_await (by simp [stop]) (by simp [stop]) (by simp [stop])
      · exact readPage_told hready (hanswer page (by rw [LawfulVersion.gotten hget]))
  | @answered params answer await =>
    rw [await] at hready
    unfold ViewWorker.answered
    split
    · exact told_of_await (by simp [report]) (by simp [report]) (by simp [report])
    · rename_i page hget
      exact readPage_told hready.1 (hanswer page (by rw [LawfulVersion.gotten hget]))
  | @sent event page await =>
    rw [await] at hready
    exact (feed_fed (w := w.push event) hready.2).told hready.2 (h.page await)
  | replayed await =>
    exact told_of_await (by simp [replay, request]) (by simp [replay, request])
      (by simp [replay, request])
  | @received event await =>
    unfold receive
    simp only
    split
    · exact h
    · split
      · refine ⟨fun ha => ?_, fun ha => ?_, fun ha => ?_, by simp⟩
        · cases ha
        · cases ha
          exact hlive event rfl
        · cases ha
      · exact told_of_await (by simp [replay, request]) (by simp [replay, request])
          (by simp [replay, request])
  | @sentLive event await =>
    unfold afterLive
    split
    · rename_i hclosed
      refine ⟨fun ha => ?_, fun ha => ?_, fun _ => ?_, by simp [close]⟩
      · cases ha
      · cases ha
      · refine ⟨event, h.live await, hclosed, ?_, Nat.le_refl _⟩
        change event.cursor.sameStream event.cursor = true
        simp [Cursor.sameStream]
    · exact told_of_await (by simp) (by simp) (by simp)
  | reported await => exact told_of_await (by simp) (by simp) (by simp)

end

end ViewWorker

namespace Subscription

section
variable [External] [EventSerde] {s : Subscription} {start : Cursor}

omit [EventSerde] in
/-- The worker keeps its invariant, and what it was told is what the daemon published. -/
structure Inv (start : Cursor) (s : Subscription) : Prop where
  worker : s.worker.Inv start
  told : s.worker.Told s.published
  record : ∀ m, s.record = some m →
    ∃ log, m.projection.Logged log ∧ ∀ e ∈ log, e ∈ s.published
  reply : ∀ page, s.reply = some (.ok page) → page.gap = none → Closes s.published page

omit [EventSerde] in
/-- A step of the worker alone. -/
theorem Inv.moved (h : s.Inv start) {input : ViewWorker.Input SessionEventEnvelopeV2}
    {w : ViewWorker SessionEventEnvelopeV2} (hs : s.worker.Step input w)
    (hanswer : ∀ page, input = .answered (.ok page) → page.gap = none → Closes s.published page)
    (hlive : ∀ event, input = .received event → event ∈ s.published) :
    Inv start { s with worker := w } :=
  ⟨h.worker.step hs, h.told.step h.worker hs hanswer hlive, h.record, h.reply⟩

theorem Inv.step (h : s.Inv start) {label : Option (ViewWorker.Input SessionEventEnvelopeV2)}
    {s' : Subscription} (hs : Step s label s') : s'.Inv start := by
  cases hs with
  | inserted owner threadId agentName metadata history createdAtMs persistence maxHistoryBytes
      streamId insert =>
    refine ⟨h.worker, h.told, fun m' hm' => ?_, h.reply⟩
    cases hm'
    refine ⟨[], ⟨ManagementRecord.good_of_insert insert, fun hc => ?_⟩, by simp⟩
    unfold ManagementRecord.insert at insert
    obtain ⟨_, -, insert⟩ := bind_ok insert
    obtain ⟨_, -, insert⟩ := bind_ok insert
    obtain ⟨_, -, insert⟩ := bind_ok insert
    cases insert
    cases hc
  | @changed m p event record step =>
    obtain ⟨log, hlog, hsub⟩ := h.record m record
    have hmono : ∀ e ∈ s.published, e ∈ s.published ++ event.toList :=
      fun e he => List.mem_append_left _ he
    refine ⟨h.worker, h.told.mono hmono, fun m' hm' => ?_, fun page hp hg hc => ?_⟩
    · cases hm'
      refine ⟨_, hlog.step step, fun e he => ?_⟩
      rcases List.mem_append.mp he with he | he
      · exact hmono e (hsub e he)
      · exact List.mem_append_right _ he
    · exact (h.reply page hp hg hc).mono hmono
  | removed =>
    refine ⟨h.worker, h.told, fun m' hm' => ?_, h.reply⟩
    cases hm'
  | @served m params page owner record asked answer =>
    obtain ⟨log, hlog, hsub⟩ := h.record m record
    refine ⟨h.worker, h.told, h.record, fun page' hp hg hc => ?_⟩
    cases hp
    exact (ManagementRecord.subscribe_closes hlog answer hg hc).mono hsub
  | failed failure =>
    refine ⟨h.worker, h.told, h.record, fun page hp => ?_⟩
    cases hp
  | @delivered answer w reply step =>
    have hm := h.moved step
      (fun page hp => by cases hp; exact h.reply page reply) (fun event he => by cases he)
    refine ⟨hm.worker, hm.told, hm.record, fun page hp => ?_⟩
    cases hp
  | live known step =>
    refine h.moved step (fun page hp => ?_) (fun event he => ?_)
    · cases hp
    · cases he
      exact known
  | moved unanswered unreceived step =>
    exact h.moved step (fun page hp => absurd hp (unanswered _))
      (fun event he => absurd he (unreceived _))

omit [EventSerde] in
/-- Before the daemon has done anything, and with a worker that starts after a cursor. -/
theorem inv_of_starts {w : ViewWorker SessionEventEnvelopeV2} (h : ViewWorker.Starts start w) :
    Inv start { worker := w } := by
  refine ⟨h.inv, ?_, fun m hm => ?_, fun page hp => ?_⟩
  · cases h with
    | watch threadId pageSize =>
      exact ViewWorker.told_of_await (by simp [ViewWorker.watch]) (by simp [ViewWorker.watch])
        (by simp [ViewWorker.watch])
    | subscribe h =>
      obtain ⟨_, -, h⟩ := bind_ok h
      cases h
      exact ViewWorker.told_of_await (by simp) (by simp) (by simp)
  · cases hm
  · cases hp

end

end Subscription

/-- **Subscriptions deliver a gap-free stream**: whatever reaches a V1 or a V2 worker, in every state of
every run. A V2 worker of a daemon's session that ended, and neither enqueued nor returned an error, was
terminated with its hub, or lost its consumer, or has the session's `Closed` event at or before its
last cursor. -/
theorem subscriptions_gap_free [External] [EventSerde] (start : Cursor) :
    (∀ (w₀ w : ViewWorker SessionEventEnvelope) (inputs : List (ViewWorker.Input SessionEventEnvelope)),
      ViewWorker.Starts start w₀ → Lts.Run ViewWorker.Step w₀ inputs w → w.GapFree start) ∧
    (∀ (w₀ w : ViewWorker SessionEventEnvelopeV2)
        (inputs : List (ViewWorker.Input SessionEventEnvelopeV2)),
      ViewWorker.Starts start w₀ → Lts.Run ViewWorker.Step w₀ inputs w → w.GapFree start) ∧
    (∀ (w₀ : ViewWorker SessionEventEnvelopeV2) (s : Subscription)
        (labels : List (Option (ViewWorker.Input SessionEventEnvelopeV2))) (why : ViewWorker.End),
      ViewWorker.Starts start w₀ → Lts.Run Subscription.Step { worker := w₀ } labels s →
      s.worker.await = .ended why → (∀ e, .error e ∉ s.worker.output) → (∀ e, why ≠ .refused e) →
      why = .terminated ∨ why = .consumerGone ∨ ClosedBy s.published s.worker.lastEnqueued) := by
  refine ⟨fun w₀ w inputs h hr => (h.inv.run hr).gapFree,
    fun w₀ w inputs h hr => (h.inv.run hr).gapFree, fun w₀ s labels why h hr ha herr href => ?_⟩
  have hinv := hr.invariant (fun s => s.Inv start) (fun _ _ _ hi hs => hi.step hs)
    (Subscription.inv_of_starts h)
  cases why with
  | refused e => exact absurd rfl (href e)
  | terminated => exact .inl rfl
  | hubDropped => exact absurd ha hinv.told.held
  | consumerGone => exact .inr (.inl rfl)
  | reported =>
    obtain ⟨e, he⟩ := hinv.worker.reported ha
    exact absurd he (herr e)
  | closed => exact .inr (.inr (hinv.told.closed ha))

/-! ## A session that closes -/

namespace Sample

/-- A V1 page without events. -/
def emptyPage : SubscribeResult SessionEventEnvelope where
  events := []
  resumeAfter := origin
  through := origin
  hasMore := false

/-- The first V1 event. -/
def firstEvent : SessionEventEnvelope :=
  ⟨"t", { origin with seq := 1 }, 7, .runChanged (.new (started "r") 7)⟩

/-- The lifecycle events of a session that closes at once. -/
def closingEvent : SessionEventEnvelopeV2 :=
  ⟨"t", { origin with seq := 1 }, 7, .lifecycleChanged .closing⟩

def closedEvent : SessionEventEnvelopeV2 :=
  ⟨"t", { origin with seq := 2 }, 8, .lifecycleChanged .closed⟩

/-- The page of both. -/
def lastPage : SubscribeResult SessionEventEnvelopeV2 where
  events := [closingEvent, closedEvent]
  resumeAfter := { origin with seq := 2 }
  through := { origin with seq := 2 }
  lifecycle := some .closed
  hasMore := false

/-- The V1 worker after a live event. -/
def caughtUp : ViewWorker SessionEventEnvelope where
  threadId := "t"
  pageSize := 16
  lastEnqueued := { origin with seq := 1 }
  await := .waiting
  output := [.ok firstEvent]

/-- The V2 worker after the page. -/
def drained : ViewWorker SessionEventEnvelopeV2 where
  threadId := "t"
  pageSize := 16
  lastEnqueued := { origin with seq := 2 }
  await := .ended .closed
  output := [.ok closingEvent, .ok closedEvent]
  hubRemoved := true

end Sample

theorem subscriptions_gap_free_sample :
    Sample.caughtUp.GapFree Sample.origin ∧
      @ViewWorker.GapFree _ _ (@managementVersion Sample.host) Sample.origin
        Sample.drained ∧
      ClosedBy [Sample.closingEvent, Sample.closedEvent] Sample.drained.lastEnqueued := by
  let _ : External := Sample.host
  let _ : EventSerde := Sample.serde
  obtain ⟨h1, h2, h3⟩ := subscriptions_gap_free Sample.origin
  have hv1 : Lts.Run ViewWorker.Step (ViewWorker.watch "t" Sample.origin 16)
      [.answered (.ok Sample.emptyPage), .received Sample.firstEvent, .accepted] Sample.caughtUp :=
    .cons rfl (.cons rfl (.cons rfl (.nil _)))
  have hv2 : Lts.Run ViewWorker.Step (ViewWorker.watch "t" Sample.origin 16)
      [.answered (.ok Sample.lastPage), .accepted, .accepted] Sample.drained :=
    .cons rfl (.cons rfl (.cons rfl (.nil _)))
  have hrun : ∃ s : Subscription, Lts.Run Subscription.Step
      { worker := ViewWorker.watch "t" Sample.origin 16 }
      [none, none, none, none, some (.answered (.ok Sample.lastPage)), some .accepted,
        some .accepted] s ∧
      s.worker = Sample.drained ∧ s.published = [Sample.closingEvent, Sample.closedEvent] := by
    refine ⟨_, .cons (.inserted "o" "t" none [] [] 0 .ephemeral none "s" rfl)
      (.cons (.changed rfl (.publish 7 (.lifecycleChanged .closing) none rfl))
      (.cons (.changed rfl (.publish 8 (.lifecycleChanged .closed) none rfl))
      (.cons (.served "o" rfl rfl rfl)
      (.cons (.delivered rfl rfl)
      (.cons (.moved (by simp) (by simp) rfl)
      (.cons (.moved (by simp) (by simp) rfl) (.nil _))))))), rfl, rfl⟩
  obtain ⟨s, hrun, hw, hp⟩ := hrun
  have hend := h3 _ s _ .closed (.watch "t" 16) hrun (by rw [hw]; rfl)
    (by rw [hw]; simp [Sample.drained]) (by simp)
  rw [hw, hp] at hend
  refine ⟨h1 _ _ _ (.watch "t" 16) hv1, h2 _ _ _ (.watch "t" 16) hv2, ?_⟩
  simpa using hend

end Whale
