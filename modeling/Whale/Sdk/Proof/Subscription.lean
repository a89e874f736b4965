import Whale.Sdk.Subscription
import Whale.Daemon.Proof.Replay

/-!
# What a subscription worker enqueues

The events a worker enqueues are the ones after its start, one after another
(`ViewWorker.Inv`), whatever reaches it. A page that passes the client's checks continues the
last event (`PageRest`); the loop over such pages moves on with each of them, so a fixed window ends
(`ViewWorker.remaining`). `ViewWorker.GapFree` is what the consumer may rely on.
-/

namespace Whale

open Check

theorem isNextCursor_iff {a b : Cursor} :
    isNextCursor a b = true ↔ b = { a with seq := a.seq + 1 } ∧ a.seq < u64Max := by
  unfold isNextCursor checkedSucc
  constructor
  · intro h
    rw [Bool.and_eq_true] at h
    by_cases hlt : a.seq < u64Max
    · rw [if_pos hlt, Option.any_some, beq_iff_eq] at h
      refine ⟨Cursor.eq_of_sameStream ?_ h.2.symm, hlt⟩
      simpa [Cursor.sameStream] using Cursor.sameStream_symm h.1
    · rw [if_neg hlt] at h
      simp at h
  · rintro ⟨rfl, hlt⟩
    rw [if_pos hlt]
    simp [Cursor.sameStream]

/-! ## What a checked page is -/

section
variable {ε : Type} [Envelope ε]

/-- The events follow a cursor, each the next one. -/
def Follows : Cursor → List ε → Prop
  | _, [] => True
  | c, e :: es => isNextCursor c (Envelope.cursor e) = true ∧ Follows (Envelope.cursor e) es

/-- The rest of a page after a cursor: its events follow, it ends where it says, and it has more if and
only if that is below the high watermark. -/
structure PageRest (last : Cursor) (page : SubscribeResult ε) : Prop where
  follows : Follows last page.events
  resume : page.resumeAfter = { last with seq := last.seq + page.events.length }
  stream : last.sameStream page.through = true
  bound : page.resumeAfter.seq ≤ page.through.seq
  more : page.hasMore = decide (page.resumeAfter.seq < page.through.seq)

theorem checkEvents_follows {validate : ε → Except String Unit} {next : Cursor → Except String Cursor}
    {through : Nat} {gap : String}
    (hnext : ∀ {c c'}, next c = .ok c' → c.seq < u64Max ∧ c' = { c with seq := c.seq + 1 }) :
    ∀ {events : List ε} {c c' : Cursor}, checkEvents validate next through gap c events = .ok c' →
      c.seq ≤ through → Follows c events ∧ c' = { c with seq := c.seq + events.length } ∧
        c'.seq ≤ through
  | [], c, c', h, hc => by
    cases h
    exact ⟨trivial, rfl, hc⟩
  | e :: events, c, c', h, hc => by
    unfold checkEvents at h
    obtain ⟨_, -, h⟩ := bind_ok h
    obtain ⟨d, hd, h⟩ := bind_ok h
    obtain ⟨hgap, h⟩ := refuse_bind_ok h
    obtain ⟨hlt, rfl⟩ := hnext hd
    simp only [ne_eq, Bool.or_eq_false_iff, decide_eq_false_iff_not, not_not, not_lt] at hgap
    obtain ⟨hcur, hle⟩ := hgap
    rw [hcur] at hle
    obtain ⟨hf, rfl, hb⟩ := checkEvents_follows hnext h hle
    refine ⟨⟨isNextCursor_iff.mpr ⟨hcur, hlt⟩, hcur ▸ hf⟩, ?_, hb⟩
    simp only [List.length_cons, Cursor.mk.injEq, true_and]
    omega

/-- A version of the worker whose checks do what the worker relies on. -/
class LawfulVersion (ε : Type) [Envelope ε] [SubscriptionVersion ε] : Prop where
  /-- A page without a gap continues the request. -/
  page : ∀ {r : SubscribeResult ε} {p : SubscribeParams},
    SubscriptionVersion.validateFor r p = .ok () → r.gap = none →
      PageRest p.after r ∧ ∀ t, p.through = some t → r.through = t
  /-- A page that the request returns was answered. -/
  gotten : ∀ {r : SubscribeResult ε} {p : SubscribeParams}
    {answer : Except SdkError (SubscribeResult ε)},
    SubscriptionVersion.getReplayPage p answer = .ok r → answer = .ok r
  /-- Only a worker that holds its hub acts on a `Closed` event. -/
  closed : ∀ {e : ε}, SubscriptionVersion.isClosed e = true → SubscriptionVersion.holdsHub ε = true

end

/-- V1 pages are checked. -/
theorem SubscribeResult.validateFor_page {r : SubscribeResult SessionEventEnvelope}
    {p : SubscribeParams} (h : r.validateFor p = .ok ()) (hg : r.gap = none) :
    PageRest p.after r ∧ ∀ t, p.through = some t → r.through = t := by
  unfold SubscribeResult.validateFor at h
  obtain ⟨_, -, h⟩ := bind_ok h
  obtain ⟨_, -, h⟩ := bind_ok h
  obtain ⟨_, -, h⟩ := bind_ok h
  obtain ⟨-, h⟩ := refuse_bind_ok h
  rw [hg] at h
  obtain ⟨hw, h⟩ := refuse_bind_ok h
  obtain ⟨hs, h⟩ := refuse_bind_ok h
  obtain ⟨ha, h⟩ := refuse_bind_ok h
  obtain ⟨-, h⟩ := refuse_bind_ok h
  obtain ⟨-, h⟩ := refuse_bind_ok h
  obtain ⟨expected, hev, h⟩ := bind_ok h
  obtain ⟨hres, h⟩ := refuse_bind_ok h
  have hmore := refuse_ok h
  obtain ⟨hf, hexp, hb⟩ := checkEvents_follows
    (fun hc => ⟨(Cursor.next_ok hc).2.1, (Cursor.next_ok hc).2.2⟩) hev (by simpa using ha)
  have hres : r.resumeAfter = expected := by simpa using hres
  refine ⟨⟨hf, hres.trans hexp, by simpa using hs, hres ▸ hb, by simpa using hmore⟩, ?_⟩
  intro t ht
  simpa [ht] using hw

/-- V2 pages are checked. -/
theorem SubscribeResult.validateForV2_page [External] {r : SubscribeResult SessionEventEnvelopeV2}
    {p : SubscribeParams} (h : r.validateForV2 p = .ok ()) (hg : r.gap = none) :
    PageRest p.after r ∧ ∀ t, p.through = some t → r.through = t := by
  unfold SubscribeResult.validateForV2 at h
  obtain ⟨_, -, h⟩ := bind_ok h
  obtain ⟨_, -, h⟩ := bind_ok h
  obtain ⟨_, -, h⟩ := bind_ok h
  obtain ⟨-, h⟩ := refuse_bind_ok h
  rw [hg] at h
  obtain ⟨hw, h⟩ := refuse_bind_ok h
  obtain ⟨hs, h⟩ := refuse_bind_ok h
  obtain ⟨ha, h⟩ := refuse_bind_ok h
  obtain ⟨-, h⟩ := refuse_bind_ok h
  obtain ⟨expected, hev, h⟩ := bind_ok h
  obtain ⟨hres, h⟩ := refuse_bind_ok h
  have hmore := refuse_ok h
  obtain ⟨hf, hexp, hb⟩ := checkEvents_follows
    (fun hc => ⟨(Cursor.next_ok hc).2.1, (Cursor.next_ok hc).2.2⟩) hev (by simpa using ha)
  have hres : r.resumeAfter = expected := by simpa using hres
  simp only [Bool.or_eq_false_iff, Bool.not_eq_false'] at hs
  refine ⟨⟨hf, hres.trans hexp, hs.1, hres ▸ hb, by simpa using hmore⟩, ?_⟩
  intro t ht
  simpa [ht] using hw

instance : LawfulVersion SessionEventEnvelope where
  page := SubscribeResult.validateFor_page
  gotten := by
    intro r p answer h
    change getSessionReplayPage p answer = .ok r at h
    unfold getSessionReplayPage at h
    split at h
    · obtain ⟨_, -, h⟩ := bind_ok h
      cases h
      rfl
    · cases h
    · cases h
  closed h := by cases h

instance [External] : LawfulVersion SessionEventEnvelopeV2 where
  page := SubscribeResult.validateForV2_page
  gotten := by
    intro r p answer h
    change getSessionReplayPageV2 p answer = .ok r at h
    unfold getSessionReplayPageV2 at h
    obtain ⟨_, -, h⟩ := bind_ok h
    obtain ⟨result, ha, h⟩ := bind_ok h
    obtain ⟨_, -, h⟩ := bind_ok h
    cases h
    exact mapError_ok_iff.mp ha
  closed _ := rfl

/-! ## The invariant of a worker -/

section
variable {ε : Type} [Envelope ε]

/-- The events from a cursor to another, each the next one. -/
inductive Reach (start : Cursor) : List ε → Cursor → Prop
  | nil : Reach start [] start
  | snoc {events : List ε} {last : Cursor} {event : ε} (before : Reach start events last)
      (next : isNextCursor last (Envelope.cursor event) = true) :
      Reach start (events ++ [event]) (Envelope.cursor event)

/-- The last cursor, from the number of the events. -/
theorem Reach.last {start last : Cursor} {events : List ε} (h : Reach start events last) :
    last = { start with seq := start.seq + events.length } := by
  induction h with
  | nil => rfl
  | @snoc events last event _ next ih =>
    rw [(isNextCursor_iff.mp next).1, ih, List.length_append]
    rfl

/-- The cursor of every event. -/
theorem Reach.cursor {start last : Cursor} {events : List ε} (h : Reach start events last) :
    ∀ {i : Nat} {event : ε}, events[i]? = some event →
      Envelope.cursor event = { start with seq := start.seq + i + 1 } := by
  induction h with
  | nil =>
    intro i event hi
    simp at hi
  | @snoc events last event before next ih =>
    intro i e hi
    rcases Nat.lt_trichotomy i events.length with hlt | heq | hgt
    · rw [List.getElem?_append_left hlt] at hi
      exact ih hi
    · subst heq
      rw [List.getElem?_concat_length] at hi
      cases hi
      rw [(isNextCursor_iff.mp next).1, before.last]
    · rw [List.getElem?_eq_none (by rw [List.length_append, List.length_singleton]; omega)] at hi
      cases hi

namespace ViewWorker

/-- The events the worker has enqueued. -/
def enqueued (w : ViewWorker ε) : List ε :=
  w.output.filterMap fun
    | .ok event => some event
    | .error _ => none

/-- What holds at an await. -/
def Ready (last : Cursor) : Await ε → Prop
  | .opening params => params.after = last
  | .requesting params => params.after = last ∧
      ∀ t, params.through = some t → last.sameStream t = true ∧ last.seq < t.seq
  | .sending event page => isNextCursor last (Envelope.cursor event) = true ∧
      PageRest (Envelope.cursor event) page
  | .sendingLive event => isNextCursor last (Envelope.cursor event) = true
  | .waiting | .reporting _ | .ended _ => True

/-- The enqueued events go from the start to the last cursor, and the await is ready for the next. -/
structure Inv (start : Cursor) (w : ViewWorker ε) : Prop where
  sent : Reach start w.enqueued w.lastEnqueued
  ready : Ready w.lastEnqueued w.await
  /-- Only a worker that ended has enqueued an error. -/
  error : ∀ e, .error e ∈ w.output → w.await = .ended .reported
  reported : w.await = .ended .reported → ∃ e, .error e ∈ w.output

/-- A worker that starts after a cursor: the one of `watch`, or the one of `subscribe_from`. -/
inductive Starts [SubscriptionVersion ε] (start : Cursor) : ViewWorker ε → Prop
  | watch (threadId : String) (pageSize : Nat) : Starts start (watch threadId start pageSize)
  | subscribe {threadId : String} {pageSize : Nat} {w : ViewWorker ε}
      (h : subscribeFrom threadId start pageSize = .ok w) : Starts start w

/-- Nothing was enqueued wrongly so far: the invariant without the await. -/
structure Sent (start : Cursor) (w : ViewWorker ε) : Prop where
  sent : Reach start w.enqueued w.lastEnqueued
  clean : ∀ e, .error e ∉ w.output

theorem Inv.toSent {start : Cursor} {w : ViewWorker ε} (h : w.Inv start)
    (ha : w.await ≠ .ended .reported) : w.Sent start :=
  ⟨h.sent, fun e he => ha (h.error e he)⟩

/-- The invariant, from a worker that differs in its await only. -/
theorem Sent.inv {start : Cursor} {w w' : ViewWorker ε} (h : w.Sent start)
    (hlast : w'.lastEnqueued = w.lastEnqueued) (hout : w'.output = w.output)
    (hready : Ready w'.lastEnqueued w'.await) (ha : w'.await ≠ .ended .reported) : w'.Inv start where
  sent := by
    unfold enqueued
    rw [hout, hlast]
    exact h.sent
  ready := hready
  error e he := absurd (hout ▸ he) (h.clean e)
  reported hr := absurd hr ha

/-- An event that is the next one is sent. -/
theorem Sent.push {start : Cursor} {w : ViewWorker ε} (h : w.Sent start) {event : ε}
    (hn : isNextCursor w.lastEnqueued (Envelope.cursor event) = true) : (w.push event).Sent start where
  sent := by
    have := h.sent.snoc hn
    simpa [enqueued, ViewWorker.push, List.filterMap_append] using this
  clean e he := by
    rcases List.mem_append.mp he with he | he
    · exact h.clean e he
    · simp at he

theorem Sent.report {start : Cursor} {w : ViewWorker ε} (h : w.Sent start) (e : SubscriptionError) :
    (w.report e).Inv start :=
  h.inv rfl rfl trivial (by simp [ViewWorker.report])

theorem Sent.stop {start : Cursor} {w : ViewWorker ε} (h : w.Sent start) {why : End}
    (hw : why ≠ .reported) : (w.stop why).Inv start :=
  h.inv rfl rfl trivial (by simpa [ViewWorker.stop] using hw)

theorem Sent.close {start : Cursor} {w : ViewWorker ε} (h : w.Sent start) : w.close.Inv start :=
  h.inv rfl rfl trivial (by simp [ViewWorker.close])

theorem Sent.replay {start : Cursor} {w : ViewWorker ε} (h : w.Sent start) : w.replay.Inv start := by
  refine h.inv rfl rfl ⟨rfl, ?_⟩ (by simp [ViewWorker.replay, ViewWorker.request])
  intro t ht
  cases ht

theorem Starts.inv [SubscriptionVersion ε] {start : Cursor} {w : ViewWorker ε}
    (h : Starts start w) :
    w.Inv start := by
  cases h with
  | watch threadId pageSize =>
    refine ⟨.nil, ⟨rfl, ?_⟩, ?_, ?_⟩
    · intro t ht
      cases ht
    · intro e he
      cases he
    · intro hr
      cases hr
  | subscribe h =>
    obtain ⟨_, -, h⟩ := bind_ok h
    cases h
    refine ⟨.nil, rfl, ?_, ?_⟩
    · intro e he
      cases he
    · intro hr
      cases hr

section
variable [SubscriptionVersion ε] {start : Cursor} {w : ViewWorker ε}

/-! ### A page -/

/-- What `feed` does with the rest of a page. -/
inductive Fed (w : ViewWorker ε) (page : SubscribeResult ε) : ViewWorker ε → Prop
  | sending {event : ε} {rest : List ε} (events : page.events = event :: rest)
      (next : isNextCursor w.lastEnqueued (Envelope.cursor event) = true)
      (later : PageRest (Envelope.cursor event) { page with events := rest }) :
      Fed w page { w with await := .sending event { page with events := rest } }
  | requesting (events : page.events = []) (resume : page.resumeAfter = w.lastEnqueued)
      (more : w.lastEnqueued.seq < page.through.seq) :
      Fed w page (w.request page.resumeAfter (some page.through))
  | waiting (events : page.events = []) (resume : page.through.seq = w.lastEnqueued.seq) :
      Fed w page { w with await := .waiting }
  | closed (events : page.events = []) (resume : page.through.seq = w.lastEnqueued.seq)
      (holds : SubscriptionVersion.holdsHub ε = true) (lifecycle : page.lifecycle = some .closed) :
      Fed w page w.close

theorem feed_fed {page : SubscribeResult ε} (h : PageRest w.lastEnqueued page) :
    Fed w page (w.feed page) := by
  unfold feed
  cases hev : page.events with
  | cons event rest =>
    have hf := h.follows
    rw [hev] at hf
    obtain ⟨hcur, hlt⟩ := isNextCursor_iff.mp hf.1
    simp only [if_pos hf.1]
    refine .sending hev hf.1 ⟨hf.2, ?_, ?_, h.bound, h.more⟩
    · rw [h.resume, hcur, hev, List.length_cons]
      simp only [Cursor.mk.injEq, true_and]
      omega
    · rw [hcur]
      simpa [Cursor.sameStream] using h.stream
  | nil =>
    have hres : page.resumeAfter = w.lastEnqueued := by
      rw [h.resume, hev]
      rfl
    have hbound := h.bound
    rw [hres] at hbound
    by_cases hm : page.hasMore = true
    · have hlt := h.more
      rw [hm, hres] at hlt
      simp only [hm, if_true]
      exact .requesting hev hres (of_decide_eq_true hlt.symm)
    · have hlt := h.more
      rw [Bool.not_eq_true] at hm
      rw [hm, hres] at hlt
      have hge := of_decide_eq_false hlt.symm
      have heq : page.through.seq = w.lastEnqueued.seq := by omega
      simp only [hm, Bool.false_eq_true, if_false]
      unfold finishWindow
      split
      · rename_i hc
        rw [Bool.and_eq_true, beq_iff_eq] at hc
        exact .closed hev heq hc.1 hc.2
      · exact .waiting hev heq

omit [SubscriptionVersion ε] in
theorem Fed.inv [SubscriptionVersion ε] {page : SubscribeResult ε} {w' : ViewWorker ε} (h : Fed w page w')
    (hs : w.Sent start) (hp : PageRest w.lastEnqueued page) : w'.Inv start := by
  cases h with
  | sending events next later => exact hs.inv rfl rfl ⟨next, later⟩ (by simp)
  | requesting events resume more =>
    refine hs.inv rfl rfl ⟨resume, ?_⟩ (by simp [ViewWorker.request])
    intro t ht
    cases ht
    exact ⟨hp.stream, more⟩
  | waiting events resume => exact hs.inv rfl rfl trivial (by simp)
  | closed events resume holds lifecycle => exact hs.close

section
variable [LawfulVersion ε]

/-- What a page that passed the checks is. -/
theorem checkPage_ok {params : SubscribeParams} {page : SubscribeResult ε}
    (h : checkPage params page = .ok ()) :
    PageRest params.after page ∧ (∀ t, params.through = some t → page.through = t) ∧
      page.gap = none ∧ ¬ (page.hasMore = true ∧ page.resumeAfter = params.after) := by
  unfold checkPage at h
  obtain ⟨_, hv, h⟩ := bind_ok h
  have hv := mapError_ok_iff.mp hv
  cases hg : page.gap with
  | some gap =>
    rw [hg] at h
    cases h
  | none =>
    rw [hg] at h
    have hm := refuse_ok h
    obtain ⟨hp, ht⟩ := LawfulVersion.page hv hg
    refine ⟨hp, ht, rfl, ?_⟩
    rintro ⟨h1, h2⟩
    simp [h1, h2] at hm

/-- A page is refused, or it is fed. -/
theorem readPage_cases (params : SubscribeParams) (page : SubscribeResult ε)
    (hl : params.after = w.lastEnqueued) :
    (∃ e, w.readPage params page = w.report e) ∨
      (checkPage params page = .ok () ∧ Fed w page (w.readPage params page)) := by
  unfold readPage
  cases hc : checkPage params page with
  | error e => exact .inl ⟨e, rfl⟩
  | ok u =>
    obtain ⟨hp, -⟩ := checkPage_ok hc
    exact .inr ⟨rfl, feed_fed (hl ▸ hp)⟩

theorem Sent.readPage (h : w.Sent start) {params : SubscribeParams} {page : SubscribeResult ε}
    (hl : params.after = w.lastEnqueued) : (w.readPage params page).Inv start := by
  rcases readPage_cases params page hl with ⟨e, he⟩ | ⟨hc, hf⟩
  · rw [he]
    exact h.report e
  · exact hf.inv h (hl ▸ (checkPage_ok hc).1)

/-! ### A step -/

omit [LawfulVersion ε] in
/-- What a worker can do at its await. -/
inductive Move (w : ViewWorker ε) : Input ε → ViewWorker ε → Prop
  | stopped {input : Input ε} {why : End}
      (stops : input = .consumerGone ∧ why = .consumerGone ∨ input = .terminated ∧ why = .terminated ∨
        input = .hubDropped ∧ why = .hubDropped ∧ SubscriptionVersion.holdsHub ε = false) :
      Move w input (w.stop why)
  | opened {params : SubscribeParams} (answer : Except SdkError (SubscribeResult ε))
      (await : w.await = .opening params) : Move w (.answered answer) (w.openWith params answer)
  | answered {params : SubscribeParams} (answer : Except SdkError (SubscribeResult ε))
      (await : w.await = .requesting params) : Move w (.answered answer) (w.answered params answer)
  | sent {event : ε} {page : SubscribeResult ε} (await : w.await = .sending event page) :
      Move w .accepted ((w.push event).feed page)
  | replayed {input : Input ε} (await : w.await = .waiting) : Move w input w.replay
  | received {event : ε} (await : w.await = .waiting) : Move w (.received event) (w.receive event)
  | sentLive {event : ε} (await : w.await = .sendingLive event) :
      Move w .accepted ((w.push event).afterLive event)
  | reported {error : SubscriptionError} (await : w.await = .reporting error) :
      Move w .accepted { w with output := w.output ++ [.error error], await := .ended .reported }

omit [LawfulVersion ε] in
theorem Step.move {input : Input ε} {w' : ViewWorker ε} (h : w.Step input w') : w.Move input w' := by
  unfold Step step at h
  split at h
  · cases h
  · cases h
    exact .stopped (.inl ⟨rfl, rfl⟩)
  · cases h
    exact .opened _ ‹_›
  · cases h
  · cases h
    exact .stopped (.inr (.inl ⟨rfl, rfl⟩))
  · split at h
    · cases h
    · rename_i hholds
      cases h
      exact .stopped (.inr (.inr ⟨rfl, rfl, by simpa using hholds⟩))
  · cases h
    exact .answered _ ‹_›
  · cases h
    exact .sent ‹_›
  · split at h
    · cases h
      exact .replayed ‹_›
    · cases h
  · cases h
    exact .received ‹_›
  · cases h
    exact .replayed ‹_›
  · cases h
    exact .sentLive ‹_›
  · cases h
    exact .reported ‹_›
  · cases h

omit [LawfulVersion ε] in
/-- A worker that ended does nothing. -/
theorem Step.not_ended {input : Input ε} {w' : ViewWorker ε} (h : w.Step input w') {why : End} :
    w.await ≠ .ended why := by
  intro ha
  unfold Step step at h
  rw [ha] at h
  cases h

omit [LawfulVersion ε] in
theorem Inv.awaiting (h : w.Inv start) {input : Input ε} {w' : ViewWorker ε} (hs : w.Step input w') :
    w.Sent start := h.toSent hs.not_ended

theorem Inv.step (h : w.Inv start) {input : Input ε} {w' : ViewWorker ε} (hs : w.Step input w') :
    w'.Inv start := by
  have hsent := h.awaiting hs
  have hready := h.ready
  cases hs.move with
  | stopped stops =>
    refine hsent.stop ?_
    rcases stops with ⟨-, rfl⟩ | ⟨-, rfl⟩ | ⟨-, rfl, -⟩ <;> simp
  | @opened params answer await =>
    rw [await] at hready
    unfold openWith
    split
    · exact hsent.stop (by simp)
    · split
      · exact hsent.stop (by simp)
      · exact hsent.readPage hready
  | @answered params answer await =>
    rw [await] at hready
    unfold ViewWorker.answered
    split
    · exact hsent.report _
    · exact hsent.readPage hready.1
  | @sent event page await =>
    rw [await] at hready
    exact (feed_fed (w := w.push event) hready.2).inv (hsent.push hready.1) hready.2
  | replayed await => exact hsent.replay
  | @received event await =>
    unfold receive
    simp only
    split
    · exact h
    · split
      · rename_i hn
        exact hsent.inv rfl rfl hn (by simp)
      · exact hsent.replay
  | @sentLive event await =>
    rw [await] at hready
    unfold afterLive
    split
    · exact (hsent.push hready).close
    · exact (hsent.push hready).inv rfl rfl trivial (by simp)
  | @reported error await =>
    refine ⟨?_, trivial, fun _ _ => rfl, fun _ => ⟨error, by simp⟩⟩
    have := hsent.sent
    simpa [enqueued, List.filterMap_append] using this

theorem Inv.run (h : w.Inv start) {inputs : List (Input ε)} {w' : ViewWorker ε}
    (hr : Lts.Run Step w inputs w') : w'.Inv start :=
  hr.invariant (fun w => w.Inv start) (fun _ _ _ hi hs => hi.step hs) h

/-! ### The loop of a window -/

omit [LawfulVersion ε] in
/-- The loop of `replay_fixed_window`, on this side of its `return`s. -/
def InLoop (w : ViewWorker ε) : Prop :=
  match w.await with
  | .requesting _ | .sending _ _ => True
  | _ => False

omit [LawfulVersion ε] in
/-- A step inside the loop. -/
def LoopStep (w : ViewWorker ε) (input : Input ε) (w' : ViewWorker ε) : Prop :=
  w.Step input w' ∧ w.InLoop ∧ w'.InLoop

omit [LawfulVersion ε] [SubscriptionVersion ε] in
/-- The high watermark of the window, once a page has fixed it. -/
def through (w : ViewWorker ε) : Option Cursor :=
  match w.await with
  | .requesting params => params.through
  | .sending _ page => some page.through
  | _ => none

omit [LawfulVersion ε] [SubscriptionVersion ε] in
/-- A bound on the steps that the loop still takes in a fixed window: two for each event. -/
def remaining (w : ViewWorker ε) : Nat :=
  match w.await with
  | .requesting params =>
    match params.through with
    | some through => 2 * (through.seq - params.after.seq)
    | none => 0
  | .sending _ page =>
    page.events.length + 1 +
      (if page.hasMore then 2 * (page.through.seq - page.resumeAfter.seq) else 0)
  | _ => 0

omit [LawfulVersion ε] [SubscriptionVersion ε] in
/-- The last event that was sent or is being sent. -/
def frontier (w : ViewWorker ε) : Nat :=
  match w.await with
  | .sending _ _ => w.lastEnqueued.seq + 1
  | _ => w.lastEnqueued.seq

omit [LawfulVersion ε] [SubscriptionVersion ε] in
/-- What one step of the loop does: it asks for a page and then sends its events. -/
structure Advance (w w' : ViewWorker ε) : Prop where
  through : ∀ t, w.through = some t → w'.through = some t
  remaining : ∀ t, w.through = some t → w'.remaining < w.remaining
  fixed : w'.through ≠ none
  frontier : w.frontier ≤ w'.frontier
  /-- After a request an event is sent. -/
  moved : ∀ params, w.await = .requesting params → w.frontier < w'.frontier

theorem LoopStep.advance (h : w.Inv start) {input : Input ε} {w' : ViewWorker ε}
    (hs : w.LoopStep input w') : w.Advance w' := by
  obtain ⟨hs, hin, hout⟩ := hs
  have hready := h.ready
  cases hs.move with
  | stopped stops => cases hout
  | @opened params answer await =>
    unfold InLoop at hin
    rw [await] at hin
    cases hin
  | @answered params answer await =>
    rw [await] at hready
    unfold ViewWorker.answered at hout ⊢
    cases hget : SubscriptionVersion.getReplayPage params answer with
    | error e =>
      rw [hget] at hout
      cases hout
    | ok page =>
      rw [hget] at hout
      simp only at hout ⊢
      rcases readPage_cases params page hready.1 with ⟨e, he⟩ | ⟨hc, hf⟩
      · rw [he] at hout
        cases hout
      · obtain ⟨hp, hthrough, -, hstalled⟩ := checkPage_ok hc
        generalize w.readPage params page = w' at hf hout
        cases hf with
        | @sending event rest events next later =>
          have hresume := congrArg Cursor.seq hp.resume
          have hbound := hp.bound
          have hmore := hp.more
          rw [events, List.length_cons] at hresume
          simp only at hresume
          have hw : w.through = params.through := by
            unfold ViewWorker.through
            rw [await]
          refine ⟨?_, ?_, by simp [ViewWorker.through], ?_, ?_⟩
          · intro t ht
            rw [hw] at ht
            simp only [ViewWorker.through, hthrough t ht]
          · intro t ht
            rw [hw] at ht
            have := hthrough t ht
            subst this
            simp only [ViewWorker.remaining, await, ht]
            split <;> rename_i hm
            · omega
            · simp only [hm, Bool.false_eq, decide_eq_false_iff_not, not_lt] at hmore
              omega
          · simp only [ViewWorker.frontier, await]
            omega
          · intro params' _
            simp only [ViewWorker.frontier, await]
            omega
        | requesting events resume more =>
          refine absurd ⟨?_, resume.trans hready.1.symm⟩ hstalled
          rw [hp.more, resume]
          exact decide_eq_true more
        | waiting events resume => cases hout
        | closed events resume holds lifecycle => cases hout
  | @sent event page await =>
    rw [await] at hready
    have hcur := (isNextCursor_iff.mp hready.1).1
    have hseq : (Envelope.cursor event).seq = w.lastEnqueued.seq + 1 := by rw [hcur]
    have hw : w.through = some page.through := by
      unfold ViewWorker.through
      rw [await]
    have hf := feed_fed (w := w.push event) hready.2
    generalize (w.push event).feed page = w' at hf hout
    cases hf with
    | @sending event' rest events next later =>
      refine ⟨?_, ?_, by simp [ViewWorker.through], ?_, ?_⟩
      · intro t ht
        rw [hw] at ht
        cases ht
        rfl
      · intro t ht
        simp only [ViewWorker.remaining, await, events, List.length_cons]
        omega
      · simp only [ViewWorker.frontier, await, push, hseq]
        omega
      · intro params ha
        rw [await] at ha
        cases ha
    | requesting events resume more =>
      refine ⟨?_, ?_, by simp [ViewWorker.through, ViewWorker.request], ?_, ?_⟩
      · intro t ht
        rw [hw] at ht
        cases ht
        rfl
      · intro t ht
        have hm : page.hasMore = true := by
          rw [hready.2.more, resume]
          exact decide_eq_true more
        simp only [ViewWorker.remaining, await, ViewWorker.request, events, List.length_nil, hm,
          if_true]
        omega
      · simp only [ViewWorker.frontier, await, ViewWorker.request, push, hseq]
        omega
      · intro params ha
        rw [await] at ha
        cases ha
    | waiting events resume => cases hout
    | closed events resume holds lifecycle => cases hout
  | replayed await =>
    unfold InLoop at hin
    rw [await] at hin
    cases hin
  | received await =>
    unfold InLoop at hin
    rw [await] at hin
    cases hin
  | sentLive await =>
    unfold InLoop at hin
    rw [await] at hin
    cases hin
  | reported await => cases hout

theorem Inv.loop (h : w.Inv start) {inputs : List (Input ε)} {w' : ViewWorker ε}
    (hr : Lts.Run LoopStep w inputs w') : w'.Inv start ∧ w.frontier ≤ w'.frontier := by
  refine ⟨hr.invariant (fun w => w.Inv start) (fun _ _ _ hi hs => hi.step hs.1) h, ?_⟩
  exact hr.rel (fun w => w.Inv start) (fun a b => a.frontier ≤ b.frontier)
    (fun _ _ _ hi hs => hi.step hs.1) (fun _ => Nat.le_refl _) (fun _ _ _ => Nat.le_trans)
    (fun _ _ _ hi hs => (LoopStep.advance hi hs).frontier) h

/-- In a fixed window the loop takes a bounded number of steps. -/
theorem Inv.loop_length (h : w.Inv start) {t : Cursor} (ht : w.through = some t)
    {inputs : List (Input ε)} {w' : ViewWorker ε} (hr : Lts.Run LoopStep w inputs w') :
    inputs.length ≤ w.remaining := by
  have hle := hr.length_le (fun w => w.Inv start ∧ w.through = some t) remaining
    (fun _ _ _ hi hs => ⟨hi.1.step hs.1, (LoopStep.advance hi.1 hs).through t hi.2⟩)
    (fun _ _ _ hi hs => (LoopStep.advance hi.1 hs).remaining t hi.2) ⟨h, ht⟩
  omega

/-- Every turn of the loop moves on. -/
theorem Inv.loop_advances (h : w.Inv start) {inputs : List (Input ε)} {w' : ViewWorker ε}
    (hr : Lts.Run LoopStep w inputs w') (hne : inputs ≠ []) {params params' : SubscribeParams}
    (ha : w.await = .requesting params) (ha' : w'.await = .requesting params') :
    params.after.seq < params'.after.seq := by
  cases hr with
  | nil => exact absurd rfl hne
  | @cons _ v _ _ _ hs hr =>
    have hadv := LoopStep.advance h hs
    have hv := h.step hs.1
    obtain ⟨hend, hle⟩ := hv.loop hr
    have hlt := hadv.moved params ha
    have hstart := h.ready
    have hfinish := hend.ready
    rw [ha] at hstart
    rw [ha'] at hfinish
    have h1 : w.frontier = params.after.seq := by
      unfold frontier
      rw [ha, hstart.1]
    have h2 : w'.frontier = params'.after.seq := by
      unfold frontier
      rw [ha', hfinish.1]
    omega

/-! ### Errors -/

omit [LawfulVersion ε] in
/-- A page that must not be enqueued: it fails the checks, it is a gap, or it claims more without an
event. -/
def Faulty (params : SubscribeParams) (page : SubscribeResult ε) : Prop :=
  SubscriptionVersion.validateFor page params ≠ .ok () ∨ page.gap ≠ none ∨
    page.hasMore = true ∧ page.resumeAfter = params.after

theorem Faulty.checkPage {params : SubscribeParams} {page : SubscribeResult ε}
    (h : Faulty params page) : ∃ e, checkPage params page = .error e := by
  cases hc : ViewWorker.checkPage params page with
  | error e => exact ⟨e, rfl⟩
  | ok u =>
    obtain ⟨-, -, hg, hm⟩ := checkPage_ok hc
    rcases h with h | h | h
    · unfold ViewWorker.checkPage at hc
      obtain ⟨_, hv, -⟩ := bind_ok hc
      exact absurd (mapError_ok_iff.mp hv) h
    · exact absurd hg h
    · exact absurd h hm

theorem Faulty.readPage {params : SubscribeParams} {page : SubscribeResult ε}
    (h : Faulty params page) (w : ViewWorker ε) : ∃ e, w.readPage params page = w.report e := by
  obtain ⟨e, he⟩ := h.checkPage
  refine ⟨e, ?_⟩
  unfold ViewWorker.readPage
  rw [he]

/-- A faulty page that was requested is reported. -/
theorem Faulty.answered {params : SubscribeParams} {page : SubscribeResult ε}
    (h : Faulty params page) (w : ViewWorker ε) :
    ∃ e, w.answered params (.ok page) = w.report e := by
  unfold ViewWorker.answered
  cases hget : SubscriptionVersion.getReplayPage params (.ok page) with
  | error e => exact ⟨e, rfl⟩
  | ok page' =>
    cases LawfulVersion.gotten hget
    exact h.readPage w

/-- A faulty first page is returned, or reported. -/
theorem Faulty.openWith {params : SubscribeParams} {page : SubscribeResult ε}
    (h : Faulty params page) (w : ViewWorker ε) :
    ∃ e, w.openWith params (.ok page) = w.stop (.refused e) ∨
      w.openWith params (.ok page) = w.report e := by
  unfold ViewWorker.openWith
  cases hget : SubscriptionVersion.getReplayPage params (.ok page) with
  | error e => exact ⟨e, .inl rfl⟩
  | ok page' =>
    cases LawfulVersion.gotten hget
    simp only
    cases hg : page.gap with
    | some g => exact ⟨_, .inl rfl⟩
    | none =>
      obtain ⟨e, he⟩ := h.readPage w
      exact ⟨e, .inr he⟩

omit [LawfulVersion ε] in
/-- A worker that reports an error enqueues it, or it stops because nobody would read it. -/
theorem Step.of_reporting {input : Input ε} {w' : ViewWorker ε} (h : w.Step input w')
    {e : SubscriptionError} (ha : w.await = .reporting e) :
    (w'.output = w.output ++ [.error e] ∧ w'.await = .ended .reported) ∨
      w'.output = w.output ∧ (w'.await = .ended .terminated ∨ w'.await = .ended .hubDropped ∨
        w'.await = .ended .consumerGone) := by
  cases h.move with
  | stopped stops =>
    right
    refine ⟨rfl, ?_⟩
    rcases stops with ⟨-, rfl⟩ | ⟨-, rfl⟩ | ⟨-, rfl, -⟩ <;> simp [ViewWorker.stop]
  | reported await =>
    rw [ha] at await
    cases await
    exact .inl ⟨rfl, rfl⟩
  | opened _ await => rw [ha] at await; cases await
  | answered _ await => rw [ha] at await; cases await
  | sent await => rw [ha] at await; cases await
  | replayed await => rw [ha] at await; cases await
  | received await => rw [ha] at await; cases await
  | sentLive await => rw [ha] at await; cases await

omit [LawfulVersion ε] in
/-- A worker that ended stays as it is. -/
theorem run_of_ended {inputs : List (Input ε)} {w' : ViewWorker ε} (h : Lts.Run Step w inputs w')
    {why : End} (ha : w.await = .ended why) : w' = w := by
  cases h with
  | nil => rfl
  | cons hs _ => exact absurd ha hs.not_ended

omit [LawfulVersion ε] in
/-- After an error nothing but the error is enqueued. -/
theorem run_of_reporting {inputs : List (Input ε)} {w' : ViewWorker ε} (h : Lts.Run Step w inputs w')
    {e : SubscriptionError} (ha : w.await = .reporting e) :
    w'.output = w.output ∨ w'.output = w.output ++ [.error e] := by
  cases h with
  | nil => exact .inl rfl
  | cons hs hr =>
    rcases hs.of_reporting ha with ⟨ho, hend⟩ | ⟨ho, hend | hend | hend⟩
    · exact .inr ((run_of_ended hr hend) ▸ ho)
    · exact .inl ((run_of_ended hr hend) ▸ ho)
    · exact .inl ((run_of_ended hr hend) ▸ ho)
    · exact .inl ((run_of_ended hr hend) ▸ ho)

/-! ### The contract -/

omit [LawfulVersion ε] in
/-- What the consumer of a worker that started after `start` may rely on. -/
structure GapFree (start : Cursor) (w : ViewWorker ε) : Prop where
  /-- The events are the ones after the start, each once and in order. -/
  contiguous : ∀ {i : Nat} {event : ε}, w.enqueued[i]? = some event →
    Envelope.cursor event = { start with seq := start.seq + i + 1 }
  last : w.lastEnqueued = { start with seq := start.seq + w.enqueued.length }
  /-- Every turn of a replay loop moves its cursor on. -/
  advances : ∀ {inputs : List (Input ε)} {w' : ViewWorker ε} {params params' : SubscribeParams},
    Lts.Run LoopStep w inputs w' → inputs ≠ [] → w.await = .requesting params →
    w'.await = .requesting params' → params.after.seq < params'.after.seq
  /-- A replay loop ends, within two steps for each event of its fixed window. -/
  terminates : ∀ {inputs : List (Input ε)} {w' : ViewWorker ε} {params : SubscribeParams} {t : Cursor},
    Lts.Run LoopStep w inputs w' → w.await = .requesting params → params.through = some t →
    inputs.length ≤ 2 * (t.seq - params.after.seq)
  /-- A gap, a reset or a malformed page is reported, and nothing of it is enqueued. -/
  faulty : ∀ {params : SubscribeParams} {page : SubscribeResult ε} {w' : ViewWorker ε},
    w.await = .requesting params → Faulty params page → w.Step (.answered (.ok page)) w' →
    w'.output = w.output ∧ ∃ e, w'.await = .reporting e
  /-- A faulty first page is returned by `subscribe_from`, or reported. -/
  opening : ∀ {params : SubscribeParams} {page : SubscribeResult ε} {w' : ViewWorker ε},
    w.await = .opening params → Faulty params page → w.Step (.answered (.ok page)) w' →
    w'.output = w.output ∧ ∃ e, w'.await = .ended (.refused e) ∨ w'.await = .reporting e
  /-- An error is enqueued, unless the hub or the consumer is gone. -/
  reporting : ∀ {e : SubscriptionError} {input : Input ε} {w' : ViewWorker ε},
    w.await = .reporting e → w.Step input w' →
    (w'.output = w.output ++ [.error e] ∧ w'.await = .ended .reported) ∨
      w'.output = w.output ∧ (w'.await = .ended .terminated ∨ w'.await = .ended .hubDropped ∨
        w'.await = .ended .consumerGone)
  /-- After an error nothing but the error is enqueued, -/
  silent : ∀ {e : SubscriptionError} {inputs : List (Input ε)} {w' : ViewWorker ε},
    w.await = .reporting e → Lts.Run Step w inputs w' →
    w'.output = w.output ∨ w'.output = w.output ++ [.error e]
  /-- and after an error in the stream nothing at all. -/
  final : ∀ {e : SubscriptionError} {inputs : List (Input ε)} {w' : ViewWorker ε},
    .error e ∈ w.output → Lts.Run Step w inputs w' → w' = w

omit [LawfulVersion ε] in
/-- What happens to an answer that a worker waits for. -/
theorem Step.of_answered {answer : Except SdkError (SubscribeResult ε)} {w' : ViewWorker ε}
    (h : w.Step (.answered answer) w') {params : SubscribeParams} :
    (w.await = .requesting params → w' = w.answered params answer) ∧
      (w.await = .opening params → w' = w.openWith params answer) := by
  unfold Step step at h
  refine ⟨fun ha => ?_, fun ha => ?_⟩
  · rw [ha] at h
    cases h
    rfl
  · rw [ha] at h
    cases h
    rfl

theorem Inv.gapFree (h : w.Inv start) : w.GapFree start where
  contiguous hi := h.sent.cursor hi
  last := h.sent.last
  advances hr hne ha ha' := h.loop_advances hr hne ha ha'
  terminates := by
    intro inputs w' params t hr ha ht
    have hthrough : w.through = some t := by
      unfold through
      rw [ha]
      exact ht
    have hle := h.loop_length hthrough hr
    simpa only [remaining, ha, ht] using hle
  faulty ha hf hs := by
    obtain ⟨e, he⟩ := hf.answered w
    rw [hs.of_answered.1 ha, he]
    exact ⟨rfl, e, rfl⟩
  opening ha hf hs := by
    obtain ⟨e, he | he⟩ := hf.openWith w
    · rw [hs.of_answered.2 ha, he]
      exact ⟨rfl, e, .inl rfl⟩
    · rw [hs.of_answered.2 ha, he]
      exact ⟨rfl, e, .inr rfl⟩
  reporting ha hs := hs.of_reporting ha
  silent ha hr := run_of_reporting hr ha
  final he hr := run_of_ended hr (h.error _ he)

end

end

end ViewWorker

end

end Whale
