import Whale.Daemon.Execution
import Whale.Daemon.Proof.Archive
import Whale.Daemon.Proof.Publication
import Whale.Protocol.Proof.History

/-!
# The projected history is complete

`Execution.Complete`: the history window of both versions is the tail of the canonical history and of the
items of the run whose events are committed. Every step keeps it, as long as no copy of the run is
committed that lists an item whose own event is not (`Execution.Orderly`): the reducer takes a listed item
for known and never appends it.
-/

namespace Whale

open Check Transaction SessionHistoryWindow

/-! ## Accepted mutations -/

namespace Execution

section
variable [External] [EventSerde]

/-- What an accepted mutation does to the projections. -/
theorem Accepts.applied {p p' : Projections} {owner : String} {m : RunPublicationMutation} {now : Nat}
    (h : Accepts p owner m now p') (hs : p.Sound) :
    p'.Sound ∧ (∃ e, m.Publishes p.views.snapshot.activeRun now e.payload ∧
      p.views.snapshot.Applied e p'.views.snapshot) ∧
      match m.committedHistory with
      | some items => p.management.history.append items = .ok p'.management.history
      | none => p'.management.history = p.management.history := by
  obtain ⟨r, h⟩ := h
  obtain ⟨views, projection, history, -, hv, hm, hh, rfl⟩ := Lane.publishRun_ok h
  obtain ⟨payload, identity, hpub, hprep⟩ := Projections.prepareView_ok hv
  obtain ⟨ha, he, -⟩ := SessionViewRecord.prepare_ok hprep
  refine ⟨hs.publish hv hm history, ⟨r.1, ?_, ?_⟩, ?_⟩
  · rw [he]
    exact hpub
  · cases history with
    | none => exact ha
    | some archive => exact ha
  · unfold Projections.prepareHistory at hh
    cases hc : m.committedHistory with
    | none =>
      rw [hc] at hh
      cases hh
      rfl
    | some items =>
      rw [hc] at hh
      simp only at hh ⊢
      cases ha : p.management.history.append items with
      | error e =>
        rw [ha] at hh
        cases hh
      | ok archive =>
        rw [ha] at hh
        cases hh
        rfl

end

/-! ## The invariant -/

/-- The items of the run. -/
def items (s : Execution) : List CanonicalItem := (s.run.map (·.items)).getD []

/-- The items of the run whose events are committed. -/
def published (s : Execution) : List CanonicalItem := (s.run.map (·.published)).getD []

/-- New items have new ids, a committed copy of the run lists no item before its own event is committed,
and when the run finishes each committed item is still listed or still in the window. -/
def Orderly (s : Execution) : Label → Prop
  | .append item => item.id ∉ ids (s.history ++ s.items)
  | .changed copy => ∀ id ∈ ids copy.items, id ∈ ids s.published
  | .finished _ => ∀ item ∈ s.published, item.id ∈ ids s.projections.views.snapshot.listed ∨
      s.projections.views.snapshot.history.holds item.id = true
  | .local | .streamed _ => True

end Execution

/-- What is taken and in flight matches the items of the run. -/
structure RunTask.Ordered (t : RunTask) : Prop where
  taken : t.taken ≤ t.items.length
  flight : ∀ event, t.inFlight = some event → ∃ stream, event.payload = .stream stream
  completing : ∀ item, t.completing = some item → 0 < t.taken ∧ t.items[t.taken - 1]? = some item
  terminal : ∀ event, t.terminal = some event → t.inFlight = none ∧
    ∃ snapshot, event.payload = .finished snapshot ∧ snapshot.items = t.items

namespace Execution

section
variable [External] [EventSerde]

/-- The windows and the archive hold what the history has. -/
structure Complete (s : Execution) : Prop where
  sound : s.projections.Sound
  distinct : (ids (s.history ++ s.items)).Nodup
  window : s.projections.views.snapshot.history =
    tail (s.history ++ s.published) maxSessionHistoryLimit
  archive : s.projections.management.history.endIndex = s.history.length
  listed : ∀ id ∈ ids s.projections.views.snapshot.listed, s.run.isSome = true → id ∈ ids s.published
  task : ∀ t, s.run = some t → t.Ordered

end

end Execution

namespace RunTask

variable {t : RunTask}

theorem completing_none (h : t.inFlight = none) : t.completing = none := by
  unfold completing
  rw [h]

theorem published_of_idle (h : t.inFlight = none) : t.published = t.items.take t.taken := by
  unfold published
  rw [completing_none h]
  rfl

theorem published_sub (t : RunTask) : ∃ rest, t.items = t.published ++ rest :=
  ⟨_, (List.take_append_drop _ t.items).symm⟩

/-- Appending an item changes no committed one. -/
theorem published_append (h : t.Ordered) (item : CanonicalItem) :
    ({ t with items := t.items ++ [item] } : RunTask).published = t.published := by
  have hle := h.taken
  unfold published
  rw [List.take_append_of_le_length]
  · rfl
  · show (if t.completing.isSome then t.taken - 1 else t.taken) ≤ t.items.length
    split <;> omega

/-- The item in flight is the next one after those that are committed. -/
theorem published_commit (h : t.Ordered) {item : CanonicalItem} (hc : t.completing = some item) :
    t.items.take t.taken = t.published ++ [item] := by
  obtain ⟨hpos, hget⟩ := h.completing item hc
  obtain ⟨hlt, hitem⟩ := List.getElem?_eq_some_iff.mp hget
  unfold published
  rw [hc, Option.isSome_some, if_pos rfl]
  have hsucc : t.taken = t.taken - 1 + 1 := by omega
  rw [hsucc, List.take_succ_eq_append_getElem hlt, hitem]
  simp

end RunTask

/-- The event that `publish_stream` commits carries what it took. -/
theorem RunSnapshot.streamed_event {s : RunSnapshot} {toolExecutions : List ToolExecutionRecord}
    {event : AgentStreamEvent} {e : RunEvent} (h : (s.streamed toolExecutions event).2 = some e) :
    e.payload = .stream event := by
  unfold streamed numbered at h
  cases event with
  | turnCompleted | turnFailed => cases h
  | approvalRequested turnId requestId toolCall reason =>
    simp only at h
    split at h
    · cases h
    · cases h
      rfl
  | toolProgress | toolExecutionStarted | turnStarted | itemStarted | textDelta | reasoningDelta
  | reasoningSignature | toolCallDelta | itemCompleted =>
    cases h
    rfl

namespace RunTask

variable {t : RunTask}

theorem completing_of_inFlight {event : RunEvent} {stream : AgentStreamEvent}
    (h : t.inFlight = some event) (hp : event.payload = .stream stream) :
    t.completing = match stream with
      | .itemCompleted _ item => some item
      | _ => none := by
  obtain ⟨threadId, turnId, seq, payload⟩ := event
  simp only at hp
  subst hp
  unfold completing
  rw [h]
  cases stream <;> rfl

/-- The task after `publish_stream` took an event. -/
theorem Ordered.take (h : t.Ordered) (one : t.inFlight = none) (open_ : t.terminal = none)
    {event : AgentStreamEvent} {toolExecutions : List ToolExecutionRecord}
    (next : Execution.Next t event) :
    let t' : RunTask := { t with
      snapshot := (t.snapshot.streamed toolExecutions event).1
      inFlight := (t.snapshot.streamed toolExecutions event).2
      taken := t.taken + Execution.itemCount event }
    t'.Ordered ∧ t'.published = t.published := by
  intro t'
  have hterm : ∀ e, t'.terminal = some e → t'.inFlight = none ∧
      ∃ snapshot, e.payload = .finished snapshot ∧ snapshot.items = t'.items := by
    intro e he
    rw [show t'.terminal = t.terminal from rfl, open_] at he
    cases he
  have hflight : ∀ e, t'.inFlight = some e → ∃ stream, e.payload = .stream stream :=
    fun e he => ⟨event, RunSnapshot.streamed_event he⟩
  cases event with
  | itemCompleted turnId item =>
    obtain ⟨hlt, hitem⟩ := List.getElem?_eq_some_iff.mp next
    have hc : t'.completing = some item := rfl
    refine ⟨⟨hlt, hflight, fun i hi => ?_, hterm⟩, ?_⟩
    · rw [hc] at hi
      cases hi
      exact ⟨Nat.succ_pos _, next⟩
    · rw [published_of_idle one]
      unfold published
      rw [hc]
      rfl
  | toolProgress | toolExecutionStarted | turnStarted | itemStarted | textDelta | reasoningDelta
  | reasoningSignature | toolCallDelta | approvalRequested | turnCompleted | turnFailed =>
    have hc : t'.completing = none := by
      cases hf : t'.inFlight with
      | none => exact completing_none hf
      | some e => exact completing_of_inFlight hf (RunSnapshot.streamed_event hf)
    refine ⟨⟨h.taken, hflight, fun i hi => ?_, hterm⟩, ?_⟩
    · rw [hc] at hi
      cases hi
    · rw [published_of_idle one]
      unfold published
      rw [hc]
      rfl

end RunTask

namespace RunSnapshot

/-- The terminal snapshot has the items of the run. -/
theorem finalized_items {s : RunSnapshot} {o : Outcome} {items : List CanonicalItem}
    {journal : Option (Except StoreError FinalizedRun)}
    (h : ∀ f, journal = some (.ok f) → f.snapshot.items = items) :
    ((s.candidate o items).finalized journal).items = items := by
  cases journal with
  | none => rfl
  | some r =>
    cases r with
    | ok f => exact h f rfl
    | error e => rfl

end RunSnapshot

namespace Execution

section
variable [External] [EventSerde] {s : Execution} {t : RunTask} {p : Projections} {owner : String}
  {now : Nat}

namespace Complete

omit [EventSerde] in
/-- A step that touches only the task, and commits nothing. -/
theorem local_ (h : s.Complete) {t' : RunTask} (hrun : s.run = some t) (ho : t'.Ordered)
    (hi : t'.items = t.items) (hp : t'.published = t.published) :
    ({ s with run := some t' } : Execution).Complete := by
  have hitems : ({ s with run := some t' } : Execution).items = s.items := by
    simp [items, hrun, hi]
  have hpub : ({ s with run := some t' } : Execution).published = s.published := by
    simp [published, hrun, hp]
  refine ⟨h.sound, ?_, ?_, h.archive, ?_, ?_⟩
  · rw [hitems]
    exact h.distinct
  · rw [hpub]
    exact h.window
  · rw [hpub]
    intro id hid _
    exact h.listed id hid (by rw [hrun]; rfl)
  · intro t'' ht
    cases ht
    exact ho

theorem begin (h : s.Complete) {snapshot : RunSnapshot} {identity : Nat} (idle : s.run = none)
    (empty : snapshot.items = [])
    (ha : Accepts s.projections owner (.begin snapshot identity) now p) :
    ({ s with projections := p, run := some { snapshot } } : Execution).Complete := by
  obtain ⟨hsound, ⟨e, hpub, happ⟩, harch⟩ := ha.applied h.sound
  obtain ⟨hhist, hact⟩ := happ.runChanged hpub
  have hwin := h.window
  simp only [published, idle, Option.map_none, Option.getD_none] at hwin
  refine ⟨hsound, ?_, hhist.trans hwin, (congrArg _ harch).trans h.archive, ?_, ?_⟩
  · have := h.distinct
    simp only [items, idle, Option.map_none, Option.getD_none] at this
    exact this
  · intro id hid
    simp only [SessionSnapshot.listed, hact, Option.map_some, Option.getD_some, SessionRunView.new,
      empty] at hid
    cases hid
  · intro t ht
    cases ht
    exact ⟨Nat.le_refl _, by simp, by simp [RunTask.completing], by simp⟩

omit [EventSerde] in
theorem append (h : s.Complete) {item : CanonicalItem} (hrun : s.run = some t)
    (open_ : t.terminal = none) (hnew : item.id ∉ ids (s.history ++ s.items)) :
    ({ s with run := some { t with items := t.items ++ [item] } } : Execution).Complete := by
  have ho := h.task t hrun
  have hpub : ({ s with run := some { t with items := t.items ++ [item] } } : Execution).published =
      s.published := by
    simp only [published, hrun, Option.map_some, Option.getD_some]
    exact RunTask.published_append ho item
  have hitems : s.items = t.items := by simp [items, hrun]
  refine ⟨h.sound, ?_, ?_, h.archive, ?_, ?_⟩
  · show (ids (s.history ++ (t.items ++ [item]))).Nodup
    rw [hitems] at hnew
    have hd := h.distinct
    rw [hitems] at hd
    rw [← List.append_assoc, ids_append]
    refine List.nodup_append.mpr ⟨hd, by simp [ids], ?_⟩
    intro a ha b hb heq
    have hb' : b = item.id := by simpa [ids] using hb
    rw [heq, hb'] at ha
    exact hnew ha
  · rw [hpub]
    exact h.window
  · rw [hpub]
    intro id hid _
    exact h.listed id hid (by rw [hrun]; rfl)
  · intro t' ht
    cases ht
    have hle := ho.taken
    refine ⟨by simp only [List.length_append]; omega, ho.flight, fun i hi => ?_, fun e he => ?_⟩
    · obtain ⟨hpos, hget⟩ := ho.completing i hi
      refine ⟨hpos, ?_⟩
      show (t.items ++ [item])[t.taken - 1]? = some i
      rw [List.getElem?_append_left (by omega)]
      exact hget
    · rw [open_] at he
      cases he

/-- A committed copy of the run. -/
theorem changed (h : s.Complete) {copy : RunSnapshot} {t' : RunTask} (hrun : s.run = some t)
    (hcopy : ∀ id ∈ ids copy.items, id ∈ ids s.published)
    (ha : Accepts s.projections owner (.changed copy) now p) (ho : t'.Ordered)
    (hi : t'.items = t.items) (hp : t'.published = t.published) :
    ({ s with projections := p, run := some t' } : Execution).Complete := by
  obtain ⟨hsound, ⟨e, ⟨active, -, hpub⟩, happ⟩, harch⟩ := ha.applied h.sound
  obtain ⟨hhist, hact⟩ := happ.runChanged hpub
  have hitems : s.items = t'.items := by simp [items, hrun, hi]
  have hpublished : s.published = t'.published := by simp [published, hrun, hp]
  refine ⟨hsound, ?_, ?_, (congrArg _ harch).trans h.archive, ?_, ?_⟩
  · show (ids (s.history ++ t'.items)).Nodup
    rw [← hitems]
    exact h.distinct
  · show p.views.snapshot.history = tail (s.history ++ t'.published) _
    rw [← hpublished, hhist]
    exact h.window
  · intro id hid _
    show id ∈ ids t'.published
    rw [← hpublished]
    apply hcopy
    simpa [SessionSnapshot.listed, hact, SessionViewRecord.changedRun] using hid
  · intro t'' ht
    cases ht
    exact ho

omit [EventSerde] in
/-- The ids of the history and of the run, taken apart at what is committed. -/
theorem split (h : s.Complete) (hrun : s.run = some t) :
    ∃ rest, t.items = t.published ++ rest ∧
      (∀ item ∈ rest, item.id ∉ ids (s.history ++ t.published)) ∧ (ids rest).Nodup := by
  obtain ⟨rest, hrest⟩ := t.published_sub
  have hd := h.distinct
  rw [show s.items = t.items by simp [items, hrun], hrest, ← List.append_assoc, ids_append] at hd
  obtain ⟨-, hnodup, hdisj⟩ := List.nodup_append.mp hd
  exact ⟨rest, hrest, fun item hi hin => hdisj _ hin _ (List.mem_map_of_mem hi) rfl, hnodup⟩

omit [EventSerde] in
/-- The active run lists what is committed. -/
theorem listed_run (h : s.Complete) (hrun : s.run = some t) {run : SessionRunView}
    (hact : s.projections.views.snapshot.activeRun = some run) :
    ∀ id ∈ ids run.snapshot.items, id ∈ ids t.published := by
  intro id hid
  have := h.listed id (by simpa [SessionSnapshot.listed, hact] using hid) (by rw [hrun]; rfl)
  simpa [published, hrun] using this

omit [EventSerde] in
/-- The item in flight is new to the window and to the active run, and is appended. -/
theorem window_item (h : s.Complete) {event : RunEvent} {turnId : String} {item : CanonicalItem}
    {e : SessionEventEnvelope} {s' : SessionSnapshot} (hrun : s.run = some t)
    (flight : t.inFlight = some event) (hitem : event.payload = .stream (.itemCompleted turnId item))
    (hpub : e.payload = .runEvent event) (happ : s.projections.views.snapshot.Applied e s') :
    s'.history = tail (s.history ++ t.items.take t.taken) maxSessionHistoryLimit := by
  obtain ⟨run, run', hact, -, -, -, -⟩ := happ.stream hpub hitem
  have hcommit := RunTask.published_commit (h.task t hrun)
    (RunTask.completing_of_inFlight flight hitem)
  obtain ⟨rest, hrest, hnew, -⟩ := h.split hrun
  have hin : item ∈ rest := by
    have hmem : item ∈ (t.items.take t.taken).drop t.published.length := by
      rw [hcommit, List.drop_left]
      exact List.mem_singleton_self _
    have hsub := ((List.take_sublist t.taken t.items).drop t.published.length).subset hmem
    rwa [hrest, List.drop_left] at hsub
  have hnotin := hnew item hin
  have hunlisted : ¬ (s.projections.views.snapshot.listed.any (·.id == item.id)) = true := by
    rw [any_id_iff]
    intro hid
    apply hnotin
    rw [ids_append, List.mem_append]
    exact .inr (h.listed_run hrun hact _ (by simpa [SessionSnapshot.listed, hact] using hid))
  have hwin : s.projections.views.snapshot.history =
      tail (s.history ++ t.published) maxSessionHistoryLimit := by
    rw [h.window]
    simp [published, hrun]
  obtain ⟨threadId, turn, seq, payload⟩ := event
  simp only at hitem
  subst hitem
  have hfresh : s.projections.views.snapshot.Fresh (s.history ++ t.published) e.payload := by
    rw [hpub]
    exact fun hid => absurd hid hnotin
  have hnews : s.projections.views.snapshot.news e.payload = [item] := by
    rw [hpub]
    simp only [SessionSnapshot.news, SessionSnapshot.unlisted]
    rw [List.filter_cons_of_pos (by simp [hunlisted]), List.filter_nil]
  rw [hcommit, ← List.append_assoc, ← hnews]
  exact (happ.tail hwin hfresh).1

omit [EventSerde] in
/-- The window and the list of the active run after a committed stream event. -/
theorem window_stream (h : s.Complete) {event : RunEvent} {stream : AgentStreamEvent}
    {e : SessionEventEnvelope} {s' : SessionSnapshot} (hrun : s.run = some t)
    (flight : t.inFlight = some event) (hstream : event.payload = .stream stream)
    (hpub : e.payload = .runEvent event) (happ : s.projections.views.snapshot.Applied e s') :
    s'.history = tail (s.history ++ t.items.take t.taken) maxSessionHistoryLimit ∧
      ∀ id ∈ ids s'.listed, id ∈ ids (t.items.take t.taken) := by
  obtain ⟨run, run', hact, hact', hitems, -, hhist⟩ := happ.stream hpub hstream
  have hlisted := h.listed_run hrun hact
  have hcomp := RunTask.completing_of_inFlight flight hstream
  have hlist : s'.listed = SessionSnapshot.itemsAfter run.snapshot.items stream := by
    simp [SessionSnapshot.listed, hact', hitems]
  rw [hlist]
  by_cases hitem : ∃ turnId item, stream = .itemCompleted turnId item
  · obtain ⟨turnId, item, rfl⟩ := hitem
    refine ⟨h.window_item hrun flight hstream hpub happ, fun id hid => ?_⟩
    rw [RunTask.published_commit (h.task t hrun) hcomp, ids_append, List.mem_append]
    rcases mem_ids_appendCanonicalOnce.mp hid with hid | rfl
    · exact .inl (hlisted id hid)
    · exact .inr (by simp [ids])
  · have hne : ∀ turnId item, stream ≠ .itemCompleted turnId item :=
      fun turnId item heq => hitem ⟨turnId, item, heq⟩
    have hnone : t.completing = none ∧
        SessionSnapshot.itemsAfter run.snapshot.items stream = run.snapshot.items := by
      cases stream with
      | itemCompleted turnId item => exact absurd rfl (hne turnId item)
      | _ => exact ⟨hcomp, rfl⟩
    have hsame : t.published = t.items.take t.taken := by
      unfold RunTask.published
      rw [hnone.1]
      rfl
    rw [hnone.2, ← hsame, hhist hne, h.window]
    exact ⟨by simp [published, hrun], hlisted⟩

/-- The event of `publish_stream` is committed. -/
theorem commitStream (h : s.Complete) {event : RunEvent} (hrun : s.run = some t)
    (flight : t.inFlight = some event) (ha : Accepts s.projections owner (.event event) now p) :
    ({ s with projections := p, run := some { t with inFlight := none } } : Execution).Complete := by
  obtain ⟨hsound, ⟨e, hpub, happ⟩, harch⟩ := ha.applied h.sound
  have ho := h.task t hrun
  obtain ⟨stream, hstream⟩ := ho.flight event flight
  obtain ⟨hhist, hlisted⟩ := h.window_stream hrun flight hstream hpub happ
  have hidle : ({ t with inFlight := none } : RunTask).published = t.items.take t.taken :=
    RunTask.published_of_idle rfl
  have harch' : p.management.history = s.projections.management.history := by
    obtain ⟨threadId, turnId, seq, payload⟩ := event
    simp only at hstream
    subst hstream
    exact harch
  refine ⟨hsound, ?_, ?_, (congrArg _ harch').trans h.archive, ?_, ?_⟩
  · have hd := h.distinct
    simp only [items, hrun, Option.map_some, Option.getD_some] at hd
    exact hd
  · show p.views.snapshot.history = tail (s.history ++ RunTask.published _) _
    rw [hidle]
    exact hhist
  · intro id hid _
    show id ∈ ids (RunTask.published _)
    rw [hidle]
    exact hlisted id hid
  · intro t' ht
    cases ht
    exact ⟨ho.taken, by simp, by simp [RunTask.completing], fun e he => ⟨rfl, (ho.terminal e he).2⟩⟩

/-- The terminal event is committed. -/
theorem commitFinish (h : s.Complete) {event : RunEvent} (hrun : s.run = some t)
    (last : t.terminal = some event)
    (hold : ∀ item ∈ s.published, item.id ∈ ids s.projections.views.snapshot.listed ∨
      s.projections.views.snapshot.history.holds item.id = true)
    (ha : Accepts s.projections owner (.event event) now p) :
    ({ projections := p, history := s.history ++ t.items, run := none } : Execution).Complete := by
  obtain ⟨hsound, ⟨e, hpub, happ⟩, harch⟩ := ha.applied h.sound
  obtain ⟨-, snapshot, hfin, hitems⟩ := (h.task t hrun).terminal event last
  obtain ⟨active, hact, hnone, -, happend⟩ := happ.finished hpub hfin
  obtain ⟨rest, hrest, hnew, hnodup⟩ := h.split hrun
  have hspub : s.published = t.published := by simp [published, hrun]
  have hlisted := h.listed_run hrun hact
  have hactive : s.projections.views.snapshot.listed = active.snapshot.items := by
    simp [SessionSnapshot.listed, hact]
  rw [hspub, hactive] at hold
  rw [h.window, hspub] at happend hold
  rw [hitems, hrest] at happend
  have hwin := SessionSnapshot.appendItems_resume hold (fun item hi => ⟨hnew item hi, fun hk => by
    apply hnew item hi
    rw [ids_append, List.mem_append]
    exact .inr (hlisted _ hk)⟩) hnodup happend
  have harch' : s.projections.management.history.append t.items = .ok p.management.history := by
    obtain ⟨threadId, turnId, seq, payload⟩ := event
    simp only at hfin
    subst hfin
    rw [← hitems]
    exact harch
  refine ⟨hsound, ?_, ?_, ?_, ?_, ?_⟩
  · have hd := h.distinct
    simp only [items, hrun, Option.map_some, Option.getD_some] at hd
    simpa [items] using hd
  · show p.views.snapshot.history = tail ((s.history ++ t.items) ++ []) _
    rw [List.append_nil, hwin, hrest, List.append_assoc]
  · show p.management.history.endIndex = (s.history ++ t.items).length
    rw [HistoryArchive.append_endIndex harch', h.archive, List.length_append]
  · intro id _ hrun'
    cases hrun'
  · intro t' ht
    cases ht

/-- Every orderly step keeps the windows complete. -/
theorem step (h : s.Complete) {l : Label} {s' : Execution} (hstep : Step owner s l s')
    (ho : s.Orderly l) : s'.Complete := by
  cases hstep with
  | begin snapshot identity now idle empty accepted => exact h.begin idle empty accepted
  | append item run open_ => exact h.append run open_ ho
  | take event toolExecutions run free one open_ next =>
    obtain ⟨hord, hpub⟩ := (h.task _ run).take one open_ next
    exact h.local_ run hord rfl hpub
  | commitStream event now run flight accepted => exact h.commitStream run flight accepted
  | cancel usage toolExecutions run free =>
    have hord := h.task _ run
    exact h.local_ run ⟨hord.taken, hord.flight, hord.completing, hord.terminal⟩ rfl rfl
  | commitCancel copy now run held accepted =>
    have hord := h.task _ run
    exact h.changed run ho accepted ⟨hord.taken, hord.flight, hord.completing, hord.terminal⟩ rfl rfl
  | respond requestId run free =>
    have hord := h.task _ run
    exact h.local_ run ⟨hord.taken, hord.flight, hord.completing, hord.terminal⟩ rfl rfl
  | commitResponse copy now run waiting accepted =>
    have hord := h.task _ run
    exact h.changed run ho accepted ⟨hord.taken, hord.flight, hord.completing, hord.terminal⟩ rfl rfl
  | finish o journal run free one open_ durable =>
    have hord := h.task _ run
    refine h.local_ run ⟨hord.taken, hord.flight, hord.completing, fun e he => ?_⟩ rfl rfl
    cases he
    exact ⟨one, _, rfl, RunSnapshot.finalized_items durable⟩
  | commitFinish event now run last accepted => exact h.commitFinish run last ho accepted

end Complete

/-- A session that was just inserted. -/
theorem complete_of_insert {threadId : String} {agentName : Option String}
    {metadata : JsonMap} {history : List CanonicalItem} {createdAtMs : Nat}
    {limits : EventJournalLimits} {persistence : SessionPersistence} {maxHistoryBytes : Option Nat}
    {streamId streamIdV2 : String} {views : SessionViewRecord} {management : ManagementRecord}
    (hv : SessionViewRecord.insert owner threadId agentName metadata history createdAtMs streamId
      limits = .ok views)
    (hm : ManagementRecord.insert owner threadId agentName metadata history createdAtMs persistence
      maxHistoryBytes streamIdV2 = .ok management) :
    Complete ⟨⟨views, management⟩, history, none⟩ := by
  have hsound := Projections.sound_of_insert hv hm
  obtain ⟨w, hw, hv⟩ := bind_ok hv
  obtain ⟨_, -, hv⟩ := bind_ok hv
  obtain ⟨w', -, hm⟩ := bind_ok hm
  obtain ⟨_, -, hm⟩ := bind_ok hm
  obtain ⟨archive, harch, hm⟩ := bind_ok hm
  have hdistinct : (ids history).Nodup := by
    obtain ⟨_, -, hw⟩ := bind_ok hw
    obtain ⟨_, hd, -⟩ := bind_ok hw
    exact (distinct_ok_iff.mp hd).2.1
  have hwin := fromHistory_ok hw
  cases hv
  cases hm
  refine ⟨hsound, ?_, ?_, ?_, fun id _ hrun => ?_, fun t ht => ?_⟩
  · show (ids (history ++ [])).Nodup
    rwa [List.append_nil]
  · show w = tail (history ++ []) _
    rw [List.append_nil, hwin]
  · show archive.endIndex = history.length
    rw [HistoryArchive.append_endIndex (mapError_ok_iff.mp harch)]
    exact Nat.zero_add _
  · cases hrun
  · cases ht

/-- **The projected history is complete.** In every interleaving of orderly steps from a session that was
inserted, whenever no run is active, the windows of both versions are the last items of the canonical
history, they count all of them, and so does the archive. -/
theorem projected_history_complete (owner threadId : String) (agentName : Option String)
    (metadata : JsonMap) (history : List CanonicalItem) (createdAtMs : Nat)
    (limits : EventJournalLimits) (persistence : SessionPersistence) (maxHistoryBytes : Option Nat)
    (streamId streamIdV2 : String) (views : SessionViewRecord) (management : ManagementRecord)
    (hv : SessionViewRecord.insert owner threadId agentName metadata history createdAtMs streamId
      limits = .ok views)
    (hm : ManagementRecord.insert owner threadId agentName metadata history createdAtMs persistence
      maxHistoryBytes streamIdV2 = .ok management)
    (labels : List Label) (s : Execution)
    (hrun : Lts.Run (fun s l s' => Step owner s l s' ∧ s.Orderly l)
      ⟨⟨views, management⟩, history, none⟩ labels s) (idle : s.run = none) :
    (s.projections.views.snapshot.history.items =
        s.history.drop (s.history.length - min maxSessionHistoryLimit s.history.length) ∧
      s.projections.views.snapshot.history.totalItems = s.history.length) ∧
    (s.projections.management.projection.snapshot.history.items =
        s.history.drop (s.history.length - min maxSessionHistoryLimit s.history.length) ∧
      s.projections.management.projection.snapshot.history.totalItems = s.history.length) ∧
    s.projections.management.history.endIndex = s.history.length := by
  have hc : s.Complete := hrun.invariant Complete (fun s l s' h hs => h.step hs.1 hs.2)
    (complete_of_insert hv hm)
  have hwin := hc.window
  simp only [published, idle, Option.map_none, Option.getD_none, List.append_nil] at hwin
  have hview : s.projections.management.projection.snapshot.history =
      s.projections.views.snapshot.history := (congrArg SessionView.history hc.sound.view).symm
  rw [hview, hwin]
  simp only [tail, rtake_eq_drop, and_self, true_and]
  exact hc.archive

end

end Execution

/-! ## A cancel between an item and its event -/

namespace Sample

open Execution

/-- The projections after a mutation. -/
def published (p : Projections) (m : RunPublicationMutation) : Projections :=
  (outcome (@Lane.publishRun host serde "o" m 7) p).2

/-- Whether the lane accepts a mutation. -/
def accepted (p : Projections) (m : RunPublicationMutation) : Bool :=
  (outcome (@Lane.publishRun host serde "o" m 7) p).1.isOk

theorem accepts_of_accepted {p : Projections} {m : RunPublicationMutation} (h : accepted p m = true) :
    @Execution.Accepts host serde p "o" m 7 (published p m) := by
  unfold accepted at h
  rcases hr : outcome (@Lane.publishRun host serde "o" m 7) p with ⟨r, p'⟩
  rw [hr] at h
  cases r with
  | error e => cases h
  | ok r => exact ⟨r, by unfold published; rw [hr]⟩

def idle : Execution := ⟨⟨viewRecord, managementRecord⟩, [], none⟩

def opened : Projections := published idle.projections (.begin (started "r") 1)

/-- The run with an item that is not committed. -/
def pushed : RunSnapshot := { started "r" with items := [note "a"], lastSeq := 1 }

def pushedEvent : RunEvent := ⟨"t", "r", 1, .stream (.itemCompleted "r" (note "a"))⟩

/-- The copy of a cancel. -/
def cancelCopy : RunSnapshot := { pushed with status := .cancelling }

def cancelOutcome : RunSnapshot.Outcome := ⟨{}, [], true, .ok {}⟩

/-- The terminal event of the cancelled run. -/
def cancelledEvent : RunEvent := (cancelCopy.candidate cancelOutcome [note "a"]).terminalEvent

/-- The run before its terminal event is committed. -/
def ending (p : Projections) : Execution where
  projections := p
  history := []
  run := some {
    snapshot := cancelCopy.candidate cancelOutcome [note "a"]
    items := [note "a"]
    taken := 1
    terminal := some cancelledEvent }

/-- The cancel is committed before the event of the item. -/
def overtaken : Projections :=
  published (published opened (.changed cancelCopy)) (.event pushedEvent)

/-- The event of the item is committed first. -/
def inOrder : Projections :=
  published (published opened (.event pushedEvent)) (.changed cancelCopy)

end Sample

/-- The item is in the history of the run and in the archive, and in no window. -/
theorem cancel_hides_item :
    ∃ (labels : List Execution.Label) (s : Execution),
      Lts.Run (@Execution.Step Sample.host Sample.serde "o") Sample.idle labels s ∧
      s.run = none ∧ s.history = [Sample.note "a"] ∧
      s.projections.views.snapshot.history.totalItems = 0 ∧
      s.projections.views.snapshot.history.items = [] ∧
      s.projections.management.projection.snapshot.history.totalItems = 0 ∧
      s.projections.management.history.endIndex = 1 := by
  refine ⟨[.local, .append (Sample.note "a"), .local, .local, .changed Sample.cancelCopy,
    .streamed Sample.pushedEvent, .local, .finished Sample.cancelledEvent],
    ⟨Sample.published Sample.overtaken (.event Sample.cancelledEvent), [Sample.note "a"], none⟩, ?_,
    rfl, rfl, by decide +kernel, by decide +kernel, by decide +kernel, by decide +kernel⟩
  refine .cons (@Execution.Step.begin Sample.host Sample.serde "o" Sample.idle Sample.opened
    (Sample.started "r") 1 7 rfl rfl (Sample.accepts_of_accepted (by decide +kernel))) ?_
  refine .cons (@Execution.Step.append Sample.host Sample.serde "o" _ _ (Sample.note "a") rfl rfl) ?_
  refine .cons (@Execution.Step.take Sample.host Sample.serde "o" _ _
    (.itemCompleted "r" (Sample.note "a")) [] rfl rfl rfl rfl rfl) ?_
  refine .cons (@Execution.Step.cancel Sample.host Sample.serde "o" _ _ {} [] rfl rfl) ?_
  refine .cons (@Execution.Step.commitCancel Sample.host Sample.serde "o" _ _ _ Sample.cancelCopy 7
    rfl rfl (Sample.accepts_of_accepted (by decide +kernel))) ?_
  refine .cons (@Execution.Step.commitStream Sample.host Sample.serde "o" _ _ _ Sample.pushedEvent 7
    rfl rfl (Sample.accepts_of_accepted (by decide +kernel))) ?_
  refine .cons (@Execution.Step.finish Sample.host Sample.serde "o" _ _ Sample.cancelOutcome none
    rfl rfl rfl rfl (by simp)) ?_
  exact .single (@Execution.Step.commitFinish Sample.host Sample.serde "o"
    (Sample.ending Sample.overtaken) _ _ Sample.cancelledEvent 7 rfl rfl
    (Sample.accepts_of_accepted (by decide +kernel)))

/-- The same run, with the event of the item committed before the cancel. -/
theorem projected_history_complete_in_order :
    ∃ (labels : List Execution.Label) (s : Execution),
      Lts.Run (fun s l s' => @Execution.Step Sample.host Sample.serde "o" s l s' ∧ s.Orderly l)
        Sample.idle labels s ∧
      s.history = [Sample.note "a"] ∧ s.projections.views.snapshot.history.totalItems = 1 := by
  have hrun : Lts.Run (fun s l s' => @Execution.Step Sample.host Sample.serde "o" s l s' ∧
      s.Orderly l) Sample.idle [.local, .append (Sample.note "a"), .local, .streamed Sample.pushedEvent,
        .local, .changed Sample.cancelCopy, .local, .finished Sample.cancelledEvent]
      ⟨Sample.published Sample.inOrder (.event Sample.cancelledEvent), [Sample.note "a"], none⟩ := by
    refine .cons ⟨@Execution.Step.begin Sample.host Sample.serde "o" Sample.idle Sample.opened
      (Sample.started "r") 1 7 rfl rfl (Sample.accepts_of_accepted (by decide +kernel)), trivial⟩ ?_
    refine .cons ⟨@Execution.Step.append Sample.host Sample.serde "o" _ _ (Sample.note "a") rfl rfl,
      List.not_mem_nil⟩ ?_
    refine .cons ⟨@Execution.Step.take Sample.host Sample.serde "o" _ _
      (.itemCompleted "r" (Sample.note "a")) [] rfl rfl rfl rfl rfl, trivial⟩ ?_
    refine .cons ⟨@Execution.Step.commitStream Sample.host Sample.serde "o" _ _ _
      Sample.pushedEvent 7 rfl rfl (Sample.accepts_of_accepted (by decide +kernel)), trivial⟩ ?_
    refine .cons ⟨@Execution.Step.cancel Sample.host Sample.serde "o" _ _ {} [] rfl rfl,
      trivial⟩ ?_
    refine .cons ⟨@Execution.Step.commitCancel Sample.host Sample.serde "o" _ _ _
      Sample.cancelCopy 7 rfl rfl (Sample.accepts_of_accepted (by decide +kernel)),
      fun id hid => hid⟩ ?_
    refine .cons ⟨@Execution.Step.finish Sample.host Sample.serde "o" _ _ Sample.cancelOutcome none
      rfl rfl rfl rfl (by simp), trivial⟩ ?_
    refine .single ⟨@Execution.Step.commitFinish Sample.host Sample.serde "o"
      (Sample.ending Sample.inOrder) _ _ Sample.cancelledEvent 7 rfl rfl
      (Sample.accepts_of_accepted (by decide +kernel)), ?_⟩
    intro item hi
    left
    exact List.mem_map_of_mem hi
  have h := @Execution.projected_history_complete Sample.host Sample.serde "o" "t" none [] [] 0
    defaultJournalLimits .ephemeral none "s" "s" Sample.viewRecord Sample.managementRecord
    rfl rfl _ _ hrun rfl
  exact ⟨_, _, hrun, rfl, h.1.2⟩

end Whale
