import Whale.Lib.Assoc
import Whale.Core.Proof.InStep

/-!
# Streamed text is kept, or the provider completed something else

The fallback of `run_inner` makes messages of the streamed texts when the step completed no item at all.
`Seen` ties the step to the events so far; at its end the history has every streamed message exactly when
the provider completed no item, or completed each of those messages (`streamed_text_kept_iff`).
-/

namespace Whale

open Check

/-! ## Streams -/

/-- The items that a stream completes. -/
def completedItems (events : List ModelEvent) : List CanonicalItem :=
  events.filterMap fun event => match event with
    | .itemCompleted item => some item
    | _ => none

/-- The text that an event adds to an item. -/
def textDelta (id : String) : ModelEvent → String
  | .textDelta itemId delta => if itemId = id then delta else ""
  | _ => ""

/-- The text that the deltas of an item add up to. -/
def streamedText (id : String) (events : List ModelEvent) : String :=
  events.foldl (fun text event => text ++ textDelta id event) ""

/-- Every message that text was streamed for is in the history: as the provider completed it, or
assembled from its deltas. -/
def TextKept (events : List ModelEvent) (history : List CanonicalItem) : Prop :=
  ∀ id, streamedText id events ≠ "" → ∃ content phase,
    .assistantMessage id content phase ∈ history ∧
    (.assistantMessage id content phase ∈ completedItems events ∨
      content = [.text (streamedText id events)])

/-- The provider completed no item, or every message that it streamed text for. -/
def TextCompleted (events : List ModelEvent) : Prop :=
  completedItems events = [] ∨ ∀ id, streamedText id events ≠ "" →
    ∃ content phase, .assistantMessage id content phase ∈ completedItems events

theorem completedItems_append (events events' : List ModelEvent) :
    completedItems (events ++ events') = completedItems events ++ completedItems events' :=
  List.filterMap_append

theorem streamedText_snoc (id : String) (events : List ModelEvent) (event : ModelEvent) :
    streamedText id (events ++ [event]) = streamedText id events ++ textDelta id event := by
  rw [streamedText, List.foldl_append]
  rfl

/-! ## The texts of a step -/

/-- The text accumulated for an item. -/
def StepRun.textOf (run : StepRun) (id : String) : String := ((run.texts.lookup id).map (·.1)).getD ""

theorem StepRun.textOf_insertText (run : StepRun) (id text : String) (phase : MessagePhase)
    (other : String) : (run.insertText id text phase).textOf other =
      if other = id then text else run.textOf other := by
  unfold textOf insertText
  rw [Assoc.lookup_insert run.texts id other (text, phase)]
  split <;> rfl

/-- A delta adds to the text of its item; a start adds nothing when the item has no text yet. -/
theorem StepRun.textOf_track {run : StepRun} {event : ModelEvent}
    (hnew : ∀ id itemType phase, event = .itemStarted id itemType phase → run.texts.lookup id = none)
    (other : String) : (run.track event).textOf other = run.textOf other ++ textDelta other event := by
  cases event with
  | itemStarted id itemType phase =>
    have hnone := hnew id itemType phase rfl
    rw [show textDelta other (.itemStarted id itemType phase) = "" from rfl, String.append_empty,
      StepRun.track]
    split
    · rw [textOf_insertText]
      split
      · rename_i he
        rw [he, textOf, hnone]
        rfl
      · rfl
    · rfl
  | textDelta id delta =>
    have hdelta : textDelta other (.textDelta id delta) = if other = id then delta else "" := by
      simp only [Whale.textDelta, eq_comm]
    have hinsert : ∀ text phase, text = run.textOf id ++ delta →
        (run.insertText id text phase).textOf other =
          run.textOf other ++ textDelta other (.textDelta id delta) := by
      rintro text phase rfl
      rw [textOf_insertText, hdelta]
      split
      · rename_i he
        rw [he]
      · rw [String.append_empty]
    simp only [StepRun.track]
    cases hlookup : run.texts.lookup id with
    | none => exact hinsert _ _ (by rw [textOf, hlookup]; simp)
    | some entry => exact hinsert _ _ (by rw [textOf, hlookup]; rfl)
  | _ => exact (String.append_empty).symm

/-- The items with a text after an event that starts or extends one. -/
theorem StepRun.mem_track {run : StepRun} {event : ModelEvent} {id k : String}
    (hid : ModelStepState.deltaId event = some id) (hk : k ∈ (run.track event).texts.map (·.1)) :
    k = id ∨ k ∈ run.texts.map (·.1) := by
  have hinsert : ∀ text phase, k ∈ (run.insertText id text phase).texts.map (·.1) →
      k = id ∨ k ∈ run.texts.map (·.1) := by
    intro text phase h
    rcases List.mem_cons.1 h with h | h
    · exact .inl h
    · exact .inr ((List.filter_sublist.map _).subset h)
  cases event with
  | itemStarted itemId itemType phase =>
    cases hid
    simp only [StepRun.track] at hk
    split at hk
    · exact hinsert _ _ hk
    · exact .inr hk
  | textDelta itemId delta =>
    cases hid
    simp only [StepRun.track] at hk
    split at hk <;> exact hinsert _ _ hk
  | itemCompleted item => cases hid
  | stepFinished usage => cases hid
  | _ => exact .inr hk

namespace ModelStepState

/-- What is pending after an event that starts or extends an item. -/
theorem observe_pending {s s' : ModelStepState} {event : ModelEvent} (h : s.observe event = .ok s')
    {id : String} (hid : deltaId event = some id) :
    (s'.pending.lookup id).isSome ∧
    (∀ k, (s.pending.lookup k).isSome → (s'.pending.lookup k).isSome) ∧
    ∀ itemId itemType phase, event = .itemStarted itemId itemType phase →
      s.pending.lookup itemId = none := by
  have hcons : ∀ kind k, (s.pending.lookup k).isSome →
      (((id, kind) :: s.pending).lookup k).isSome := by
    intro kind k hk
    rw [List.lookup_cons]
    split
    · rfl
    · exact hk
  have hdelta : ∀ kind, s.observeDelta id kind = .ok s' →
      (∀ itemId itemType phase, event ≠ .itemStarted itemId itemType phase) →
      (s'.pending.lookup id).isSome ∧ (∀ k, (s.pending.lookup k).isSome → (s'.pending.lookup k).isSome) ∧
      ∀ itemId itemType phase, event = .itemStarted itemId itemType phase →
        s.pending.lookup itemId = none := by
    intro kind h hne
    obtain ⟨-, h⟩ := refuse_bind_ok h
    split at h
    · rename_i previous hlookup
      obtain ⟨-, h⟩ := refuse_bind_ok h
      cases h
      exact ⟨by rw [hlookup]; rfl, fun k hk => hk, fun a b c he => absurd he (hne a b c)⟩
    · cases h
      exact ⟨by simp, hcons kind, fun a b c he => absurd he (hne a b c)⟩
  obtain ⟨-, h⟩ := refuse_bind_ok h
  cases event with
  | itemStarted itemId itemType phase =>
    cases hid
    obtain ⟨-, h⟩ := refuse_bind_ok h
    obtain ⟨hnew, h⟩ := refuse_bind_ok h
    cases h
    refine ⟨by simp, hcons itemType, ?_⟩
    rintro _ _ _ ⟨⟩
    simpa using (Bool.or_eq_false_iff.1 hnew).2
  | textDelta itemId delta => cases hid; exact hdelta _ h nofun
  | reasoningDelta itemId delta => cases hid; exact hdelta _ h nofun
  | reasoningSignature itemId signature => cases hid; exact hdelta _ h nofun
  | toolCallDelta itemId callId delta => cases hid; exact hdelta _ h nofun
  | itemCompleted item => cases hid
  | stepFinished usage => cases hid

end ModelStepState

/-! ## The step so far -/

/-- The stream under way, from a history `h₀`, after some events. -/
structure Seen (h₀ : List CanonicalItem) (events : List ModelEvent) (run : StepRun)
    (history : List CanonicalItem) : Prop where
  completed : run.completed = completedItems events
  history : history = h₀ ++ run.completed
  nodup : (run.texts.map (·.1)).Nodup
  texts : ∀ id, run.textOf id = streamedText id events
  begun : ∀ id ∈ run.texts.map (·.1),
    id ∈ run.state.itemIds ∨ (run.state.pending.lookup id).isSome
  known : ∀ item ∈ h₀, item.id ∈ run.state.itemIds
  fresh : ∀ id, streamedText id events ≠ "" → ∀ item ∈ h₀, item.id ≠ id

namespace Seen

variable {h₀ history : List CanonicalItem} {events : List ModelEvent} {run : StepRun}

theorem start (h₀ : List CanonicalItem) (stepId : String) :
    Seen h₀ [] { stepId, state := .new h₀ } h₀ where
  completed := rfl
  history := (List.append_nil _).symm
  nodup := .nil
  texts := fun _ => rfl
  begun := fun _ h => (nomatch h)
  known := fun _ h => List.mem_map_of_mem h
  fresh := fun _ h => absurd rfl h

theorem item (h : Seen h₀ events run history) {item : CanonicalItem} {state : ModelStepState}
    (hobs : run.state.observe (.itemCompleted item) = .ok state) :
    Seen h₀ (events ++ [.itemCompleted item])
      { run with state, completed := run.completed ++ [item] } (history ++ [item]) := by
  have hitem := ModelStepState.observe_item hobs
  have htext : ∀ id, streamedText id (events ++ [.itemCompleted item]) = streamedText id events :=
    fun id => (streamedText_snoc id events _).trans String.append_empty
  refine ⟨?_, ?_, h.nodup, fun id => (h.texts id).trans (htext id).symm, fun id hid => ?_,
    fun i hi => ?_, fun id hid => h.fresh id (htext id ▸ hid)⟩
  · rw [completedItems_append, ← h.completed]
    rfl
  · rw [h.history, List.append_assoc]
  · dsimp only
    rw [hitem.itemIds, hitem.pending, ModelStepState.removePending, Assoc.lookup_filter]
    by_cases he : id = item.id
    · exact .inl (he ▸ List.mem_cons_self)
    · rw [if_neg he]
      exact (h.begun id hid).imp (List.mem_cons_of_mem _) (fun h => h)
  · dsimp only
    rw [hitem.itemIds]
    exact List.mem_cons_of_mem _ (h.known i hi)

theorem finished (h : Seen h₀ events run history) {usage : UsageMetrics} {state : ModelStepState}
    (hobs : run.state.observe (.stepFinished usage) = .ok state) :
    Seen h₀ (events ++ [.stepFinished usage]) { run with state, usage } history := by
  obtain ⟨-, rfl⟩ := ModelStepState.observe_finished hobs
  have htext : ∀ id, streamedText id (events ++ [.stepFinished usage]) = streamedText id events :=
    fun id => (streamedText_snoc id events _).trans String.append_empty
  refine ⟨?_, h.history, h.nodup, fun id => (h.texts id).trans (htext id).symm, h.begun, h.known,
    fun id hid => h.fresh id (htext id ▸ hid)⟩
  rw [completedItems_append, ← h.completed]
  exact (List.append_nil _).symm

theorem delta (h : Seen h₀ events run history) {event : ModelEvent} {state : ModelStepState}
    (hobs : run.state.observe event = .ok state) {id : String}
    (hid : ModelStepState.deltaId event = some id) :
    Seen h₀ (events ++ [event]) { run.track event with state } history := by
  obtain ⟨-, hstate, hopen⟩ := ModelStepState.observe_delta hobs hid
  obtain ⟨hpending, hkept, hstarted⟩ := ModelStepState.observe_pending hobs hid
  have hids : state.itemIds = run.state.itemIds := by rw [hstate]
  have hnew : ∀ itemId itemType phase, event = .itemStarted itemId itemType phase →
      run.texts.lookup itemId = none := by
    rintro itemId itemType phase rfl
    cases hid
    rw [← Option.not_isSome_iff_eq_none, Assoc.lookup_isSome_iff]
    intro hmem
    rcases h.begun _ hmem with hm | hm
    · exact hopen hm
    · rw [hstarted _ _ _ rfl] at hm
      cases hm
  have htext : ∀ k, streamedText k (events ++ [event]) = (run.track event).textOf k := fun k => by
    rw [streamedText_snoc, StepRun.textOf_track hnew, h.texts]
  have hcompleted : completedItems [event] = [] ∧ (run.track event).completed = run.completed := by
    cases event with
    | itemCompleted item => cases hid
    | itemStarted itemId itemType phase => exact ⟨rfl, by rw [StepRun.track]; split <;> rfl⟩
    | textDelta itemId delta => exact ⟨rfl, by rw [StepRun.track]; split <;> rfl⟩
    | _ => exact ⟨rfl, rfl⟩
  refine ⟨?_, ?_, ?_, fun k => (htext k).symm, fun k hk => ?_, fun i hi => ?_, fun k hk => ?_⟩
  · rw [completedItems_append, hcompleted.1, List.append_nil]
    exact hcompleted.2.trans h.completed
  · exact h.history.trans (congrArg (h₀ ++ ·) hcompleted.2.symm)
  · exact (track_texts hid h.nodup (p := fun _ => True) (fun _ _ => trivial) trivial).1
  · dsimp only
    rw [hids]
    rcases StepRun.mem_track hid hk with rfl | hk
    · exact .inr hpending
    · exact (h.begun k hk).imp (fun h => h) (hkept k)
  · dsimp only
    rw [hids]
    exact h.known i hi
  · rw [streamedText_snoc] at hk
    by_cases hdelta : textDelta k event = ""
    · rw [hdelta, String.append_empty] at hk
      exact h.fresh k hk
    · have hk : k = id := by
        cases event with
        | textDelta itemId delta =>
          cases hid
          by_contra hne
          exact hdelta (if_neg (Ne.symm hne))
        | _ => exact absurd rfl hdelta
      rintro i hi rfl
      exact hopen (hk ▸ h.known i hi)

end Seen

/-- The step as it ends: the completed items follow the old history, or the assembled messages. -/
structure Closed (h₀ : List CanonicalItem) (events : List ModelEvent) (history : List CanonicalItem) :
    Prop where
  fresh : ∀ id, streamedText id events ≠ "" → ∀ item ∈ h₀, item.id ≠ id
  items : (completedItems events ≠ [] ∧ history = h₀ ++ completedItems events) ∨
    completedItems events = [] ∧ ∃ texts : List (String × String × MessagePhase),
      (∀ id, streamedText id events ≠ "" → ∃ phase, (id, streamedText id events, phase) ∈ texts) ∧
      history = h₀ ++ texts.map assembled

/-- Assembling: the messages of `done` follow the old history, those of `rest` are left. -/
structure Assembling (h₀ : List CanonicalItem) (events : List ModelEvent)
    (rest : List (String × String × MessagePhase)) (history : List CanonicalItem) : Prop where
  fresh : ∀ id, streamedText id events ≠ "" → ∀ item ∈ h₀, item.id ≠ id
  none : completedItems events = []
  texts : ∃ done : List (String × String × MessagePhase),
    (∀ id, streamedText id events ≠ "" →
      ∃ phase, (id, streamedText id events, phase) ∈ done ++ rest) ∧
    history = h₀ ++ done.map assembled

theorem Seen.closed {h₀ history : List CanonicalItem} {events : List ModelEvent} {run : StepRun}
    (h : Seen h₀ events run history) (items : run.completed ≠ []) : Closed h₀ events history := by
  rw [h.completed] at items
  exact ⟨h.fresh, .inl ⟨items, h.completed ▸ h.history⟩⟩

/-- The fallback of a step has every streamed text. -/
theorem Seen.assembling {h₀ history : List CanonicalItem} {events : List ModelEvent} {run : StepRun}
    (h : Seen h₀ events run history) (items : run.completed = [])
    {rest : List (String × String × MessagePhase)} (order : rest.Perm run.fallback) :
    Assembling h₀ events rest history := by
  refine ⟨h.fresh, h.completed.symm.trans items, [], fun id hid => ?_, ?_⟩
  · rw [← h.texts, StepRun.textOf] at hid ⊢
    cases hlookup : run.texts.lookup id with
    | none =>
      rw [hlookup] at hid
      exact absurd rfl hid
    | some entry =>
      rw [hlookup] at hid
      refine ⟨entry.2, order.mem_iff.2 (List.mem_filter.2 ⟨Assoc.mem_of_lookup hlookup, ?_⟩)⟩
      simpa using hid
  · rw [h.history, items, List.map_nil]

theorem Assembling.message {h₀ history : List CanonicalItem} {events : List ModelEvent}
    {text : String × String × MessagePhase} {rest : List (String × String × MessagePhase)}
    (h : Assembling h₀ events (text :: rest) history) :
    Assembling h₀ events rest (history ++ [assembled text]) := by
  obtain ⟨done, htexts, hhistory⟩ := h.texts
  refine ⟨h.fresh, h.none, done ++ [text], fun id hid => ?_, ?_⟩
  · rw [List.append_assoc]
    exact htexts id hid
  · rw [hhistory, List.append_assoc, List.map_append, List.map_singleton]

theorem Assembling.closed {h₀ history : List CanonicalItem} {events : List ModelEvent}
    (h : Assembling h₀ events [] history) : Closed h₀ events history := by
  obtain ⟨done, htexts, hhistory⟩ := h.texts
  refine ⟨h.fresh, .inr ⟨h.none, done, fun id hid => ?_, hhistory⟩⟩
  simpa using htexts id hid

/-- Whether a closed step kept the streamed messages. -/
theorem Closed.kept_iff {h₀ history : List CanonicalItem} {events : List ModelEvent}
    (h : Closed h₀ events history) : TextKept events history ↔ TextCompleted events := by
  rcases h.items with ⟨hsome, hhistory⟩ | ⟨hnone, texts, htexts, hhistory⟩
  · rw [TextCompleted, hhistory]
    refine ⟨fun hkept => .inr fun id hid => ?_, fun hcompleted id hid => ?_⟩
    · obtain ⟨content, phase, hmem, -⟩ := hkept id hid
      refine ⟨content, phase, (List.mem_append.1 hmem).resolve_left fun hold => ?_⟩
      exact h.fresh id hid _ hold rfl
    · obtain ⟨content, phase, hmem⟩ := hcompleted.resolve_left hsome id hid
      exact ⟨content, phase, List.mem_append_right _ hmem, .inl hmem⟩
  · refine iff_of_true (fun id hid => ?_) (.inl hnone)
    obtain ⟨phase, hmem⟩ := htexts id hid
    refine ⟨_, phase, ?_, .inr rfl⟩
    rw [hhistory]
    exact List.mem_append_right _ (List.mem_map_of_mem (f := assembled) hmem)

/-! ## Runs through the step -/

section
variable [External] [RequestSerde] [ToolJson]

/-- Where a turn is that began step `n` over the history `h₀` and took `events` since. -/
def Through (n : Nat) (h₀ : List CanonicalItem) (events : List ModelEvent) (t : Turn) : Prop :=
  match t.phase with
  | .starting | .input _ => False
  | .boundary m | .requested m _ => n < m
  | .streaming m run => m = n ∧ Seen h₀ events run t.session.history ∨ n < m
  | .assembling m _ rest => m = n ∧ Assembling h₀ events rest t.session.history ∨ n < m
  | .finishing m _ => m = n ∧ Closed h₀ events t.session.history ∨ n < m
  | .calling m _ | .committing m _ | .answering m _ => n ≤ m
  | .ended _ => True

omit [RequestSerde] [ToolJson] in
theorem through_afterStep {g : Engine} {t : Turn} {n m : Nat} {run : StepRun} {h₀ : List CanonicalItem}
    {events : List ModelEvent} (h : n ≤ m) : Through n h₀ events (t.afterStep g m run) := by
  unfold Turn.afterStep
  split
  · trivial
  · split
    · trivial
    · exact h

theorem Through.step {g : Engine} {n : Nat} {h₀ : List CanonicalItem} {events : List ModelEvent}
    {t t' : Turn} {e : TurnEffect} (h : Through n h₀ events t) (hstep : Turn.Step g t e t') :
    Through n h₀ (events ++ e.event.toList) t' := by
  cases hstep with
  | noSteps phase => rw [Through, phase] at h; exact h.elim
  | unaccepted phase => rw [Through, phase] at h; exact h.elim
  | accepted phase => rw [Through, phase] at h; exact h.elim
  | input phase => rw [Through, phase] at h; exact h.elim
  | inputs phase => rw [Through, phase] at h; exact h.elim
  | unrequested built phase refused => trivial
  | request built phase made => rw [Through, phase] at h; exact h
  | unserialized phase => trivial
  | stream receipt phase serialized => rw [Through, phase] at h; exact .inr h
  | streamFailed => trivial
  | unobserved => trivial
  | unsupported => trivial
  | item receipt phase observed admitted =>
    rw [Through, phase] at h
    exact h.imp (fun h => ⟨h.1, h.2.item observed⟩) (fun h => h)
  | overflow => trivial
  | usage phase observed sum =>
    rw [Through, phase] at h
    exact h.imp (fun h => ⟨h.1, h.2.finished observed⟩) (fun h => h)
  | delta phase observed unrecorded unfinished =>
    rw [Through, phase] at h
    obtain ⟨id, hid⟩ := ModelStepState.exists_deltaId unrecorded unfinished
    exact h.imp (fun h => ⟨h.1, h.2.delta observed hid⟩) (fun h => h)
  | channelClosed => trivial
  | unexpectedEof => trivial
  | eof phase finished items =>
    rw [Through, phase] at h
    rw [Option.toList_none, List.append_nil]
    exact h.imp (fun h => ⟨h.1, h.2.closed items⟩) (fun h => h)
  | assemble phase finished items order =>
    rw [Through, phase] at h
    rw [Option.toList_none, List.append_nil]
    exact h.imp (fun h => ⟨h.1, h.2.assembling items order⟩) (fun h => h)
  | message receipt phase =>
    rw [Through, phase] at h
    rw [Option.toList_none, List.append_nil]
    exact h.imp (fun h => ⟨h.1, h.2.message⟩) (fun h => h)
  | messages phase =>
    rw [Through, phase] at h
    rw [Option.toList_none, List.append_nil]
    exact h.imp (fun h => ⟨h.1, h.2.closed⟩) (fun h => h)
  | finish receipt phase =>
    rw [Through, phase] at h
    exact through_afterStep (h.elim (fun h => h.1.ge) Nat.le_of_lt)
  | call phase => rw [Through, phase] at h; exact h
  | called phase => rw [Through, phase] at h; exact h
  | batch receipt phase => rw [Through, phase] at h; exact h
  | result phase => rw [Through, phase] at h; exact h
  | results phase => rw [Through, phase] at h; exact Nat.lt_succ_of_le h
  | exhausted => trivial
  | refused => trivial
  | cancelled => trivial

/-- The events that a run of a turn takes. -/
def eventsOf (es : List TurnEffect) : List ModelEvent := es.filterMap (·.event)

theorem through_run {g : Engine} {n : Nat} {stepId : String} {t₀ t : Turn} {es : List TurnEffect}
    (phase : t₀.phase = .streaming n { stepId, state := .new t₀.session.history })
    (h : Lts.Run (Turn.Step g) t₀ es t) : Through n t₀.session.history (eventsOf es) t := by
  refine h.traced (fun es t => Through n t₀.session.history (eventsOf es) t)
    (fun es s e t hs hstep => ?_) ?_
  · have hevents : eventsOf (es ++ [e]) = eventsOf es ++ e.event.toList := by
      rw [eventsOf, List.filterMap_append]
      cases he : e.event <;> simp [eventsOf, he]
    rw [hevents]
    exact hs.step hstep
  · rw [Through, phase]
    exact .inl ⟨rfl, .start _ _⟩

omit [External] [RequestSerde] [ToolJson] in
theorem eventsOf_cons (e : TurnEffect) (es : List TurnEffect) :
    eventsOf (e :: es) = e.event.toList ++ eventsOf es := by
  rw [eventsOf, List.filterMap_cons]
  cases e.event <;> rfl

/-- A turn takes every stream that the check of the step and the provider's capabilities accept and whose
usage can be counted. -/
theorem stream_taken {g : Engine} {n : Nat} : ∀ {events : List ModelEvent} {t : Turn} {run : StepRun}
    {state : ModelStepState}, t.phase = .streaming n run →
    events.foldlM ModelStepState.observe run.state = .ok state →
    (∀ item ∈ completedItems events, g.admitsItem item = .ok ()) →
    (∀ usage, .stepFinished usage ∈ events → ∃ total, checkedTurnUsage t.usage usage = .ok total) →
    ∃ es t' run', Lts.Run (Turn.Step g) t es t' ∧ eventsOf es = events ∧
      t'.phase = .streaming n run' ∧ run'.state = state
  | [], t, run, state, phase, h, _, _ => by
    cases h
    exact ⟨[], t, run, .nil t, rfl, phase, rfl⟩
  | event :: events, t, run, state, phase, h, hadmits, husage => by
    obtain ⟨next, hobs, h⟩ := bind_ok h
    have hfrom : ∀ {t₁ : Turn} {run₁ : StepRun} {e : TurnEffect}, Turn.Step g t e t₁ →
        e.event = some event → t₁.phase = .streaming n run₁ → run₁.state = next →
        (∀ usage, .stepFinished usage ∈ events →
          ∃ total, checkedTurnUsage t₁.usage usage = .ok total) →
        ∃ es t' run', Lts.Run (Turn.Step g) t es t' ∧ eventsOf es = event :: events ∧
          t'.phase = .streaming n run' ∧ run'.state = state := by
      intro t₁ run₁ e hstep he hphase hstate husage
      have hrest : ∀ item ∈ completedItems events, g.admitsItem item = .ok () := fun item hi =>
        hadmits item (by
          rw [show event :: events = [event] ++ events from rfl, completedItems_append]
          exact List.mem_append_right _ hi)
      obtain ⟨es, t', run', hrun, hes, hphase', hstate'⟩ :=
        stream_taken hphase (hstate ▸ h) hrest husage
      refine ⟨e :: es, t', run', .cons hstep hrun, ?_, hphase', hstate'⟩
      rw [eventsOf_cons, he, hes]
      rfl
    have hlater : ∀ usage, .stepFinished usage ∈ events →
        ∃ total, checkedTurnUsage t.usage usage = .ok total := fun usage hu =>
      husage usage (List.mem_cons_of_mem _ hu)
    by_cases hitem : ∃ item, event = .itemCompleted item
    · obtain ⟨item, rfl⟩ := hitem
      exact hfrom (.item none phase hobs (hadmits item List.mem_cons_self)) rfl rfl rfl hlater
    · by_cases hfinished : ∃ usage, event = .stepFinished usage
      · obtain ⟨usage, rfl⟩ := hfinished
        obtain ⟨total, htotal⟩ := husage usage List.mem_cons_self
        refine hfrom (.usage phase hobs htotal) rfl rfl rfl fun usage' hu => ?_
        -- nothing is accepted after the end of the step
        obtain ⟨-, rfl⟩ := ModelStepState.observe_finished hobs
        cases events with
        | nil => cases hu
        | cons event events =>
          obtain ⟨_, hobs', -⟩ := bind_ok h
          obtain ⟨hopen, -⟩ := refuse_bind_ok hobs'
          cases hopen
      · exact hfrom (.delta phase hobs (fun item he => hitem ⟨item, he⟩)
          (fun usage he => hfinished ⟨usage, he⟩)) rfl rfl rfl hlater

/-- And ends the step. -/
theorem step_ended {g : Engine} {n : Nat} {t : Turn} {run : StepRun}
    (phase : t.phase = .streaming n run) (finished : run.state.finished = true) :
    ∃ es t' run', Lts.Run (Turn.Step g) t es t' ∧ eventsOf es = [] ∧
      t'.phase = .finishing n run' := by
  have hmessages : ∀ (rest : List (String × String × MessagePhase)) (t : Turn) (run : StepRun),
      t.phase = .assembling n run rest → ∃ es t' run', Lts.Run (Turn.Step g) t es t' ∧
        eventsOf es = [] ∧ t'.phase = .finishing n run' := by
    intro rest
    induction rest with
    | nil =>
      intro t run phase
      exact ⟨[{}], _, run, .single (.messages phase), rfl, rfl⟩
    | cons text rest ih =>
      intro t run phase
      obtain ⟨es, t', run', hrun, hes, hphase⟩ := ih { t.append (assembled text) with
        phase := .assembling n { run with completed := run.completed ++ [assembled text] } rest } _ rfl
      exact ⟨_, t', run', .cons (.message none phase) hrun, hes, hphase⟩
  by_cases items : run.completed = []
  · obtain ⟨es, t', run', hrun, hes, hphase⟩ := hmessages run.fallback
      { t with phase := .assembling n run run.fallback } run rfl
    exact ⟨_, t', run', .cons (.assemble phase finished items (.refl _)) hrun, hes, hphase⟩
  · exact ⟨[{}], _, run, .single (.eof phase finished items), rfl, rfl⟩

/-- A turn takes such a stream through the step. -/
theorem step_taken {g : Engine} {n : Nat} {t : Turn} {run : StepRun} {events : List ModelEvent}
    {state : ModelStepState} (phase : t.phase = .streaming n run)
    (h : events.foldlM ModelStepState.observe run.state = .ok state) (hfinished : state.finished = true)
    (hadmits : ∀ item ∈ completedItems events, g.admitsItem item = .ok ())
    (husage : ∀ usage, .stepFinished usage ∈ events →
      ∃ total, checkedTurnUsage t.usage usage = .ok total) :
    ∃ es t' run', Lts.Run (Turn.Step g) t es t' ∧ eventsOf es = events ∧
      t'.phase = .finishing n run' := by
  obtain ⟨es, t₁, run₁, hrun, hes, hphase, rfl⟩ := stream_taken phase h hadmits husage
  obtain ⟨es', t', run', hrun', hes', hphase'⟩ := step_ended hphase hfinished
  refine ⟨es ++ es', t', run', hrun.append hrun', ?_, hphase'⟩
  rw [eventsOf, List.filterMap_append]
  exact (congrArg₂ (· ++ ·) hes hes').trans (List.append_nil _)

/-- At the end of the step. -/
theorem closed_run {g : Engine} {n : Nat} {stepId : String} {t₀ t : Turn} {es : List TurnEffect}
    {run : StepRun} (phase : t₀.phase = .streaming n { stepId, state := .new t₀.session.history })
    (h : Lts.Run (Turn.Step g) t₀ es t) (finishing : t.phase = .finishing n run) :
    Closed t₀.session.history (eventsOf es) t.session.history := by
  have hthrough := through_run phase h
  rw [Through, finishing] at hthrough
  exact (hthrough.resolve_right (Nat.lt_irrefl n)).2

/-- **When streamed text is kept.** A model step over any history takes every accepted stream to its end.
There every message that text was streamed for is in the history if and only if the provider completed no
item in the step, or completed each of those messages. -/
theorem streamed_text_kept_iff (g : Engine) (n : Nat) (stepId : String) (t₀ : Turn)
    (phase : t₀.phase = .streaming n { stepId, state := .new t₀.session.history }) :
    (∀ (events : List ModelEvent) (state : ModelStepState),
      events.foldlM ModelStepState.observe (.new t₀.session.history) = .ok state →
      state.finished = true → (∀ item ∈ completedItems events, g.admitsItem item = .ok ()) →
      (∀ usage, .stepFinished usage ∈ events →
        ∃ total, checkedTurnUsage t₀.usage usage = .ok total) →
      ∃ es t run, Lts.Run (Turn.Step g) t₀ es t ∧ eventsOf es = events ∧ t.phase = .finishing n run) ∧
    ∀ (es : List TurnEffect) (t : Turn) (run : StepRun), Lts.Run (Turn.Step g) t₀ es t →
      t.phase = .finishing n run →
      (TextKept (eventsOf es) t.session.history ↔ TextCompleted (eventsOf es)) :=
  ⟨fun _ _ h hfinished hadmits husage => step_taken phase h hfinished hadmits husage,
    fun _ _ _ hrun hphase => (closed_run phase hrun hphase).kept_iff⟩

end

namespace Sample

/-- A message that is streamed and not completed, beside a completed call. -/
def lossy : List ModelEvent :=
  [.itemStarted "message" "assistant_message" none, .textDelta "message" "answer",
   .itemCompleted call, .stepFinished {}]

/-- The same message alone. -/
def lossless : List ModelEvent :=
  [.itemStarted "message" "assistant_message" none, .textDelta "message" "answer", .stepFinished {}]

/-- The start of the sample turn's first stream. -/
def streamStart : Turn := streaming [] ⟨false, ["user"], [], []⟩

end Sample

/-- The text beside a call is lost, although its stream was accepted to the end. -/
theorem streamed_text_lost : ¬ ∀ (es : List TurnEffect) (t : Turn) (run : StepRun),
    Lts.Run Sample.step Sample.streamStart es t → t.phase = .finishing 0 run →
    TextKept (eventsOf es) t.session.history := by
  intro h
  have hobserved : ∃ state, Sample.lossy.foldlM ModelStepState.observe
      (.new Sample.streamStart.session.history) = .ok state ∧ state.finished = true :=
    ⟨⟨true, ["item", "user"], ["call"], [("message", "assistant_message")]⟩, by decide +kernel, rfl⟩
  obtain ⟨state, hstate, hfinished⟩ := hobserved
  obtain ⟨es, t, run, hrun, hes, hphase⟩ := @step_taken Sample.external Sample.requestSerde
    Sample.toolJson Sample.engine 0 Sample.streamStart _ Sample.lossy state rfl hstate hfinished
    (fun item _ => rfl) fun usage hu => by
      obtain rfl : usage = {} := by simpa [Sample.lossy] using hu
      exact ⟨_, rfl⟩
  have hclosed := @closed_run Sample.external Sample.requestSerde Sample.toolJson Sample.engine 0
    "step-0" Sample.streamStart t es run rfl hrun hphase
  have hcompleted := hclosed.kept_iff.1 (h es t run hrun hphase)
  rw [hes] at hcompleted
  rcases hcompleted with hnone | hmessages
  · cases hnone
  · obtain ⟨content, phase, hmem⟩ := hmessages "message" (by decide +kernel)
    rcases List.mem_singleton.1 hmem with ⟨⟩

/-- A message that is streamed alone is kept. -/
theorem streamed_text_kept_iff_sample : ∃ es t run,
    Lts.Run Sample.step Sample.streamStart es t ∧ eventsOf es = Sample.lossless ∧
    t.phase = .finishing 0 run ∧ TextKept Sample.lossless t.session.history := by
  obtain ⟨htaken, hiff⟩ := @streamed_text_kept_iff Sample.external Sample.requestSerde Sample.toolJson
    Sample.engine 0 "step-0" Sample.streamStart rfl
  have hobserved : ∃ state, Sample.lossless.foldlM ModelStepState.observe
      (.new Sample.streamStart.session.history) = .ok state ∧ state.finished = true :=
    ⟨⟨true, ["user"], [], [("message", "assistant_message")]⟩, by decide +kernel, rfl⟩
  obtain ⟨state, hstate, hfinished⟩ := hobserved
  obtain ⟨es, t, run, hrun, hes, hphase⟩ := htaken Sample.lossless state hstate hfinished
    (fun item _ => rfl) fun usage hu => by
      obtain rfl : usage = {} := by simpa [Sample.lossless] using hu
      exact ⟨_, rfl⟩
  have hkept := (hiff es t run hrun hphase).2
  rw [hes] at hkept
  exact ⟨es, t, run, hrun, hes, hphase, hkept (.inl rfl)⟩

end Whale
