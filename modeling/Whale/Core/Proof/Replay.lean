import Whale.Core.Engine
import Whale.Core.Proof.Context
import Whale.Core.Proof.Stream
import Whale.Core.Proof.Dispatch
import Whale.Store.Proof.Partition

/-!
# Replaying a session's history

When the history a turn leaves is accepted by `validate_items`. The stream check of a step lets a
provider complete a message or reasoning item after a tool call of the same step; the item then stands
between the call and its result, and the history is refused from then on. `Watch` follows the events
for that. While none has happened, the scan of the history knows which calls wait for a result
(`PhaseOk`), and closing them makes the history acceptable (`history_replayable`).
-/

namespace Whale

open Check

/-! ## The condition on the events -/

/-- Whether the current step has completed a call, and whether an item came after one. -/
structure Watch where
  called : Bool := false
  interrupted : Bool := false

/-- The watch after one event. -/
def Watch.event (w : Watch) : ModelEvent → Watch
  | .itemCompleted item =>
    if item.isCall then { w with called := true }
    else { w with interrupted := w.interrupted || w.called }
  | .stepFinished _ => { w with called := false }
  | _ => w

/-- In the order of the events, some step completes a message or a reasoning item after a tool
call. -/
def interrupts (events : List ModelEvent) : Bool := (events.foldl Watch.event {}).interrupted

/-- The watch after one step of a turn. -/
def Watch.effect (w : Watch) (e : TurnEffect) : Watch := e.event.elim w w.event

theorem Watch.foldl_effect (es : List TurnEffect) (w : Watch) :
    es.foldl Watch.effect w = (es.filterMap (·.event)).foldl Watch.event w := by
  induction es generalizing w with
  | nil => rfl
  | cons e es ih =>
    rw [List.foldl_cons, ih, List.filterMap_cons]
    unfold Watch.effect
    cases e.event <;> rfl

theorem Watch.effect_interrupted {w : Watch} (h : w.interrupted = true) (e : TurnEffect) :
    (w.effect e).interrupted = true := by
  unfold Watch.effect
  cases e.event with
  | none => exact h
  | some event =>
    cases event with
    | itemCompleted item =>
      simp only [Option.elim_some, Watch.event]
      split <;> simp [h]
    | _ => exact h

/-! ## The invariant -/

/-- The scan of the history while a step streams. -/
structure StreamOk (called : Bool) (s : Scan) (run : StepRun) : Prop where
  pending : (run.completed.filterMap (·.callId?)).Perm s.pending
  started : s.pending ≠ [] → s.resultsStarted = false
  seen : ∀ id ∈ s.seen, id ∈ run.state.callIds
  uncalled : called = false → run.state.finished = false → s.pending = []
  waiting : called = true → s.pending ≠ []
  finished : run.state.finished = true → called = false

/-- The results answer the pending calls. -/
def Answering (s : Scan) (rs : List CanonicalItem) : Prop :=
  ∃ ids : List String, rs.map (·.resultId?) = ids.map some ∧ ids.Perm s.pending

section
variable [ToolJson]

/-- The scan of the history at each await point of a turn. -/
def PhaseOk (g : Engine) (called : Bool) (s : Scan) : TurnPhase → Prop
  | .starting => called = false ∧ s.pending = []
  | .input rest => called = false ∧ s.pending = [] ∧ ∀ i ∈ rest, i.isUser = true
  | .boundary _ => called = false ∧ s.pending = []
  | .requested _ _ => called = false ∧ s.pending = []
  | .streaming _ run => StreamOk called s run
  | .assembling _ run _ => called = false ∧ s.pending = [] ∧
      ∀ i ∈ run.completed, i.callId? = none
  | .finishing _ run => called = false ∧ (run.completed.filterMap (·.callId?)).Perm s.pending
  | .calling _ b => called = false ∧ ∃ items, Batch.Inv g.coordinator items b ∧
      (∀ i ∈ items, i.callId?.isSome) ∧ (items.filterMap (·.callId?)).Perm s.pending
  | .committing _ rs => called = false ∧ Answering s rs
  | .answering _ rs => called = false ∧ Answering s rs
  | .ended (.ok _) => s.pending = []
  | .ended (.error _) => True

/-- The history of a turn after the watched events: refused for good after an interruption, else as
its phase says. -/
def TurnOk (g : Engine) (w : Watch) (t : Turn) : Prop :=
  (w.interrupted = true ∧ ∃ e, Scan.items {} 0 t.session.history = .error e) ∨
  (w.interrupted = false ∧ ∃ s, Scan.items {} 0 t.session.history = .ok s ∧
    PhaseOk g w.called s t.phase)

end

theorem acceptTurn_history [External] {s s' : ThreadSession} {input : List CanonicalItem}
    (h : s.acceptTurn input = .ok s') : s' = { s with acceptedTurns := s'.acceptedTurns } := by
  obtain ⟨_, -, h⟩ := bind_ok h
  obtain ⟨n, -, h⟩ := orElse_bind_ok h
  cases h
  rfl

section
variable [External] [RequestSerde] [ToolJson]

omit [RequestSerde] [ToolJson] in
theorem afterStep_session (g : Engine) (t : Turn) (step : Nat) (run : StepRun) :
    (t.afterStep g step run).session = t.session := by
  unfold Turn.afterStep
  split
  · rfl
  · split <;> rfl

/-- A turn only appends to the history. -/
theorem Turn.Step.history {g : Engine} {t t' : Turn} {e : TurnEffect} (h : Turn.Step g t e t') :
    ∃ rest, t'.session.history = t.session.history ++ rest := by
  have hsame : t'.session.history = t.session.history →
      ∃ rest, t'.session.history = t.session.history ++ rest := fun h => ⟨[], by rw [h]; simp⟩
  cases h with
  | accepted phase steps accepted =>
    refine hsame ?_
    rw [acceptTurn_history accepted]
  | input phase => exact ⟨_, rfl⟩
  | item receipt phase observed admitted => exact ⟨_, rfl⟩
  | message receipt phase => exact ⟨_, rfl⟩
  | result phase => exact ⟨_, rfl⟩
  | finish receipt phase => exact hsame (by rw [afterStep_session])
  | _ => exact hsame rfl

omit [External] [RequestSerde] in
theorem failed {g : Engine} {w : Watch} {t : Turn} (e : CoreError) (h : TurnOk g w t) :
    TurnOk g w (t.fail e) := by
  rcases h with h | ⟨hi, s, hs, -⟩
  · exact .inl h
  · exact .inr ⟨hi, s, hs, by simp [Turn.fail, PhaseOk]⟩

omit [External] [RequestSerde] in
/-- The scan one item further. -/
theorem TurnOk.appended {g : Engine} {w : Watch} {t : Turn} {s s' : Scan} {item : CanonicalItem}
    (hs : Scan.items {} 0 t.session.history = .ok s)
    (hi : s.item (0 + t.session.history.length) item = .ok s') (hw : w.interrupted = false)
    {phase : TurnPhase} (hp : PhaseOk g w.called s' phase) :
    TurnOk g w { t.append item with phase } := by
  refine .inr ⟨hw, s', ?_, hp⟩
  show Scan.items {} 0 (t.session.history ++ [item]) = .ok s'
  rw [Scan.items_snoc hs, hi]

omit [External] [RequestSerde] in
theorem TurnOk.moved {g : Engine} {w : Watch} {t : Turn} {s : Scan}
    (hs : Scan.items {} 0 t.session.history = .ok s) (hw : w.interrupted = false)
    {phase : TurnPhase} (hp : PhaseOk g w.called s phase) : TurnOk g w { t with phase } :=
  .inr ⟨hw, s, hs, hp⟩

/-! ## One step -/

omit [External] [RequestSerde] [ToolJson] in
theorem other_of_user {i : CanonicalItem} (h : i.isUser = true) : Scan.other i := by
  cases i with
  | userMessage => exact ⟨rfl, rfl⟩
  | _ => cases h

omit [External] [RequestSerde] [ToolJson] in
theorem other_of_model {i : CanonicalItem} (hm : i.nonModel = false) (hc : i.callId? = none) :
    Scan.other i := by
  cases i with
  | toolCall => cases hc
  | toolResult => cases hm
  | userMessage => cases hm
  | _ => exact ⟨rfl, rfl⟩

omit [External] [RequestSerde] [ToolJson] in
/-- A call of the step joins the pending ones. -/
theorem StreamOk.call {called : Bool} {s : Scan} {run : StepRun} {state : ModelStepState}
    {item : CanonicalItem} {callId : String} (h : StreamOk called s run)
    (ho : run.state.ItemObserved item state) (hc : item.callId? = some callId) :
    StreamOk true ⟨callId :: s.seen, s.pending.orderedInsert (· ≤ ·) callId, false⟩
      { run with state, completed := run.completed ++ [item] } where
  pending := by
    rw [List.filterMap_append, List.filterMap_cons, hc, List.filterMap_nil]
    exact (List.perm_append_singleton _ _).trans
      ((h.pending.cons callId).trans (List.perm_orderedInsert _ _ _).symm)
  started := fun _ => rfl
  seen := fun id hid => by
    rw [(ho.call callId hc).2.2]
    rcases List.mem_cons.1 hid with rfl | hid
    · simp
    · exact List.mem_cons_of_mem _ (h.seen id hid)
  uncalled := fun h => (nomatch h)
  waiting := fun _ => @List.ne_nil_of_mem _ callId _ (by simp)
  finished := fun hf => by
    rw [show state.finished = false from ho.finished] at hf
    cases hf

omit [External] [RequestSerde] [ToolJson] in
/-- Another item of the step, while none of its calls is pending. -/
theorem StreamOk.other {s : Scan} {run : StepRun} {state : ModelStepState} {item : CanonicalItem}
    (h : StreamOk false s run) (ho : run.state.ItemObserved item state) (hc : item.callId? = none) :
    StreamOk false { s with resultsStarted := false }
      { run with state, completed := run.completed ++ [item] } where
  pending := by
    rw [List.filterMap_append, List.filterMap_cons, hc, List.filterMap_nil, List.append_nil]
    exact h.pending
  started := fun _ => rfl
  seen := by
    rw [show state.callIds = run.state.callIds from ho.noCall hc]
    exact h.seen
  uncalled := fun _ _ => h.uncalled rfl ho.open_
  waiting := fun h => (nomatch h)
  finished := fun _ => rfl

omit [External] [RequestSerde] in
/-- A completed item: a call joins the pending ones; another item is accepted exactly when no call of
the step is pending. -/
theorem item_ok {g : Engine} {w : Watch} {t : Turn} {s : Scan} (step : Nat) {run : StepRun}
    {state : ModelStepState} {item : CanonicalItem}
    (hs : Scan.items {} 0 t.session.history = .ok s) (hw : w.interrupted = false)
    (hp : StreamOk w.called s run) (hobs : run.state.observe (.itemCompleted item) = .ok state) :
    TurnOk g (w.event (.itemCompleted item)) { t.append item with
      phase := .streaming step { run with state, completed := run.completed ++ [item] } } := by
  have ho := ModelStepState.observe_item hobs
  cases hc : item.callId? with
  | some callId =>
    obtain ⟨hblank, hnew, -⟩ := ho.call callId hc
    have hitem : s.item (0 + t.session.history.length) item =
        .ok ⟨callId :: s.seen, s.pending.orderedInsert (· ≤ ·) callId, false⟩ := by
      cases item with
      | toolCall id c space name arguments raw =>
        cases hc
        exact Scan.item_call _ (ne_empty_of_not_blank hblank) (fun h => hnew (hp.seen _ h)) hp.started
      | _ => cases hc
    have hwatch : w.event (.itemCompleted item) = ⟨true, false⟩ := by
      simp [Watch.event, CanonicalItem.isCall, hc, hw]
    rw [hwatch]
    exact @TurnOk.appended _ g ⟨true, false⟩ t s _ item hs hitem rfl _ (hp.call ho hc)
  | none =>
    have hother := other_of_model ho.model hc
    have hwatch : w.event (.itemCompleted item) = ⟨w.called, w.called⟩ := by
      simp [Watch.event, CanonicalItem.isCall, hc, hw]
    rw [hwatch]
    have hitem := @Scan.item_other s item (0 + t.session.history.length) hother
    generalize w.called = called at hp
    cases called with
    | false =>
      rw [if_pos (hp.uncalled rfl ho.open_)] at hitem
      exact @TurnOk.appended _ g ⟨false, false⟩ t s _ item hs hitem rfl _ (hp.other ho hc)
    | true =>
      rw [if_neg (hp.waiting rfl)] at hitem
      exact .inl ⟨rfl, _, (Scan.items_snoc hs item).trans hitem⟩

omit [External] [RequestSerde] [ToolJson] in
theorem StepRun.calls_callIds (run : StepRun) :
    run.calls.filterMap (·.callId?) = run.completed.filterMap (·.callId?) := by
  unfold StepRun.calls
  rw [List.filterMap_filter]
  congr 1
  funext i
  unfold CanonicalItem.isCall
  cases i.callId? <;> rfl

omit [External] [RequestSerde] [ToolJson] in
theorem StepRun.track_completed (run : StepRun) (event : ModelEvent) :
    (run.track event).completed = run.completed := by
  unfold StepRun.track
  split
  · split <;> rfl
  · split <;> rfl
  · rfl

omit [External] [RequestSerde] [ToolJson] in
theorem callIds_some {items : List CanonicalItem} (h : ∀ i ∈ items, i.callId?.isSome) :
    items.map (·.callId?) = (items.filterMap (·.callId?)).map some := by
  induction items with
  | nil => rfl
  | cons i is ih =>
    obtain ⟨id, hid⟩ := Option.isSome_iff_exists.1 (h i (by simp))
    rw [List.map_cons, List.filterMap_cons, hid, ih fun j hj => h j (by simp [hj])]
    rfl

omit [External] [RequestSerde] [ToolJson] in
/-- The next result. -/
theorem Answering.next {s : Scan} {r : CanonicalItem} {rs : List CanonicalItem} (index : Nat)
    (h : Answering s (r :: rs)) : ∃ s', s.item index r = .ok s' ∧ Answering s' rs := by
  obtain ⟨ids, hids, hperm⟩ := h
  cases ids with
  | nil => cases hids
  | cons id ids =>
    simp only [List.map_cons, List.cons.injEq] at hids
    cases r with
    | toolResult rid callId output isError =>
      obtain rfl : callId = id := by simpa [CanonicalItem.resultId?] using hids.1
      exact ⟨_, Scan.item_result index (hperm.subset (by simp)), ids, hids.2,
        (List.cons_perm_iff_perm_erase.1 hperm).2⟩
    | _ => cases hids.1

omit [RequestSerde] in
/-- The end of a step: the turn ends, fails, or its calls are executed. -/
theorem afterStep_ok {g : Engine} {w : Watch} {t : Turn} {s : Scan} (step : Nat) {run : StepRun}
    (hs : Scan.items {} 0 t.session.history = .ok s) (hw : w.interrupted = false)
    (hc : w.called = false) (hp : (run.completed.filterMap (·.callId?)).Perm s.pending) :
    TurnOk g w (t.afterStep g step run) := by
  have hcalls := run.calls_callIds
  unfold Turn.afterStep
  split
  · exact .inr ⟨hw, s, hs, by simp [Turn.fail, PhaseOk]⟩
  · split
    · rename_i hnone
      refine .inr ⟨hw, s, hs, ?_⟩
      rw [← hcalls, List.isEmpty_iff.1 hnone] at hp
      exact List.nil_perm.1 hp
    · refine .inr ⟨hw, s, hs, hc, run.calls, Batch.start_inv _ _, fun i hi => ?_, hcalls ▸ hp⟩
      exact (List.mem_filter.1 hi).2

theorem TurnOk.step {g : Engine} {w : Watch} {t t' : Turn} {e : TurnEffect} (h : TurnOk g w t)
    (hin : ∀ i ∈ g.inputs, i.isUser = true) (hstep : Turn.Step g t e t') :
    TurnOk g (w.effect e) t' := by
  rcases h with ⟨hw, err, herr⟩ | ⟨hw, s, hs, hp⟩
  · obtain ⟨rest, hrest⟩ := hstep.history
    exact .inl ⟨Watch.effect_interrupted hw e, err, by rw [hrest]; exact Scan.items_error herr rest⟩
  · have hok : TurnOk g w t := .inr ⟨hw, s, hs, hp⟩
    cases hstep with
    | noSteps phase steps => exact failed _ hok
    | unaccepted phase steps refused => exact failed _ hok
    | accepted phase steps accepted =>
      rw [phase] at hp
      refine .inr ⟨hw, s, ?_, hp.1, hp.2, hin⟩
      rw [acceptTurn_history accepted]
      exact hs
    | @input item rest phase =>
      rw [phase] at hp
      obtain ⟨hc, hnil, hrest⟩ := hp
      have hitem := @Scan.item_other s item (0 + t.session.history.length)
        (other_of_user (hrest item (by simp)))
      rw [if_pos hnil] at hitem
      exact TurnOk.appended hs hitem hw ⟨hc, hnil, fun i hi => hrest i (by simp [hi])⟩
    | inputs phase => rw [phase] at hp; exact TurnOk.moved hs hw ⟨hp.1, hp.2.1⟩
    | unrequested built phase refused => exact failed _ hok
    | request built phase made => rw [phase] at hp; exact TurnOk.moved hs hw hp
    | unserialized phase journal refused => exact failed _ hok
    | stream receipt phase serialized =>
      rw [phase] at hp
      obtain ⟨hc, hnil⟩ := hp
      refine TurnOk.moved hs hw ⟨?_, fun h => absurd hnil h, fun id hid => ?_, fun _ _ => hnil,
        fun h => ?_, fun h => (nomatch h)⟩
      · rw [hnil]
        exact .nil
      · exact (Scan.seen_subset hs id hid).resolve_left (by simp)
      · rw [show w.called = false from hc] at h
        cases h
    | streamFailed e phase => exact failed _ hok
    | unobserved phase refused => exact failed _ hok
    | unsupported phase observed refused => exact failed _ hok
    | item receipt phase observed admitted =>
      rw [phase] at hp
      exact item_ok _ hs hw hp observed
    | overflow phase observed refused => exact failed _ hok
    | usage phase observed sum =>
      rw [phase] at hp
      obtain ⟨-, rfl⟩ := ModelStepState.observe_finished observed
      exact .inr ⟨hw, s, hs, hp.pending, hp.started, hp.seen, fun _ h => (nomatch h),
        fun h => (nomatch h), fun _ => rfl⟩
    | @delta step run state event phase observed unrecorded unfinished =>
      rw [phase] at hp
      obtain ⟨id, hid⟩ := ModelStepState.exists_deltaId unrecorded unfinished
      obtain ⟨-, hstate, -⟩ := ModelStepState.observe_delta observed hid
      have hwatch : w.effect { event := some event } = w := by
        cases event with
        | itemCompleted item => exact absurd rfl (unrecorded item)
        | stepFinished usage => exact absurd rfl (unfinished usage)
        | _ => rfl
      rw [hwatch, hstate]
      refine .inr ⟨hw, s, hs, ?_, hp.started, hp.seen, hp.uncalled, hp.waiting, hp.finished⟩
      show ((run.track event).completed.filterMap (·.callId?)).Perm s.pending
      rw [run.track_completed]
      exact hp.pending
    | channelClosed phase => exact failed _ hok
    | unexpectedEof phase unfinished => exact failed _ hok
    | eof phase finished items =>
      rw [phase] at hp
      exact TurnOk.moved hs hw ⟨hp.finished finished, hp.pending⟩
    | assemble phase finished items order =>
      rw [phase] at hp
      refine TurnOk.moved hs hw ⟨hp.finished finished, ?_, by simp [items]⟩
      have hperm := hp.pending
      rw [items] at hperm
      exact List.nil_perm.1 hperm
    | @message step run text rest receipt phase =>
      rw [phase] at hp
      obtain ⟨hc, hnil, hcalls⟩ := hp
      have hitem := @Scan.item_other s (assembled text) (0 + t.session.history.length) ⟨rfl, rfl⟩
      rw [if_pos hnil] at hitem
      refine TurnOk.appended hs hitem hw ⟨hc, hnil, fun i hi => ?_⟩
      rcases List.mem_append.1 hi with hi | hi
      · exact hcalls i hi
      · rw [List.mem_singleton.1 hi]
        rfl
    | messages phase =>
      rw [phase] at hp
      obtain ⟨hc, hnil, hcalls⟩ := hp
      refine TurnOk.moved hs hw ⟨hc, ?_⟩
      rw [hnil, List.filterMap_eq_nil_iff.2 hcalls]
    | finish receipt phase =>
      rw [phase] at hp
      exact afterStep_ok _ hs hw hp.1 hp.2
    | call phase segment =>
      rw [phase] at hp
      obtain ⟨hc, items, hinv, hcalls, hperm⟩ := hp
      exact .inr ⟨hw, s, hs, hc, items, hinv.step segment, hcalls, hperm⟩
    | called phase complete =>
      rw [phase] at hp
      obtain ⟨hc, items, hinv, hcalls, hperm⟩ := hp
      refine TurnOk.moved hs hw ⟨hc, items.filterMap (·.callId?), ?_, hperm⟩
      rw [hinv.results hcalls complete, callIds_some hcalls]
    | batch receipt phase =>
      rw [phase] at hp
      exact TurnOk.moved hs hw hp
    | result phase =>
      rw [phase] at hp
      obtain ⟨s', hitem, hnext⟩ := hp.2.next (0 + t.session.history.length)
      exact TurnOk.appended hs hitem hw ⟨hp.1, hnext⟩
    | results phase more =>
      rw [phase] at hp
      obtain ⟨hc, ids, hids, hperm⟩ := hp
      obtain rfl : ids = [] := by simpa using hids.symm
      exact TurnOk.moved hs hw ⟨hc, List.nil_perm.1 hperm⟩
    | exhausted phase last => exact failed _ hok
    | refused attempt commit => exact failed _ hok
    | cancelled running => exact failed _ hok

/-! ## Whole turns -/

theorem TurnOk.run {g : Engine} {w : Watch} {t t' : Turn} {es : List TurnEffect}
    (hin : ∀ i ∈ g.inputs, i.isUser = true) (h : Lts.Run (Turn.Step g) t es t')
    (hok : TurnOk g w t) : TurnOk g (es.foldl Watch.effect w) t' := by
  induction h generalizing w with
  | nil => exact hok
  | cons hstep _ ih => exact ih (hok.step hin hstep)

omit [External] [RequestSerde] in
theorem start_ok (g : Engine) {session : ThreadSession}
    (h : validateItems session.history = .ok ()) : TurnOk g {} (Turn.start session) := by
  obtain ⟨s, hs, hp⟩ := validateItems_ok_iff.1 h
  exact .inr ⟨rfl, s, hs, rfl, hp⟩

/-- A turn extends the history it is started with. -/
theorem Turn.run_history {g : Engine} {t t' : Turn} {es : List TurnEffect}
    (h : Lts.Run (Turn.Step g) t es t') :
    ∃ rest, t'.session.history = t.session.history ++ rest := by
  refine h.rel (fun _ => True) (fun t t' => ∃ rest, t'.session.history = t.session.history ++ rest)
    (fun _ _ _ _ _ => trivial) (fun _ => ⟨[], by simp⟩) ?_ (fun _ _ _ _ hs => hs.history) trivial
  rintro s t u ⟨xs, hxs⟩ ⟨ys, hys⟩
  exact ⟨xs ++ ys, by rw [hys, hxs, List.append_assoc]⟩

omit [External] [RequestSerde] [ToolJson] in
/-- Whatever is left extends the history, so it is refused with it. -/
theorem left_refused (g : Engine) (ids ids' : Nat → String) (n : Nat) {t : Turn} {e : String}
    (h : Scan.items {} 0 t.session.history = .error e) :
    validateItems (t.left g ids ids' n) ≠ .ok () := by
  have hext : ∀ rest, validateItems (t.session.history ++ rest) ≠ .ok () := fun rest hv => by
    obtain ⟨s, hs, -⟩ := validateItems_ok_iff.1 hv
    rw [Scan.items_error h] at hs
    cases hs
  have hself : validateItems t.session.history ≠ .ok () := by simpa using hext []
  unfold Turn.left
  split
  · exact hself
  · split
    · exact hself
    · unfold Turn.close
      rw [List.append_assoc]
      exact hext _
  · split
    · exact hself
    · exact hext _

omit [External] [RequestSerde] [ToolJson] in
/-- The history left where the scan accepts the turn's items: closed by the engine without a journal,
else as it stands. -/
theorem left_accepted {g : Engine} (ids ids' : Nat → String) {t : Turn} {s : Scan}
    {start rest : List CanonicalItem} (hvalid : validateItems start = .ok ())
    (hrest : t.session.history = start ++ rest)
    (hs : Scan.items {} 0 t.session.history = .ok s)
    (hended : ∀ r, t.phase = .ended (.ok r) → s.pending = []) :
    validateItems (t.left g ids ids' start.length) = .ok () ↔
      (g.coordinator.journalled = true → unanswered [] rest = []) := by
  have hopen : unanswered [] rest = [] ↔ s.pending = [] := by
    have hperm := Scan.unanswered_perm hs (List.Perm.refl _)
    rw [hrest, unanswered_valid hvalid] at hperm
    constructor
    · intro h
      rw [h] at hperm
      exact List.nil_perm.1 hperm
    · intro h
      rw [h] at hperm
      exact List.perm_nil.1 hperm
  have hplain : validateItems t.session.history = .ok () ↔ unanswered [] rest = [] := by
    rw [validateItems_ok_iff, hopen]
    constructor
    · rintro ⟨s', hs', hp⟩
      rw [hs] at hs'
      cases hs'
      exact hp
    · exact fun hp => ⟨s, hs, hp⟩
  have hclosed : validateItems (Turn.close ids start.length t.session.history) = .ok () := by
    rw [hrest] at hs ⊢
    exact (validateItems_close_iff hvalid ids).2 ⟨s, hs⟩
  have htwice : validateItems (Turn.close ids' start.length
      (Turn.close ids start.length t.session.history)) = .ok () := by
    have hnil : closeUnansweredToolCalls ids' (Turn.close ids start.length t.session.history)
        start.length = [] := by
      rw [hrest] at hs ⊢
      exact close_close hvalid ids ids' hs
    rw [Turn.close, hnil, List.append_nil]
    exact hclosed
  unfold Turn.left
  split
  · rename_i r hphase
    exact iff_of_true (hplain.2 (hopen.2 (hended r hphase))) fun _ => hopen.2 (hended r hphase)
  · split
    · rename_i hj
      rw [hplain]
      exact ⟨fun h _ => h, fun h => h hj⟩
    · rename_i hj
      exact iff_of_true htwice fun h => absurd h hj
  · split
    · rename_i hj
      rw [hplain]
      exact ⟨fun h _ => h, fun h => h hj⟩
    · rename_i hj
      exact iff_of_true hclosed fun h => absurd h hj

/-- A turn over a valid history, stopped in any state. The history it leaves is valid exactly when no
step of it completed a message or a reasoning item after a tool call, and, with a journal, where the
engine closes nothing itself, no call of the turn lacks a result. At the top of the step loop the
first condition alone decides. -/
theorem history_replayable {g : Engine} {session : ThreadSession} {es : List TurnEffect} {t : Turn}
    (ids ids' : Nat → String) (hvalid : validateItems session.history = .ok ())
    (hin : ∀ i ∈ g.inputs, i.isUser = true)
    (h : Lts.Run (Turn.Step g) (Turn.start session) es t) :
    (validateItems (t.left g ids ids' session.history.length) = .ok () ↔
      interrupts (es.filterMap (·.event)) = false ∧
      (g.coordinator.journalled = true →
        unanswered [] (t.session.history.drop session.history.length) = [])) ∧
    ∀ step, t.phase = .boundary step →
      (validateItems t.session.history = .ok () ↔
        interrupts (es.filterMap (·.event)) = false) := by
  have hok := TurnOk.run hin h (start_ok g hvalid)
  have hwatch : (es.foldl Watch.effect {}).interrupted = interrupts (es.filterMap (·.event)) := by
    rw [Watch.foldl_effect, interrupts]
  obtain ⟨rest, hrest⟩ := Turn.run_history h
  have hrest : t.session.history = session.history ++ rest := hrest
  rw [← hwatch]
  rcases hok with ⟨hi, e, he⟩ | ⟨hi, s, hs, hp⟩
  · rw [hi]
    refine ⟨iff_of_false (left_refused g ids ids' _ he) fun h => (nomatch h.1), fun step _ => ?_⟩
    refine iff_of_false (fun hv => ?_) fun h => (nomatch h)
    obtain ⟨s, hs, -⟩ := validateItems_ok_iff.1 hv
    rw [he] at hs
    cases hs
  · rw [hi]
    refine ⟨?_, fun step hphase => ?_⟩
    · have hended : ∀ r, t.phase = .ended (.ok r) → s.pending = [] := fun r hr => by
        rw [hr] at hp
        exact hp
      rw [left_accepted ids ids' hvalid hrest hs hended, hrest, List.drop_left]
      exact ⟨fun h => ⟨rfl, h⟩, fun h => h.2⟩
    · rw [hphase] at hp
      exact iff_of_true (validateItems_ok_iff.2 ⟨s, hs, hp.2⟩) rfl

end

namespace Sample

/-- No request of the sample is serialized: its session has neither a limit nor a journal. -/
@[reducible] def requestSerde : RequestSerde where
  bytes _ := .error "not a sample input"
  value _ := .error "not a sample input"

def user : CanonicalItem := .userMessage "user" [.text "question"]

def message : CanonicalItem := .assistantMessage "message" [.text "answer"] .commentary

def engine : Engine where
  context := { threadId := "thread", turnId := "turn" }
  inputs := [user]
  maxSteps := 2
  coordinator := coordinator
  admitsRequest _ := .ok ()
  admitsItem _ := .ok ()
  stepId step := if step = 0 then "step-0" else "step-1"

def session : ThreadSession where
  id := "thread"
  samplingOptions := { model := "model" }

/-- The accepted turn, after some items. -/
def turnAt (items : List CanonicalItem) (phase : TurnPhase) : Turn where
  session := { session with history := items, acceptedTurns := 1 }
  generated := items
  phase := phase

def request : ModelRequest := engine.modelRequest session 0 ⟨none, [user]⟩

/-- The turn while its first step streams. -/
def streaming (items : List CanonicalItem) (state : ModelStepState) : Turn :=
  turnAt (user :: items) (.streaming 0 { stepId := "step-0", state, completed := items })

/-- A step that completes a call, then a message. -/
def interrupted : Turn :=
  streaming [call, message] ⟨false, ["message", "item", "user"], ["call"], []⟩

/-- A step that completes a message, then a call. -/
def answered : Turn :=
  streaming [message, call] ⟨false, ["item", "message", "user"], ["call"], []⟩

/-- The steps of a turn. -/
abbrev step : Turn → TurnEffect → Turn → Prop := @Turn.Step external requestSerde toolJson engine

/-- Up to the stream nothing is observed. -/
def beforeStream : List TurnEffect := List.replicate 5 {}

theorem streaming_run : Lts.Run step (Turn.start session) beforeStream
    (streaming [] ⟨false, ["user"], [], []⟩) := by
  have haccept : step (Turn.start session) {} (turnAt [] (.input [user])) :=
    @Turn.Step.accepted external requestSerde toolJson engine _ _ rfl (by decide) rfl
  have hinput : step (turnAt [] (.input [user])) {} (turnAt [user] (.input [])) :=
    @Turn.Step.input external requestSerde toolJson engine _ user [] rfl
  have hinputs : step (turnAt [user] (.input [])) {} (turnAt [user] (.boundary 0)) :=
    @Turn.Step.inputs external requestSerde toolJson engine _ rfl
  have hrequest : step (turnAt [user] (.boundary 0)) {} (turnAt [user] (.requested 0 request)) :=
    @Turn.Step.request external requestSerde toolJson engine _ 0 request (.ok ⟨none, [user]⟩) rfl rfl
  have hstream : step (turnAt [user] (.requested 0 request)) {}
      (streaming [] ⟨false, ["user"], [], []⟩) :=
    @Turn.Step.stream external requestSerde toolJson engine _ 0 request .null none rfl
      fun h => absurd h (by decide)
  exact .cons haccept (.cons hinput (.cons hinputs (.cons hrequest (.single hstream))))

/-- One more item of the step. -/
theorem item_step {items : List CanonicalItem} {state state' : ModelStepState} {item : CanonicalItem}
    (h : state.observe (.itemCompleted item) = .ok state') :
    step (streaming items state) { event := some (.itemCompleted item) }
      (streaming (items ++ [item]) state') :=
  @Turn.Step.item external requestSerde toolJson engine (streaming items state) 0
    { stepId := "step-0", state, completed := items } state' item none rfl h rfl

theorem interrupted_run : Lts.Run step (Turn.start session)
    (beforeStream ++ [{ event := some (.itemCompleted call) },
      { event := some (.itemCompleted message) }]) interrupted :=
  streaming_run.append (.cons (item_step rfl) (.single (item_step rfl)))

theorem answered_run : Lts.Run step (Turn.start session)
    (beforeStream ++ [{ event := some (.itemCompleted message) },
      { event := some (.itemCompleted call) }]) answered :=
  streaming_run.append (.cons (item_step rfl) (.single (item_step rfl)))

end Sample

/-- The message after the call: the history left is refused, and so is every later context of it. -/
theorem interrupted_history_refused : validateItems Sample.session.history = .ok () ∧
    (∀ i ∈ Sample.engine.inputs, i.isUser = true) ∧
    (∃ es, Lts.Run Sample.step (Turn.start Sample.session) es Sample.interrupted) ∧
    fullHistory none (Sample.interrupted.left Sample.engine (fun _ => "result") (fun _ => "result")
      Sample.session.history.length) =
      .error "Context item 2 interrupts an unanswered tool-call batch: call" :=
  ⟨rfl, by decide, ⟨_, Sample.interrupted_run⟩, rfl⟩

/-- The message before the call: the history left is valid. -/
theorem history_replayable_sample : validateItems (Sample.answered.left Sample.engine
    (fun _ => "result") (fun _ => "result") Sample.session.history.length) = .ok () :=
  (@history_replayable Sample.external Sample.requestSerde Sample.toolJson Sample.engine
    Sample.session _ Sample.answered (fun _ => "result") (fun _ => "result") rfl (by decide)
    Sample.answered_run).1.2 ⟨by decide, fun h => (nomatch h)⟩

end Whale
