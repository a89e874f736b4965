import Whale.Core.Journaled
import Whale.Core.Proof.Replay

/-!
# The engine and the durable record

The turn and the record its journal writes stay in step. `PhaseIn` says, for each await point of the
turn, what the record's run holds: the steps recorded, the calls without a committed result and how
they stand, and how far the record's history is ahead. `PhaseIn.quiet` and `PhaseIn.commit` keep it;
the second also shows that the run accepts the mutation.
-/

namespace Whale

open Check

/-! ## What a run accepts -/

/-- The ledger entry a completed item opens. -/
def opened (fresh : FreshIds) (stepId : String) : CanonicalItem → Option StoredCall
  | .toolCall _ callId _ name _ _ => some (newCall fresh callId stepId name)
  | _ => none

section
variable {revision : Nat} {history : List CanonicalItem} {run : StoredRun} {fresh : FreshIds}

theorem mutateRun_input {stepId : String} {request : Value} (named : stepId ≠ "")
    (object : request.isObject = true) (finished : ∀ s ∈ run.modelInputs, s.completed = true)
    (committed : ∀ c ∈ run.calls, c.committed = true)
    (absent : ∀ s ∈ run.modelInputs, s.stepId ≠ stepId) :
    mutateRun revision history run fresh (.modelInput stepId run.modelInputs.length request) =
      .ok ({ run with modelInputs := run.modelInputs ++ [newStep revision run stepId request] },
        history, none) := by
  have hlast : (run.modelInputs.getLast?.any fun s => !s.completed) = false := by
    cases hl : run.modelInputs.getLast? with
    | none => rfl
    | some s => simp [finished s (List.mem_of_getLast? hl)]
  have hcalls : (run.calls.any fun c => !c.committed) = false := by simpa using committed
  have hids : (run.modelInputs.any fun s => s.stepId == stepId) = false := by simpa using absent
  have hnamed : stepId.isEmpty = false := isEmpty_eq_false_iff.2 named
  simp [mutateRun, hnamed, object, hlast, hcalls, hids, newStep]

end

/-! ## What a record holds -/

section
variable [External] [RequestSerde] [ToolJson]

/-- The steps and calls of a run after `n` steps. -/
structure Synced (g : Engine) (n : Nat) (history : List CanonicalItem)
    (steps : List ModelInputRecord) (calls : List StoredCall) : Prop where
  stepIds : steps.map (·.stepId) = (List.range n).map g.stepId
  distinct : (calls.map (·.callId)).Nodup
  named : ∀ c ∈ calls, c.callId ∈ history.filterMap (·.callId?)

/-- Every step is completed, and their usage is the turn's. -/
structure Finished (g : Engine) (n : Nat) (usage : UsageMetrics) (history : List CanonicalItem)
    (steps : List ModelInputRecord) (calls : List StoredCall) : Prop where
  synced : Synced g n history steps calls
  completed : ∀ s ∈ steps, s.completed = true
  usage : UsageMetrics.checkedSum {} (steps.filterMap (·.usage)) = some usage

/-- The last step is under way; its calls are open and have not been dispatched. -/
structure Underway (g : Engine) (n : Nat) (sr : StepRun) (history : List CanonicalItem)
    (steps : List ModelInputRecord) (calls : List StoredCall) : Prop where
  synced : Synced g (n + 1) history steps calls
  last : ∃ before step, steps = before ++ [step] ∧ step.stepId = sr.stepId ∧
    step.completed = false ∧ step.usage = none ∧ ∀ s ∈ before, s.completed = true
  stepId : sr.stepId = g.stepId n
  open_ : ∃ old new, calls = old ++ new ∧ (∀ c ∈ old, c.committed = true) ∧
    (∀ c ∈ new, c.committed = false ∧ c.intent = none ∧ c.outcome = none ∧ c.stepId = sr.stepId) ∧
    new.map (·.callId) = sr.completed.filterMap (·.callId?)

/-- A call of the batch and its ledger entry. -/
structure CallIn (stepId : String) (c : StoredCall) (s : CallState) : Prop where
  call : s.item.callId? = some c.callId
  step : c.stepId = stepId
  open_ : c.committed = false
  intent : c.intent = s.execution
  outcome : c.outcome = s.phase.result?

end

/-! ## What else a run accepts -/

section
variable {revision : Nat} {history : List CanonicalItem} {run : StoredRun} {fresh : FreshIds}

theorem mutateRun_item {steps : List ModelInputRecord} {step : ModelInputRecord}
    {item : CanonicalItem} (last : run.modelInputs = steps ++ [step])
    (running : step.completed = false) (model : item.nonModel = false)
    (absent : item.id ∉ history.map (·.id))
    (call : ∀ callId, item.callId? = some callId →
      callId ≠ "" ∧ callId ∉ history.filterMap (·.callId?)) :
    mutateRun revision history run fresh (.modelItem step.stepId item) =
      .ok ({ run with calls := run.calls ++ (opened fresh step.stepId item).toList },
        history ++ [item], none) := by
  have hlast : run.modelInputs.getLast? = some step := by simp [last]
  have habsent : (history.any fun i => i.id == item.id) = false := by
    simpa using absent
  cases item with
  | toolCall id callId space name arguments raw =>
    obtain ⟨hne, hnew⟩ := call callId rfl
    have hcall : (history.any fun i => i.callId? == some callId) = false := by
      simpa using hnew
    have hnamed : callId.isEmpty = false := isEmpty_eq_false_iff.2 hne
    simp [mutateRun, hlast, running, model, habsent, hnamed, hcall, opened, newCall]
  | userMessage => cases model
  | toolResult => cases model
  | assistantMessage => simp [mutateRun, hlast, running, model, habsent, opened]
  | reasoning => simp [mutateRun, hlast, running, model, habsent, opened]

theorem mutateRun_finished {steps : List ModelInputRecord} {step : ModelInputRecord}
    {usage total : UsageMetrics} (last : run.modelInputs = steps ++ [step])
    (running : step.completed = false)
    (fits : UsageMetrics.checkedSum {} (run.usages ++ [usage]) = some total) :
    mutateRun revision history run fresh (.modelStepFinished step.stepId usage) =
      .ok ({ run with modelInputs := steps ++ [{ step with completed := true, usage := some usage }] },
        history, none) := by
  have hlast : run.modelInputs.getLast? = some step := by simp [last]
  have hset : ∀ s, setLast run.modelInputs s = steps ++ [s] := by simp [setLast, last]
  simp [mutateRun, checkedUsage, fits, hlast, running, hset]

theorem find?_first {pre post : List StoredCall} {c : StoredCall} (f : StoredCall → StoredCall)
    (first : ∀ d ∈ pre, d.callId ≠ c.callId) :
    (pre ++ c :: post).find? (·.callId == c.callId) = some c ∧
      updateFirst (·.callId == c.callId) f (pre ++ c :: post) = pre ++ f c :: post := by
  induction pre with
  | nil => simp [updateFirst]
  | cons d pre ih =>
    have hd : (d.callId == c.callId) = false := by simpa using first d (by simp)
    obtain ⟨hfind, hupdate⟩ := ih fun x hx => first x (by simp [hx])
    simp [updateFirst, hd, hfind, hupdate]

theorem mutateRun_intent {pre post : List StoredCall} {c : StoredCall}
    {execution : ToolExecutionRecord} (split : run.calls = pre ++ c :: post)
    (first : ∀ d ∈ pre, d.callId ≠ c.callId) (same : execution.callId = c.callId)
    (once : c.intent = none) (open_ : c.outcome = none)
    (finished : run.stepCompleted c.stepId = true) :
    mutateRun revision history run fresh (.dispatchIntent c.callId execution) =
      .ok ({ run with calls := pre ++ { c with intent := some execution } :: post }, history,
        none) := by
  obtain ⟨hfind, hupdate⟩ := @find?_first pre post c (fun d => { d with intent := some execution }) first
  simp only [mutateRun, split, hfind, hupdate, orElse_some, ok_bind]
  simp [same, once, open_, finished]

theorem mutateRun_outcome {pre post : List StoredCall} {c : StoredCall} {id : String}
    {output : CanonicalToolOutput} {isError : Bool} (split : run.calls = pre ++ c :: post)
    (first : ∀ d ∈ pre, d.callId ≠ c.callId) (open_ : c.outcome = none)
    (finished : run.stepCompleted c.stepId = true) :
    mutateRun revision history run fresh
        (.toolOutcome c.callId (.toolResult id c.callId output isError)) =
      .ok ({ run with calls := pre ++
          { c with outcome := some (.toolResult c.resultItemId c.callId output isError) } :: post },
        history, some (.toolResult c.resultItemId c.callId output isError)) := by
  obtain ⟨hfind, hupdate⟩ := @find?_first pre post c (fun d =>
    { d with outcome := some (.toolResult c.resultItemId c.callId output isError) }) first
  simp only [mutateRun, split, hfind, hupdate, orElse_some, ok_bind]
  simp [open_, finished]

theorem mutateRun_batch {callIds : List String}
    (ids : (run.calls.filter (!·.committed)).map (·.callId) = callIds)
    (complete : ∀ c ∈ run.calls, c.committed = false → c.outcome.isSome) :
    mutateRun revision history run fresh (.toolBatch callIds) =
      .ok ({ run with calls := run.calls.map ({ · with committed := true }) },
        history ++ (run.calls.filter (!·.committed)).filterMap (·.outcome), none) := by
  have hall : ((run.calls.filter (!·.committed)).any (·.outcome.isNone)) = false := by
    rw [List.any_eq_false]
    intro c hc
    obtain ⟨hm, hf⟩ := List.mem_filter.1 hc
    have hsome := complete c hm (by simpa using hf)
    simpa [Option.isSome_iff_ne_none] using hsome
  simp [mutateRun, ids, hall]

end

/-! ## The invariant -/

section
variable [External] [RequestSerde] [ToolJson]

/-- What the record holds at each await point of a turn. -/
def PhaseIn (g : Engine) (t : Turn) (history : List CanonicalItem) (steps : List ModelInputRecord)
    (calls : List StoredCall) : Prop :=
  match t.phase with
  | .starting => steps = [] ∧ calls = [] ∧ history = t.session.history ++ g.inputs ∧ t.usage = {}
  | .input rest => steps = [] ∧ calls = [] ∧ history = t.session.history ++ rest ∧ t.usage = {} ∧
      0 < g.maxSteps
  | .boundary n => history = t.session.history ∧ Finished g n t.usage history steps calls ∧
      (∀ c ∈ calls, c.committed = true) ∧ n < g.maxSteps
  | .requested n request => history = t.session.history ∧
      Finished g n t.usage history steps calls ∧ (∀ c ∈ calls, c.committed = true) ∧
      request.stepId = g.stepId n ∧ t.session.checkHistoryLimit = .ok () ∧ n < g.maxSteps
  | .streaming n sr => history = t.session.history ∧ Underway g n sr history steps calls ∧
      (∀ i ∈ history, i.id ∈ sr.state.itemIds) ∧
      (∀ id ∈ history.filterMap (·.callId?), id ∈ sr.state.callIds) ∧
      (sr.texts.map (·.1)).Nodup ∧
      (sr.completed = [] → ∀ x ∈ sr.texts, x.1 ∉ history.map (·.id)) ∧
      UsageMetrics.checkedSum {} (steps.filterMap (·.usage) ++
        if sr.state.finished then [sr.usage] else []) = some t.usage
  | .assembling n sr rest => history = t.session.history ∧ Underway g n sr history steps calls ∧
      (rest.map (·.1)).Nodup ∧ (∀ x ∈ rest, x.1 ∉ history.map (·.id)) ∧
      UsageMetrics.checkedSum {} (steps.filterMap (·.usage) ++ [sr.usage]) = some t.usage
  | .finishing n sr => history = t.session.history ∧ Underway g n sr history steps calls ∧
      UsageMetrics.checkedSum {} (steps.filterMap (·.usage) ++ [sr.usage]) = some t.usage
  | .calling n b => history = t.session.history ∧ Finished g (n + 1) t.usage history steps calls ∧
      t.session.checkHistoryLimit = .ok () ∧
      (∃ items, Batch.Inv g.coordinator items b) ∧
      ∃ old new, calls = old ++ new ∧ (∀ c ∈ old, c.committed = true) ∧
        List.Forall₂ (CallIn (g.stepId n)) new b.calls
  | .committing n results => history = t.session.history ∧
      Finished g (n + 1) t.usage history steps calls ∧
      ∃ old new, calls = old ++ new ∧ (∀ c ∈ old, c.committed = true) ∧
        (∀ c ∈ new, c.committed = false) ∧ new.map (·.outcome) = results.map some ∧
        new.map (some ·.callId) = results.map (·.resultId?)
  | .answering n rest => history = t.session.history ++ rest ∧
      Finished g (n + 1) t.usage history steps calls ∧ ∀ c ∈ calls, c.committed = true
  | .ended _ => True

omit [External] [RequestSerde] [ToolJson] in
theorem Finished.stepCompleted {g : Engine} {n : Nat} {usage : UsageMetrics}
    {history : List CanonicalItem} {run : StoredRun}
    (h : Finished g (n + 1) usage history run.modelInputs run.calls) :
    run.stepCompleted (g.stepId n) = true := by
  have hmem : g.stepId n ∈ run.modelInputs.map (·.stepId) := by
    rw [h.synced.stepIds]
    exact List.mem_map_of_mem (List.mem_range.2 (Nat.lt_succ_self n))
  obtain ⟨s, hs, hid⟩ := List.mem_map.1 hmem
  exact List.any_eq_true.2 ⟨s, hs, by simp [hid, h.completed s hs]⟩

omit [External] [RequestSerde] [ToolJson] in
theorem Synced.item {g : Engine} {n : Nat} {history : List CanonicalItem}
    {steps : List ModelInputRecord} {calls : List StoredCall} (h : Synced g n history steps calls)
    {item : CanonicalItem} (fresh : FreshIds) (stepId : String)
    (new : ∀ callId, item.callId? = some callId → callId ∉ history.filterMap (·.callId?)) :
    Synced g n (history ++ [item]) steps (calls ++ (opened fresh stepId item).toList) := by
  have hold : ∀ c ∈ calls, c.callId ∈ (history ++ [item]).filterMap (·.callId?) := fun c hc => by
    rw [List.filterMap_append]
    exact List.mem_append_left _ (h.named c hc)
  have hplain : opened fresh stepId item = none →
      Synced g n (history ++ [item]) steps (calls ++ (opened fresh stepId item).toList) :=
    fun hnone => by
      rw [hnone, Option.toList_none, List.append_nil]
      exact ⟨h.stepIds, h.distinct, hold⟩
  cases item with
  | toolCall id callId space name arguments raw =>
    refine ⟨h.stepIds, ?_, fun c hc => ?_⟩
    · rw [List.map_append]
      refine List.nodup_append.2 ⟨h.distinct, by simp [opened], fun a ha b hb => ?_⟩
      obtain rfl : b = callId := by simpa [opened, newCall] using hb
      rintro rfl
      obtain ⟨c, hc, hid⟩ := List.mem_map.1 ha
      exact new a rfl (hid ▸ h.named c hc)
    · rcases List.mem_append.1 hc with hc | hc
      · exact hold c hc
      · obtain rfl : c = newCall fresh callId stepId name := by simpa [opened] using hc
        simp [newCall, CanonicalItem.callId?]
  | userMessage => exact hplain rfl
  | assistantMessage => exact hplain rfl
  | reasoning => exact hplain rfl
  | toolResult => exact hplain rfl

omit [External] [RequestSerde] [ToolJson] in
/-- A completed item of the step. -/
theorem Underway.item {g : Engine} {n : Nat} {sr : StepRun} {history : List CanonicalItem}
    {steps : List ModelInputRecord} {calls : List StoredCall}
    (h : Underway g n sr history steps calls) {item : CanonicalItem} (fresh : FreshIds)
    (state : ModelStepState)
    (new : ∀ callId, item.callId? = some callId → callId ∉ history.filterMap (·.callId?)) :
    Underway g n { sr with state, completed := sr.completed ++ [item] } (history ++ [item]) steps
      (calls ++ (opened fresh sr.stepId item).toList) where
  synced := h.synced.item fresh sr.stepId new
  last := h.last
  stepId := h.stepId
  open_ := by
    obtain ⟨old, fresh', rfl, hold, hnew, hids⟩ := h.open_
    refine ⟨old, fresh' ++ (opened fresh sr.stepId item).toList, by simp, hold, fun c hc => ?_, ?_⟩
    · rcases List.mem_append.1 hc with hc | hc
      · exact hnew c hc
      · cases item with
        | toolCall id callId space name arguments raw =>
          obtain rfl : c = newCall fresh callId sr.stepId name := by simpa [opened] using hc
          exact ⟨rfl, rfl, rfl, rfl⟩
        | _ => simp [opened] at hc
    · rw [List.map_append, hids, List.filterMap_append]
      cases item <;> rfl

omit [External] [RequestSerde] [ToolJson] in
theorem Underway.moved {g : Engine} {n : Nat} {sr sr' : StepRun} {history : List CanonicalItem}
    {steps : List ModelInputRecord} {calls : List StoredCall}
    (h : Underway g n sr history steps calls) (hid : sr'.stepId = sr.stepId)
    (hc : sr'.completed = sr.completed) : Underway g n sr' history steps calls where
  synced := h.synced
  last := by rw [hid]; exact h.last
  stepId := hid.trans h.stepId
  open_ := by rw [hid, hc]; exact h.open_

omit [External] [RequestSerde] [ToolJson] in
/-- The commit of the step's end. -/
theorem Underway.finish {g : Engine} {n : Nat} {sr : StepRun} {history : List CanonicalItem}
    {before : List ModelInputRecord} {step : ModelInputRecord} {calls : List StoredCall}
    {usage total : UsageMetrics} (h : Underway g n sr history (before ++ [step]) calls)
    (hbefore : ∀ s ∈ before, s.completed = true) (hnone : step.usage = none)
    (hsum : UsageMetrics.checkedSum {} ((before ++ [step]).filterMap (·.usage) ++ [usage]) =
      some total) :
    Finished g (n + 1) total history
      (before ++ [{ step with completed := true, usage := some usage }]) calls where
  synced := ⟨by simpa using h.synced.stepIds, h.synced.distinct, h.synced.named⟩
  completed := fun s hs => by
    rcases List.mem_append.1 hs with hs | hs
    · exact hbefore s hs
    · rw [List.mem_singleton.1 hs]
  usage := by simpa [hnone] using hsum

/-! ## A segment of the batch -/

omit [External] [RequestSerde] [ToolJson] in
theorem forall₂_middle {α β : Type} {R : α → β → Prop} {as : List α} {before after : List β} {b : β}
    (h : List.Forall₂ R as (before ++ b :: after)) : ∃ pre a post, as = pre ++ a :: post ∧
      List.Forall₂ R pre before ∧ R a b ∧ List.Forall₂ R post after := by
  have hpre := List.forall₂_take_append as before (b :: after) h
  have hpost := List.forall₂_drop_append as before (b :: after) h
  obtain ⟨a, post, ha, hrest, heq⟩ := List.forall₂_cons_right_iff.1 hpost
  exact ⟨_, a, post, by rw [← heq, List.take_append_drop], hpre, ha, hrest⟩

omit [External] [RequestSerde] [ToolJson] in
theorem forall₂_insert {α β : Type} {R : α → β → Prop} {pre post : List α} {before after : List β}
    {a : α} {b : β} (hpre : List.Forall₂ R pre before) (h : R a b)
    (hpost : List.Forall₂ R post after) : List.Forall₂ R (pre ++ a :: post) (before ++ b :: after) :=
  List.rel_append hpre (.cons h hpost)

omit [External] [RequestSerde] [ToolJson] in
theorem forall₂_mem_left {α β : Type} {R : α → β → Prop} {as : List α} {bs : List β}
    (h : List.Forall₂ R as bs) {a : α} (ha : a ∈ as) : ∃ b ∈ bs, R a b := by
  obtain ⟨pre, post, rfl⟩ := List.append_of_mem ha
  obtain ⟨before, b, after, rfl, -, hr, -⟩ := forall₂_middle h.flip
  exact ⟨b, by simp, hr⟩

omit [External] [RequestSerde] [ToolJson] in
theorem forall₂_map_eq {α β γ : Type} {R : α → β → Prop} {as : List α} {bs : List β} {f : α → γ}
    {f' : β → γ} (h : List.Forall₂ R as bs) (hr : ∀ a b, R a b → f a = f' b) :
    as.map f = bs.map f' := by
  induction h with
  | nil => rfl
  | cons ha _ ih => rw [List.map_cons, List.map_cons, ih, hr _ _ ha]

omit [External] [RequestSerde] in
/-- With a journal, a segment that commits nothing leaves what the ledger holds of its call. -/
theorem CallStep.quiet {c : Coordinator} {cancelled : Bool} {free : Bool → Bool} {s s' : CallState}
    {e : CallEffect} (h : CallStep c cancelled free s e s') (hj : c.journalled = true)
    (hc : e.commit = none) : e.recorded = none ∧ e.finished = none := by
  cases h with
  | acquire phase guard token journal => rw [journal] at hj; cases hj
  | finish phase journal => rw [journal] at hj; cases hj
  | intent receipt phase => cases hc
  | outcome phase journal => cases hc
  | _ => exact ⟨rfl, rfl⟩

omit [External] [RequestSerde] in
theorem CallIn.quiet {c : Coordinator} {cancelled : Bool} {free : Bool → Bool} {s s' : CallState}
    {e : CallEffect} {stepId : String} {call : StoredCall} (h : CallIn stepId call s)
    (hstep : CallStep c cancelled free s e s') (hs : CallState.Ok c s)
    (hj : c.journalled = true) (hc : e.commit = none) : CallIn stepId call s' := by
  obtain ⟨hrecorded, hfinished⟩ := hstep.quiet hj hc
  obtain ⟨hopen, hresult⟩ := hstep.finished
  have hexec := hstep.execution hs
  rw [hrecorded, Option.toList_none, List.append_nil] at hexec
  have hsame : s'.execution = s.execution := by
    have hhead := congrArg List.head? hexec
    simpa using hhead
  refine ⟨(hstep.ok hs).2 ▸ h.call, h.step, h.open_, ?_, ?_⟩
  · rw [h.intent]
    exact hsame.symm
  · rw [h.outcome, hopen, hresult, hfinished]

omit [External] [RequestSerde] in
theorem Batch.Step.quiet {c : Coordinator} {items : List CanonicalItem} {b b' : Batch}
    {e : CallEffect} {stepId : String} {new : List StoredCall} (hstep : Batch.Step c b e b')
    (hinv : Batch.Inv c items b) (hj : c.journalled = true) (hc : e.commit = none)
    (h : List.Forall₂ (CallIn stepId) new b.calls) :
    List.Forall₂ (CallIn stepId) new b'.calls := by
  cases hstep with
  | @call before after s s' _ which segment =>
    have hs := hinv.calls s (by simp [which])
    rw [which] at h
    obtain ⟨pre, call, post, rfl, hpre, hcall, hpost⟩ := forall₂_middle h
    exact forall₂_insert hpre (hcall.quiet segment hs hj hc) hpost
  | _ => exact h

/-- What a segment of the batch commits: the intent of a call at that point, or the outcome of one
that has returned. -/
inductive BatchCommit (c : Coordinator) (b : Batch) (e : CallEffect) (b' : Batch) : Prop
  | intent {before after : List CallState} {s : CallState} {inv : Invocation}
      {receipt : Option CanonicalItem} (which : b.calls = before ++ s :: after)
      (phase : s.phase = .intending inv)
      (commit : e.commit = some (.dispatchIntent inv.callId inv.record, receipt))
      (calls : b'.calls = before ++ { s with phase := .announcing inv, execution := some inv.record }
        :: after)
  | outcome {before after : List CallState} {s : CallState} {id resultId callId : String}
      {output : CanonicalToolOutput} {isError : Bool} (which : b.calls = before ++ s :: after)
      (phase : s.phase = .settled (.toolResult id callId output isError))
      (commit : e.commit = some (.toolOutcome callId (.toolResult id callId output isError),
        some (.toolResult resultId callId output isError)))
      (calls : b'.calls = before ++
        { s with phase := .done (.toolResult resultId callId output isError) } :: after)

omit [External] [RequestSerde] in
theorem Batch.Step.commits {c : Coordinator} {b b' : Batch} {e : CallEffect}
    (hstep : Batch.Step c b e b') {op : RunMutation} {receipt : Option CanonicalItem}
    (hc : e.commit = some (op, receipt)) : BatchCommit c b e b' := by
  cases hstep with
  | @call before after s s' _ which segment =>
    cases segment with
    | intent receipt phase => exact .intent which phase rfl rfl
    | outcome phase journal => exact .outcome which phase rfl rfl
    | _ => cases hc
  | _ => cases hc

/-! ## The step lemmas -/

omit [External] [RequestSerde] [ToolJson] in
/-- The calls of a step, all waiting, against the entries it opened. -/
theorem start_in {stepId : String} {items : List CanonicalItem} : ∀ {new : List StoredCall},
    items.map (·.callId?) = new.map (some ·.callId) →
    (∀ c ∈ new, c.committed = false ∧ c.intent = none ∧ c.outcome = none ∧ c.stepId = stepId) →
    List.Forall₂ (CallIn stepId) new (Batch.start items).calls := by
  induction items with
  | nil =>
    intro new hids _
    obtain rfl : new = [] := by simpa using hids.symm
    exact .nil
  | cons item items ih =>
    intro new hids hnew
    cases new with
    | nil => cases hids
    | cons c new =>
      simp only [List.map_cons, List.cons.injEq] at hids
      obtain ⟨hopen, hintent, houtcome, hid⟩ := hnew c (by simp)
      exact .cons ⟨hids.1, hid, hopen, hintent, houtcome⟩
        (ih hids.2 fun d hd => hnew d (by simp [hd]))

omit [RequestSerde] in
/-- The end of a step: its calls are executed, or the turn ends. -/
theorem afterStep_in {g : Engine} {t : Turn} {n : Nat} {sr : StepRun}
    {history : List CanonicalItem} {steps : List ModelInputRecord} {calls old new : List StoredCall}
    (hh : history = t.session.history) (hf : Finished g (n + 1) t.usage history steps calls)
    (hcalls : calls = old ++ new) (hold : ∀ c ∈ old, c.committed = true)
    (hnew : ∀ c ∈ new, c.committed = false ∧ c.intent = none ∧ c.outcome = none ∧
      c.stepId = g.stepId n)
    (hids : new.map (·.callId) = sr.completed.filterMap (·.callId?)) :
    PhaseIn g (t.afterStep g n sr) history steps calls := by
  unfold Turn.afterStep
  split
  · exact trivial
  · rename_i hlimit
    split
    · exact trivial
    · have hcall : sr.calls.map (·.callId?) = new.map (some ·.callId) := by
        have hsome : ∀ i ∈ sr.calls, i.callId?.isSome := fun i hi => (List.mem_filter.1 hi).2
        rw [callIds_some hsome, sr.calls_callIds, ← hids, List.map_map]
        rfl
      exact ⟨hh, hf, hlimit, ⟨_, Batch.start_inv _ sr.calls⟩, old, new, hcalls, hold,
        start_in hcall hnew⟩

omit [ToolJson] in
/-- A request that was made: its step id, and the check of the history. -/
theorem request_ok {g : Engine} {session : ThreadSession} {n : Nat}
    {built : Except String ModelContext} {request : ModelRequest}
    (h : g.request session n built = .ok request) :
    session.checkHistoryLimit = .ok () ∧ request.stepId = g.stepId n := by
  obtain ⟨_, hlimit, h⟩ := bind_ok h
  refine ⟨hlimit, ?_⟩
  split at h
  · cases h
  · split at h
    · cases h
    · simp only at h
      split at h
      · cases h
      · obtain ⟨_, -, h⟩ := bind_ok h
        cases h
        rfl

omit [External] [RequestSerde] [ToolJson] in
theorem checkedTurnUsage_ok {total step sum : UsageMetrics}
    (h : checkedTurnUsage total step = .ok sum) : total.checkedAdd step = some sum := by
  obtain ⟨a, ha, h⟩ := orElse_bind_ok h
  obtain ⟨b, hb, h⟩ := orElse_bind_ok h
  obtain ⟨c, hc, h⟩ := orElse_bind_ok h
  obtain ⟨d, hd, h⟩ := orElse_bind_ok h
  obtain ⟨e, he, h⟩ := orElse_bind_ok h
  cases h
  simp [UsageMetrics.checkedAdd, ha, hb, hc, hd, he]

omit [External] [RequestSerde] [ToolJson] in
theorem checkedSum_snoc {us : List UsageMetrics} {total step sum : UsageMetrics}
    (h : UsageMetrics.checkedSum {} us = some total) (hs : total.checkedAdd step = some sum) :
    UsageMetrics.checkedSum {} (us ++ [step]) = some sum := by
  rw [UsageMetrics.checkedSum_append, h, Option.bind_some, UsageMetrics.checkedSum, hs]
  rfl

omit [External] [RequestSerde] [ToolJson] in
/-- The texts after an event that starts or extends an item. -/
theorem track_texts {sr : StepRun} {event : ModelEvent} {id : String} {p : String → Prop}
    (hid : ModelStepState.deltaId event = some id) (hn : (sr.texts.map (·.1)).Nodup)
    (hp : ∀ x ∈ sr.texts, p x.1) (hnew : p id) :
    ((sr.track event).texts.map (·.1)).Nodup ∧ ∀ x ∈ (sr.track event).texts, p x.1 := by
  have hinsert : ∀ (text : String) (phase : MessagePhase),
      ((sr.insertText id text phase).texts.map (·.1)).Nodup ∧
        ∀ x ∈ (sr.insertText id text phase).texts, p x.1 := by
    intro text phase
    constructor
    · refine List.nodup_cons.2 ⟨fun hm => ?_, hn.sublist ((List.filter_sublist).map _)⟩
      obtain ⟨x, hx, he⟩ := List.mem_map.1 hm
      simpa [he] using (List.mem_filter.1 hx).2
    · intro x hx
      rcases List.mem_cons.1 hx with rfl | hx
      · exact hnew
      · exact hp x (List.mem_filter.1 hx).1
  cases event with
  | itemStarted itemId itemType phase =>
    cases hid
    simp only [StepRun.track]
    split
    · exact hinsert _ _
    · exact ⟨hn, hp⟩
  | textDelta itemId delta =>
    cases hid
    simp only [StepRun.track]
    split <;> exact hinsert _ _
  | itemCompleted item => cases hid
  | stepFinished usage => cases hid
  | _ => exact ⟨hn, hp⟩

omit [External] [RequestSerde] [ToolJson] in
theorem StepRun.track_stepId (run : StepRun) (event : ModelEvent) :
    (run.track event).stepId = run.stepId := by
  unfold StepRun.track
  split
  · split <;> rfl
  · split <;> rfl
  · rfl

omit [External] [RequestSerde] [ToolJson] in
theorem StepRun.track_usage (run : StepRun) (event : ModelEvent) :
    (run.track event).usage = run.usage := by
  unfold StepRun.track
  split
  · split <;> rfl
  · split <;> rfl
  · rfl

omit [External] [RequestSerde] [ToolJson] in
theorem Batch.doneFrom_results {ss : List CallState} (index : Nat)
    (h : ∀ s ∈ ss, s.phase.result?.isSome) :
    ss.map (·.phase.result?) = ((Batch.doneFrom index ss).map (·.2)).map some := by
  induction ss generalizing index with
  | nil => rfl
  | cons s ss ih =>
    obtain ⟨r, hr⟩ := Option.isSome_iff_exists.1 (h s (by simp))
    rw [List.map_cons, ih (index + 1) fun t ht => h t (by simp [ht]), Batch.doneFrom, hr]
    rfl

omit [External] [RequestSerde] in
/-- The results of a completed batch are the outcomes of its entries. -/
theorem results_in {c : Coordinator} {items : List CanonicalItem} {b : Batch} {stepId : String}
    {new : List StoredCall} (hinv : Batch.Inv c items b) (hdone : b.complete = true)
    (h : List.Forall₂ (CallIn stepId) new b.calls) :
    (∀ c ∈ new, c.committed = false) ∧ new.map (·.outcome) = b.results.map some ∧
      new.map (some ·.callId) = b.results.map (·.resultId?) := by
  have hcall : ∀ i ∈ items, i.callId?.isSome := by
    rw [← hinv.items]
    intro i hi
    obtain ⟨s, hs, rfl⟩ := List.mem_map.1 hi
    obtain ⟨c, -, hin⟩ := forall₂_mem_left h.flip hs
    rw [hin.call]
    rfl
  have hresults : b.calls.map (·.phase.result?) = b.results.map some := by
    rw [Batch.results_eq hinv.completed]
    exact Batch.doneFrom_results 0 (Batch.complete_iff.1 hdone)
  refine ⟨fun c hc => ?_, ?_, ?_⟩
  · obtain ⟨s, -, hin⟩ := forall₂_mem_left h hc
    exact hin.open_
  · rw [← hresults]
    exact forall₂_map_eq h fun c s hin => hin.outcome
  · rw [hinv.results hcall hdone, ← hinv.items, List.map_map]
    exact forall₂_map_eq h fun c s hin => hin.call.symm

theorem PhaseIn.quiet {g : Engine} {t t' : Turn} {e : TurnEffect} {history : List CanonicalItem}
    {steps : List ModelInputRecord} {calls : List StoredCall} (h : PhaseIn g t history steps calls)
    (hj : g.coordinator.journalled = true) (hstep : Turn.Step g t e t') (hc : e.commit = none) :
    PhaseIn g t' history steps calls := by
  have hcommit : ∀ (op : RunMutation) (receipt : Option CanonicalItem),
      Turn.committed g op receipt ≠ none := fun op receipt => by simp [Turn.committed, hj]
  unfold PhaseIn at h
  cases hstep with
  | noSteps phase steps => exact trivial
  | unaccepted phase steps refused => exact trivial
  | accepted phase steps accepted =>
    rw [phase] at h
    obtain ⟨hs, hcalls, hh, hu⟩ := h
    rw [acceptTurn_history accepted]
    exact ⟨hs, hcalls, hh, hu, Nat.pos_of_ne_zero steps⟩
  | @input item rest phase =>
    rw [phase] at h
    obtain ⟨hs, hcalls, hh, hu, hmax⟩ := h
    refine ⟨hs, hcalls, ?_, hu, hmax⟩
    rw [hh]
    exact (List.append_assoc t.session.history [item] rest).symm
  | inputs phase =>
    rw [phase] at h
    obtain ⟨rfl, rfl, hh, hu, hmax⟩ := h
    refine ⟨by simpa using hh, ⟨⟨rfl, by simp, by simp⟩, by simp, ?_⟩, by simp, hmax⟩
    rw [hu]
    rfl
  | unrequested built phase refused => exact trivial
  | request built phase made =>
    rw [phase] at h
    obtain ⟨hh, hf, hcalls, hmax⟩ := h
    obtain ⟨hlimit, hid⟩ := request_ok made
    exact ⟨hh, hf, hcalls, hid, hlimit, hmax⟩
  | unserialized phase journal refused => exact trivial
  | stream receipt phase serialized => exact absurd hc (hcommit _ _)
  | streamFailed e phase => exact trivial
  | unobserved phase refused => exact trivial
  | unsupported phase observed refused => exact trivial
  | item receipt phase observed admitted => exact absurd hc (hcommit _ _)
  | overflow phase observed refused => exact trivial
  | @usage step run state usage total phase observed sum =>
    rw [phase] at h
    obtain ⟨hh, hu, hitems, hcalls, hn, htexts, hsum⟩ := h
    obtain ⟨hopen, rfl⟩ := ModelStepState.observe_finished observed
    rw [hopen, if_neg (by decide), List.append_nil] at hsum
    exact ⟨hh, hu.moved rfl rfl, hitems, hcalls, hn, htexts,
      checkedSum_snoc hsum (checkedTurnUsage_ok sum)⟩
  | @delta step run state event phase observed unrecorded unfinished =>
    rw [phase] at h
    obtain ⟨hh, hu, hitems, hcalls, hn, htexts, hsum⟩ := h
    obtain ⟨id, hid⟩ := ModelStepState.exists_deltaId unrecorded unfinished
    obtain ⟨hopen, hstate, hnew⟩ := ModelStepState.observe_delta observed hid
    have hcompleted := run.track_completed event
    have hstepId := run.track_stepId event
    have husage := run.track_usage event
    have hfresh : id ∉ history.map (·.id) := fun hm => by
      obtain ⟨i, hi, he⟩ := List.mem_map.1 hm
      exact hnew (he ▸ hitems i hi)
    refine ⟨hh, hu.moved hstepId hcompleted, ?_, ?_, ?_, ?_, ?_⟩
    · rw [hstate]
      exact hitems
    · rw [hstate]
      exact hcalls
    · exact (@track_texts run event id (fun _ => True) hid hn (fun _ _ => trivial) trivial).1
    · intro hnil
      exact (@track_texts run event id (· ∉ history.map (·.id)) hid hn (htexts (hcompleted ▸ hnil))
        hfresh).2
    · rw [hstate]
      show UsageMetrics.checkedSum {} (_ ++ if run.state.finished then [(run.track event).usage] else []) = _
      rw [husage]
      exact hsum
  | channelClosed phase => exact trivial
  | unexpectedEof phase unfinished => exact trivial
  | eof phase finished items =>
    rw [phase] at h
    obtain ⟨hh, hu, -, -, -, -, hsum⟩ := h
    rw [finished, if_pos rfl] at hsum
    exact ⟨hh, hu, hsum⟩
  | assemble phase finished items order =>
    rw [phase] at h
    obtain ⟨hh, hu, -, -, hn, htexts, hsum⟩ := h
    rw [finished, if_pos rfl] at hsum
    refine ⟨hh, hu, ?_, fun x hx => ?_, hsum⟩
    · exact (order.map (·.1)).nodup_iff.2 (hn.sublist (List.filter_sublist.map _))
    · exact htexts items x (List.mem_filter.1 (order.subset hx)).1
  | message receipt phase => exact absurd hc (hcommit _ _)
  | messages phase =>
    rw [phase] at h
    exact ⟨h.1, h.2.1, h.2.2.2.2⟩
  | finish receipt phase => exact absurd hc (hcommit _ _)
  | call phase segment =>
    rw [phase] at h
    obtain ⟨hh, hf, hlimit, ⟨items, hinv⟩, old, new, hcalls, hold, hnew⟩ := h
    exact ⟨hh, hf, hlimit, ⟨items, hinv.step segment⟩, old, new, hcalls, hold,
      segment.quiet hinv hj hc hnew⟩
  | called phase complete =>
    rw [phase] at h
    obtain ⟨hh, hf, -, ⟨items, hinv⟩, old, new, hcalls, hold, hnew⟩ := h
    obtain ⟨hopen, houtcomes, hids⟩ := results_in hinv complete hnew
    exact ⟨hh, hf, old, new, hcalls, hold, hopen, houtcomes, hids⟩
  | batch receipt phase => exact absurd hc (hcommit _ _)
  | @result step item rest phase =>
    rw [phase] at h
    obtain ⟨hh, hf, hcalls⟩ := h
    refine ⟨?_, hf, hcalls⟩
    rw [hh]
    exact (List.append_assoc t.session.history [item] rest).symm
  | results phase more =>
    rw [phase] at h
    obtain ⟨hh, hf, hcalls⟩ := h
    exact ⟨by simpa using hh, hf, hcalls, more⟩
  | exhausted phase last => exact trivial
  | refused attempt commit => exact trivial
  | cancelled running => exact trivial

/-- The run accepts the mutation, whatever ids and revision it is given, and the turn that takes its
receipt is in step with what it leaves. -/
def Takes (g : Engine) (t : Turn) (history : List CanonicalItem) (run : StoredRun)
    (op : RunMutation) (receipt : Option CanonicalItem) : Prop :=
  ∀ (revision : Nat) (fresh : FreshIds), ∃ run' history' ret,
    mutateRun revision history run fresh op = .ok (run', history', ret) ∧
    run'.snapshot = run.snapshot ∧
    (receipt = ret → PhaseIn g t history' run'.modelInputs run'.calls)

omit [RequestSerde] in
/-- The commit of a model input. -/
theorem takes_input {g : Engine} {t : Turn} {n : Nat} {stepId : String} {value : Value}
    {history : List CanonicalItem} {run : StoredRun} {receipt : Option CanonicalItem}
    (named : ∀ step, g.stepId step ≠ "") (distinct : ∀ m, m < n → g.stepId m ≠ g.stepId n)
    (object : value.isObject = true) (hh : history = t.session.history)
    (hf : Finished g n t.usage history run.modelInputs run.calls)
    (hcalls : ∀ c ∈ run.calls, c.committed = true) (hid : stepId = g.stepId n) :
    Takes g { t with phase := .streaming n { stepId, state := .new t.session.history } } history run
      (.modelInput stepId n value) receipt := by
  intro revision fresh
  have hlength : run.modelInputs.length = n := by
    have := congrArg List.length hf.synced.stepIds
    simpa using this
  have habsent : ∀ s ∈ run.modelInputs, s.stepId ≠ stepId := by
    intro s hs he
    have hmem : s.stepId ∈ run.modelInputs.map (·.stepId) := List.mem_map_of_mem hs
    rw [hf.synced.stepIds, he, hid] at hmem
    obtain ⟨m, hm, hmn⟩ := List.mem_map.1 hmem
    exact distinct m (List.mem_range.1 hm) hmn
  have hm := @mutateRun_input revision history run fresh stepId value (hid ▸ named n) object
    hf.completed hcalls habsent
  rw [hlength] at hm
  refine ⟨_, _, _, hm, rfl, fun _ => ?_⟩
  refine ⟨hh, ⟨⟨?_, hf.synced.distinct, hf.synced.named⟩, ⟨run.modelInputs, _, rfl, rfl, rfl, rfl,
    hf.completed⟩, hid, run.calls, [], by simp, hcalls, by simp, rfl⟩, ?_, ?_, by simp, by simp, ?_⟩
  · rw [List.map_append, hf.synced.stepIds, List.range_succ, List.map_append, hid]
    rfl
  · intro i hi
    rw [hh] at hi
    exact List.mem_map_of_mem hi
  · intro id hid
    rw [hh] at hid
    exact hid
  · simpa [newStep, ModelStepState.new] using hf.usage

omit [RequestSerde] in
/-- The commit of a model item: an item of the stream, or one assembled from its deltas. -/
theorem Underway.takes_item {g : Engine} {t : Turn} {n : Nat} {sr : StepRun} {item : CanonicalItem}
    {history : List CanonicalItem} {run : StoredRun} {receipt : Option CanonicalItem}
    (hu : Underway g n sr history run.modelInputs run.calls) (model : item.nonModel = false)
    (absent : item.id ∉ history.map (·.id))
    (call : ∀ callId, item.callId? = some callId →
      callId ≠ "" ∧ callId ∉ history.filterMap (·.callId?)) (state : ModelStepState)
    (hphase : ∀ calls, Underway g n { sr with state, completed := sr.completed ++ [item] }
      (history ++ [item]) run.modelInputs calls →
        PhaseIn g t (history ++ [item]) run.modelInputs calls) :
    Takes g t history run (.modelItem sr.stepId item) receipt := by
  intro revision fresh
  obtain ⟨before, step, hlast, hid, hrunning, -, -⟩ := hu.last
  have hm := @mutateRun_item revision history run fresh before step item hlast hrunning model absent
    call
  rw [hid] at hm
  exact ⟨_, _, _, hm, rfl, fun _ => hphase _ (hu.item fresh state fun c hc => (call c hc).2)⟩

omit [RequestSerde] in
/-- The commit of the step's end. -/
theorem Underway.takes_finish {g : Engine} {t : Turn} {n : Nat} {sr : StepRun}
    {history : List CanonicalItem} {run : StoredRun} {receipt : Option CanonicalItem}
    (hu : Underway g n sr history run.modelInputs run.calls) (hh : history = t.session.history)
    (hsum : UsageMetrics.checkedSum {} (run.modelInputs.filterMap (·.usage) ++ [sr.usage]) =
      some t.usage) :
    Takes g (t.afterStep g n sr) history run (.modelStepFinished sr.stepId sr.usage) receipt := by
  intro revision fresh
  obtain ⟨before, step, hlast, hid, hrunning, hnone, hbefore⟩ := hu.last
  obtain ⟨old, new, hcalls, hold, hnew, hids⟩ := hu.open_
  have hm := @mutateRun_finished revision history run fresh before step sr.usage t.usage hlast
    hrunning hsum
  rw [← hid]
  refine ⟨_, _, _, hm, rfl, fun _ => ?_⟩
  rw [hlast] at hu hsum
  exact afterStep_in hh (hu.finish hbefore hnone hsum) hcalls hold
    (fun c hc => by rw [← hu.stepId]; exact hnew c hc) hids

omit [RequestSerde] in
/-- The commit of a whole batch. -/
theorem takes_batch {g : Engine} {t : Turn} {n : Nat} {results : List CanonicalItem}
    {history : List CanonicalItem} {run : StoredRun} {old new : List StoredCall}
    {receipt : Option CanonicalItem} (hh : history = t.session.history)
    (hf : Finished g (n + 1) t.usage history run.modelInputs run.calls)
    (hcalls : run.calls = old ++ new) (hold : ∀ c ∈ old, c.committed = true)
    (hnew : ∀ c ∈ new, c.committed = false) (houtcomes : new.map (·.outcome) = results.map some)
    (hids : new.map (some ·.callId) = results.map (·.resultId?)) :
    Takes g { t with phase := .answering n results } history run
      (.toolBatch (results.filterMap (·.resultId?))) receipt := by
  intro revision fresh
  have hopen : run.calls.filter (!·.committed) = new := by
    rw [hcalls, List.filter_append, List.filter_eq_nil_iff.2 fun c hc => by simp [hold c hc],
      List.nil_append, List.filter_eq_self.2 fun c hc => by simp [hnew c hc]]
  have hcallIds : new.map (·.callId) = results.filterMap (·.resultId?) := by
    have := congrArg (List.filterMap id) hids
    simpa [List.filterMap_map, Function.comp_def] using this
  have hresults : new.filterMap (·.outcome) = results := by
    have := congrArg (List.filterMap id) houtcomes
    simpa [List.filterMap_map, Function.comp_def] using this
  have hcomplete : ∀ c ∈ run.calls, c.committed = false → c.outcome.isSome := by
    intro c hc hfalse
    have hc' : c ∈ new := by
      rw [hcalls] at hc
      rcases List.mem_append.1 hc with hc | hc
      · rw [hold c hc] at hfalse
        cases hfalse
      · exact hc
    have hmem : c.outcome ∈ results.map some := houtcomes ▸ List.mem_map_of_mem hc'
    obtain ⟨r, -, hr⟩ := List.mem_map.1 hmem
    rw [← hr]
    rfl
  have hm := @mutateRun_batch revision history run fresh (results.filterMap (·.resultId?))
    (hopen ▸ hcallIds) hcomplete
  rw [hopen, hresults] at hm
  refine ⟨_, _, _, hm, rfl, fun _ => ⟨by rw [hh], ⟨⟨hf.synced.stepIds, ?_, fun c hc => ?_⟩,
    hf.completed, hf.usage⟩, fun c hc => ?_⟩⟩
  · rw [List.map_map]
    exact hf.synced.distinct
  · obtain ⟨d, hd, rfl⟩ := List.mem_map.1 hc
    rw [List.filterMap_append]
    exact List.mem_append_left _ (hf.synced.named d hd)
  · obtain ⟨d, -, rfl⟩ := List.mem_map.1 hc
    rfl

omit [RequestSerde] in
/-- The commit of an intent or an outcome. -/
theorem takes_call {g : Engine} {t : Turn} {n : Nat} {b b' : Batch} {e : CallEffect}
    {items history : List CanonicalItem} {run : StoredRun} {old new : List StoredCall}
    {op : RunMutation} {receipt : Option CanonicalItem} (executions : List ToolExecutionRecord)
    (hh : history = t.session.history)
    (hf : Finished g (n + 1) t.usage history run.modelInputs run.calls)
    (hlimit : t.session.checkHistoryLimit = .ok ()) (hinv : Batch.Inv g.coordinator items b)
    (hcalls : run.calls = old ++ new) (hold : ∀ c ∈ old, c.committed = true)
    (hnew : List.Forall₂ (CallIn (g.stepId n)) new b.calls)
    (segment : Batch.Step g.coordinator b e b') (hc : e.commit = some (op, receipt)) :
    Takes g { t with phase := .calling n b', executions } history run op receipt := by
  have hinv' := hinv.step segment
  -- one entry of the ledger changes, and keeps its identity
  have hrest : ∀ {pre post : List StoredCall} {c c' : StoredCall} {before after : List CallState}
      {s' : CallState}, new = pre ++ c :: post → b'.calls = before ++ s' :: after →
      c'.callId = c.callId → List.Forall₂ (CallIn (g.stepId n)) pre before →
      CallIn (g.stepId n) c' s' → List.Forall₂ (CallIn (g.stepId n)) post after →
      PhaseIn g { t with phase := .calling n b', executions } history run.modelInputs
        ((old ++ pre) ++ c' :: post) := by
    intro pre post c c' before after s' hsplit hb hid hpre hin hpost
    refine ⟨hh, ⟨⟨hf.synced.stepIds, ?_, fun d hd => ?_⟩, hf.completed, hf.usage⟩, hlimit,
      ⟨items, hinv'⟩, old, pre ++ c' :: post, by simp, hold, ?_⟩
    · have := hf.synced.distinct
      rw [hcalls, hsplit] at this
      simpa [hid] using this
    · have hmem : ∃ d' ∈ run.calls, d'.callId = d.callId := by
        rw [hcalls, hsplit]
        rcases List.mem_append.1 hd with hd | hd
        · exact ⟨d, by rw [← List.append_assoc]; exact List.mem_append_left _ hd, rfl⟩
        · rcases List.mem_cons.1 hd with rfl | hd
          · exact ⟨c, by simp, hid.symm⟩
          · exact ⟨d, by simp [hd], rfl⟩
      obtain ⟨d', hd', he⟩ := hmem
      exact he ▸ hf.synced.named d' hd'
    · rw [hb]
      exact forall₂_insert hpre hin hpost
  have hfirst : ∀ {pre post : List StoredCall} {c : StoredCall}, new = pre ++ c :: post →
      ∀ d ∈ old ++ pre, d.callId ≠ c.callId := by
    intro pre post c hsplit d hd he
    have hn := hf.synced.distinct
    rw [hcalls, hsplit, ← List.append_assoc, List.map_append, List.map_cons] at hn
    exact (List.nodup_append.1 hn).2.2 d.callId (List.mem_map_of_mem hd) c.callId (by simp) he
  intro revision fresh
  cases segment.commits hc with
  | @intent before after s inv _ which phase commit calls =>
    rw [which] at hnew
    obtain ⟨pre, c, post, hsplit, hpre, hin, hpost⟩ := forall₂_middle hnew
    have hs := hinv.calls s (by simp [which])
    unfold CallState.Ok at hs
    rw [phase] at hs
    obtain ⟨hgated, hexec, -⟩ := hs
    obtain ⟨_, _, _, _, _, hitem, -⟩ := hgated.admitted.call
    have hid : inv.callId = c.callId := by
      have := hin.call
      rw [hitem] at this
      simpa [CanonicalItem.callId?] using this
    rw [hc] at commit
    obtain ⟨rfl, rfl⟩ : op = _ ∧ receipt = _ := by simpa using commit
    have hm := @mutateRun_intent revision history run fresh (old ++ pre) post c inv.record
      (by rw [hcalls, hsplit, List.append_assoc]) (hfirst hsplit) hid (hin.intent.trans hexec)
      (by rw [hin.outcome, phase]; rfl) (by rw [hin.step]; exact hf.stepCompleted)
    rw [hid]
    exact ⟨_, _, _, hm, rfl, fun _ => hrest hsplit calls rfl hpre
      ⟨hin.call, hin.step, hin.open_, rfl, by rw [hin.outcome, phase]; rfl⟩ hpost⟩
  | @outcome before after s id resultId callId output isError which phase commit calls =>
    rw [which] at hnew
    obtain ⟨pre, c, post, hsplit, hpre, hin, hpost⟩ := forall₂_middle hnew
    have hs := hinv.calls s (by simp [which])
    unfold CallState.Ok at hs
    rw [phase] at hs
    obtain ⟨⟨cid, hcid, hanswer⟩, -⟩ := hs
    cases hcid
    obtain rfl : callId = c.callId := hanswer _ hin.call
    rw [hc] at commit
    obtain ⟨rfl, rfl⟩ : op = _ ∧ receipt = _ := by simpa using commit
    have hm := @mutateRun_outcome revision history run fresh (old ++ pre) post c id output isError
      (by rw [hcalls, hsplit, List.append_assoc]) (hfirst hsplit)
      (by rw [hin.outcome, phase]; rfl) (by rw [hin.step]; exact hf.stepCompleted)
    refine ⟨_, _, _, hm, rfl, fun hreceipt => hrest hsplit calls rfl hpre
      ⟨hin.call, hin.step, hin.open_, hin.intent, ?_⟩ hpost⟩
    simpa [CallPhase.result?] using hreceipt.symm

theorem PhaseIn.commit {g : Engine} {t t' : Turn} {e : TurnEffect} {history : List CanonicalItem}
    {run : StoredRun} {op : RunMutation} {receipt : Option CanonicalItem}
    (h : PhaseIn g t history run.modelInputs run.calls) (hj : g.coordinator.journalled = true)
    (named : ∀ step, g.stepId step ≠ "")
    (distinct : ∀ m n, m < n → n < g.maxSteps → g.stepId m ≠ g.stepId n)
    (object : ∀ request value, RequestSerde.value request = .ok value → value.isObject = true)
    (hstep : Turn.Step g t e t') (hc : e.commit = some (op, receipt)) :
    Takes g t' history run op receipt := by
  have hcommit : ∀ {op' : RunMutation} {receipt' : Option CanonicalItem},
      Turn.committed g op' receipt' = some (op, receipt) → op = op' ∧ receipt = receipt' :=
    fun h => by
      simp only [Turn.committed, hj, if_true, Option.some.injEq, Prod.mk.injEq] at h
      exact ⟨h.1.symm, h.2.symm⟩
  unfold PhaseIn at h
  cases hstep with
  | stream receipt phase serialized =>
    obtain ⟨rfl, rfl⟩ := hcommit hc
    rw [phase] at h
    obtain ⟨hh, hf, hcalls, hid, -, hmax⟩ := h
    exact takes_input named (fun m hm => distinct m _ hm hmax) (object _ _ (serialized hj)) hh hf
      hcalls hid
  | @item step run' state item receipt phase observed admitted =>
    obtain ⟨rfl, rfl⟩ := hcommit hc
    rw [phase] at h
    obtain ⟨hh, hu, hitems, hcalls, hn, htexts, hsum⟩ := h
    have ho := ModelStepState.observe_item observed
    have habsent : item.id ∉ history.map (·.id) := fun hm => by
      obtain ⟨i, hi, he⟩ := List.mem_map.1 hm
      exact ho.fresh (he ▸ hitems i hi)
    have hcall : ∀ callId, item.callId? = some callId →
        callId ≠ "" ∧ callId ∉ history.filterMap (·.callId?) := fun callId hid =>
      ⟨ne_empty_of_not_blank (ho.call callId hid).1, fun hm => (ho.call callId hid).2.1 (hcalls _ hm)⟩
    refine hu.takes_item ho.model habsent hcall state fun calls hu' =>
      ⟨by rw [hh]; rfl, hu', fun i hi => ?_, fun id hid => ?_, hn, fun hnil => ?_, ?_⟩
    · rw [ho.itemIds]
      rcases List.mem_append.1 hi with hi | hi
      · exact List.mem_cons_of_mem _ (hitems i hi)
      · rw [List.mem_singleton.1 hi]
        exact List.mem_cons_self
    · rw [List.filterMap_append] at hid
      cases hcid : item.callId? with
      | none =>
        rw [ho.noCall hcid]
        rw [List.filterMap_cons, hcid] at hid
        exact hcalls id (by simpa using hid)
      | some callId =>
        rw [(ho.call callId hcid).2.2]
        rw [List.filterMap_cons, hcid] at hid
        rcases List.mem_append.1 hid with hid | hid
        · exact List.mem_cons_of_mem _ (hcalls id hid)
        · simp at hid
          simp [hid]
    · simp at hnil
    · rw [ho.open_] at hsum
      rw [show state.finished = false from ho.finished]
      exact hsum
  | @message step run' text rest receipt phase =>
    obtain ⟨rfl, rfl⟩ := hcommit hc
    rw [phase] at h
    obtain ⟨hh, hu, hn, hfresh, hsum⟩ := h
    refine hu.takes_item rfl (hfresh text (by simp)) (fun _ hid => (nomatch hid)) run'.state
      fun calls hu' => ⟨by rw [hh]; rfl, hu', ?_, fun x hx hm => ?_, hsum⟩
    · exact (List.nodup_cons.1 hn).2
    · rw [List.map_append] at hm
      rcases List.mem_append.1 hm with hm | hm
      · exact hfresh x (by simp [hx]) hm
      · have hne : x.1 ≠ text.1 := fun he =>
          (List.nodup_cons.1 hn).1 (List.mem_map.2 ⟨x, hx, he⟩)
        exact hne (by simpa [assembled, CanonicalItem.id] using hm)
  | finish receipt phase =>
    obtain ⟨rfl, rfl⟩ := hcommit hc
    rw [phase] at h
    exact h.2.1.takes_finish h.1 h.2.2
  | call phase segment =>
    rw [phase] at h
    obtain ⟨hh, hf, hlimit, ⟨items, hinv⟩, old, new, hcalls, hold, hnew⟩ := h
    exact takes_call _ hh hf hlimit hinv hcalls hold hnew segment hc
  | batch receipt phase =>
    obtain ⟨rfl, rfl⟩ := hcommit hc
    rw [phase] at h
    obtain ⟨hh, hf, old, new, hcalls, hold, hnew, houtcomes, hids⟩ := h
    exact takes_batch hh hf hcalls hold hnew houtcomes hids
  | _ => cases hc

end

end Whale
