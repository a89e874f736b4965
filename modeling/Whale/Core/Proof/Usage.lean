import Whale.Core.Proof.Journaled
import Whale.Store.Proof.Usage

/-!
# Usage accounting of the engine

The engine adds the usage of each step to its total, the store sums the usages of all steps. Both
compute the exact sum and refuse when it does not fit, so they refuse the same step
(`InStep.refuses`), and at the end of a turn the two totals agree (`usage_exact`).
-/

namespace Whale

open Check

/-! ## The engine's sum -/

/-- `checked_usage` of the engine succeeds exactly when every sum fits. -/
theorem checkedTurnUsage_ok_iff {total step sum : UsageMetrics} :
    checkedTurnUsage total step = .ok sum ↔ sum = total.add step ∧ (total.add step).Fits := by
  constructor
  · exact fun h => UsageMetrics.checkedAdd_iff.mp (checkedTurnUsage_ok h)
  · rintro ⟨rfl, h⟩
    have hadd : ∀ {a b : Nat}, a + b ≤ u64Max → UsageMetrics.checkedAdd64 a b = some (a + b) :=
      fun h => UsageMetrics.checkedAdd64_some.mpr ⟨rfl, h⟩
    simp only [checkedTurnUsage, hadd h.inputTokens, hadd h.outputTokens, hadd h.reasoningTokens,
      hadd h.cacheCreationInputTokens, hadd h.cacheReadInputTokens, orElse_some, ok_bind]
    rfl

/-- The usage of the model step whose `StepFinished` a step of the turn takes. -/
def TurnEffect.finished (e : TurnEffect) : Option UsageMetrics :=
  match e.event with
  | some (.stepFinished usage) => some usage
  | _ => none

/-- The usages of the `StepFinished` events taken, in order. -/
def finishedEvents (es : List TurnEffect) : List UsageMetrics := es.filterMap (·.finished)

theorem finishedEvents_snoc (es : List TurnEffect) (e : TurnEffect) :
    finishedEvents (es ++ [e]) = finishedEvents es ++ e.finished.toList := by
  rw [finishedEvents, List.filterMap_append]
  cases h : e.finished <;> simp [h, finishedEvents]

/-! ## One step -/

section
variable [External] [RequestSerde] [ToolJson] {g : Engine} {session : ThreadSession}
  {r : SessionRecord}

/-- A turn that has ended takes no step. -/
theorem Turn.Step.not_ended {t t' : Turn} {e : TurnEffect} (h : Turn.Step g t e t') :
    ∀ result, t.phase ≠ .ended result := by
  intro result hr
  induction h with
  | refused attempt commit ih => exact ih
  | cancelled running => exact running result hr
  | _ => simp_all

/-- A step adds the usage of the `StepFinished` it takes. -/
theorem Turn.Step.usage_eq {t t' : Turn} {e : TurnEffect} (h : Turn.Step g t e t') :
    e.finished.toList.foldlM checkedTurnUsage t.usage = .ok t'.usage := by
  cases h with
  | usage phase observed sum =>
    show (checkedTurnUsage _ _ >>= fun u => .ok u) = _
    rw [sum]
    rfl
  | @delta step run state event phase observed unrecorded unfinished =>
    cases event with
    | stepFinished usage => exact absurd rfl (unfinished usage)
    | _ => rfl
  | finish receipt phase =>
    unfold Turn.afterStep
    split
    · rfl
    · split <;> rfl
  | _ => rfl

omit [RequestSerde] [ToolJson] in
theorem Turn.afterStep_completed {t : Turn} {n : Nat} {sr : StepRun} {result : TurnResult}
    (hr : (t.afterStep g n sr).phase = .ended (.ok result)) :
    result = g.result t n ∧ t.afterStep g n sr = { t with phase := .ended (.ok result) } := by
  unfold Turn.afterStep at hr ⊢
  cases hlimit : t.session.checkHistoryLimit with
  | error e =>
    rw [hlimit] at hr
    cases hr
  | ok u =>
    rw [hlimit] at hr
    cases hcalls : sr.calls.isEmpty with
    | true =>
      simp only [hcalls, if_true] at hr ⊢
      cases hr
      exact ⟨rfl, rfl⟩
    | false =>
      simp only [hcalls, Bool.false_eq_true, if_false] at hr
      cases hr

/-- A turn completes with the commit that finishes its last model step. -/
theorem Turn.Step.completed {t t' : Turn} {e : TurnEffect} {result : TurnResult}
    (h : Turn.Step g t e t') (hr : t'.phase = .ended (.ok result)) :
    ∃ n sr receipt, t.phase = .finishing n sr ∧ result = g.result t n ∧
      t' = { t with phase := .ended (.ok result) } ∧
      e.commit = Turn.committed g (.modelStepFinished sr.stepId sr.usage) receipt := by
  cases h with
  | @finish n sr receipt phase =>
    obtain ⟨hresult, hafter⟩ := Turn.afterStep_completed hr
    exact ⟨n, sr, receipt, phase, hresult, hafter, rfl⟩
  | _ => cases hr

/-- A step that fails while the model streams commits nothing and keeps the total. -/
theorem Turn.Step.stream_failed {t t' : Turn} {e : TurnEffect} {n : Nat} {sr : StepRun}
    {err : CoreError} (h : Turn.Step g t e t') (hp : t.phase = .streaming n sr)
    (hr : t'.phase = .ended (.error err)) : e.commit = none ∧ t'.usage = t.usage := by
  cases h with
  | finish receipt phase =>
    rw [hp] at phase
    cases phase
  | stream | item | usage | delta | message | call | batch => cases hr
  | _ => exact ⟨rfl, rfl⟩

/-- A `StepFinished` that is taken has a sum. -/
theorem Turn.Step.taken {t t' : Turn} {e : TurnEffect} {usage : UsageMetrics}
    (h : Turn.Step g t e t') (he : e.event = some (.stepFinished usage)) :
    ∃ total, checkedTurnUsage t.usage usage = .ok total := by
  cases h with
  | usage phase observed sum =>
    cases he
    exact ⟨_, sum⟩
  | delta phase observed unrecorded unfinished => exact absurd (Option.some.inj he) (unfinished usage)
  | _ => cases he

/-! ## The turn and its record -/

theorem Journaled.Step.turn {j j' : Journaled} {e : TurnEffect} (h : Journaled.Step g j e j') :
    Turn.Step g j.turn e j'.turn := by
  cases h with
  | quiet step commit => exact step
  | commit inp revision step commit accepted => exact step

/-- The turn's total is the sum of the usages it took, and a completed turn's is the sum of the steps
its record has completed. -/
structure Counted (g : Engine) (es : List TurnEffect) (j : Journaled) : Prop where
  folded : (finishedEvents es).foldlM checkedTurnUsage {} = .ok j.turn.usage
  completed : ∀ result, j.turn.phase = .ended (.ok result) → result.totalUsage = j.turn.usage ∧
    ∃ run, j.record.runs.get? g.context.turnId = some run ∧
      UsageMetrics.checkedSum {} run.usages = some j.turn.usage

omit [RequestSerde] in
/-- The record that takes the end of the step under way has the turn's total. -/
theorem InStep.finish {j : Journaled} (h : InStep g session.limits j) {n : Nat} {sr : StepRun}
    (phase : j.turn.phase = .finishing n sr) {fresh : FreshIds} {ret : Option CanonicalItem}
    {r' : SessionRecord}
    (accepted : j.record.mutate g.context.turnId (.modelStepFinished sr.stepId sr.usage) fresh =
      .ok (ret, r')) :
    ∃ run, r'.runs.get? g.context.turnId = some run ∧
      UsageMetrics.checkedSum {} run.usages = some j.turn.usage := by
  obtain ⟨run, hrun, hactive, hphase⟩ := h.run
  unfold PhaseIn at hphase
  rw [phase] at hphase
  obtain ⟨-, hu, hsum⟩ := hphase
  obtain ⟨before, step, hlast, hid, hrunning, hnone, -⟩ := hu.last
  have hm := @mutateRun_finished j.record.revision j.record.history run fresh before step sr.usage
    j.turn.usage hlast hrunning hsum
  rw [hid] at hm
  rw [mutate_eq hrun hactive hm] at accepted
  obtain ⟨_, -, accepted⟩ := bind_ok accepted
  cases accepted
  refine ⟨_, OrdMap.get?_insert_self _ _ _, ?_⟩
  rw [hlast] at hsum
  simpa [StoredRun.refresh, StoredRun.usages, hnone] using hsum

omit [External] [RequestSerde] [ToolJson] in
theorem Counted.start (g : Engine) (session : ThreadSession) (r : SessionRecord) :
    Counted g [] ⟨Turn.start session, r⟩ := ⟨rfl, fun _ hr => (nomatch hr)⟩

theorem Counted.step (hb : Journaled.Begun g session r) {es : List TurnEffect} {j j' : Journaled}
    {e : TurnEffect} (h : Counted g es j) (hi : InStep g session.limits j)
    (hstep : Journaled.Step g j e j') : Counted g (es ++ [e]) j' := by
  have hturn := hstep.turn
  refine ⟨?_, fun result hr => ?_⟩
  · rw [finishedEvents_snoc, List.foldlM_append, h.folded, ok_bind]
    exact hturn.usage_eq
  · obtain ⟨n, sr, receipt, phase, hresult, hafter, hcommit⟩ := hturn.completed hr
    rw [Turn.committed, if_pos hb.journal] at hcommit
    have husage : j'.turn.usage = j.turn.usage := by rw [hafter]
    refine ⟨by rw [hresult, husage]; rfl, ?_⟩
    rw [husage]
    cases hstep with
    | quiet step commit =>
      rw [commit] at hcommit
      cases hcommit
    | commit inp revision step commit accepted =>
      rw [commit] at hcommit
      obtain ⟨rfl, -⟩ := Prod.mk.inj (Option.some.inj hcommit)
      obtain ⟨run, hrun, hsum⟩ := hi.finish phase accepted
      exact ⟨run, hrun, hsum⟩

theorem Counted.run (hb : Journaled.Begun g session r) {es fs : List TurnEffect} {j j' : Journaled}
    (h : Counted g es j) (hi : InStep g session.limits j)
    (hrun : Lts.Run (Journaled.Step g) j fs j') :
    Counted g (es ++ fs) j' ∧ InStep g session.limits j' := by
  induction hrun generalizing es with
  | nil => exact ⟨by simpa using h, hi⟩
  | @cons s t u e fs hstep _ ih =>
    have := ih (h.step hb hi hstep) (hi.step hb hstep)
    simpa using this

omit [RequestSerde] in
/-- While the model streams, the engine and the record refuse the same usages. -/
theorem InStep.refuses {j : Journaled} (h : InStep g session.limits j) {n : Nat} {sr : StepRun}
    {state : ModelStepState} {usage : UsageMetrics} (phase : j.turn.phase = .streaming n sr)
    (observed : sr.state.observe (.stepFinished usage) = .ok state) (fresh : FreshIds) :
    ((∃ e, checkedTurnUsage j.turn.usage usage = .error e) ∧
      j.record.mutate g.context.turnId (.modelStepFinished sr.stepId usage) fresh =
        .error (.invalid "Model usage exceeds u64 range")) ∨
    ((∃ total, checkedTurnUsage j.turn.usage usage = .ok total) ∧
      ∃ p, j.record.mutate g.context.turnId (.modelStepFinished sr.stepId usage) fresh = .ok p) := by
  obtain ⟨run, hrun, hactive, hphase⟩ := h.run
  unfold PhaseIn at hphase
  rw [phase] at hphase
  obtain ⟨-, hu, -, -, -, -, hsum⟩ := hphase
  obtain ⟨hopen, -⟩ := ModelStepState.observe_finished observed
  rw [hopen, if_neg (by decide), List.append_nil] at hsum
  obtain ⟨htotal, hfits⟩ := UsageMetrics.checkedSum_empty_iff.mp hsum
  obtain ⟨before, step, hlast, hid, hrunning, hnone, -⟩ := hu.last
  have hexact : UsageMetrics.exactSum (run.usages ++ [usage]) = j.turn.usage.add usage := by
    rw [UsageMetrics.exactSum_append, htotal]
    rfl
  have hlimits : j.record.checkLimits (.modelStepFinished sr.stepId usage) = .ok () := rfl
  by_cases hadd : (j.turn.usage.add usage).Fits
  · have hm := @mutateRun_finished j.record.revision j.record.history run fresh before step usage
      _ hlast hrunning (UsageMetrics.checkedSum_empty_iff.mpr ⟨hexact.symm, hadd⟩)
    rw [hid] at hm
    have hmutate := mutate_eq hrun hactive hm
    rw [hlimits, ok_bind] at hmutate
    exact .inr ⟨⟨_, checkedTurnUsage_ok_iff.mpr ⟨rfl, hadd⟩⟩, _, hmutate⟩
  · refine .inl ⟨?_, ?_⟩
    · cases hc : checkedTurnUsage j.turn.usage usage with
      | error e => exact ⟨e, rfl⟩
      | ok total => exact absurd (checkedTurnUsage_ok_iff.mp hc).2 hadd
    · have hnosum : UsageMetrics.checkedSum {} (run.usages ++ [usage]) = none := by
        cases hc : UsageMetrics.checkedSum {} (run.usages ++ [usage]) with
        | none => rfl
        | some total =>
          obtain ⟨rfl, hf⟩ := UsageMetrics.checkedSum_empty_iff.mp hc
          rw [hexact] at hf
          exact absurd hf hadd
      rw [SessionRecord.mutate, hlimits, ok_bind, hrun, orElse_some, ok_bind, hactive, refuse_false,
        ok_bind, mutateRun, checkedUsage, hnosum]
      rfl

/-- The engine takes a `StepFinished` exactly when the record would. -/
theorem InStep.refusal {j : Journaled} (h : InStep g session.limits j) {n : Nat} {sr : StepRun}
    {state : ModelStepState} {usage : UsageMetrics} (phase : j.turn.phase = .streaming n sr)
    (observed : sr.state.observe (.stepFinished usage) = .ok state) (fresh : FreshIds) :
    ((∃ e j', Journaled.Step g j e j' ∧ e.event = some (.stepFinished usage)) ↔
      ∃ p, j.record.mutate g.context.turnId (.modelStepFinished sr.stepId usage) fresh = .ok p) ∧
    ((∃ e, checkedTurnUsage j.turn.usage usage = .error e) ↔
      j.record.mutate g.context.turnId (.modelStepFinished sr.stepId usage) fresh =
        .error (.invalid "Model usage exceeds u64 range")) := by
  have htaken : (∃ e j', Journaled.Step g j e j' ∧ e.event = some (.stepFinished usage)) ↔
      ∃ total, checkedTurnUsage j.turn.usage usage = .ok total := by
    constructor
    · rintro ⟨e, j', hstep, he⟩
      exact hstep.turn.taken he
    · rintro ⟨total, hsum⟩
      exact ⟨_, _, .quiet (.usage phase observed hsum) rfl, rfl⟩
  rw [htaken]
  rcases h.refuses phase observed fresh with ⟨⟨e, he⟩, hm⟩ | ⟨⟨total, ht⟩, p, hm⟩
  · rw [he, hm]
    exact ⟨iff_of_false (fun ⟨_, h⟩ => nomatch h) (fun ⟨_, h⟩ => nomatch h),
      iff_of_true ⟨e, rfl⟩ rfl⟩
  · rw [ht, hm]
    exact ⟨iff_of_true ⟨total, rfl⟩ ⟨p, rfl⟩,
      iff_of_false (fun ⟨_, h⟩ => nomatch h) (fun h => nomatch h)⟩

/-- A step that fails while the model streams keeps the total and the record, and ends the turn. -/
theorem Journaled.Step.stream_failed {j j' : Journaled} {e : TurnEffect} {n : Nat} {sr : StepRun}
    {err : CoreError} (h : Journaled.Step g j e j') (phase : j.turn.phase = .streaming n sr)
    (ended : j'.turn.phase = .ended (.error err)) :
    j'.turn.usage = j.turn.usage ∧ j'.record = j.record ∧ ∀ e' j'', ¬ Journaled.Step g j' e' j'' := by
  obtain ⟨hnone, husage⟩ := h.turn.stream_failed phase ended
  refine ⟨husage, ?_, fun e' j'' h' => h'.turn.not_ended _ ended⟩
  cases h with
  | quiet step commit => rfl
  | commit inp revision step commit accepted =>
    rw [hnone] at commit
    cases commit

omit [RequestSerde] [ToolJson] in
/-- What a record reachable from a created one holds of the usage of its runs. -/
theorem UsageKept.exact {cs : List Committed} {r : SessionRecord} (h : UsageKept cs r)
    {turn : String} {run : StoredRun} (found : r.runs.get? turn = some run) :
    run.usages = finishedUsages turn cs ∧
      (run.modelInputs.filter (·.completed)).filterMap (·.usage) = run.usages ∧
      (UsageMetrics.exactSum run.usages).Fits ∧
      (run.snapshot.status.isTerminal = true →
        run.snapshot.usage = UsageMetrics.exactSum run.usages ∧
        ∃ result, run.snapshot.result = some result ∧
          result.usage = UsageMetrics.exactSum run.usages) := by
  have hmem := OrdMap.mem_values found
  have hlive : r.forgotten = false := by
    cases hf : r.forgotten with
    | false => rfl
    | true =>
      obtain ⟨-, -, hruns, -⟩ := h.valid.tombstone hf
      rw [OrdMap.get?_eq_some_iff, hruns] at found
      cases found
  have hcommitted := h.committed hlive turn
  rw [Ledger.usagesOf_eq found] at hcommitted
  refine ⟨hcommitted, (usages_completed (h.valid.ledger.steps run hmem)).symm,
    (h.accounted run hmem).fits, fun hterm => ?_⟩
  have husage := (h.accounted run hmem).terminal hterm
  obtain ⟨result, hresult⟩ :=
    Option.isSome_iff_exists.1 ((h.valid.ledger.runs turn run found).result hterm)
  exact ⟨husage, result, hresult,
    (h.valid.ledger.results run hmem result hresult).usage.trans husage⟩

omit [RequestSerde] [ToolJson] in
/-- A step whose usage does not fit reaches no exchange. -/
theorem overflow_unsubmitted {r : SessionRecord} {turn stepId : String} {run : StoredRun}
    {usage : UsageMetrics} (found : r.runs.get? turn = some run)
    (hover : ¬ (UsageMetrics.exactSum (run.usages ++ [usage])).Fits) (lease : Lease) (inp : Inputs)
    (s : Submission) :
    (Writer.journal lease inp (.commit turn (.modelStepFinished stepId usage))).submit r ≠
      some s := by
  intro hs
  obtain ⟨-, -, response, r₁, next, happly, -, -⟩ := journal_submit hs
  obtain ⟨⟨item, r₂⟩, hm, -⟩ := bind_ok happly
  obtain ⟨_, -, hm⟩ := bind_ok hm
  obtain ⟨run', hrun, hm⟩ := orElse_bind_ok hm
  obtain rfl : run = run' := Option.some.inj (found.symm.trans hrun)
  obtain ⟨-, hm⟩ := refuse_bind_ok hm
  obtain ⟨_, hm, -⟩ := bind_ok hm
  obtain ⟨total, hsum, -⟩ := orElse_bind_ok hm
  obtain ⟨rfl, hfits⟩ := UsageMetrics.checkedSum_empty_iff.mp hsum
  exact hover hfits

/-- In every record that calls reach from a created one, the usages of a run's completed steps are
those of its accepted `ModelStepFinished` commits; each counter's sum fits in `u64`; a terminal
snapshot and its result hold that exact sum; `recover` succeeds, and `finalize` refuses nothing but a
candidate of another identity or status; a step whose usage does not fit is not submitted.

In every run of a journalled turn the engine's total is the fold of `checked_usage` over the
`StepFinished` events, and that of a completed turn is the exact sum of its record's completed steps.
While the model streams, the engine takes a `StepFinished` exactly when the record would, and its sum
overflows exactly when the record's does; a refusal leaves the total and the record as they are and
ends the turn. -/
theorem usage_exact :
    (∀ (r₀ r : SessionRecord) (cs : List Committed), Created r₀ → Lts.Run Write r₀ cs r →
      (∃ p, r.recover = .ok p) ∧
      ∀ turn run, r.runs.get? turn = some run →
        (run.usages = finishedUsages turn cs ∧
          (run.modelInputs.filter (·.completed)).filterMap (·.usage) = run.usages ∧
          (UsageMetrics.exactSum run.usages).Fits ∧
          (run.snapshot.status.isTerminal = true →
            run.snapshot.usage = UsageMetrics.exactSum run.usages ∧
            ∃ result, run.snapshot.result = some result ∧
              result.usage = UsageMetrics.exactSum run.usages)) ∧
        (∀ candidate,
          r.finalize turn candidate = .error (.invalid "Invalid terminal identity/status") ∨
          ∃ f r', r.finalize turn candidate = .ok (f, r') ∧
            f.snapshot.usage = UsageMetrics.exactSum run.usages ∧
            ∃ result, f.snapshot.result = some result ∧
              result.usage = UsageMetrics.exactSum run.usages) ∧
        ∀ stepId usage, ¬ (UsageMetrics.exactSum (run.usages ++ [usage])).Fits → ∀ lease inp s,
          (Writer.journal lease inp (.commit turn (.modelStepFinished stepId usage))).submit r ≠
            some s) ∧
    ∀ (g : Engine) (session : ThreadSession) (r : SessionRecord) (es : List TurnEffect)
      (j : Journaled), Journaled.Begun g session r →
      Lts.Run (Journaled.Step g) ⟨Turn.start session, r⟩ es j →
      (finishedEvents es).foldlM checkedTurnUsage {} = .ok j.turn.usage ∧
      (∀ result, j.turn.phase = .ended (.ok result) → result.totalUsage = j.turn.usage ∧
        ∃ run, j.record.runs.get? g.context.turnId = some run ∧
          UsageMetrics.exactSum run.usages = result.totalUsage) ∧
      (∀ n sr state usage fresh, j.turn.phase = .streaming n sr →
        sr.state.observe (.stepFinished usage) = .ok state →
        ((∃ e j', Journaled.Step g j e j' ∧ e.event = some (.stepFinished usage)) ↔
          ∃ p, j.record.mutate g.context.turnId (.modelStepFinished sr.stepId usage) fresh =
            .ok p) ∧
        ((∃ e, checkedTurnUsage j.turn.usage usage = .error e) ↔
          j.record.mutate g.context.turnId (.modelStepFinished sr.stepId usage) fresh =
            .error (.invalid "Model usage exceeds u64 range"))) ∧
      ∀ n sr e j' err, j.turn.phase = .streaming n sr → Journaled.Step g j e j' →
        j'.turn.phase = .ended (.error err) →
        j'.turn.usage = j.turn.usage ∧ j'.record = j.record ∧
          ∀ e' j'', ¬ Journaled.Step g j' e' j'' := by
  refine ⟨fun r₀ r cs h₀ hrun => ?_, fun g session r es j hb hrun => ?_⟩
  · have hkept : UsageKept cs r := (UsageKept.start h₀).run hrun
    exact ⟨hkept.recover, fun turn run found => ⟨hkept.exact found, hkept.finalize found,
      fun stepId usage hover lease inp s => overflow_unsubmitted found hover lease inp s⟩⟩
  · obtain ⟨hcounted, hin⟩ := (Counted.start g session r).run hb hb.inStep hrun
    refine ⟨hcounted.folded, fun result hr => ?_, fun n sr state usage fresh hp hobs => ?_,
      fun n sr e j' err hp hstep hr => ?_⟩
    · obtain ⟨htotal, run, found, hsum⟩ := hcounted.completed result hr
      rw [htotal]
      exact ⟨rfl, run, found, (UsageMetrics.checkedSum_empty_iff.mp hsum).1.symm⟩
    · exact hin.refusal hp hobs fresh
    · exact hstep.stream_failed hp hr

end

namespace Sample

/-- The commit of the first model input, on the record with a limit of 340 bytes. -/
def firstInput : Except StoreError (Option CanonicalItem × SessionRecord) :=
  @SessionRecord.mutate limitedExternal (begun 340) "turn" (.modelInput firstStep 0 limitedValue)
    inputs.fresh

theorem firstInput_ok : ∃ r, firstInput = .ok (none, r) := by
  have h : (firstInput.map (·.1)).toOption = some none := by decide +kernel
  cases hm : firstInput with
  | error e =>
    rw [hm] at h
    cases h
  | ok p =>
    rw [hm] at h
    exact ⟨p.2, by rw [← Option.some.inj h]⟩

/-- The commit of the end of the first step. -/
def firstFinished (r : SessionRecord) : Except StoreError (Option CanonicalItem × SessionRecord) :=
  @SessionRecord.mutate limitedExternal (written r inputs 9) "turn"
    (.modelStepFinished firstStep { inputTokens := 5 }) inputs.fresh

theorem firstFinished_ok {r : SessionRecord} (h : firstInput = .ok (none, r)) :
    ∃ p, firstFinished r = .ok p := by
  have hok : (firstInput >>= fun p => firstFinished p.2).isOk = true := by decide +kernel
  rw [h, ok_bind] at hok
  cases hf : firstFinished r with
  | error e =>
    rw [hf] at hok
    cases hok
  | ok p => exact ⟨p, rfl⟩

end Sample

/-- A detached record recovers; a turn whose first step streams takes the usage of its end. -/
theorem usage_exact_sample :
    (∃ p, Sample.outcome.2.recover = .ok p) ∧
    ∃ r e j', Sample.firstInput = .ok (none, r) ∧
      Sample.journalStep ⟨Sample.limitedStream 340, written r Sample.inputs 9⟩ e j' ∧
      e.event = some (.stepFinished { inputTokens := 5 }) := by
  obtain ⟨r, hr⟩ := Sample.firstInput_ok
  refine ⟨((@usage_exact Sample.external Sample.limitedSerde Sample.toolJson).1 _ _ _
    Sample.record_created (Sample.outcome_run.mono fun h => h.1)).1, r, ?_⟩
  have hstream : Sample.journalStep ⟨Sample.requestedTurn 340, Sample.begun 340⟩
      { commit := some (.modelInput Sample.firstStep 0 Sample.limitedValue, none) }
      ⟨Sample.limitedStream 340, written r Sample.inputs 9⟩ :=
    @Journaled.Step.commit Sample.limitedExternal Sample.limitedSerde Sample.toolJson
      Sample.journalling ⟨Sample.requestedTurn 340, Sample.begun 340⟩ _ _ _ _ _ Sample.inputs 9
      (Sample.input_step 340) rfl hr
  obtain ⟨-, -, hrefused, -⟩ := (@usage_exact Sample.limitedExternal Sample.limitedSerde
    Sample.toolJson).2 Sample.journalling _ _ _ _ Sample.begunAt_340.journaled
    ((Sample.requested_run (by decide)).snoc hstream)
  obtain ⟨p, hp⟩ := Sample.firstFinished_ok hr
  obtain ⟨e, j', hstep, he⟩ := (hrefused 0 _ _ { inputTokens := 5 } Sample.inputs.fresh rfl
    rfl).1.mpr ⟨p, hp⟩
  exact ⟨e, j', hr, hstep, he⟩

end Whale
