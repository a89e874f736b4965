import Whale.Store.Proof.Recovery

/-!
# Usage accounting of the store

`checked_usage` adds usages one at a time and refuses as soon as a counter leaves `u64`; it computes
the exact sum of every counter and refuses exactly when one of the sums does not fit
(`UsageMetrics.checkedSum_iff`). The steps a run has completed always sum (`StoredRun.Accounted`), so
settlement never fails on usage and records that sum.
-/

namespace Whale

open Check

/-! ## Exact sums -/

namespace UsageMetrics

/-- The sum counter by counter, without a bound. -/
def add (t u : UsageMetrics) : UsageMetrics where
  inputTokens := t.inputTokens + u.inputTokens
  outputTokens := t.outputTokens + u.outputTokens
  reasoningTokens := t.reasoningTokens + u.reasoningTokens
  cacheCreationInputTokens := t.cacheCreationInputTokens + u.cacheCreationInputTokens
  cacheReadInputTokens := t.cacheReadInputTokens + u.cacheReadInputTokens

/-- The exact sum of every counter. -/
def exactSum (us : List UsageMetrics) : UsageMetrics where
  inputTokens := (us.map (·.inputTokens)).sum
  outputTokens := (us.map (·.outputTokens)).sum
  reasoningTokens := (us.map (·.reasoningTokens)).sum
  cacheCreationInputTokens := (us.map (·.cacheCreationInputTokens)).sum
  cacheReadInputTokens := (us.map (·.cacheReadInputTokens)).sum

/-- Every counter is a `u64`. -/
structure Fits (u : UsageMetrics) : Prop where
  inputTokens : u.inputTokens ≤ u64Max
  outputTokens : u.outputTokens ≤ u64Max
  reasoningTokens : u.reasoningTokens ≤ u64Max
  cacheCreationInputTokens : u.cacheCreationInputTokens ≤ u64Max
  cacheReadInputTokens : u.cacheReadInputTokens ≤ u64Max

theorem add_assoc (t u v : UsageMetrics) : (t.add u).add v = t.add (u.add v) := by
  simp only [add, Nat.add_assoc]

theorem exactSum_cons (u : UsageMetrics) (us : List UsageMetrics) :
    exactSum (u :: us) = u.add (exactSum us) := by
  simp only [exactSum, add, List.map_cons, List.sum_cons]

theorem exactSum_append (us vs : List UsageMetrics) :
    exactSum (us ++ vs) = (exactSum us).add (exactSum vs) := by
  simp only [exactSum, add, List.map_append, List.sum_append]

@[simp] theorem add_exactSum_nil (t : UsageMetrics) : t.add (exactSum []) = t := rfl

theorem empty_add (t : UsageMetrics) : ({} : UsageMetrics).add t = t := by
  simp only [add, Nat.zero_add]

theorem Fits.of_add {t u : UsageMetrics} (h : (t.add u).Fits) : t.Fits where
  inputTokens := (Nat.le_add_right _ _).trans h.inputTokens
  outputTokens := (Nat.le_add_right _ _).trans h.outputTokens
  reasoningTokens := (Nat.le_add_right _ _).trans h.reasoningTokens
  cacheCreationInputTokens := (Nat.le_add_right _ _).trans h.cacheCreationInputTokens
  cacheReadInputTokens := (Nat.le_add_right _ _).trans h.cacheReadInputTokens

theorem empty_fits : ({} : UsageMetrics).Fits :=
  ⟨Nat.zero_le _, Nat.zero_le _, Nat.zero_le _, Nat.zero_le _, Nat.zero_le _⟩

/-- `checked_add` of every counter succeeds exactly when every sum fits. -/
theorem checkedAdd_iff {t u s : UsageMetrics} :
    t.checkedAdd u = some s ↔ s = t.add u ∧ (t.add u).Fits := by
  constructor
  · intro h
    simp only [checkedAdd, Option.bind_eq_bind, Option.bind_eq_some_iff, checkedAdd64_some] at h
    obtain ⟨_, ⟨rfl, h1⟩, _, ⟨rfl, h2⟩, _, ⟨rfl, h3⟩, _, ⟨rfl, h4⟩, _, ⟨rfl, h5⟩, h⟩ := h
    exact ⟨(Option.some.inj h).symm, h1, h2, h3, h4, h5⟩
  · rintro ⟨rfl, h⟩
    simp only [checkedAdd, Option.bind_eq_bind, Option.bind_eq_some_iff, checkedAdd64_some]
    exact ⟨_, ⟨rfl, h.inputTokens⟩, _, ⟨rfl, h.outputTokens⟩, _, ⟨rfl, h.reasoningTokens⟩,
      _, ⟨rfl, h.cacheCreationInputTokens⟩, _, ⟨rfl, h.cacheReadInputTokens⟩, rfl⟩

/-- `checked_usage`: the exact sum, refused exactly when it does not fit. -/
theorem checkedSum_iff {s : UsageMetrics} : ∀ {us : List UsageMetrics} {t : UsageMetrics}, t.Fits →
    (checkedSum t us = some s ↔ s = t.add (exactSum us) ∧ s.Fits)
  | [], t, ht => by
    constructor
    · intro h
      cases h
      exact ⟨rfl, ht⟩
    · rintro ⟨rfl, -⟩
      rfl
  | u :: us, t, ht => by
    rw [exactSum_cons, ← add_assoc, checkedSum, Option.bind_eq_some_iff]
    constructor
    · rintro ⟨t', hadd, h⟩
      obtain ⟨rfl, hfits⟩ := checkedAdd_iff.mp hadd
      exact (checkedSum_iff hfits).mp h
    · rintro ⟨rfl, hfits⟩
      have hfirst : (t.add u).Fits := hfits.of_add
      exact ⟨_, checkedAdd_iff.mpr ⟨rfl, hfirst⟩, (checkedSum_iff hfirst).mpr ⟨rfl, hfits⟩⟩

theorem checkedSum_empty_iff {us : List UsageMetrics} {s : UsageMetrics} :
    checkedSum {} us = some s ↔ s = exactSum us ∧ s.Fits := by
  rw [checkedSum_iff empty_fits, empty_add]

end UsageMetrics

/-! ## What a step does to the usages -/

/-- The usage recorded for the run sums within `u64`, and a terminal snapshot has the sum. -/
structure StoredRun.Accounted (run : StoredRun) : Prop where
  fits : (UsageMetrics.exactSum run.usages).Fits
  terminal : run.snapshot.status.isTerminal = true →
    run.snapshot.usage = UsageMetrics.exactSum run.usages

namespace Ledger

/-- The usages recorded for a turn. -/
def usagesOf (l : Ledger) (turn : String) : List UsageMetrics :=
  match l.runs.get? turn with
  | some run => run.usages
  | none => []

theorem usagesOf_eq {l : Ledger} {turn : String} {run : StoredRun}
    (h : l.runs.get? turn = some run) : l.usagesOf turn = run.usages := by
  rw [usagesOf, h]

/-- Every run is accounted for. -/
def Accounted (l : Ledger) : Prop := ∀ run ∈ l.runs.values, run.Accounted

theorem Accounted.insert {l : Ledger} {turn : String} {run : StoredRun} (h : l.Accounted)
    (hrun : run.Accounted) (history : List CanonicalItem) (unknown : List UnknownExecution) :
    Accounted ⟨history, l.runs.insert turn run, unknown⟩ := by
  intro x hx
  obtain ⟨k, hk⟩ := OrdMap.mem_values_iff.1 hx
  rw [OrdMap.get?_insert] at hk
  split at hk
  · obtain rfl := Option.some.inj hk
    exact hrun
  · exact h x (OrdMap.mem_values hk)

theorem usagesOf_insert (l : Ledger) (turn t : String) (run : StoredRun)
    (history : List CanonicalItem) (unknown : List UnknownExecution) :
    usagesOf ⟨history, l.runs.insert turn run, unknown⟩ t =
      if turn = t then run.usages else l.usagesOf t := by
  unfold usagesOf
  rw [OrdMap.get?_insert]
  by_cases h : turn = t
  · rw [if_pos h, if_pos h]
  · rw [if_neg h, if_neg h]

/-- The usage an edit of the run of `turn` records. -/
def finishedUsage (op : RunMutation) : Option UsageMetrics :=
  match op with
  | .modelStepFinished _ usage => some usage
  | _ => none

/-- An edit records the usage it finishes a step with, and the usages still sum within `u64`. -/
theorem edit_usages {revision : Nat} {history history' : List CanonicalItem} {run run' : StoredRun}
    {fresh : FreshIds} {op : RunMutation} (hok : StepsOk revision run.modelInputs)
    (h : RunEdit revision history run fresh op run' history')
    (hfits : (UsageMetrics.exactSum run.usages).Fits) :
    run'.usages = run.usages ++ (finishedUsage op).toList ∧
      (UsageMetrics.exactSum run'.usages).Fits := by
  have hsame : ∀ {x : StoredRun}, x.usages = run.usages →
      x.usages = run.usages ++ [] ∧ (UsageMetrics.exactSum x.usages).Fits :=
    fun hx => ⟨hx.trans (List.append_nil _).symm, by rw [hx]; exact hfits⟩
  cases h with
  | input named object finished committed absent =>
    refine hsame ?_
    simp [StoredRun.usages, newStep]
  | @finished steps step usage total last running fits =>
    have husages := usages_finished usage hok last running
    obtain ⟨rfl, hnew⟩ := UsageMetrics.checkedSum_empty_iff.mp fits
    exact ⟨husages, by rw [husages]; exact hnew⟩
  | item => exact hsame rfl
  | call => exact hsame rfl
  | intent => exact hsame rfl
  | outcome => exact hsame rfl
  | batch => exact hsame rfl

theorem Settle.accounted {l l' : Ledger} {turn : String} (h : Settle l turn l')
    (ha : l.Accounted) : l'.Accounted ∧ ∀ t, l'.usagesOf t = l.usagesOf t := by
  cases h with
  | @mk run candidate usage found active thread same terminal fits =>
    obtain ⟨rfl, hfits⟩ := UsageMetrics.checkedSum_empty_iff.mp fits
    have hrun : (run.settled turn (l.history ++ settledResults run.calls)
        (UsageMetrics.exactSum run.usages) candidate).Accounted := ⟨hfits, fun _ => rfl⟩
    refine ⟨ha.insert hrun _ _, fun t => ?_⟩
    rw [usagesOf_insert]
    split
    · rename_i he
      rw [← he, usagesOf_eq found]
      rfl
    · rfl

theorem settles_accounted {l l' : Ledger} {turns : List String} (h : Lts.Run Settle l turns l')
    (ha : l.Accounted) : l'.Accounted ∧ ∀ t, l'.usagesOf t = l.usagesOf t :=
  h.invariant (fun x => x.Accounted ∧ ∀ t, x.usagesOf t = l.usagesOf t)
    (fun _ _ _ ⟨ha, hu⟩ hs =>
      ⟨(hs.accounted ha).1, fun t => ((hs.accounted ha).2 t).trans (hu t)⟩) ⟨ha, fun _ => rfl⟩

/-- The usage of a finished step, if it is one of the turn. -/
def usageFor (turn : String) (finished : Option (String × UsageMetrics)) : Option UsageMetrics :=
  finished.bind fun p => if p.1 = turn then some p.2 else none

/-- A step keeps the runs accounted for and records the usage of the model step it finishes. -/
theorem Change.accounted {revision : Nat} {l l' : Ledger} {e : Label} (h : Change revision l e l')
    (hok : l.Ok revision) (ha : l.Accounted) :
    l'.Accounted ∧ ∀ t, l'.usagesOf t = l.usagesOf t ++ (usageFor t e.finished).toList := by
  cases h with
  | @accept params snapshot options absent idle resolved thread turn active result distinct =>
    have hrun : (acceptedRun params snapshot options l.history.length).Accounted :=
      ⟨UsageMetrics.empty_fits, fun ht => absurd (active.symm.trans ht) Bool.false_ne_true⟩
    refine ⟨ha.insert hrun _ _, fun t => ?_⟩
    rw [usagesOf_insert]
    split
    · rename_i he
      simp only [usagesOf, ← he, absent]
      rfl
    · exact (List.append_nil _).symm
  | @update turn fresh op run run' history found active edit =>
    have hmem := OrdMap.mem_values found
    obtain ⟨husages, hfits⟩ := edit_usages (hok.steps run hmem) edit (ha run hmem).fits
    have hrun : (run'.refresh history).Accounted := by
      refine ⟨hfits, fun ht => ?_⟩
      have hstatus : run'.snapshot.status.isTerminal = true := ht
      rw [edit.frame.snapshot, active] at hstatus
      cases hstatus
    refine ⟨ha.insert hrun _ _, fun t => ?_⟩
    rw [usagesOf_insert]
    have hlabel : usageFor t (Label.update turn fresh op).finished =
        if turn = t then finishedUsage op else none := by
      cases op <;> simp [usageFor, Label.finished, finishedUsage]
    rw [hlabel]
    split
    · rename_i he
      rw [← he, usagesOf_eq found]
      exact husages
    · exact (List.append_nil _).symm
  | settle settles =>
    obtain ⟨ha', hsame⟩ := settles_accounted settles ha
    exact ⟨ha', fun t => (hsame t).trans (List.append_nil _).symm⟩
  | acknowledge => exact ⟨ha, fun t => (List.append_nil _).symm⟩

end Ledger

/-! ## Reachable records -/

section
variable [External]

/-- The usages of the accepted `ModelStepFinished` commits of a turn. -/
def finishedUsages (turn : String) (cs : List Committed) : List UsageMetrics :=
  cs.filterMap fun c => Ledger.usageFor turn c.finished

/-- The record is valid, its runs are accounted for, and their usages are those committed. -/
structure UsageKept (cs : List Committed) (r : SessionRecord) : Prop where
  valid : Valid r
  accounted : r.ledger.Accounted
  committed : r.forgotten = false → ∀ turn, r.ledger.usagesOf turn = finishedUsages turn cs

theorem UsageKept.start {r : SessionRecord} (h : Created r) : UsageKept [] r := by
  refine ⟨h.valid, ?_, fun _ turn => ?_⟩
  · rw [h.ledger]
    exact fun run hr => absurd hr (by simp)
  · rw [h.ledger]
    simp [Ledger.usagesOf, finishedUsages]

omit [External] in
theorem finishedUsages_snoc (turn : String) (cs : List Committed) (c : Committed) :
    finishedUsages turn (cs ++ [c]) =
      finishedUsages turn cs ++ (Ledger.usageFor turn c.finished).toList := by
  rw [finishedUsages, List.filterMap_append]
  cases h : Ledger.usageFor turn c.finished <;> simp [h, finishedUsages]

theorem UsageKept.write {cs : List Committed} {r r' : SessionRecord} {c : Committed}
    (h : UsageKept cs r) (hw : Write r c r') : UsageKept (cs ++ [c]) r' := by
  have hrep := hw.replaces
  cases hkeeps : c.1.keeps with
  | true =>
    obtain ⟨label, hchange, -, hfinished⟩ := Keep.change ⟨hw, hkeeps⟩
    obtain ⟨haccounted, husages⟩ := hchange.accounted h.valid.ledger h.accounted
    refine ⟨hrep.valid, haccounted, fun hlive turn => ?_⟩
    have hbefore : r.forgotten = false := by
      cases hf : r.forgotten with
      | false => rfl
      | true =>
        have hkept := hrep.forgotten hf
        rw [hlive] at hkept
        cases hkept
    rw [husages, h.committed hbefore, finishedUsages_snoc, hfinished]
  | false =>
    obtain ⟨-, -, -, now, reason, revision, -, hs⟩ := retire_submit hkeeps hw.submitted
    obtain ⟨-, hnew, -⟩ := Submission.mk.inj hs
    have hruns : r'.ledger.runs = .empty := by rw [hnew]; rfl
    have hforgotten : r'.forgotten = true := by rw [hnew]; rfl
    refine ⟨hrep.valid, fun run hr => ?_, fun hlive => ?_⟩
    · rw [hruns] at hr
      exact absurd hr (by simp)
    · rw [hforgotten] at hlive
      cases hlive

theorem UsageKept.run {cs ds : List Committed} {r r' : SessionRecord} (h : UsageKept cs r)
    (hrun : Lts.Run Write r ds r') : UsageKept (cs ++ ds) r' := by
  induction hrun generalizing cs with
  | nil => simpa using h
  | @cons r r₁ r₂ c ds hs _ ih => simpa using ih (h.write hs)

omit [External] in
/-- The usages of a run are those of its completed steps. -/
theorem usages_completed {revision : Nat} {run : StoredRun} (hok : StepsOk revision run.modelInputs) :
    run.usages = (run.modelInputs.filter (·.completed)).filterMap (·.usage) := by
  rw [StoredRun.usages, List.filterMap_filter]
  refine List.filterMap_congr fun s hs => ?_
  have hiff := hok.usage s hs
  cases hu : s.usage with
  | none => simp
  | some u => simp [hiff, hu]

theorem UsageKept.recover {cs : List Committed} {r : SessionRecord} (h : UsageKept cs r) :
    ∃ p, r.recover = .ok p := by
  cases hf : r.forgotten with
  | true => exact ⟨_, by rw [SessionRecord.recover, if_pos hf]⟩
  | false =>
    have hfits : ∀ run ∈ r.runs.values, ∃ total, UsageMetrics.checkedSum {} run.usages = some total :=
      fun run hr => ⟨_, UsageMetrics.checkedSum_empty_iff.mpr ⟨rfl, (h.accounted run hr).fits⟩⟩
    obtain ⟨r', hr'⟩ := recoverTurns_ok (h.valid.settleable hfits) (nodup_activeTurns r)
    exact ⟨_, by rw [SessionRecord.recover, if_neg (by simp [hf]), hr', ok_bind]⟩

/-- `finalize` fails only for a candidate of another run; what it returns has the exact sum. -/
theorem UsageKept.finalize {cs : List Committed} {r : SessionRecord} (h : UsageKept cs r)
    {turn : String} {run : StoredRun} (found : r.runs.get? turn = some run)
    (candidate : RunSnapshot) :
    r.finalize turn candidate = .error (.invalid "Invalid terminal identity/status") ∨
    ∃ f r', r.finalize turn candidate = .ok (f, r') ∧
      f.snapshot.usage = UsageMetrics.exactSum run.usages ∧
      ∃ result, f.snapshot.result = some result ∧
        result.usage = UsageMetrics.exactSum run.usages := by
  have hmem := OrdMap.mem_values found
  have hacc := h.accounted run hmem
  rw [SessionRecord.finalize, found, orElse_some, ok_bind]
  cases hactive : run.snapshot.status.isTerminal with
  | true =>
    obtain ⟨result, hresult⟩ :=
      Option.isSome_iff_exists.1 ((h.valid.ledger.runs turn run found).result hactive)
    have husage := hacc.terminal hactive
    refine .inr ⟨_, _, if_pos rfl, husage, result, hresult, ?_⟩
    exact (h.valid.ledger.results run hmem result hresult).usage.trans husage
  | false =>
    rw [if_neg Bool.false_ne_true]
    cases hc : candidate.threadId != run.params.threadId || candidate.turnId != turn ||
        !candidate.status.isTerminal with
    | true => exact .inl rfl
    | false =>
      have hsum := UsageMetrics.checkedSum_empty_iff.mpr ⟨rfl, hacc.fits⟩
      simp only [refuse_false, ok_bind, checkedUsage, hsum, orElse_some]
      exact .inr ⟨_, _, rfl, rfl, _, rfl, rfl⟩

end

end Whale
