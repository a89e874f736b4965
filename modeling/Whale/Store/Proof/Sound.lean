import Whale.Store.Proof.Effect

/-!
# Sound ledgers

What the ledger of a reachable record satisfies beyond `validate`, so that every step leads to a
ledger `validate` accepts again and settlement cannot fail (`Ledger.Sound`). The ids the store
generates are those in `G`; callers supply ids outside `G`.
-/

namespace Whale

open Check

namespace Ledger

/-- The ledger invariant. -/
structure Sound (G : String → Prop) (l : Ledger) : Prop where
  early : l.NoEarlyResult
  generated : ∀ c ∈ l.calls, G c.resultItemId
  history : ∀ i ∈ l.history, G i.id → ∃ c ∈ l.calls, c.committed = true ∧ c.resultItemId = i.id
  usage : ∀ run ∈ l.runs.values, ∃ total, UsageMetrics.checkedSum {} run.usages = some total
  params : ∀ run ∈ l.runs.values, run.params.nanTemperature = false

/-- The inputs of a step: caller ids are outside `G`, generated ids are new and in `G`, and no
temperature is a NaN. -/
def Good (G : String → Prop) (l : Ledger) : Label → Prop
  | .accept params => params.nanTemperature = false ∧ ∀ i ∈ params.inputItems, ¬ G i.id
  | .update turn fresh (.modelItem step item) =>
    ¬ G item.id ∧ G fresh.resultItemId ∧ l.Fresh (.update turn fresh (.modelItem step item))
  | _ => True

theorem Good.fresh {G : String → Prop} {l : Ledger} {e : Label} (h : l.Good G e) : l.Fresh e := by
  cases e with
  | update turn fresh op =>
    cases op with
    | modelItem step item => exact h.2.2
    | modelInput => trivial
    | modelStepFinished => trivial
    | dispatchIntent => trivial
    | toolOutcome => trivial
    | toolBatch => trivial
  | accept => trivial
  | settle => trivial
  | acknowledge => trivial

theorem Sound.init (G : String → Prop) : Sound G ⟨[], .empty, []⟩ where
  early := by simp [NoEarlyResult]
  generated := by simp [calls]
  history := by simp
  usage := by simp
  params := by simp

/-- A generated id in the history is a committed result's, so open calls have theirs to themselves. -/
theorem Sound.resultsFresh {G : String → Prop} {revision : Nat} {l : Ledger} (h : l.Sound G)
    (hok : l.Ok revision) : l.ResultsFresh := by
  intro c hc hcm hm
  obtain ⟨i, hi, he⟩ := List.mem_map.1 hm
  obtain ⟨d, hd, hdm, hde⟩ := h.history i hi (he ▸ h.generated c hc)
  have : d = c := call_unique hok.resultIds hd hc (hde.trans he)
  rw [this, hcm] at hdm
  cases hdm

theorem Sound.self_eq {G : String → Prop} {l : Ledger} (h : l.Sound G) :
    ∀ run ∈ l.runs.values, (run.params == run.params) = true := fun run hr => by
  rw [StartTurnParams.beq_self, h.params run hr]
  rfl

/-- Replacing a run keeps the invariant. -/
theorem Sound.insert {G : String → Prop} {l : Ledger} {turn : String} {run run' : StoredRun}
    (h : l.Sound G) (items : List CanonicalItem) (unknown : List UnknownExecution)
    (found : l.runs.get? turn = some run)
    (hearly : run'.snapshot.status.isTerminal = false → run'.snapshot.result = none)
    (hkept : CallsKept run.calls run'.calls) (hgen : ∀ c ∈ run'.calls, G c.resultItemId)
    (hitems : ∀ i ∈ items, G i.id → ∃ c ∈ run'.calls, c.committed = true ∧ c.resultItemId = i.id)
    (husage : ∃ total, UsageMetrics.checkedSum {} run'.usages = some total)
    (hparams : run'.params = run.params) :
    Sound G ⟨l.history ++ items, l.runs.insert turn run', unknown⟩ := by
  have hmem : ∀ x ∈ (l.runs.insert turn run').values, x = run' ∨ x ∈ l.runs.values := by
    intro x hx
    obtain ⟨k, hk⟩ := OrdMap.mem_values_iff.1 hx
    rw [OrdMap.get?_insert] at hk
    split at hk
    · exact .inl (Option.some.inj hk).symm
    · exact .inr (OrdMap.mem_values hk)
  refine ⟨fun x hx => ?_, fun c hc => ?_, fun i hi hg => ?_, fun x hx => ?_, fun x hx => ?_⟩
  · rcases hmem x hx with rfl | hx
    · exact hearly
    · exact h.early x hx
  · rcases mem_calls_insert.1 hc with hc | ⟨t, x, -, ht, hc⟩
    · exact hgen c hc
    · exact h.generated c (mem_calls.2 ⟨t, x, ht, hc⟩)
  · rcases List.mem_append.1 hi with hi | hi
    · obtain ⟨c, hc, hcm, hce⟩ := h.history i hi hg
      obtain ⟨t, x, ht, hc⟩ := mem_calls.1 hc
      by_cases he : t = turn
      · subst he
        rw [found] at ht
        cases ht
        obtain ⟨d, hd, hk⟩ := hkept c hc
        exact ⟨d, mem_calls_insert.2 (.inl hd), hk.committed hcm, hk.resultItemId.trans hce⟩
      · exact ⟨c, mem_calls_insert.2 (.inr ⟨t, x, he, ht, hc⟩), hcm, hce⟩
    · obtain ⟨c, hc, hcm⟩ := hitems i hi hg
      exact ⟨c, mem_calls_insert.2 (.inl hc), hcm⟩
  · rcases hmem x hx with rfl | hx
    · exact husage
    · exact h.usage x hx
  · rcases hmem x hx with rfl | hx
    · rw [hparams]; exact h.params run (OrdMap.mem_values found)
    · exact h.params x hx

/-- The results a batch or a settlement records have the result ids of the calls they commit. -/
theorem settled_items {history : List CanonicalItem} {steps : List String} {calls new : List StoredCall}
    (hok : ∀ c ∈ calls, CallOk history steps c)
    (hnew : ∀ c ∈ calls, ∃ d ∈ new, d.committed = true ∧ d.resultItemId = c.resultItemId) :
    ∀ i ∈ settledResults calls, ∃ d ∈ new, d.committed = true ∧ d.resultItemId = i.id := by
  intro i hi
  have hid : i.id ∈ (settledResults calls).map (·.id) := List.mem_map_of_mem hi
  rw [settledResults_ids hok] at hid
  obtain ⟨c, hc, he⟩ := List.mem_map.1 hid
  obtain ⟨d, hd, hdm, hde⟩ := hnew c (List.mem_filter.1 hc).1
  exact ⟨d, hd, hdm, hde.trans he⟩

theorem Settle.sound {G : String → Prop} {revision : Nat} {l l' : Ledger} {turn : String}
    (h : Settle l turn l') (hok : l.Ok revision) (hs : l.Sound G) : l'.Sound G := by
  cases h with
  | @mk run candidate usage found active thread same terminal fits =>
    have hmem := OrdMap.mem_values found
    refine hs.insert _ _ found (fun ht => ?_) (.map fun c _ => settle_kept c) (fun d hd => ?_)
      (fun i hi _ => settled_items (hok.calls run hmem) (fun c hc => ?_) i hi) (hs.usage run hmem) rfl
    · have hterm := terminalSnapshot_terminal turn run (l.history ++ settledResults run.calls) usage
        candidate terminal
      exact absurd (hterm.symm.trans ht) (by simp)
    · obtain ⟨c, hc, rfl⟩ := List.mem_map.1 hd
      exact hs.generated c (mem_calls.2 ⟨_, _, found, hc⟩)
    · exact ⟨c.settle, List.mem_map_of_mem hc, rfl, rfl⟩

theorem settles_sound {G : String → Prop} {revision : Nat} {l l' : Ledger} {turns : List String}
    (h : Lts.Run Settle l turns l') (hok : l.Ok revision) (hs : l.Sound G) :
    l'.Ok revision ∧ l'.Sound G :=
  h.invariant (fun l => l.Ok revision ∧ l.Sound G)
    (fun _ _ _ ⟨ho, hs⟩ ht => ⟨ht.ok ho (hs.resultsFresh ho), ht.sound ho hs⟩) ⟨hok, hs⟩

/-- The usages of a run grow by the usage of a finished step. -/
theorem usages_finished {revision : Nat} {run : StoredRun} {steps : List ModelInputRecord}
    {step : ModelInputRecord} (usage : UsageMetrics) (hok : StepsOk revision run.modelInputs)
    (last : run.modelInputs = steps ++ [step]) (running : step.completed = false) :
    StoredRun.usages { run with
      modelInputs := steps ++ [{ step with completed := true, usage := some usage }] } =
      run.usages ++ [usage] := by
  have hnone : step.usage = none := by
    have := hok.usage step (by simp [last])
    rw [running] at this
    simpa using this.symm
  simp [StoredRun.usages, last, hnone]

theorem edit_sound {G : String → Prop} {revision : Nat} {l : Ledger} {turn : String}
    {run run' : StoredRun} {fresh : FreshIds} {op : RunMutation} {history : List CanonicalItem}
    (hok : l.Ok revision) (hs : l.Sound G) (found : l.runs.get? turn = some run)
    (active : run.snapshot.status.isTerminal = false)
    (edit : RunEdit revision l.history run fresh op run' history)
    (hgood : l.Good G (.update turn fresh op)) :
    Sound G { l with history, runs := l.runs.insert turn (run'.refresh history) } := by
  have hmem := OrdMap.mem_values found
  have hf := edit.frame
  have hearly : ∀ items, (run'.refresh items).snapshot.status.isTerminal = false →
      (run'.refresh items).snapshot.result = none := fun items _ => by
    show run'.snapshot.result = none
    rw [hf.snapshot]
    exact hs.early run hmem active
  have hgen : ∀ c ∈ run.calls, G c.resultItemId :=
    fun c hc => hs.generated c (mem_calls.2 ⟨_, _, found, hc⟩)
  have hkept := hf.calls
  have hparams := hf.params
  have husage := hs.usage run hmem
  -- the edits that leave the history and the ids
  have hplain : history = l.history → (∀ c ∈ run'.calls, G c.resultItemId) →
      (∃ total, UsageMetrics.checkedSum {} run'.usages = some total) →
      Sound G { l with history, runs := l.runs.insert turn (run'.refresh history) } := by
    intro hh hg hu
    have := hs.insert [] l.unknown found (hearly history) hkept hg
      (fun i hi => (nomatch hi)) hu hparams
    rw [List.append_nil] at this
    rw [hh] at this ⊢
    exact this
  cases edit with
  | input named object finished committed absent =>
    refine hplain rfl hgen ?_
    simpa [StoredRun.usages, newStep] using husage
  | finished last running fits =>
    refine hplain rfl hgen ?_
    rw [usages_finished _ (hok.steps run hmem) last running]
    exact ⟨_, fits⟩
  | @intent pre post d execution split first same once open_ finished =>
    refine hplain rfl (fun c hc => ?_) husage
    rw [split] at hgen
    simp only [List.mem_append, List.mem_cons] at hc hgen
    rcases hc with hc | rfl | hc
    · exact hgen c (.inl hc)
    · exact hgen d (.inr (.inl rfl))
    · exact hgen c (.inr (.inr hc))
  | @outcome pre post d id output isError split first finished same =>
    refine hplain rfl (fun c hc => ?_) husage
    rw [split] at hgen
    simp only [List.mem_append, List.mem_cons] at hc hgen
    rcases hc with hc | rfl | hc
    · exact hgen c (.inl hc)
    · exact hgen d (.inr (.inl rfl))
    · exact hgen c (.inr (.inr hc))
  | item last running model plain absent =>
    refine hs.insert _ _ found (hearly _) hkept hgen (fun i hi hg => ?_) husage hparams
    rw [List.mem_singleton.1 hi] at hg
    exact absurd hg hgood.1
  | call last running absent named first =>
    refine hs.insert _ _ found (hearly _) hkept (fun c hc => ?_) (fun i hi hg => ?_) husage hparams
    · rcases List.mem_append.1 hc with hc | hc
      · exact hgen c hc
      · rw [List.mem_singleton.1 hc]
        exact hgood.2.1
    · rw [List.mem_singleton.1 hi] at hg
      exact absurd hg hgood.1
  | batch complete =>
    rw [filterMap_outcome_eq complete]
    refine hs.insert _ _ found (hearly _) hkept (fun d hd => ?_)
      (fun i hi _ => settled_items (hok.calls run hmem) (fun c hc => ?_) i hi) husage hparams
    · obtain ⟨c, hc, rfl⟩ := List.mem_map.1 hd
      exact hgen c hc
    · exact ⟨_, List.mem_map_of_mem hc, rfl, rfl⟩

/-- Every step with good inputs keeps the invariant. -/
theorem Change.sound {G : String → Prop} {revision : Nat} {l l' : Ledger} {e : Label}
    (h : Change revision l e l') (hok : l.Ok revision) (hs : l.Sound G) (hgood : l.Good G e) :
    l'.Sound G := by
  cases h with
  | @accept params snapshot options absent idle resolved thread turn active result distinct =>
    have hcalls : Ledger.calls { l with
        history := l.history ++ params.inputItems
        runs := l.runs.insert params.turnId (acceptedRun params snapshot options l.history.length) } =
        l.calls := calls_absent absent _ rfl
    have hmem : ∀ x ∈ (l.runs.insert params.turnId
        (acceptedRun params snapshot options l.history.length)).values,
        x = acceptedRun params snapshot options l.history.length ∨ x ∈ l.runs.values := by
      intro x hx
      obtain ⟨k, hk⟩ := OrdMap.mem_values_iff.1 hx
      rw [OrdMap.get?_insert] at hk
      split at hk
      · exact .inl (Option.some.inj hk).symm
      · exact .inr (OrdMap.mem_values hk)
    refine ⟨fun x hx => ?_, hcalls ▸ hs.generated, fun i hi hg => ?_, fun x hx => ?_, fun x hx => ?_⟩
    · rcases hmem x hx with rfl | hx
      · exact fun _ => result
      · exact hs.early x hx
    · rw [hcalls]
      rcases List.mem_append.1 hi with hi | hi
      · exact hs.history i hi hg
      · exact absurd hg (hgood.2 i hi)
    · rcases hmem x hx with rfl | hx
      · exact ⟨_, rfl⟩
      · exact hs.usage x hx
    · rcases hmem x hx with rfl | hx
      · exact hgood.1
      · exact hs.params x hx
  | update found active edit => exact edit_sound hok hs found active edit hgood
  | settle settles => exact (settles_sound settles hok hs).2
  | acknowledge => exact ⟨hs.early, hs.generated, hs.history, hs.usage, hs.params⟩

end Ledger

end Whale
