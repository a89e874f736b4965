import Whale.Store.Proof.Replace

/-!
# The ledger conditions are kept

Every step of the ledger machine keeps the ledger conditions of `validate` (`Ledger.Change.ok`),
provided the ids it generates are new (`Ledger.Fresh`) and no result id is used for another item
(`Ledger.ResultsFresh`), and it only adds to the ledger (`Ledger.Change.grows`).
-/

namespace Whale

open Check

/-! ## Calls that keep what they recorded -/

/-- Every call is still there. -/
def CallsKept (calls new : List StoredCall) : Prop := ∀ c ∈ calls, ∃ d ∈ new, CallKept c d

namespace CallsKept

theorem refl (calls : List StoredCall) : CallsKept calls calls := fun c hc => ⟨c, hc, .refl c⟩

theorem map {calls : List StoredCall} {f : StoredCall → StoredCall}
    (h : ∀ c ∈ calls, CallKept c (f c)) : CallsKept calls (calls.map f) :=
  fun c hc => ⟨f c, List.mem_map_of_mem hc, h c hc⟩

theorem set {pre post : List StoredCall} {c d : StoredCall} (h : CallKept c d) :
    CallsKept (pre ++ c :: post) (pre ++ d :: post) := by
  intro x hx
  rw [List.mem_append, List.mem_cons] at hx
  rcases hx with hx | rfl | hx
  · exact ⟨x, by simp [hx], .refl x⟩
  · exact ⟨d, by simp, h⟩
  · exact ⟨x, by simp [hx], .refl x⟩

theorem append (calls new : List StoredCall) : CallsKept calls (calls ++ new) :=
  fun c hc => ⟨c, List.mem_append_left _ hc, .refl c⟩

end CallsKept

theorem find?_of_nodup {calls : List StoredCall} {d : StoredCall} (hd : d ∈ calls)
    (hn : (calls.map (·.callId)).Nodup) : calls.find? (·.callId == d.callId) = some d := by
  induction calls with
  | nil => simp at hd
  | cons c calls ih =>
    rw [List.map_cons, List.nodup_cons] at hn
    rw [List.find?_cons]
    rcases List.mem_cons.1 hd with rfl | hd
    · simp
    · have hne : (c.callId == d.callId) = false := by
        simpa using fun he : c.callId = d.callId => hn.1 (he ▸ List.mem_map_of_mem hd)
      rw [hne]
      exact ih hd hn.2

theorem CallKept.isUnknown {c d : StoredCall} {u : UnknownExecution} (h : CallKept c d)
    (hu : c.isUnknown u = true) : d.isUnknown u = true := by
  simp only [StoredCall.isUnknown, Bool.and_eq_true, beq_iff_eq, Option.isSome_iff_exists] at hu ⊢
  obtain ⟨⟨⟨h1, h2⟩, e, he⟩, o, ho⟩ := hu
  exact ⟨⟨⟨h.executionId.trans h1, h.callId.trans h2⟩, e, h.intent e he⟩, o, h.outcome o ho⟩

theorem settle_kept (c : StoredCall) : CallKept c c.settle :=
  ⟨rfl, rfl, rfl, rfl, rfl, fun _ h => h, fun o h => by simp [StoredCall.settle, StoredCall.settledOutcome, h],
    fun _ => rfl⟩

/-- What an edit leaves of the run and the history. -/
structure EditFrame (history : List CanonicalItem) (run run' : StoredRun)
    (history' : List CanonicalItem) : Prop where
  params : run'.params = run.params
  options : run'.effectiveOptions = run.effectiveOptions
  start : run'.historyStart = run.historyStart
  snapshot : run'.snapshot = run.snapshot
  calls : CallsKept run.calls run'.calls
  history : history <+: history'

theorem RunEdit.frame {revision : Nat} {history history' : List CanonicalItem}
    {run run' : StoredRun} {fresh : FreshIds} {op : RunMutation}
    (h : RunEdit revision history run fresh op run' history') :
    EditFrame history run run' history' := by
  cases h with
  | input => exact ⟨rfl, rfl, rfl, rfl, .refl _, List.prefix_refl _⟩
  | item => exact ⟨rfl, rfl, rfl, rfl, .refl _, List.prefix_append _ _⟩
  | call => exact ⟨rfl, rfl, rfl, rfl, .append _ _, List.prefix_append _ _⟩
  | finished => exact ⟨rfl, rfl, rfl, rfl, .refl _, List.prefix_refl _⟩
  | intent split first same once open_ finished =>
    refine ⟨rfl, rfl, rfl, rfl, split ▸ .set ?_, List.prefix_refl _⟩
    exact ⟨rfl, rfl, rfl, rfl, rfl, fun e he => by simp [once] at he, fun _ h => h, id⟩
  | outcome split first finished same =>
    refine ⟨rfl, rfl, rfl, rfl, split ▸ .set ?_, List.prefix_refl _⟩
    exact ⟨rfl, rfl, rfl, rfl, rfl, fun _ h => h, fun o ho => by rw [same o ho], id⟩
  | batch =>
    refine ⟨rfl, rfl, rfl, rfl, .map fun c _ => ?_, List.prefix_append _ _⟩
    exact ⟨rfl, rfl, rfl, rfl, rfl, fun _ h => h, fun _ h => h, fun _ => rfl⟩

/-! ## The ledger around one run -/

namespace Ledger

theorem mem_calls {l : Ledger} {c : StoredCall} :
    c ∈ l.calls ↔ ∃ turn run, l.runs.get? turn = some run ∧ c ∈ run.calls := by
  simp only [calls, List.mem_flatMap, OrdMap.mem_values_iff]
  constructor
  · rintro ⟨run, ⟨turn, h⟩, hc⟩; exact ⟨turn, run, h, hc⟩
  · rintro ⟨turn, run, h, hc⟩; exact ⟨run, ⟨turn, h⟩, hc⟩

/-- The calls around those of one run, and after the run is replaced. -/
theorem calls_split {runs : OrdMap String StoredRun} {turn : String} {run : StoredRun}
    (h : runs.get? turn = some run) : ∃ pre post : List StoredCall,
      runs.values.flatMap (·.calls) = pre ++ run.calls ++ post ∧
      ∀ run', (runs.insert turn run').values.flatMap (·.calls) = pre ++ run'.calls ++ post := by
  obtain ⟨es, fs, he, -, -, hi⟩ := OrdMap.split_of_get? h
  refine ⟨(es.map (·.2)).flatMap (·.calls), (fs.map (·.2)).flatMap (·.calls), ?_, fun run' => ?_⟩
  · simp [OrdMap.values, he]
  · simp [OrdMap.values, hi]

theorem calls_absent {runs : OrdMap String StoredRun} {turn : String} (h : runs.get? turn = none)
    (run' : StoredRun) (hc : run'.calls = []) :
    (runs.insert turn run').values.flatMap (·.calls) = runs.values.flatMap (·.calls) := by
  obtain ⟨es, fs, he, -, -, hi⟩ := OrdMap.split_of_none h
  simp [OrdMap.values, he, hi, hc]

/-- Two entries with the same id are the same entry. -/
theorem call_unique {l : Ledger} {f : StoredCall → String} (hn : (l.calls.map f).Nodup)
    {c d : StoredCall} (hc : c ∈ l.calls) (hd : d ∈ l.calls) (h : f c = f d) : c = d :=
  List.inj_on_of_nodup_map hn hc hd h

theorem run_calls_nodup {l : Ledger} {f : StoredCall → String} (hn : (l.calls.map f).Nodup)
    {turn : String} {run : StoredRun} (h : l.runs.get? turn = some run) :
    (run.calls.map f).Nodup := by
  obtain ⟨pre, post, he, -⟩ := calls_split h
  rw [show l.calls = pre ++ run.calls ++ post from he, List.map_append, List.map_append] at hn
  exact (List.nodup_append.1 (List.nodup_append.1 hn).1).2.1

/-- A replaced run and its ids. -/
structure SameIds (calls new : List StoredCall) : Prop where
  callIds : new.map (·.callId) = calls.map (·.callId)
  executionIds : new.map (·.executionId) = calls.map (·.executionId)
  resultIds : new.map (·.resultItemId) = calls.map (·.resultItemId)

theorem SameIds.map {calls : List StoredCall} {f : StoredCall → StoredCall}
    (h : ∀ c, CallKept c (f c)) : SameIds calls (calls.map f) := by
  refine ⟨?_, ?_, ?_⟩ <;> rw [List.map_map] <;> refine List.map_congr_left fun c _ => ?_
  · exact (h c).callId
  · exact (h c).executionId
  · exact (h c).resultItemId

theorem SameIds.refl (calls : List StoredCall) : SameIds calls calls := ⟨rfl, rfl, rfl⟩

/-- The three id lists of a ledger are distinct. -/
structure IdsDistinct (calls : List StoredCall) : Prop where
  callIds : (calls.map (·.callId)).Nodup
  executionIds : (calls.map (·.executionId)).Nodup
  resultIds : (calls.map (·.resultItemId)).Nodup

theorem Ok.ids {revision : Nat} {l : Ledger} (h : l.Ok revision) : IdsDistinct l.calls :=
  ⟨h.callIds, h.executionIds, h.resultIds⟩

theorem SameIds.distinct {pre post calls new : List StoredCall} (h : SameIds calls new)
    (hd : IdsDistinct (pre ++ calls ++ post)) : IdsDistinct (pre ++ new ++ post) := by
  obtain ⟨h1, h2, h3⟩ := h
  obtain ⟨d1, d2, d3⟩ := hd
  simp only [List.map_append] at d1 d2 d3
  refine ⟨?_, ?_, ?_⟩ <;> simp only [List.map_append, *]

/-- Replacing a run keeps the conditions when the new run meets them. -/
theorem Ok.insert {revision : Nat} {l : Ledger} {turn : String} {run run' : StoredRun}
    {history : List CanonicalItem} {unknown : List UnknownExecution} (hok : l.Ok revision)
    (found : l.runs.get? turn = some run) (hpre : l.history <+: history)
    (hnodup : (history.map (·.id)).Nodup) (hrun : RunOk history.length turn run')
    (hsteps : StepsOk revision run'.modelInputs)
    (hcalls : ∀ c ∈ run'.calls, CallOk history (run'.modelInputs.map (·.stepId)) c)
    (hresult : ∀ result, run'.snapshot.result = some result → ResultOk run'.snapshot result)
    (hkept : CallsKept run.calls run'.calls)
    (hids : IdsDistinct ((l.runs.insert turn run').values.flatMap (·.calls)))
    (hunknownIds : (unknown.map (·.executionId)).Nodup)
    (hunknown : ∀ u ∈ unknown, u ∈ l.unknown ∨
      (u.turnId = turn ∧ ∃ c ∈ run'.calls, c.isUnknown u = true)) :
    Ok revision ⟨history, l.runs.insert turn run', unknown⟩ := by
  -- a run of the new map is the replaced one or an old one
  have hmem : ∀ x ∈ (l.runs.insert turn run').values, x = run' ∨ x ∈ l.runs.values := by
    intro x hx
    obtain ⟨k, hk⟩ := OrdMap.mem_values_iff.1 hx
    rw [OrdMap.get?_insert] at hk
    split at hk
    · exact .inl (Option.some.inj hk).symm
    · exact .inr (OrdMap.mem_values hk)
  have hsub : ∀ i ∈ l.history, i ∈ history := fun i hi => hpre.subset hi
  refine
    { history := hnodup, runs := fun id x hx => ?_, steps := fun x hx => ?_,
      calls := fun x hx c hc => ?_, results := fun x hx => ?_, callIds := hids.callIds,
      executionIds := hids.executionIds, resultIds := hids.resultIds, unknownIds := hunknownIds,
      unknown := fun u hu => ?_ }
  · rw [OrdMap.get?_insert] at hx
    split at hx
    · rename_i he
      cases hx
      exact he ▸ hrun
    · exact { hok.runs id x hx with start := (hok.runs id x hx).start.trans hpre.length_le }
  · rcases hmem x hx with rfl | hx
    · exact hsteps
    · exact hok.steps x hx
  · rcases hmem x hx with rfl | hx
    · exact hcalls c hc
    · have h := hok.calls x hx c hc
      exact { h with
        item := h.item.imp fun i hi => ⟨hsub i hi.1, hi.2⟩
        recorded := fun hcm o ho => hsub o (h.recorded hcm o ho) }
  · rcases hmem x hx with rfl | hx
    · exact hresult
    · exact hok.results x hx
  · rcases hunknown u hu with hu | ⟨rfl, hc⟩
    · obtain ⟨x, hx, c, hc, hcu⟩ := hok.unknown u hu
      by_cases he : turn = u.turnId
      · subst he
        rw [found] at hx
        cases hx
        obtain ⟨d, hd, hkd⟩ := hkept c hc
        exact ⟨run', OrdMap.get?_insert_self _ _ _, d, hd, hkd.isUnknown hcu⟩
      · exact ⟨x, by rw [← hx]; exact OrdMap.get?_insert_ne _ _ he, c, hc, hcu⟩
    · exact ⟨run', OrdMap.get?_insert_self _ _ _, hc⟩

end Ledger

/-! ## One edit -/

theorem stepsOk_append {revision : Nat} {steps : List ModelInputRecord} {s : ModelInputRecord} :
    StepsOk revision (steps ++ [s]) ↔ StepsOk revision steps ∧ s.stepIndex = steps.length ∧
      s.stepId ∉ steps.map (·.stepId) ∧ s.stepId ≠ "" ∧ s.request.isObject = true ∧
      s.completed = s.usage.isSome ∧ s.historyRevision ≤ revision := by
  have hlast : (steps ++ [s])[steps.length]? = some s := by simp
  constructor
  · rintro ⟨h1, h2, h3, h4, h5, h6⟩
    rw [List.map_append, List.map_singleton, List.nodup_append_comm, List.singleton_append,
      List.nodup_cons] at h2
    have hs : s ∈ steps ++ [s] := by simp
    refine ⟨⟨fun i t ht => h1 i t ?_, h2.2, fun t ht => h3 t (by simp [ht]),
      fun t ht => h4 t (by simp [ht]), fun t ht => h5 t (by simp [ht]),
      fun t ht => h6 t (by simp [ht])⟩, h1 _ s hlast, h2.1, h3 s hs, h4 s hs, h5 s hs, h6 s hs⟩
    rw [List.getElem?_append_left (List.getElem?_eq_some_iff.1 ht).1, ht]
  · rintro ⟨⟨h1, h2, h3, h4, h5, h6⟩, g1, g2, g3, g4, g5, g6⟩
    have hmem : ∀ {P : ModelInputRecord → Prop}, (∀ t ∈ steps, P t) → P s →
        ∀ t ∈ steps ++ [s], P t := by
      intro P hP hs t ht
      rcases List.mem_append.1 ht with ht | ht
      · exact hP t ht
      · rw [List.mem_singleton.1 ht]; exact hs
    refine ⟨fun i t ht => ?_, ?_, hmem h3 g3, hmem h4 g4, hmem h5 g5, hmem h6 g6⟩
    · rcases lt_or_ge i steps.length with hi | hi
      · exact h1 i t (by rwa [List.getElem?_append_left hi] at ht)
      · rw [List.getElem?_append_right hi] at ht
        have hi0 : i - steps.length = 0 := by
          by_contra hne
          rw [List.getElem?_eq_none (by simp; omega)] at ht
          cases ht
        rw [hi0] at ht
        cases ht
        omega
    · rw [List.map_append, List.map_singleton, List.nodup_append_comm, List.singleton_append,
        List.nodup_cons]
      exact ⟨g2, h2⟩

theorem RunEdit.steps {revision : Nat} {history history' : List CanonicalItem}
    {run run' : StoredRun} {fresh : FreshIds} {op : RunMutation}
    (h : RunEdit revision history run fresh op run' history')
    (hok : StepsOk revision run.modelInputs) : StepsOk revision run'.modelInputs := by
  cases h with
  | input named object finished committed absent =>
    refine stepsOk_append.2 ⟨hok, rfl, fun hm => ?_, named, object, rfl, le_refl _⟩
    obtain ⟨s, hs, he⟩ := List.mem_map.1 hm
    exact absent s hs he
  | finished last running fits =>
    rw [last, stepsOk_append] at hok
    obtain ⟨h1, h2, h3, h4, h5, -, h7⟩ := hok
    exact stepsOk_append.2 ⟨h1, h2, h3, h4, h5, rfl, h7⟩
  | item => exact hok
  | call => exact hok
  | intent => exact hok
  | outcome => exact hok
  | batch => exact hok

theorem RunEdit.stepIds {revision : Nat} {history history' : List CanonicalItem}
    {run run' : StoredRun} {fresh : FreshIds} {op : RunMutation}
    (h : RunEdit revision history run fresh op run' history') :
    ∀ id ∈ run.modelInputs.map (·.stepId), id ∈ run'.modelInputs.map (·.stepId) := by
  cases h with
  | input => intro id hid; rw [List.map_append]; exact List.mem_append_left _ hid
  | finished last running fits => intro id hid; simpa [last] using hid
  | item => exact fun _ h => h
  | call => exact fun _ h => h
  | intent => exact fun _ h => h
  | outcome => exact fun _ h => h
  | batch => exact fun _ h => h

theorem CallOk.mono {history history' : List CanonicalItem} {steps steps' : List String}
    {c : StoredCall} (h : CallOk history steps c) (hh : ∀ i ∈ history, i ∈ history')
    (hs : ∀ id ∈ steps, id ∈ steps') : CallOk history' steps' c :=
  { h with
    step := hs _ h.step
    item := h.item.imp fun i hi => ⟨hh i hi.1, hi.2⟩
    recorded := fun hcm o ho => hh o (h.recorded hcm o ho) }

theorem RunEdit.callsOk {revision : Nat} {history history' : List CanonicalItem}
    {run run' : StoredRun} {fresh : FreshIds} {op : RunMutation}
    (h : RunEdit revision history run fresh op run' history')
    (hok : ∀ c ∈ run.calls, CallOk history (run.modelInputs.map (·.stepId)) c) :
    ∀ c ∈ run'.calls, CallOk history' (run'.modelInputs.map (·.stepId)) c := by
  have hold : ∀ c ∈ run.calls, CallOk history' (run'.modelInputs.map (·.stepId)) c :=
    fun c hc => (hok c hc).mono (fun _ hi => h.frame.history.subset hi) h.stepIds
  cases h with
  | input => exact hold
  | item => exact hold
  | finished => exact hold
  | call last running absent named first =>
    intro c hc
    rcases List.mem_append.1 hc with hc | hc
    · exact hold c hc
    · rw [List.mem_singleton.1 hc]
      refine ⟨named, ?_, ?_, fun e he => (nomatch he), fun hcm => (nomatch hcm),
        fun o ho => (nomatch ho), fun hcm => (nomatch hcm)⟩
      · exact List.mem_map_of_mem (List.mem_of_getLast? last)
      · exact ⟨_, List.mem_append_right _ List.mem_cons_self, by simp [newCall, StoredCall.isItem]⟩
  | intent split first same once open_ finished =>
    intro x hx
    rw [split] at hold
    simp only [List.mem_append, List.mem_cons] at hx hold
    rcases hx with hx | rfl | hx
    · exact hold x (.inl hx)
    · exact { hold _ (.inr (.inl rfl)) with
        intent := fun e he => by rw [← Option.some.inj he, same] }
    · exact hold x (.inr (.inr hx))
  | outcome split first finished same =>
    intro x hx
    rw [split] at hold
    simp only [List.mem_append, List.mem_cons] at hx hold
    rcases hx with hx | rfl | hx
    · exact hold x (.inl hx)
    · have hc := hold _ (.inr (.inl rfl))
      refine { hc with
        settled := fun _ => rfl
        outcome := fun o ho => by rw [← Option.some.inj ho]; simp [StoredCall.isResult]
        recorded := fun hcm o ho => ?_ }
      -- a committed call already had this outcome
      obtain ⟨o', ho'⟩ := Option.isSome_iff_exists.1 (hc.settled hcm)
      rw [← Option.some.inj ho, ← same o' ho']
      exact hc.recorded hcm o' ho'
    · exact hold x (.inr (.inr hx))
  | batch complete =>
    intro x hx
    obtain ⟨c, hc, rfl⟩ := List.mem_map.1 hx
    have hcok := hold c hc
    refine { hcok with settled := fun _ => ?_, recorded := fun _ o ho => ?_ }
    · cases hcm : c.committed with
      | true => exact hcok.settled hcm
      | false => exact complete c hc hcm
    · cases hcm : c.committed with
      | true => exact hcok.recorded hcm o ho
      | false =>
        exact List.mem_append_right _ (List.mem_filterMap.2 ⟨c, by simp [hc, hcm], ho⟩)

/-! ## Result ids -/

theorem StoredCall.isResult_id {c : StoredCall} {o : CanonicalItem} (h : c.isResult o = true) :
    o.id = c.resultItemId := by
  cases o with
  | toolResult id callId output isError =>
    simp only [StoredCall.isResult, Bool.and_eq_true, beq_iff_eq] at h
    exact h.1
  | userMessage id content => cases h
  | assistantMessage id content phase => cases h
  | reasoning id thinking signature encrypted => cases h
  | toolCall id callId namesp name arguments raw => cases h

theorem StoredCall.isResult_settledOutcome {history : List CanonicalItem} {steps : List String}
    {c : StoredCall} (h : CallOk history steps c) : c.isResult c.settledOutcome = true := by
  unfold StoredCall.settledOutcome
  cases ho : c.outcome with
  | some o => exact h.outcome o ho
  | none => simp [StoredCall.isResult]

/-- The results settlement appends carry the result ids of the open calls. -/
theorem settledResults_ids {history : List CanonicalItem} {steps : List String}
    {calls : List StoredCall} (h : ∀ c ∈ calls, CallOk history steps c) :
    (settledResults calls).map (·.id) = (calls.filter (!·.committed)).map (·.resultItemId) := by
  rw [settledResults, List.map_map]
  refine List.map_congr_left fun c hc => ?_
  exact StoredCall.isResult_id (StoredCall.isResult_settledOutcome (h c (List.mem_filter.1 hc).1))

/-- A complete batch appends what settlement would. -/
theorem filterMap_outcome_eq {calls : List StoredCall}
    (h : ∀ c ∈ calls, c.committed = false → c.outcome.isSome) :
    (calls.filter (!·.committed)).filterMap (·.outcome) = settledResults calls := by
  rw [settledResults, ← List.filterMap_eq_map]
  refine List.filterMap_congr fun c hc => ?_
  obtain ⟨hc, hcm⟩ := List.mem_filter.1 hc
  obtain ⟨o, ho⟩ := Option.isSome_iff_exists.1 (h c hc (by simpa using hcm))
  simp [StoredCall.settledOutcome, ho]

namespace Ledger

/-- No history item has the result id of a call whose result is not recorded yet. -/
def ResultsFresh (l : Ledger) : Prop :=
  ∀ c ∈ l.calls, c.committed = false → c.resultItemId ∉ l.history.map (·.id)

/-- The history stays distinct when the open calls of a run are settled. -/
theorem settled_history_nodup {revision : Nat} {l : Ledger} {turn : String} {run : StoredRun}
    (hok : l.Ok revision) (hfresh : l.ResultsFresh) (found : l.runs.get? turn = some run) :
    ((l.history ++ settledResults run.calls).map (·.id)).Nodup := by
  have hcalls := hok.calls run (OrdMap.mem_values found)
  rw [List.map_append, settledResults_ids hcalls, List.nodup_append]
  refine ⟨hok.history, ?_, ?_⟩
  · exact (run_calls_nodup hok.resultIds found).sublist (List.filter_sublist.map _)
  · intro a ha b hb
    obtain ⟨c, hc, rfl⟩ := List.mem_map.1 hb
    obtain ⟨hc, hcm⟩ := List.mem_filter.1 hc
    exact fun he => hfresh c (mem_calls.2 ⟨turn, run, found, hc⟩) (by simpa using hcm) (he ▸ ha)

/-- What a step has to be given: new ids for a new call. -/
def Fresh (l : Ledger) : Label → Prop
  | .update _ fresh (.modelItem _ (.toolCall ..)) =>
    fresh.resultItemId ∉ l.calls.map (·.resultItemId) ∧
      fresh.executionId ∉ l.calls.map (·.executionId)
  | _ => True

theorem nodup_snoc_mid {f : StoredCall → String} {pre mid post : List StoredCall} {c : StoredCall}
    (h : ((pre ++ mid ++ post).map f).Nodup) (hc : f c ∉ (pre ++ mid ++ post).map f) :
    ((pre ++ (mid ++ [c]) ++ post).map f).Nodup := by
  have hp : (pre ++ (mid ++ [c]) ++ post).Perm (c :: (pre ++ mid ++ post)) := by
    rw [← List.append_assoc, List.append_assoc (pre ++ mid)]
    exact List.perm_middle
  rw [(hp.map f).nodup_iff, List.map_cons, List.nodup_cons]
  exact ⟨hc, h⟩

/-- A new call id is not in the ledger: its call would have an item. -/
theorem Ok.callId_new {revision : Nat} {l : Ledger} (hok : l.Ok revision) {callId : String}
    (h : ∀ i ∈ l.history, i.callId? ≠ some callId) : callId ∉ l.calls.map (·.callId) := by
  intro hm
  obtain ⟨c, hc, he⟩ := List.mem_map.1 hm
  obtain ⟨turn, run, hrun, hc⟩ := mem_calls.1 hc
  obtain ⟨i, hi, hitem⟩ := (hok.calls run (OrdMap.mem_values hrun) c hc).item
  refine h i hi ?_
  cases i with
  | toolCall id callId' namesp name arguments raw =>
    simp only [StoredCall.isItem, Bool.and_eq_true, beq_iff_eq] at hitem
    rw [← he, ← hitem.1]
    rfl
  | userMessage id content => cases hitem
  | assistantMessage id content phase => cases hitem
  | reasoning id thinking signature encrypted => cases hitem
  | toolResult id callId output isError => cases hitem

/-- The ids stay distinct under an edit. -/
theorem edit_ids {revision : Nat} {l : Ledger} {turn : String} {run run' : StoredRun}
    {fresh : FreshIds} {op : RunMutation} {history : List CanonicalItem} (hok : l.Ok revision)
    (found : l.runs.get? turn = some run)
    (h : RunEdit revision l.history run fresh op run' history)
    (hfresh : l.Fresh (.update turn fresh op)) (snapshot : RunSnapshot) :
    IdsDistinct ((l.runs.insert turn { run' with snapshot }).values.flatMap (·.calls)) := by
  obtain ⟨pre, post, he, hi⟩ := calls_split found
  have hids : IdsDistinct (pre ++ run.calls ++ post) := he ▸ hok.ids
  rw [hi]
  have hsame : ∀ {new}, SameIds run.calls new → IdsDistinct (pre ++ new ++ post) :=
    fun hs => hs.distinct hids
  cases h with
  | input => exact hids
  | item => exact hids
  | finished => exact hids
  | intent split first same once open_ finished => exact hsame (by rw [split]; constructor <;> simp)
  | outcome split first finished same => exact hsame (by rw [split]; constructor <;> simp)
  | batch complete => exact hsame (by constructor <;> simp [Function.comp_def])
  | call last running absent named first =>
    have hcall := hok.callId_new first
    have hl : l.calls = pre ++ run.calls ++ post := he
    simp only [Fresh, hl] at hfresh hcall
    exact ⟨nodup_snoc_mid hids.callIds hcall, nodup_snoc_mid hids.executionIds hfresh.2,
      nodup_snoc_mid hids.resultIds hfresh.1⟩

end Ledger

/-! ## Terminal snapshots -/

section
variable (turn : String) (run : StoredRun) (history : List CanonicalItem) (usage : UsageMetrics)
  (candidate : RunSnapshot)

/-- The candidate after a completed one with open calls is turned into a failure. -/
def demoted (run : StoredRun) (candidate : RunSnapshot) : RunSnapshot :=
  if run.calls.any (·.outcome.isNone) && candidate.status == .completed then
    { candidate with
      status := .failed,
      error := some ⟨"INCOMPLETE_EXECUTION", "Completed candidate contains unfinished calls"⟩ }
  else candidate

@[simp] theorem demoted_threadId : (demoted run candidate).threadId = candidate.threadId := by
  unfold demoted; split <;> rfl

@[simp] theorem demoted_turnId : (demoted run candidate).turnId = candidate.turnId := by
  unfold demoted; split <;> rfl

theorem demoted_terminal (h : candidate.status.isTerminal = true) :
    (demoted run candidate).status.isTerminal = true := by
  unfold demoted
  split
  · rfl
  · exact h

@[simp] theorem terminalSnapshot_threadId :
    (terminalSnapshot turn run history usage candidate).threadId = candidate.threadId :=
  demoted_threadId run candidate

@[simp] theorem terminalSnapshot_turnId :
    (terminalSnapshot turn run history usage candidate).turnId = candidate.turnId :=
  demoted_turnId run candidate

@[simp] theorem terminalSnapshot_items :
    (terminalSnapshot turn run history usage candidate).items = history.drop run.historyStart := rfl

theorem terminalSnapshot_terminal (h : candidate.status.isTerminal = true) :
    (terminalSnapshot turn run history usage candidate).status.isTerminal = true :=
  demoted_terminal run candidate h

theorem terminalSnapshot_resultOk (h : candidate.turnId = turn) {result : RunTurnResult}
    (hr : (terminalSnapshot turn run history usage candidate).result = some result) :
    ResultOk (terminalSnapshot turn run history usage candidate) result := by
  cases hr
  exact ⟨rfl, by simp [h], rfl, rfl, rfl⟩

end

/-! ## Every step -/

namespace Ledger

/-- A run that is not terminal has no result. -/
def NoEarlyResult (l : Ledger) : Prop :=
  ∀ run ∈ l.runs.values, run.snapshot.status.isTerminal = false → run.snapshot.result = none

theorem settle_calls_ok {history : List CanonicalItem} {steps : List String}
    {calls : List StoredCall} (h : ∀ c ∈ calls, CallOk history steps c) :
    ∀ c ∈ calls.map (·.settle), CallOk (history ++ settledResults calls) steps c := by
  intro x hx
  obtain ⟨c, hc, rfl⟩ := List.mem_map.1 hx
  have hok := h c hc
  refine
    { named := hok.named, step := hok.step
      item := hok.item.imp fun i hi => ⟨List.mem_append_left _ hi.1, hi.2⟩
      intent := hok.intent, settled := fun _ => rfl
      outcome := fun o ho => ?_, recorded := fun _ o ho => ?_ }
  · cases ho
    show c.isResult c.settledOutcome = true
    exact StoredCall.isResult_settledOutcome hok
  · cases ho
    cases hcm : c.committed with
    | true =>
      obtain ⟨o, ho⟩ := Option.isSome_iff_exists.1 (hok.settled hcm)
      rw [StoredCall.settledOutcome, ho]
      exact List.mem_append_left _ (hok.recorded hcm o ho)
    | false =>
      refine List.mem_append_right _ (List.mem_map.2 ⟨c, by simp [hc, hcm], rfl⟩)

theorem unknown?_some {turn : String} {c : StoredCall} {u : UnknownExecution}
    (h : c.unknown? turn = some u) : c.outcome = none ∧ c.intent.isSome ∧
      u.executionId = c.executionId ∧ u.callId = c.callId ∧ u.turnId = turn := by
  unfold StoredCall.unknown? at h
  split at h
  · rename_i ho hi
    cases h
    exact ⟨ho, by simp [hi], rfl, rfl, rfl⟩
  · cases h

/-- The unknown executions settlement adds have new execution ids. -/
theorem settled_unknown_nodup {revision : Nat} {l : Ledger} {turn : String} {run : StoredRun}
    (hok : l.Ok revision) (found : l.runs.get? turn = some run) :
    ((l.unknown ++ run.calls.filterMap (·.unknown? turn)).map (·.executionId)).Nodup := by
  rw [List.map_append, List.nodup_append]
  refine ⟨hok.unknownIds, ?_, ?_⟩
  · have hsub : ∀ calls : List StoredCall, ((calls.filterMap (·.unknown? turn)).map
        (·.executionId)).Sublist (calls.map (·.executionId)) := by
      intro calls
      induction calls with
      | nil => simp
      | cons c calls ih =>
        cases hc : c.unknown? turn with
        | none => rw [List.filterMap_cons_none hc]; exact ih.cons _
        | some u =>
          rw [List.filterMap_cons_some hc, List.map_cons, List.map_cons, (unknown?_some hc).2.2.1]
          exact ih.cons_cons _
    exact (run_calls_nodup hok.executionIds found).sublist (hsub run.calls)
  · intro a ha b hb he
    obtain ⟨u, hu, rfl⟩ := List.mem_map.1 ha
    obtain ⟨v, hv, rfl⟩ := List.mem_map.1 hb
    obtain ⟨c, hc, hcv⟩ := List.mem_filterMap.1 hv
    obtain ⟨hout, -, hex, -, -⟩ := unknown?_some hcv
    -- an execution that is already unknown has an outcome
    obtain ⟨run', hrun', d, hd, hdu⟩ := hok.unknown u hu
    simp only [StoredCall.isUnknown, Bool.and_eq_true, beq_iff_eq] at hdu
    have hcd : c = d := call_unique hok.executionIds (mem_calls.2 ⟨_, _, found, hc⟩)
      (mem_calls.2 ⟨_, _, hrun', hd⟩) (by rw [← hex, ← he, hdu.1.1.1])
    rw [← hcd, hout] at hdu
    exact absurd hdu.2 (by simp)

/-- A settled run is terminal. -/
theorem Settle.terminal {l l' : Ledger} {turn : String} (h : Settle l turn l') :
    ∃ run', l'.runs.get? turn = some run' ∧ run'.snapshot.status.isTerminal = true := by
  cases h with
  | mk found active thread same terminal fits =>
    exact ⟨_, OrdMap.get?_insert_self _ _ _, terminalSnapshot_terminal _ _ _ _ _ terminal⟩

theorem Settle.ok {revision : Nat} {l l' : Ledger} {turn : String} (h : Settle l turn l')
    (hok : l.Ok revision) (hfresh : l.ResultsFresh) : l'.Ok revision := by
  cases h with
  | @mk run candidate usage found active thread same terminal fits =>
    have hrun := hok.runs _ _ found
    have hmem := OrdMap.mem_values found
    refine hok.insert found (List.prefix_append _ _) (settled_history_nodup hok hfresh found)
      ⟨hrun.params, ?_, ?_, ?_, fun _ => rfl⟩ (hok.steps run hmem) (settle_calls_ok (hok.calls _ hmem))
      (fun result hr => terminalSnapshot_resultOk _ _ _ _ _ same hr)
      (.map fun c _ => settle_kept c) ?_ (settled_unknown_nodup hok found) fun u hu => ?_
    · exact (terminalSnapshot_turnId ..).trans same
    · exact ((terminalSnapshot_threadId ..).trans thread).symm
    · exact hrun.start.trans (by simp)
    · obtain ⟨pre, post, he, hi⟩ := calls_split found
      rw [hi]
      exact (SameIds.map settle_kept).distinct (he ▸ hok.ids)
    · rcases List.mem_append.1 hu with hu | hu
      · exact .inl hu
      · obtain ⟨c, hc, hcu⟩ := List.mem_filterMap.1 hu
        obtain ⟨-, hint, hex, hcall, hturn⟩ := unknown?_some hcu
        refine .inr ⟨hturn, c.settle, List.mem_map_of_mem hc, ?_⟩
        simp [StoredCall.isUnknown, StoredCall.settle, hint, hex, hcall]

/-- The calls after a run is replaced: those of the new run, and old ones. -/
theorem mem_calls_insert {runs : OrdMap String StoredRun} {history : List CanonicalItem}
    {unknown : List UnknownExecution} {turn : String} {run' : StoredRun} {c : StoredCall} :
    c ∈ (Ledger.mk history (runs.insert turn run') unknown).calls ↔
      c ∈ run'.calls ∨ ∃ t run, t ≠ turn ∧ runs.get? t = some run ∧ c ∈ run.calls := by
  rw [mem_calls]
  constructor
  · rintro ⟨t, run, ht, hc⟩
    simp only [OrdMap.get?_insert] at ht
    split at ht
    · cases ht; exact .inl hc
    · rename_i hne; exact .inr ⟨t, run, fun he => hne he.symm, ht, hc⟩
  · rintro (hc | ⟨t, run, hne, ht, hc⟩)
    · exact ⟨turn, run', OrdMap.get?_insert_self _ _ _, hc⟩
    · exact ⟨t, run, (OrdMap.get?_insert_ne _ _ hne.symm).trans ht, hc⟩

/-- Two runs share no call. -/
theorem turn_unique {l : Ledger} {f : StoredCall → String} (hn : (l.calls.map f).Nodup)
    {t t' : String} {run run' : StoredRun} {c c' : StoredCall} (ht : l.runs.get? t = some run)
    (ht' : l.runs.get? t' = some run') (hc : c ∈ run.calls) (hc' : c' ∈ run'.calls)
    (he : f c = f c') : t = t' := by
  by_contra hne
  obtain ⟨pre, post, hs, hi⟩ := calls_split ht
  -- without the first run its call is still there, through the other one
  have hmem : c' ∈ pre ++ post := by
    have h : c' ∈ (Ledger.mk [] (l.runs.insert t { run with calls := [] }) []).calls :=
      mem_calls_insert.2 (.inr ⟨t', run', fun he => hne he.symm, ht', hc'⟩)
    rw [show (Ledger.mk [] (l.runs.insert t { run with calls := [] }) []).calls = _ from hi _] at h
    simpa using h
  have hp : l.calls.Perm (run.calls ++ (pre ++ post)) := by
    rw [show l.calls = _ from hs, List.append_assoc]
    exact List.perm_append_comm_assoc _ _ _
  rw [(hp.map f).nodup_iff, List.map_append, List.nodup_append] at hn
  exact hn.2.2 _ (List.mem_map_of_mem hc) _ (List.mem_map_of_mem hmem) he

theorem Settle.resultsFresh {revision : Nat} {l l' : Ledger} {turn : String} (h : Settle l turn l')
    (hok : l.Ok revision) (hfresh : l.ResultsFresh) : l'.ResultsFresh := by
  cases h with
  | @mk run candidate usage found active thread same terminal fits =>
    intro c hc hcm hm
    rw [mem_calls_insert] at hc
    rcases hc with hc | ⟨t, run', hne, ht, hc⟩
    · obtain ⟨d, -, rfl⟩ := List.mem_map.1 hc
      cases hcm
    · simp only [List.map_append, List.mem_append,
        settledResults_ids (hok.calls run (OrdMap.mem_values found))] at hm
      rcases hm with hm | hm
      · exact hfresh c (mem_calls.2 ⟨t, run', ht, hc⟩) hcm hm
      · obtain ⟨d, hd, he⟩ := List.mem_map.1 hm
        exact hne (turn_unique hok.resultIds found ht (List.mem_filter.1 hd).1 hc he).symm

theorem settles_ok {revision : Nat} {l l' : Ledger} {turns : List String}
    (h : Lts.Run Settle l turns l') (hok : l.Ok revision) (hfresh : l.ResultsFresh) :
    l'.Ok revision ∧ l'.ResultsFresh :=
  h.invariant (fun l => l.Ok revision ∧ l.ResultsFresh)
    (fun _ _ _ ⟨ho, hf⟩ hs => ⟨hs.ok ho hf, hs.resultsFresh ho hf⟩) ⟨hok, hfresh⟩

theorem edit_history_nodup {revision : Nat} {l : Ledger} {turn : String} {run run' : StoredRun}
    {fresh : FreshIds} {op : RunMutation} {history : List CanonicalItem} (hok : l.Ok revision)
    (hresults : l.ResultsFresh) (found : l.runs.get? turn = some run)
    (h : RunEdit revision l.history run fresh op run' history) : (history.map (·.id)).Nodup := by
  have hsnoc : ∀ i : CanonicalItem, i.id ∉ l.history.map (·.id) →
      ((l.history ++ [i]).map (·.id)).Nodup := fun i hi => by
    rw [List.map_append, List.map_singleton, List.nodup_append_comm, List.singleton_append,
      List.nodup_cons]
    exact ⟨hi, hok.history⟩
  cases h with
  | input => exact hok.history
  | finished => exact hok.history
  | intent => exact hok.history
  | outcome => exact hok.history
  | item last running model plain absent => exact hsnoc _ absent
  | call last running absent named first => exact hsnoc _ absent
  | batch complete =>
    rw [filterMap_outcome_eq complete]
    exact settled_history_nodup hok hresults found

theorem accept_ok {revision : Nat} {l : Ledger} {params : StartTurnParams} {snapshot : RunSnapshot}
    {options : Value} (hok : l.Ok revision) (absent : l.runs.get? params.turnId = none)
    (thread : snapshot.threadId = params.threadId) (turn : snapshot.turnId = params.turnId)
    (active : snapshot.status.isTerminal = false) (result : snapshot.result = none)
    (distinct : Distinct (l.history.map (·.id)) (params.inputItems.map (·.id))) :
    Ok revision
      { l with
        history := l.history ++ params.inputItems
        runs := l.runs.insert params.turnId
          (acceptedRun params snapshot options l.history.length) } := by
  have hcalls := calls_absent absent
    (acceptedRun params snapshot options l.history.length) rfl
  have hmem : ∀ x ∈ (l.runs.insert params.turnId
      (acceptedRun params snapshot options l.history.length)).values,
      x = acceptedRun params snapshot options l.history.length ∨ x ∈ l.runs.values := by
    intro x hx
    obtain ⟨k, hk⟩ := OrdMap.mem_values_iff.1 hx
    rw [OrdMap.get?_insert] at hk
    split at hk
    · exact .inl (Option.some.inj hk).symm
    · exact .inr (OrdMap.mem_values hk)
  refine
    { history := ?_, runs := fun id x hx => ?_, steps := fun x hx => ?_,
      calls := fun x hx c hc => ?_, results := fun x hx => ?_, callIds := ?_, executionIds := ?_,
      resultIds := ?_, unknownIds := hok.unknownIds, unknown := fun u hu => ?_ }
  · rw [List.map_append, List.nodup_append]
    exact ⟨hok.history, distinct.1, fun a ha b hb he => distinct.2 b hb (he ▸ ha)⟩
  · simp only [OrdMap.get?_insert] at hx
    split at hx
    · rename_i he
      cases hx
      subst he
      exact ⟨rfl, turn, thread.symm, by simp [acceptedRun],
        fun ht => by simp [acceptedRun, active] at ht⟩
    · exact { hok.runs id x hx with
        start := (hok.runs id x hx).start.trans (by simp) }
  · rcases hmem x hx with rfl | hx
    · exact ⟨by simp [acceptedRun], .nil, by simp [acceptedRun], by simp [acceptedRun],
        by simp [acceptedRun], by simp [acceptedRun]⟩
    · exact hok.steps x hx
  · rcases hmem x hx with rfl | hx
    · simp [acceptedRun] at hc
    · exact (hok.calls x hx c hc).mono (fun i hi => List.mem_append_left _ hi) fun _ h => h
  · rcases hmem x hx with rfl | hx
    · simp [acceptedRun, result]
    · exact hok.results x hx
  · rw [calls, hcalls]; exact hok.callIds
  · rw [calls, hcalls]; exact hok.executionIds
  · rw [calls, hcalls]; exact hok.resultIds
  · obtain ⟨run, hrun, hc⟩ := hok.unknown u hu
    refine ⟨run, (OrdMap.get?_insert_ne _ _ fun he => ?_).trans hrun, hc⟩
    rw [← he, absent] at hrun
    cases hrun

/-- Every step keeps the ledger conditions of `validate`. -/
theorem Change.ok {revision : Nat} {l l' : Ledger} {e : Label} (h : Change revision l e l')
    (hok : l.Ok revision) (hearly : l.NoEarlyResult) (hresults : l.ResultsFresh)
    (hfresh : l.Fresh e) : l'.Ok revision := by
  cases h with
  | accept absent idle resolved thread turn active result distinct =>
    exact accept_ok hok absent thread turn active result distinct
  | @update turn fresh op run run' history found active edit =>
    have hrun := hok.runs _ _ found
    have hmem := OrdMap.mem_values found
    have hf := edit.frame
    have hsnap : (run'.refresh history).snapshot.result = none := by
      show run'.snapshot.result = none
      rw [hf.snapshot]
      exact hearly run hmem active
    refine hok.insert found hf.history (edit_history_nodup hok hresults found edit)
      ⟨?_, ?_, ?_, ?_, fun ht => ?_⟩ (edit.steps (hok.steps _ hmem)) (edit.callsOk (hok.calls _ hmem))
      (fun result hr => ?_) hf.calls (edit_ids hok found edit hfresh _) hok.unknownIds
      (fun u hu => .inl hu)
    · exact hf.params ▸ hrun.params
    · show run'.snapshot.turnId = turn
      rw [hf.snapshot]
      exact hrun.turn
    · show run'.params.threadId = run'.snapshot.threadId
      rw [hf.params, hf.snapshot]
      exact hrun.thread
    · show run'.historyStart ≤ _
      rw [hf.start]
      exact hrun.start.trans hf.history.length_le
    · have : run'.snapshot.status.isTerminal = true := ht
      rw [hf.snapshot, active] at this
      cases this
    · rw [hsnap] at hr
      cases hr
  | settle settles => exact (settles_ok settles hok hresults).1
  | acknowledge =>
    refine { hok with unknownIds := ?_, unknown := fun u hu => ?_ }
    · simpa [Function.comp_def] using hok.unknownIds
    · obtain ⟨v, hv, rfl⟩ := List.mem_map.1 hu
      exact hok.unknown v hv

/-! ## Nothing recorded is lost -/

/-- A run that is added to: the run identity and everything its calls recorded stay. -/
structure RunGrown (run new : StoredRun) : Prop where
  params : new.params = run.params
  options : new.effectiveOptions = run.effectiveOptions
  start : new.historyStart = run.historyStart
  frozen : run.snapshot.status.isTerminal = true → new = run
  calls : CallsKept run.calls new.calls

/-- A ledger that is added to. -/
structure Grows (l l' : Ledger) : Prop where
  history : l.history <+: l'.history
  runs : ∀ id run, l.runs.get? id = some run → ∃ new, l'.runs.get? id = some new ∧ RunGrown run new

theorem RunGrown.refl (run : StoredRun) : RunGrown run run :=
  ⟨rfl, rfl, rfl, fun _ => rfl, .refl _⟩

theorem RunGrown.trans {a b c : StoredRun} (h : RunGrown a b) (h' : RunGrown b c) :
    RunGrown a c where
  params := h'.params.trans h.params
  options := h'.options.trans h.options
  start := h'.start.trans h.start
  frozen := fun ht => by
    have hb := h.frozen ht
    rw [h'.frozen (hb ▸ ht), hb]
  calls := fun x hx => by
    obtain ⟨y, hy, hxy⟩ := h.calls x hx
    obtain ⟨z, hz, hyz⟩ := h'.calls y hy
    exact ⟨z, hz, hxy.trans hyz⟩

theorem Grows.refl (l : Ledger) : l.Grows l :=
  ⟨List.prefix_refl _, fun _ run h => ⟨run, h, .refl run⟩⟩

theorem Grows.trans {l l' l'' : Ledger} (h : l.Grows l') (h' : l'.Grows l'') : l.Grows l'' := by
  refine ⟨h.history.trans h'.history, fun id run hrun => ?_⟩
  obtain ⟨new, hnew, hg⟩ := h.runs id run hrun
  obtain ⟨new', hnew', hg'⟩ := h'.runs id new hnew
  exact ⟨new', hnew', hg.trans hg'⟩

theorem grows_insert {l : Ledger} {turn : String} {run run' : StoredRun}
    {history : List CanonicalItem} {unknown : List UnknownExecution}
    (found : l.runs.get? turn = some run) (hpre : l.history <+: history)
    (hrun : RunGrown run run') : l.Grows ⟨history, l.runs.insert turn run', unknown⟩ := by
  refine ⟨hpre, fun id x hx => ?_⟩
  by_cases he : turn = id
  · subst he
    rw [found] at hx
    cases hx
    exact ⟨run', OrdMap.get?_insert_self _ _ _, hrun⟩
  · exact ⟨x, (OrdMap.get?_insert_ne _ _ he).trans hx, .refl x⟩

theorem Settle.grows {l l' : Ledger} {turn : String} (h : Settle l turn l') : l.Grows l' := by
  cases h with
  | @mk run candidate usage found active thread same terminal fits =>
    refine grows_insert found (List.prefix_append _ _) ⟨rfl, rfl, rfl, fun ht => ?_, .map fun c _ => settle_kept c⟩
    rw [active] at ht
    cases ht

theorem settles_grow {l l' : Ledger} {turns : List String} (h : Lts.Run Settle l turns l') :
    l.Grows l' :=
  h.rel (fun _ => True) Grows (fun _ _ _ _ _ => trivial) .refl (fun _ _ _ => .trans)
    (fun _ _ _ _ hs => hs.grows) trivial

/-- Every step only adds to the ledger. -/
theorem Change.grows {revision : Nat} {l l' : Ledger} {e : Label} (h : Change revision l e l') :
    l.Grows l' := by
  cases h with
  | accept absent idle resolved thread turn active result distinct =>
    refine ⟨List.prefix_append _ _, fun id run hrun => ⟨run, ?_, .refl run⟩⟩
    refine (OrdMap.get?_insert_ne _ _ fun he => ?_).trans hrun
    rw [← he, absent] at hrun
    cases hrun
  | @update turn fresh op run run' history found active edit =>
    have hf := edit.frame
    refine grows_insert found hf.history ⟨hf.params, hf.options, hf.start, fun ht => ?_, hf.calls⟩
    rw [active] at ht
    cases ht
  | settle settles => exact settles_grow settles
  | acknowledge => exact ⟨List.prefix_refl _, fun _ run h => ⟨run, h, .refl run⟩⟩

/-- A ledger that is added to is an accepted replacement, when parameters equal themselves. -/
theorem Grows.extends {revision : Nat} {l l' : Ledger} (h : l.Grows l') (hok : l'.Ok revision)
    (hself : ∀ run ∈ l.runs.values, (run.params == run.params) = true) : l.Extends l' := by
  refine ⟨h.history, fun id run hrun => ?_⟩
  obtain ⟨new, hnew, hg⟩ := h.runs id run hrun
  refine ⟨new, hnew, hg.params ▸ hself run (OrdMap.mem_values hrun), hg.options, hg.start,
    fun ht => by rw [hg.frozen ht], fun c hc => ?_⟩
  obtain ⟨d, hd, hk⟩ := hg.calls c hc
  refine ⟨d, ?_, hk⟩
  rw [← hk.callId]
  exact find?_of_nodup hd (run_calls_nodup hok.callIds hnew)

end Ledger

end Whale
