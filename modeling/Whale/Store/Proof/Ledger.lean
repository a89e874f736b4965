import Whale.Store.Proof.Valid
import Whale.Lib.Run
import Mathlib.Data.List.Basic

/-!
# The ledger machine

The history, the runs and the unknown executions of a record form its *ledger*. Four kinds of step
change it: a run is accepted, the active run is mutated, runs are settled, or the unknown executions
are acknowledged. `Change` states each of them with its guards and its effect; the record operations
`begin`, `mutate`, `finalize` and `recover` take one such step and leave the rest of the record
alone (`begin_change`, `mutate_change`, `finalize_change`, `recover_change`). The invariants of the
ledger are proved of `Change`.
-/

namespace Whale

open Check

/-! ## Steps -/

/-- The step record a model input leaves. -/
def newStep (revision : Nat) (run : StoredRun) (stepId : String) (request : Value) :
    ModelInputRecord :=
  { stepId, stepIndex := run.modelInputs.length, historyRevision := revision, request,
    completed := false, usage := none }

/-- The ledger entry a tool call opens. -/
def newCall (fresh : FreshIds) (callId stepId name : String) : StoredCall :=
  { callId, stepId, toolName := name, resultItemId := fresh.resultItemId,
    executionId := fresh.executionId }

/-- The run a mutation leaves (before its snapshot is refreshed) and the history. -/
inductive RunEdit (revision : Nat) (history : List CanonicalItem) (run : StoredRun)
    (fresh : FreshIds) : RunMutation → StoredRun → List CanonicalItem → Prop
  | input {stepId : String} {request : Value} (named : stepId ≠ "")
      (object : request.isObject = true)
      (finished : ∀ s, run.modelInputs.getLast? = some s → s.completed = true)
      (committed : ∀ c ∈ run.calls, c.committed = true)
      (absent : ∀ s ∈ run.modelInputs, s.stepId ≠ stepId) :
      RunEdit revision history run fresh (.modelInput stepId run.modelInputs.length request)
        { run with modelInputs := run.modelInputs ++ [newStep revision run stepId request] } history
  | item {step : ModelInputRecord} {item : CanonicalItem}
      (last : run.modelInputs.getLast? = some step) (running : step.completed = false)
      (model : item.nonModel = false) (plain : item.callId? = none)
      (absent : item.id ∉ history.map (·.id)) :
      RunEdit revision history run fresh (.modelItem step.stepId item) run (history ++ [item])
  | call {step : ModelInputRecord} {id callId name raw : String} {namesp : Option String}
      {arguments : Option Value}
      (last : run.modelInputs.getLast? = some step) (running : step.completed = false)
      (absent : id ∉ history.map (·.id)) (named : callId ≠ "")
      (first : ∀ i ∈ history, i.callId? ≠ some callId) :
      RunEdit revision history run fresh
        (.modelItem step.stepId (.toolCall id callId namesp name arguments raw))
        { run with calls := run.calls ++ [newCall fresh callId step.stepId name] }
        (history ++ [.toolCall id callId namesp name arguments raw])
  | finished {steps : List ModelInputRecord} {step : ModelInputRecord} {usage total : UsageMetrics}
      (last : run.modelInputs = steps ++ [step]) (running : step.completed = false)
      (fits : UsageMetrics.checkedSum {} (run.usages ++ [usage]) = some total) :
      RunEdit revision history run fresh (.modelStepFinished step.stepId usage)
        { run with modelInputs := steps ++ [{ step with completed := true, usage := some usage }] }
        history
  | intent {pre post : List StoredCall} {c : StoredCall} {execution : ToolExecutionRecord}
      (split : run.calls = pre ++ c :: post) (first : ∀ d ∈ pre, d.callId ≠ c.callId)
      (same : execution.callId = c.callId) (once : c.intent = none) (open_ : c.outcome = none)
      (finished : run.stepCompleted c.stepId = true) :
      RunEdit revision history run fresh (.dispatchIntent c.callId execution)
        { run with calls := pre ++ { c with intent := some execution } :: post } history
  | outcome {pre post : List StoredCall} {c : StoredCall} {id : String}
      {output : CanonicalToolOutput} {isError : Bool}
      (split : run.calls = pre ++ c :: post) (first : ∀ d ∈ pre, d.callId ≠ c.callId)
      (finished : run.stepCompleted c.stepId = true)
      (same : ∀ o, c.outcome = some o → o = .toolResult c.resultItemId c.callId output isError) :
      RunEdit revision history run fresh (.toolOutcome c.callId (.toolResult id c.callId output isError))
        { run with calls := pre ++
          { c with outcome := some (.toolResult c.resultItemId c.callId output isError) } :: post }
        history
  | batch (complete : ∀ c ∈ run.calls, c.committed = false → c.outcome.isSome) :
      RunEdit revision history run fresh
        (.toolBatch ((run.calls.filter (!·.committed)).map (·.callId)))
        { run with calls := run.calls.map ({ · with committed := true }) }
        (history ++ (run.calls.filter (!·.committed)).filterMap (·.outcome))

/-- The snapshot's items follow the history. -/
def StoredRun.refresh (run : StoredRun) (history : List CanonicalItem) : StoredRun :=
  { run with snapshot := { run.snapshot with items := history.drop run.historyStart } }

/-- The run `begin` stores. -/
def acceptedRun (params : StartTurnParams) (snapshot : RunSnapshot) (options : Value)
    (start : Nat) : StoredRun :=
  { params, snapshot := { snapshot with items := params.inputItems }, effectiveOptions := options,
    historyStart := start, modelInputs := [], calls := [] }

/-- The run settlement leaves. -/
def StoredRun.settled (run : StoredRun) (turn : String) (history : List CanonicalItem)
    (usage : UsageMetrics) (candidate : RunSnapshot) : StoredRun :=
  { run with
    snapshot := terminalSnapshot turn run history usage candidate
    calls := run.calls.map (·.settle) }

namespace Ledger

/-- No run is active. -/
def Idle (l : Ledger) : Prop := ∀ run ∈ l.runs.values, run.snapshot.status.isTerminal = true

/-- One run is settled. -/
inductive Settle (l : Ledger) : String → Ledger → Prop
  | mk {turn : String} {run : StoredRun} {candidate : RunSnapshot} {usage : UsageMetrics}
      (found : l.runs.get? turn = some run) (active : run.snapshot.status.isTerminal = false)
      (thread : candidate.threadId = run.params.threadId) (same : candidate.turnId = turn)
      (terminal : candidate.status.isTerminal = true)
      (fits : UsageMetrics.checkedSum {} run.usages = some usage) :
      Settle l turn
        { history := l.history ++ settledResults run.calls
          runs := l.runs.insert turn
            (run.settled turn (l.history ++ settledResults run.calls) usage candidate)
          unknown := l.unknown ++ run.calls.filterMap (·.unknown? turn) }

/-- What a step of the ledger is about. -/
inductive Label where
  | accept (params : StartTurnParams)
  | update (turn : String) (fresh : FreshIds) (op : RunMutation)
  | settle (turns : List String)
  | acknowledge

/-- The steps of the ledger of a record at `revision`. -/
inductive Change (revision : Nat) (l : Ledger) : Label → Ledger → Prop
  | accept {params : StartTurnParams} {snapshot : RunSnapshot} {options : Value}
      (absent : l.runs.get? params.turnId = none) (idle : l.Idle)
      (resolved : ∀ u ∈ l.unknown, u.acknowledged = true)
      (thread : snapshot.threadId = params.threadId) (turn : snapshot.turnId = params.turnId)
      (active : snapshot.status.isTerminal = false) (result : snapshot.result = none)
      (distinct : Distinct (l.history.map (·.id)) (params.inputItems.map (·.id))) :
      Change revision l (.accept params)
        { l with
          history := l.history ++ params.inputItems
          runs := l.runs.insert params.turnId
            (acceptedRun params snapshot options l.history.length) }
  | update {turn : String} {fresh : FreshIds} {op : RunMutation} {run run' : StoredRun}
      {history : List CanonicalItem} (found : l.runs.get? turn = some run)
      (active : run.snapshot.status.isTerminal = false)
      (edit : RunEdit revision l.history run fresh op run' history) :
      Change revision l (.update turn fresh op)
        { l with history, runs := l.runs.insert turn (run'.refresh history) }
  | settle {turns : List String} {l' : Ledger} (settles : Lts.Run Settle l turns l') :
      Change revision l (.settle turns) l'
  | acknowledge :
      Change revision l .acknowledge
        { l with unknown := l.unknown.map ({ · with acknowledged := true }) }

/-- A step that changes nothing. -/
theorem Change.keep (revision : Nat) (l : Ledger) : Change revision l (.settle []) l :=
  .settle (.nil l)

end Ledger

/-! ## The operations take steps -/

theorem find?_split {callId : String} {c : StoredCall} {f : StoredCall → StoredCall} :
    ∀ {calls : List StoredCall}, calls.find? (·.callId == callId) = some c →
      c.callId = callId ∧ ∃ pre post, calls = pre ++ c :: post ∧ (∀ d ∈ pre, d.callId ≠ callId) ∧
        updateFirst (·.callId == callId) f calls = pre ++ f c :: post
  | [], h => by simp at h
  | d :: calls, h => by
    rw [List.find?_cons] at h
    cases hd : d.callId == callId with
    | true =>
      obtain rfl : d = c := by simpa [hd] using h
      exact ⟨by simpa using hd, [], calls, rfl, by simp, by simp [updateFirst, hd]⟩
    | false =>
      rw [hd] at h
      obtain ⟨hc, pre, post, rfl, hpre, hu⟩ := find?_split (f := f) h
      refine ⟨hc, d :: pre, post, rfl, ?_, by simp [updateFirst, hd, hu]⟩
      intro x hx
      rcases List.mem_cons.1 hx with rfl | hx
      · simpa using hd
      · exact hpre x hx

theorem getLast?_split {α : Type} {l : List α} {a : α} (h : l.getLast? = some a) :
    ∃ pre, l = pre ++ [a] ∧ ∀ b, setLast l b = pre ++ [b] := by
  obtain ⟨pre, rfl⟩ := List.getLast?_eq_some_iff.1 h
  exact ⟨pre, rfl, fun b => by simp [setLast]⟩

/-- A mutation that is accepted edits the run as `RunEdit` says. -/
theorem mutateRun_edit {revision : Nat} {history history' : List CanonicalItem}
    {run run' : StoredRun} {fresh : FreshIds} {op : RunMutation} {ret : Option CanonicalItem}
    (h : mutateRun revision history run fresh op = .ok (run', history', ret)) :
    RunEdit revision history run fresh op run' history' := by
  cases op with
  | modelInput stepId stepIndex request =>
    obtain ⟨hc, h⟩ := refuse_bind_ok h
    simp only [Bool.or_eq_false_iff, isEmpty_eq_false_iff, bne_eq_false_iff_eq,
      Bool.not_eq_false', Option.any_eq_false, List.any_eq_false, beq_iff_eq,
      Bool.not_eq_true', Bool.not_eq_false] at hc
    obtain ⟨⟨⟨⟨⟨hn, rfl⟩, hobj⟩, hlast⟩, hcom⟩, habs⟩ := hc
    cases h
    exact .input hn hobj hlast hcom habs
  | modelItem stepId item =>
    obtain ⟨step, hlast, h⟩ := orElse_bind_ok h
    obtain ⟨hc, h⟩ := refuse_bind_ok h
    simp only [Bool.or_eq_false_iff, bne_eq_false_iff_eq, List.any_eq_false, beq_iff_eq] at hc
    obtain ⟨⟨⟨rfl, hrun⟩, hmodel⟩, habs⟩ := hc
    have habs : item.id ∉ history.map (·.id) := fun hm => by
      obtain ⟨i, hi, he⟩ := List.mem_map.1 hm
      exact habs i hi he
    cases item with
    | toolCall id callId namesp name arguments raw =>
      obtain ⟨hc, h⟩ := refuse_bind_ok h
      simp only [Bool.or_eq_false_iff, isEmpty_eq_false_iff, List.any_eq_false, beq_iff_eq] at hc
      cases h
      exact .call hlast hrun habs hc.1 hc.2
    | userMessage id content => cases h; exact .item hlast hrun hmodel rfl habs
    | assistantMessage id content phase => cases h; exact .item hlast hrun hmodel rfl habs
    | reasoning id thinking signature encrypted => cases h; exact .item hlast hrun hmodel rfl habs
    | toolResult id callId output isError => cases h; exact .item hlast hrun hmodel rfl habs
  | modelStepFinished stepId usage =>
    obtain ⟨total, hfits, h⟩ := orElse_bind_ok h
    obtain ⟨step, hlast, h⟩ := orElse_bind_ok h
    obtain ⟨hc, h⟩ := refuse_bind_ok h
    simp only [Bool.or_eq_false_iff, bne_eq_false_iff_eq] at hc
    obtain ⟨hid, hrun⟩ := hc
    obtain ⟨steps, hsteps, hset⟩ := getLast?_split hlast
    simp only [hset] at h
    cases h
    subst hid
    exact .finished hsteps hrun hfits
  | dispatchIntent callId execution =>
    obtain ⟨c, hfind, h⟩ := orElse_bind_ok h
    obtain ⟨hc, h⟩ := refuse_bind_ok h
    simp only [Bool.or_eq_false_iff, bne_eq_false_iff_eq, Option.isSome_eq_false_iff,
      Option.isNone_iff_eq_none, Bool.not_eq_false'] at hc
    obtain ⟨⟨⟨hsame, honce⟩, hopen⟩, hfin⟩ := hc
    obtain ⟨rfl, pre, post, hsplit, hpre, hupd⟩ := find?_split hfind
    rw [hupd] at h
    cases h
    exact .intent hsplit hpre hsame honce hopen hfin
  | toolOutcome callId result =>
    obtain ⟨c, hfind, h⟩ := orElse_bind_ok h
    obtain ⟨hfin, h⟩ := refuse_bind_ok h
    cases result with
    | toolResult id resultCall output isError =>
      obtain ⟨hcall, h⟩ := refuse_bind_ok h
      obtain ⟨hsame, h⟩ := refuse_bind_ok h
      obtain rfl : resultCall = callId := by simpa using hcall
      obtain ⟨rfl, pre, post, hsplit, hpre, hupd⟩ := find?_split hfind
      rw [hupd] at h
      cases h
      refine .outcome hsplit hpre (by simpa using hfin) fun o ho => ?_
      simpa [ho] using hsame
    | userMessage id content => cases h
    | assistantMessage id content phase => cases h
    | reasoning id thinking signature encrypted => cases h
    | toolCall id callId namesp name arguments raw => cases h
  | toolBatch callIds =>
    obtain ⟨hc, h⟩ := refuse_bind_ok h
    simp only [Bool.or_eq_false_iff, bne_eq_false_iff_eq, List.any_eq_false, List.mem_filter,
      Bool.not_eq_true', and_imp, Option.isNone_iff_eq_none] at hc
    obtain ⟨hids, hcomp⟩ := hc
    cases h
    subst hids
    exact .batch fun c hm hf => Option.isSome_iff_ne_none.2 (hcomp c hm hf)

theorem active_eq_false_iff {r : SessionRecord} : r.active = false ↔ r.ledger.Idle := by
  simp [SessionRecord.active, Ledger.Idle]

theorem unresolved_eq_false_iff {r : SessionRecord} :
    r.unresolved = false ↔ ∀ u ∈ r.ledger.unknown, u.acknowledged = true := by
  simp [SessionRecord.unresolved]

/-- An accepted `begin` repeats a stored run or adds one. -/
theorem begin_change [External] {r r' : SessionRecord} {params : StartTurnParams}
    {snapshot : RunSnapshot} {options : Value} {accepted : Bool}
    (h : r.begin params snapshot options = .ok (accepted, r')) :
    (accepted = false ∧ r' = r ∧ (r.runs.get? params.turnId).isSome) ∨
    (accepted = true ∧ r.threadId = some params.threadId ∧ ∃ l,
      Ledger.Change r.revision r.ledger (.accept params) l ∧ r' = r.withLedger l) := by
  unfold SessionRecord.begin at h
  split at h
  · rename_i old hold
    split at h
    · cases h
      exact .inl ⟨rfl, rfl, by simp [hold]⟩
    · cases h
  · rename_i hnone
    obtain ⟨hactive, h⟩ := refuse_bind_ok h
    obtain ⟨hresolved, h⟩ := refuse_bind_ok h
    obtain ⟨hc, h⟩ := refuse_bind_ok h
    obtain ⟨_, _, h⟩ := bind_ok h
    obtain ⟨hdistinct, h⟩ := refuse_bind_ok h
    simp only [Bool.or_eq_false_iff, bne_eq_false_iff_eq, Option.isSome_eq_false_iff,
      Option.isNone_iff_eq_none] at hc
    obtain ⟨⟨⟨⟨⟨⟨⟨hthread, -⟩, -⟩, -⟩, hst⟩, hsturn⟩, hstatus⟩, hresult⟩ := hc
    cases h
    exact .inr ⟨rfl, hthread, _, .accept hnone (active_eq_false_iff.1 hactive)
      (unresolved_eq_false_iff.1 hresolved) hst hsturn hstatus hresult
      (repeats_eq_false_iff.1 hdistinct), rfl⟩

/-- An accepted mutation edits the active run. -/
theorem mutate_change [External] {r r' : SessionRecord} {turn : String} {op : RunMutation}
    {fresh : FreshIds} {ret : Option CanonicalItem} (h : r.mutate turn op fresh = .ok (ret, r')) :
    ∃ l, Ledger.Change r.revision r.ledger (.update turn fresh op) l ∧ r' = r.withLedger l := by
  obtain ⟨_, _, h⟩ := bind_ok h
  obtain ⟨run, hrun, h⟩ := orElse_bind_ok h
  obtain ⟨hactive, h⟩ := refuse_bind_ok h
  obtain ⟨⟨run', history, ret'⟩, hedit, h⟩ := bind_ok h
  cases h
  exact ⟨_, .update hrun hactive (mutateRun_edit hedit), rfl⟩

/-- An accepted `finalize` of an active run settles it; of a terminal run it changes nothing. -/
theorem finalize_settle {r r' : SessionRecord} {turn : String} {candidate : RunSnapshot}
    {f : FinalizedRun} (h : r.finalize turn candidate = .ok (f, r')) :
    ∃ run, r.runs.get? turn = some run ∧
      ((run.snapshot.status.isTerminal = true ∧ r' = r) ∨
      (run.snapshot.status.isTerminal = false ∧
        ∃ l, Ledger.Settle r.ledger turn l ∧ r' = r.withLedger l)) := by
  obtain ⟨run, hrun, h⟩ := orElse_bind_ok h
  refine ⟨run, hrun, ?_⟩
  cases hactive : run.snapshot.status.isTerminal with
  | true =>
    simp only [hactive, if_true] at h
    cases h
    exact .inl ⟨rfl, rfl⟩
  | false =>
    simp only [hactive, Bool.false_eq_true, if_false] at h
    obtain ⟨hc, h⟩ := refuse_bind_ok h
    obtain ⟨usage, hfits, h⟩ := orElse_bind_ok h
    simp only [Bool.or_eq_false_iff, bne_eq_false_iff_eq, Bool.not_eq_false'] at hc
    cases h
    exact .inr ⟨rfl, _, .mk hrun hactive hc.1.1 hc.1.2 hc.2 hfits, rfl⟩

theorem finalize_change {r r' : SessionRecord} {turn : String} {candidate : RunSnapshot}
    {f : FinalizedRun} (revision : Nat) (h : r.finalize turn candidate = .ok (f, r')) :
    ∃ turns l, Ledger.Change revision r.ledger (.settle turns) l ∧ r' = r.withLedger l := by
  obtain ⟨run, -, ⟨-, rfl⟩ | ⟨-, l, hl, rfl⟩⟩ := finalize_settle h
  · exact ⟨[], _, .keep _ _, rfl⟩
  · exact ⟨[turn], l, .settle (.single hl), rfl⟩

/-- Settling one run leaves the others. -/
theorem Ledger.Settle.get?_ne {l l' : Ledger} {turn turn' : String} (h : Ledger.Settle l turn l')
    (hne : turn ≠ turn') : l'.runs.get? turn' = l.runs.get? turn' := by
  cases h
  exact OrdMap.get?_insert_ne _ _ hne

/-- The loop of `recover` settles the runs it is given. -/
theorem recoverTurns_settles : ∀ {turns : List String} {r r' : SessionRecord},
    (∀ turn ∈ turns, ∃ run, r.runs.get? turn = some run ∧
      run.snapshot.status.isTerminal = false) → turns.Nodup →
    r.recoverTurns turns = .ok r' →
    ∃ l, Lts.Run Ledger.Settle r.ledger turns l ∧ r' = r.withLedger l
  | [], r, r', _, _, h => by
    cases h
    exact ⟨r.ledger, .nil _, rfl⟩
  | turn :: turns, r, r', hact, hnd, h => by
    obtain ⟨run, hrun, h⟩ := orElse_bind_ok h
    obtain ⟨⟨f, r₁⟩, hfin, h⟩ := bind_ok h
    obtain ⟨run₀, hrun₀, hstat⟩ := hact turn List.mem_cons_self
    obtain ⟨run₁, hrun₁, ⟨hterm, -⟩ | ⟨-, l, hl, rfl⟩⟩ := finalize_settle hfin
    · rw [hrun₀] at hrun₁
      cases hrun₁
      rw [hstat] at hterm
      cases hterm
    · obtain ⟨hnot, hnd⟩ := List.nodup_cons.1 hnd
      have hact' : ∀ t ∈ turns, ∃ run, (r.withLedger l).runs.get? t = some run ∧
          run.snapshot.status.isTerminal = false := fun t ht => by
        rw [show (r.withLedger l).runs = l.runs from rfl, hl.get?_ne fun he => hnot (he ▸ ht)]
        exact hact t (List.mem_cons_of_mem _ ht)
      obtain ⟨l', hl', rfl⟩ := recoverTurns_settles hact' hnd h
      exact ⟨l', .cons hl hl', rfl⟩

theorem mem_activeTurns {r : SessionRecord} {turn : String} :
    turn ∈ r.activeTurns ↔ ∃ run, r.runs.get? turn = some run ∧
      run.snapshot.status.isTerminal = false := by
  simp only [SessionRecord.activeTurns, List.mem_map, List.mem_filter, Bool.not_eq_true',
    Prod.exists, exists_and_right, exists_eq_right, OrdMap.get?_eq_some_iff]

theorem nodup_activeTurns (r : SessionRecord) : r.activeTurns.Nodup := by
  have hs : (r.runs.entries.map (·.1)).Nodup :=
    List.pairwise_map.2 (r.runs.sorted.imp fun h => ne_of_lt h)
  exact hs.sublist (List.filter_sublist.map _)

/-- `recover` settles the active runs and drops the lease. -/
theorem recover_settles {r r' : SessionRecord} {changed : Bool}
    (h : r.recover = .ok (changed, r')) (hlive : r.forgotten = false) :
    changed = (r.owner.isSome || !r.activeTurns.isEmpty) ∧
    ∃ l, Lts.Run Ledger.Settle r.ledger r.activeTurns l ∧
      r' = (r.withLedger l).dropLease := by
  simp only [SessionRecord.recover, hlive, Bool.false_eq_true, if_false] at h
  obtain ⟨r₁, hturns, h⟩ := bind_ok h
  cases h
  obtain ⟨l, hl, rfl⟩ :=
    recoverTurns_settles (fun _ => mem_activeTurns.1) (nodup_activeTurns r) hturns
  exact ⟨rfl, l, hl, rfl⟩

end Whale
