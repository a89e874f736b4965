import Whale.Core.Proof.InStep

/-!
# A journalled turn over its whole run

`journal_in_step`: over every run of a turn with its record, each commit the engine makes is accepted,
both histories agree at the top of the step loop, and every handler runs at most once and after the
commit of its intent. What is left to the record are its limits, and there the two sides measure a
request differently: the engine counts the request's text, the record the text of its value
(`Fits`).
-/

namespace Whale

open Check

section
variable [External] [RequestSerde] [ToolJson]

/-! ## The limits -/

/-- The value of a request is within the limit, as the record measures it. -/
def Fits (limits : Option SessionLimits) : RunMutation → Prop
  | .modelInput _ _ value => ∀ max, limits.bind (·.maxModelRequestBytes) = some max →
      ∃ bytes, External.valueBytes value = .ok bytes ∧ bytes ≤ max
  | _ => True

omit [External] [RequestSerde] [ToolJson] in
theorem checkSize_ok_iff {size : Except String Nat} {max : Option Nat} {field : String} :
    SessionRecord.checkSize size max field = .ok () ↔
      ∀ m, max = some m → ∃ bytes, size = .ok bytes ∧ bytes ≤ m := by
  unfold SessionRecord.checkSize
  cases max with
  | none => simp
  | some m =>
    cases size with
    | error e => simp
    | ok bytes => simp [refuse_ok_iff]

omit [RequestSerde] [ToolJson] in
theorem checkHistory_size {limits : Option SessionLimits} {history : List CanonicalItem}
    (h : ThreadSession.checkHistoryWithInput limits history [] = .ok ()) {l : SessionLimits}
    (hl : limits = some l) (field : String) :
    SessionRecord.checkSize (historyBytes history []) l.maxHistoryBytes field = .ok () := by
  subst hl
  rw [checkSize_ok_iff]
  intro m hm
  simp only [ThreadSession.checkHistoryWithInput, Option.bind_some, hm] at h
  cases hb : historyBytes history [] with
  | error e => rw [hb] at h; cases h
  | ok bytes =>
    rw [hb] at h
    exact ⟨bytes, rfl, by simpa [refuse_ok_iff] using h⟩

omit [RequestSerde] [ToolJson] in
/-- Past the engine's check of the history, the record's limits are about the request alone. -/
theorem checkLimits_iff {r : SessionRecord} {limits : Option SessionLimits}
    (hl : r.sessionLimits "" = .ok limits)
    (hh : ThreadSession.checkHistoryWithInput limits r.history [] = .ok ()) (op : RunMutation) :
    r.checkLimits op = .ok () ↔ Fits limits op := by
  cases op with
  | modelInput stepId stepIndex value =>
    simp only [SessionRecord.checkLimits, hl, ok_bind, Fits]
    cases limits with
    | none => simp
    | some l =>
      simp only [checkHistory_size hh rfl, ok_bind, Option.bind_some]
      exact checkSize_ok_iff
  | dispatchIntent callId execution =>
    simp only [SessionRecord.checkLimits, hl, ok_bind, Fits]
    cases limits with
    | none => simp
    | some l => simp only [checkHistory_size hh rfl]
  | _ => simp [SessionRecord.checkLimits, Fits]

theorem Turn.Step.limits {g : Engine} {t t' : Turn} {e : TurnEffect} (h : Turn.Step g t e t') :
    t'.session.limits = t.session.limits := by
  cases h with
  | accepted phase steps accepted => rw [acceptTurn_history accepted]
  | finish receipt phase => rw [afterStep_session]
  | _ => rfl

/-- Where the record checks its limits, the engine has checked the history. -/
theorem PhaseIn.limited {g : Engine} {t t' : Turn} {e : TurnEffect} {steps : List ModelInputRecord}
    {calls : List StoredCall} {op : RunMutation} {receipt : Option CanonicalItem} {r : SessionRecord}
    {limits : Option SessionLimits}
    (h : PhaseIn g t r.history steps calls) (hj : g.coordinator.journalled = true)
    (hstep : Turn.Step g t e t') (hc : e.commit = some (op, receipt))
    (hl : r.sessionLimits "" = .ok limits) (hs : t.session.limits = limits) :
    r.checkLimits op = .ok () ↔ Fits limits op := by
  have hcommit : ∀ {op' : RunMutation} {receipt' : Option CanonicalItem},
      Turn.committed g op' receipt' = some (op, receipt) → op = op' := fun h => by
    simp only [Turn.committed, hj, if_true, Option.some.injEq, Prod.mk.injEq] at h
    exact h.1.symm
  have hchecked : r.history = t.session.history → t.session.checkHistoryLimit = .ok () →
      (r.checkLimits op = .ok () ↔ Fits limits op) := fun hh hlimit => by
    refine checkLimits_iff hl ?_ op
    rw [hh, ← hs]
    exact hlimit
  unfold PhaseIn at h
  cases hstep with
  | stream receipt phase serialized =>
    rw [phase] at h
    exact hchecked h.1 h.2.2.2.2.1
  | item receipt phase observed admitted => rw [hcommit hc]; exact iff_of_true rfl trivial
  | message receipt phase => rw [hcommit hc]; exact iff_of_true rfl trivial
  | finish receipt phase => rw [hcommit hc]; exact iff_of_true rfl trivial
  | call phase segment =>
    rw [phase] at h
    exact hchecked h.1 h.2.2.1
  | batch receipt phase => rw [hcommit hc]; exact iff_of_true rfl trivial
  | _ => cases hc

/-! ## The record after a commit -/

omit [RequestSerde] [ToolJson] in
/-- `mutate` of an active run: its limits, then the run's own checks. -/
theorem mutate_eq {r : SessionRecord} {turn : String} {run run' : StoredRun} {op : RunMutation}
    {fresh : FreshIds} {history : List CanonicalItem} {ret : Option CanonicalItem}
    (hrun : r.runs.get? turn = some run) (hactive : run.snapshot.status.isTerminal = false)
    (hm : mutateRun r.revision r.history run fresh op = .ok (run', history, ret)) :
    r.mutate turn op fresh = (r.checkLimits op >>= fun _ => .ok (ret, { r with
      history, runs := r.runs.insert turn (run'.refresh history) })) := by
  simp only [SessionRecord.mutate, hrun, orElse_some, ok_bind, hactive, refuse_false, hm]
  rfl

/-- The turn and its record are in step. -/
structure InStep (g : Engine) (limits : Option SessionLimits) (j : Journaled) : Prop where
  run : ∃ run, j.record.runs.get? g.context.turnId = some run ∧
    run.snapshot.status.isTerminal = false ∧
    PhaseIn g j.turn j.record.history run.modelInputs run.calls
  record : j.record.sessionLimits "" = .ok limits
  session : j.turn.session.limits = limits

theorem Journaled.Begun.inStep {g : Engine} {session : ThreadSession} {r : SessionRecord}
    (h : Journaled.Begun g session r) : InStep g session.limits ⟨Turn.start session, r⟩ := by
  obtain ⟨run, hrun, hactive, hsteps, hcalls⟩ := h.run
  exact ⟨⟨run, hrun, hactive, hsteps, hcalls, h.history, rfl⟩, h.limits, rfl⟩

section
variable {g : Engine} {session : ThreadSession} {r : SessionRecord}

/-- A commit the turn makes: accepted exactly when it fits, for whatever ids the record draws; and
the turn is in step with the record when it takes the receipt. -/
theorem InStep.commit (hb : Journaled.Begun g session r) {j : Journaled}
    (h : InStep g session.limits j) {e : TurnEffect} {t : Turn} {op : RunMutation}
    {receipt : Option CanonicalItem} (hstep : Turn.Step g j.turn e t)
    (hc : e.commit = some (op, receipt)) (fresh : FreshIds) :
    ∃ run run' history ret, j.record.runs.get? g.context.turnId = some run ∧
      mutateRun j.record.revision j.record.history run fresh op = .ok (run', history, ret) ∧
      (Fits session.limits op → j.record.mutate g.context.turnId op fresh = .ok (ret,
        { j.record with
          history, runs := j.record.runs.insert g.context.turnId (run'.refresh history) })) ∧
      ((∃ x, j.record.mutate g.context.turnId op fresh = .ok x) → Fits session.limits op) ∧
      ∀ (inp : Inputs) (revision : Nat), receipt = ret → InStep g session.limits
        ⟨t, written { j.record with
          history, runs := j.record.runs.insert g.context.turnId (run'.refresh history) } inp
          revision⟩ := by
  obtain ⟨run, hrun, hactive, hphase⟩ := h.run
  obtain ⟨run', history, ret, hm, hsnapshot, hnext⟩ :=
    hphase.commit hb.journal hb.named hb.distinct hb.object hstep hc j.record.revision fresh
  have hlimits := hphase.limited hb.journal hstep hc h.record h.session
  have hmutate := mutate_eq hrun hactive hm
  refine ⟨run, run', history, ret, hrun, hm, fun hfits => ?_, fun hok => ?_,
    fun inp revision hreceipt => ⟨⟨run'.refresh history, ?_, ?_, hnext hreceipt⟩, h.record, ?_⟩⟩
  · rw [hmutate, hlimits.2 hfits, ok_bind]
  · obtain ⟨x, hx⟩ := hok
    rw [hmutate] at hx
    obtain ⟨_, hl, -⟩ := bind_ok hx
    exact hlimits.1 hl
  · exact OrdMap.get?_insert_self _ _ _
  · show run'.snapshot.status.isTerminal = false
    rw [hsnapshot]
    exact hactive
  · exact hstep.limits.trans h.session

theorem InStep.step (hb : Journaled.Begun g session r) {j j' : Journaled} {e : TurnEffect}
    (h : InStep g session.limits j) (hstep : Journaled.Step g j e j') :
    InStep g session.limits j' := by
  cases hstep with
  | quiet step commit =>
    obtain ⟨run, hrun, hactive, hphase⟩ := h.run
    exact ⟨⟨run, hrun, hactive, hphase.quiet hb.journal step commit⟩, h.record,
      step.limits.trans h.session⟩
  | commit inp revision step commit accepted =>
    obtain ⟨run, run', history, ret, hrun, hm, hok, hfits, hnext⟩ := h.commit hb step commit inp.fresh
    rw [hok (hfits ⟨_, accepted⟩)] at accepted
    cases accepted
    exact hnext inp revision rfl

/-! ## Dispatch -/

omit [External] [RequestSerde] [ToolJson] in
/-- A mutation keeps the intents there are, and adds the one it commits. -/
theorem RunEdit.intents {revision : Nat} {history history' : List CanonicalItem}
    {run run' : StoredRun} {fresh : FreshIds} {op : RunMutation}
    (h : RunEdit revision history run fresh op run' history') :
    (∀ c ∈ run.calls, c.intent.isSome → ∃ c' ∈ run'.calls, c'.callId = c.callId ∧ c'.intent.isSome) ∧
    ∀ c' ∈ run'.calls, ∀ x, c'.intent = some x →
      (∃ c ∈ run.calls, c.callId = c'.callId ∧ c.intent = some x) ∨
        op = .dispatchIntent c'.callId x := by
  -- a change of one entry
  have hsplit : ∀ {pre post : List StoredCall} {c d : StoredCall}, run.calls = pre ++ c :: post →
      d.callId = c.callId → (c.intent.isSome → d.intent.isSome) →
      (∀ x, d.intent = some x → c.intent = some x ∨ op = .dispatchIntent c.callId x) →
      (∀ e ∈ run.calls, e.intent.isSome →
        ∃ e' ∈ pre ++ d :: post, e'.callId = e.callId ∧ e'.intent.isSome) ∧
      ∀ e' ∈ pre ++ d :: post, ∀ x, e'.intent = some x →
        (∃ e ∈ run.calls, e.callId = e'.callId ∧ e.intent = some x) ∨
          op = .dispatchIntent e'.callId x := by
    intro pre post c d hcalls hid hkeep hadd
    rw [hcalls]
    constructor
    · intro e he hsome
      simp only [List.mem_append, List.mem_cons] at he
      rcases he with he | rfl | he
      · exact ⟨e, by simp [he], rfl, hsome⟩
      · exact ⟨d, by simp, hid, hkeep hsome⟩
      · exact ⟨e, by simp [he], rfl, hsome⟩
    · intro e' he' x hx
      simp only [List.mem_append, List.mem_cons] at he'
      rcases he' with he' | rfl | he'
      · exact .inl ⟨e', by simp [he'], rfl, hx⟩
      · rcases hadd x hx with hc | hop
        · exact .inl ⟨c, by simp, hid.symm, hc⟩
        · exact .inr (hid ▸ hop)
      · exact .inl ⟨e', by simp [he'], rfl, hx⟩
  have hsame : (∀ c ∈ run.calls, c.intent.isSome →
      ∃ c' ∈ run.calls, c'.callId = c.callId ∧ c'.intent.isSome) ∧
      ∀ c' ∈ run.calls, ∀ x, c'.intent = some x →
        (∃ c ∈ run.calls, c.callId = c'.callId ∧ c.intent = some x) ∨
          op = .dispatchIntent c'.callId x :=
    ⟨fun c hc hs => ⟨c, hc, rfl, hs⟩, fun c hc x hx => .inl ⟨c, hc, rfl, hx⟩⟩
  cases h with
  | input named object finished committed absent => exact hsame
  | item last running model plain absent => exact hsame
  | call last running absent named first =>
    refine ⟨fun c hc hs => ⟨c, List.mem_append_left _ hc, rfl, hs⟩, fun c' hc' x hx => ?_⟩
    rcases List.mem_append.1 hc' with hc' | hc'
    · exact .inl ⟨c', hc', rfl, hx⟩
    · rw [List.mem_singleton.1 hc'] at hx
      cases hx
  | finished last running fits => exact hsame
  | intent split first same once open_ finished =>
    refine hsplit split rfl (fun _ => rfl) fun x hx => ?_
    cases hx
    exact .inr rfl
  | outcome split first finished same => exact hsplit split rfl id fun x hx => .inl hx
  | batch complete =>
    refine ⟨fun c hc hs => ⟨_, List.mem_map_of_mem hc, rfl, hs⟩, fun c' hc' x hx => ?_⟩
    obtain ⟨c, hc, rfl⟩ := List.mem_map.1 hc'
    exact .inl ⟨c, hc, rfl, hx⟩

/-- A commit and a call of a handler are different steps. -/
theorem Turn.Step.commit_dispatched {t t' : Turn} {e : TurnEffect} (h : Turn.Step g t e t')
    {c : RunMutation × Option CanonicalItem} (hc : e.commit = some c) : e.dispatched = none := by
  cases h with
  | call phase segment =>
    cases segment with
    | call which segment =>
      cases segment with
      | intent receipt phase => rfl
      | outcome phase journal => rfl
      | _ => cases hc
    | _ => rfl
  | _ => rfl

/-- A batch under way has just begun or has taken a step. -/
theorem Turn.Step.calling {t t' : Turn} {e : TurnEffect} (h : Turn.Step g t e t') {n : Nat}
    {b' : Batch} (hb : t'.phase = .calling n b') : (∃ items, b' = Batch.start items) ∨
      ∃ b ce, t.phase = .calling n b ∧ Batch.Step g.coordinator b ce b' ∧
        e.dispatched = ce.dispatched := by
  cases h with
  | finish receipt phase =>
    unfold Turn.afterStep at hb
    split at hb
    · cases hb
    · split at hb
      · cases hb
      · cases hb
        exact .inl ⟨_, rfl⟩
  | call phase segment =>
    cases hb
    exact .inr ⟨_, _, phase, segment, rfl⟩
  | _ => cases hb

omit [External] [RequestSerde] in
theorem Gated.callId {c : Coordinator} {s : CallState} {inv : Invocation} (h : Gated c s inv) :
    s.item.callId? = some inv.callId := by
  obtain ⟨_, _, _, _, _, hitem, -⟩ := h.admitted.call
  rw [hitem]
  rfl

omit [External] [RequestSerde] in
theorem announcing_callId {c : Coordinator} {s : CallState} {inv : Invocation}
    (h : CallState.Ok c s) (hp : s.phase = .announcing inv) : s.item.callId? = some inv.callId := by
  unfold CallState.Ok at h
  rw [hp] at h
  exact h.1.callId

omit [External] [RequestSerde] in
/-- A handler is called for a call at that point. -/
theorem Batch.Step.dispatching {c : Coordinator} {b b' : Batch} {e : CallEffect} {callId : String}
    {arguments : Value} (h : Batch.Step c b e b') (hd : e.dispatched = some (callId, arguments)) :
    ∃ s ∈ b.calls, ∃ inv, s.phase = .announcing inv ∧ inv.callId = callId ∧
      inv.arguments = arguments := by
  cases h with
  | @call before after s s' _ which segment =>
    cases segment with
    | dispatch phase token =>
      cases hd
      exact ⟨s, by simp [which], _, phase, rfl, rfl⟩
    | _ => cases hd
  | _ => cases hd

omit [External] [RequestSerde] in
/-- A call whose handler is to be called next stood there already, and is not the one whose handler
is called now; or its intent has just been committed. -/
theorem Batch.Step.announcing {c : Coordinator} {items : List CanonicalItem} {b b' : Batch}
    {e : CallEffect} (h : Batch.Step c b e b') (hinv : Batch.Inv c items b)
    (hj : c.journalled = true) (hn : (b.calls.map (·.item.callId?)).Nodup) {s : CallState}
    (hs : s ∈ b'.calls) {inv : Invocation} (hp : s.phase = .announcing inv) :
    (s ∈ b.calls ∧ ∀ id arguments, e.dispatched = some (id, arguments) → id ≠ inv.callId) ∨
      ((∃ t ∈ b.calls, t.phase = .intending inv) ∧ e.dispatched = none) := by
  have hstay : s ∈ b.calls → e.dispatched = none → (s ∈ b.calls ∧
      ∀ id arguments, e.dispatched = some (id, arguments) → id ≠ inv.callId) ∨
      ((∃ t ∈ b.calls, t.phase = .intending inv) ∧ e.dispatched = none) := fun hs hnone =>
    .inl ⟨hs, fun id arguments hd => by rw [hnone] at hd; cases hd⟩
  cases h with
  | @call before after u u' _ which segment =>
    have hu : u ∈ b.calls := by simp [which]
    by_cases hmem : s ∈ before ++ after
    · have hs : s ∈ b.calls := by
        rw [which]
        rcases List.mem_append.1 hmem with hm | hm
        · exact List.mem_append_left _ hm
        · exact List.mem_append_right _ (List.mem_cons_of_mem _ hm)
      refine .inl ⟨hs, fun id arguments hd heq => ?_⟩
      obtain ⟨v, hv, inv', hpv, hid, -⟩ :=
        Batch.Step.dispatching (.call which segment) hd
      -- the call dispatched is `u`, which has another id
      have hou := announcing_callId (hinv.calls s hs) hp
      have huv : u.item.callId? = some id := by
        cases segment with
        | dispatch phase token =>
          cases hd
          exact announcing_callId (hinv.calls u hu) phase
        | _ => cases hd
      rw [which, List.map_append, List.map_cons] at hn
      obtain ⟨-, hcons, hdisj⟩ := List.nodup_append.1 hn
      rcases List.mem_append.1 hmem with hm | hm
      · refine hdisj _ (List.mem_map_of_mem hm) u.item.callId? (by simp) ?_
        rw [hou, huv, heq]
      · refine (List.nodup_cons.1 hcons).1 (List.mem_map.2 ⟨s, hm, ?_⟩)
        rw [hou, huv, heq]
    · have hs' : s = u' := by
        simp only [List.mem_append, List.mem_cons] at hs hmem
        tauto
      subst hs'
      cases segment with
      | prepare id phase =>
        have := prepare_guard c id u.item
        rw [show c.prepare id u.item = .announcing inv from hp] at this
        cases this
      | @answer inv' id answer phase =>
        have := answered_guard inv' id answer
        rw [show inv'.answered id answer = .announcing inv from hp] at this
        cases this
      | acquire phase guard token journal => rw [journal] at hj; cases hj
      | intent receipt phase =>
        cases hp
        exact .inr ⟨⟨u, hu, phase⟩, rfl⟩
      | _ => cases hp
  | _ => exact hstay hs rfl

omit [External] [RequestSerde] [ToolJson] in
/-- The calls whose handlers have been called. -/
def dispatchedIds (es : List TurnEffect) : List String := (es.filterMap (·.dispatched)).map (·.1)

omit [External] [RequestSerde] [ToolJson] in
theorem dispatchedIds_snoc (es : List TurnEffect) (e : TurnEffect) :
    dispatchedIds (es ++ [e]) = dispatchedIds es ++ (e.dispatched.map (·.1)).toList := by
  unfold dispatchedIds
  cases hd : e.dispatched <;> simp [hd]

/-- The steps so far and the intents of the run's calls. -/
structure Dispatches (es : List TurnEffect) (t : Turn) (calls : List StoredCall) : Prop where
  committed : ∀ c ∈ calls, ∀ x, c.intent = some x →
    ∃ e ∈ es, ∃ receipt, e.commit = some (.dispatchIntent c.callId x, receipt)
  once : (dispatchedIds es).Nodup
  intended : ∀ id ∈ dispatchedIds es, ∃ c ∈ calls, c.callId = id ∧ c.intent.isSome
  waiting : ∀ n b, t.phase = .calling n b → ∀ s ∈ b.calls, ∀ inv, s.phase = .announcing inv →
    inv.callId ∉ dispatchedIds es
  preceded : ∀ before e after callId arguments, es = before ++ e :: after →
    e.dispatched = some (callId, arguments) → ∃ e' ∈ before, ∃ original receipt,
      e'.commit = some (.dispatchIntent callId ⟨callId, original, arguments⟩, receipt)

omit [External] [RequestSerde] [ToolJson] in
/-- Two entries of a run with one call id are one. -/
theorem Synced.unique {n : Nat} {history : List CanonicalItem} {steps : List ModelInputRecord}
    {calls : List StoredCall} (h : Synced g n history steps calls) {c d : StoredCall} (hc : c ∈ calls)
    (hd : d ∈ calls) (he : c.callId = d.callId) : c = d :=
  List.inj_on_of_nodup_map h.distinct hc hd he

omit [RequestSerde] in
/-- The entry of a call of the batch. -/
theorem PhaseIn.entry {t : Turn} {history : List CanonicalItem} {steps : List ModelInputRecord}
    {calls : List StoredCall} (h : PhaseIn g t history steps calls) {n : Nat} {b : Batch}
    (hb : t.phase = .calling n b) : Synced g (n + 1) history steps calls ∧
      (∃ items, Batch.Inv g.coordinator items b) ∧ (b.calls.map (·.item.callId?)).Nodup ∧
      ∀ s ∈ b.calls, ∃ c ∈ calls, CallIn (g.stepId n) c s := by
  unfold PhaseIn at h
  rw [hb] at h
  obtain ⟨-, hf, -, hinv, old, new, rfl, -, hnew⟩ := h
  refine ⟨hf.synced, hinv, ?_, fun s hs => ?_⟩
  · have hids : new.map (some ·.callId) = b.calls.map (·.item.callId?) :=
      forall₂_map_eq hnew fun c s hin => hin.call.symm
    have hnodup := (List.nodup_append.1 (List.map_append ▸ hf.synced.distinct)).2.1
    rw [← hids, show new.map (some ·.callId) = (new.map (·.callId)).map some by simp]
    exact hnodup.map (Option.some_injective _)
  · obtain ⟨c, hc, hin⟩ := forall₂_mem_left hnew.flip hs
    exact ⟨c, List.mem_append_right _ hc, hin⟩

/-- The calls that stand before their handler have not been dispatched. -/
theorem Dispatches.next_waiting {t t' : Turn} {e : TurnEffect} {es : List TurnEffect}
    {history : List CanonicalItem} {steps : List ModelInputRecord} {calls : List StoredCall}
    (h : Dispatches es t calls) (hj : g.coordinator.journalled = true)
    (hp : PhaseIn g t history steps calls) (hstep : Turn.Step g t e t') (n : Nat) (b' : Batch)
    (hb : t'.phase = .calling n b') (s : CallState) (hs : s ∈ b'.calls) (inv : Invocation)
    (hi : s.phase = .announcing inv) : inv.callId ∉ dispatchedIds (es ++ [e]) := by
  rw [dispatchedIds_snoc]
  rcases hstep.calling hb with ⟨items, rfl⟩ | ⟨b, ce, hphase, segment, hd⟩
  · obtain ⟨item, -, rfl⟩ := List.mem_map.1 hs
    cases hi
  · obtain ⟨hsynced, ⟨items, hinv⟩, hnodup, hentry⟩ := hp.entry hphase
    rw [hd]
    rcases segment.announcing hinv hj hnodup hs hi with ⟨hmem, hother⟩ | ⟨⟨u, hu, hui⟩, hnone⟩
    · intro hin
      rcases List.mem_append.1 hin with hin | hin
      · exact h.waiting n b hphase s hmem inv hi hin
      · obtain ⟨⟨id, arguments⟩, hce, hid⟩ := Option.map_eq_some_iff.1 (Option.mem_toList.1 hin)
        exact hother id arguments hce hid
    · -- its intent was not there before
      rw [hnone, Option.map_none, Option.toList_none, List.append_nil]
      intro hin
      obtain ⟨c, hc, hid, hsome⟩ := h.intended _ hin
      obtain ⟨d, hd', hin'⟩ := hentry u hu
      have hok := hinv.calls u hu
      unfold CallState.Ok at hok
      rw [hui] at hok
      have hdid : d.callId = inv.callId := by
        have := hin'.call
        rw [hok.1.callId] at this
        exact (Option.some.inj this).symm
      obtain rfl := hsynced.unique hc hd' (hid.trans hdid.symm)
      rw [hin'.intent, hok.2.1] at hsome
      cases hsome

/-- A handler that is called now has not been called before, and its intent is recorded. -/
theorem Dispatches.dispatching {t t' : Turn} {e : TurnEffect} {es : List TurnEffect}
    {history : List CanonicalItem} {steps : List ModelInputRecord} {calls : List StoredCall}
    (h : Dispatches es t calls) (hp : PhaseIn g t history steps calls) (hstep : Turn.Step g t e t')
    {callId : String} {arguments : Value} (hd : e.dispatched = some (callId, arguments)) :
    callId ∉ dispatchedIds es ∧ ∃ c ∈ calls, c.callId = callId ∧
      ∃ original, c.intent = some ⟨callId, original, arguments⟩ := by
  cases hstep with
  | @call step b b' ce phase segment =>
    obtain ⟨s, hs, inv, hi, rfl, rfl⟩ := segment.dispatching hd
    obtain ⟨-, ⟨items, hinv⟩, -, hentry⟩ := hp.entry phase
    obtain ⟨c, hc, hin⟩ := hentry s hs
    have hok := hinv.calls s hs
    unfold CallState.Ok at hok
    rw [hi] at hok
    have hid : c.callId = inv.callId := by
      have := hin.call
      rw [hok.1.callId] at this
      exact (Option.some.inj this).symm
    exact ⟨h.waiting _ b phase s hs inv hi, c, hc, hid, inv.original, hin.intent.trans hok.2.1⟩
  | _ => cases hd

theorem Dispatches.step {t t' : Turn} {e : TurnEffect} {es : List TurnEffect}
    {history : List CanonicalItem} {steps : List ModelInputRecord} {calls calls' : List StoredCall}
    (h : Dispatches es t calls) (hj : g.coordinator.journalled = true)
    (hp : PhaseIn g t history steps calls) (hstep : Turn.Step g t e t')
    (hkeep : ∀ c ∈ calls, c.intent.isSome → ∃ c' ∈ calls', c'.callId = c.callId ∧ c'.intent.isSome)
    (hadd : ∀ c' ∈ calls', ∀ x, c'.intent = some x →
      (∃ c ∈ calls, c.callId = c'.callId ∧ c.intent = some x) ∨
        ∃ receipt, e.commit = some (.dispatchIntent c'.callId x, receipt)) :
    Dispatches (es ++ [e]) t' calls' := by
  have hold : ∀ id ∈ dispatchedIds es, ∃ c ∈ calls', c.callId = id ∧ c.intent.isSome :=
    fun id hid => by
      obtain ⟨c, hc, rfl, hsome⟩ := h.intended id hid
      exact hkeep c hc hsome
  refine ⟨fun c' hc' x hx => ?_, ?_, fun id hid => ?_, h.next_waiting hj hp hstep,
    fun before f after callId arguments hes hf => ?_⟩
  · rcases hadd c' hc' x hx with ⟨c, hc, hid, hcx⟩ | ⟨receipt, hcommit⟩
    · obtain ⟨f, hf, receipt, hcommit⟩ := h.committed c hc x hcx
      exact ⟨f, List.mem_append_left _ hf, receipt, hid ▸ hcommit⟩
    · exact ⟨e, by simp, receipt, hcommit⟩
  · rw [dispatchedIds_snoc]
    cases hd : e.dispatched with
    | none => simpa using h.once
    | some d =>
      refine List.nodup_append.2 ⟨h.once, by simp, fun a ha b hb hab => ?_⟩
      obtain rfl : b = d.1 := by simpa using hb
      exact (h.dispatching hp hstep hd).1 (hab ▸ ha)
  · rw [dispatchedIds_snoc] at hid
    rcases List.mem_append.1 hid with hid | hid
    · exact hold id hid
    · obtain ⟨⟨id', arguments⟩, hd, rfl⟩ := Option.map_eq_some_iff.1 (Option.mem_toList.1 hid)
      obtain ⟨-, c, hc, rfl, original, hintent⟩ := h.dispatching hp hstep hd
      exact hkeep c hc (by rw [hintent]; rfl)
  · rcases List.eq_nil_or_concat after with rfl | ⟨after', x, rfl⟩
    · obtain ⟨rfl, hlast⟩ := List.append_inj' hes rfl
      obtain rfl : e = f := by simpa using hlast
      obtain ⟨-, c, hc, rfl, original, hintent⟩ := h.dispatching hp hstep hf
      obtain ⟨e', he', receipt, hcommit⟩ := h.committed c hc _ hintent
      exact ⟨e', he', original, receipt, hcommit⟩
    · rw [show before ++ f :: after'.concat x = (before ++ f :: after') ++ [x] by simp] at hes
      exact h.preceded before f after' callId arguments (List.append_inj' hes rfl).1 hf

/-! ## Whole turns -/

/-- The turn, its record and the steps so far. -/
structure Followed (g : Engine) (limits : Option SessionLimits) (es : List TurnEffect)
    (j : Journaled) : Prop where
  inStep : InStep g limits j
  dispatches : ∀ run, j.record.runs.get? g.context.turnId = some run →
    Dispatches es j.turn run.calls

theorem Followed.start (hb : Journaled.Begun g session r) :
    Followed g session.limits [] ⟨Turn.start session, r⟩ := by
  refine ⟨hb.inStep, fun run hrun => ?_⟩
  obtain ⟨run', hrun', -, -, hcalls⟩ := hb.run
  obtain rfl : run' = run := Option.some.inj (hrun'.symm.trans hrun)
  rw [hcalls]
  exact ⟨by simp, .nil, by simp [dispatchedIds], fun n b h => (nomatch h), by simp⟩

theorem Followed.step (hb : Journaled.Begun g session r) {es : List TurnEffect} {j j' : Journaled}
    {e : TurnEffect} (h : Followed g session.limits es j) (hstep : Journaled.Step g j e j') :
    Followed g session.limits (es ++ [e]) j' := by
  refine ⟨h.inStep.step hb hstep, fun run' hrun' => ?_⟩
  obtain ⟨run, hrun, -, hphase⟩ := h.inStep.run
  have hd := h.dispatches run hrun
  cases hstep with
  | quiet step commit =>
    obtain rfl : run = run' := Option.some.inj (hrun.symm.trans hrun')
    exact hd.step hb.journal hphase step (fun c hc hs => ⟨c, hc, rfl, hs⟩)
      fun c hc x hx => .inl ⟨c, hc, rfl, hx⟩
  | commit inp revision step commit accepted =>
    obtain ⟨run₀, edited, history, ret, hrun₀, hm, hok, hfits, -⟩ :=
      h.inStep.commit hb step commit inp.fresh
    obtain rfl : run = run₀ := Option.some.inj (hrun.symm.trans hrun₀)
    rw [hok (hfits ⟨_, accepted⟩)] at accepted
    cases accepted
    have hrun'' : (j.record.runs.insert g.context.turnId (edited.refresh history)).get?
        g.context.turnId = some run' := hrun'
    rw [OrdMap.get?_insert_self] at hrun''
    cases hrun''
    obtain ⟨hkeep, hadd⟩ := (mutateRun_edit hm).intents
    refine hd.step hb.journal hphase step hkeep fun c hc x hx => ?_
    rcases hadd c hc x hx with hold | rfl
    · exact .inl hold
    · exact .inr ⟨_, commit⟩

theorem Followed.run (hb : Journaled.Begun g session r) {es fs : List TurnEffect} {j j' : Journaled}
    (h : Followed g session.limits es j) (hrun : Lts.Run (Journaled.Step g) j fs j') :
    Followed g session.limits (es ++ fs) j' := by
  induction hrun generalizing es with
  | nil => simpa using h
  | @cons s t u e fs hstep _ ih =>
    have := ih (h.step hb hstep)
    simpa using this

/-- The turn takes any receipt of the shape its commit is answered with. -/
theorem Turn.Step.receive {t t' : Turn} {e : TurnEffect} {op : RunMutation}
    {receipt : Option CanonicalItem} (h : Turn.Step g t e t') (hj : g.coordinator.journalled = true)
    (hc : e.commit = some (op, receipt)) (ret : Option CanonicalItem)
    (hret : ∀ callId id output isError,
      op = .toolOutcome callId (.toolResult id callId output isError) →
      ∃ resultId, ret = some (.toolResult resultId callId output isError)) :
    ∃ e' t'', Turn.Step g t e' t'' ∧ e'.commit = some (op, ret) := by
  have hcommit : ∀ {op' : RunMutation} {receipt' : Option CanonicalItem},
      Turn.committed g op' receipt' = some (op, receipt) →
      Turn.committed g op' ret = some (op, ret) := fun h => by
    simp only [Turn.committed, hj, if_true, Option.some.injEq, Prod.mk.injEq] at h ⊢
    exact ⟨h.1, trivial⟩
  cases h with
  | stream receipt phase serialized => exact ⟨_, _, .stream ret phase serialized, hcommit hc⟩
  | item receipt phase observed admitted => exact ⟨_, _, .item ret phase observed admitted, hcommit hc⟩
  | message receipt phase => exact ⟨_, _, .message ret phase, hcommit hc⟩
  | finish receipt phase => exact ⟨_, _, .finish ret phase, hcommit hc⟩
  | call phase segment =>
    cases segment with
    | call which segment =>
      cases segment with
      | intent receipt' phase' =>
        cases hc
        exact ⟨_, _, .call phase (.call which (.intent ret phase')), rfl⟩
      | @outcome id resultId callId output isError phase' journal =>
        cases hc
        obtain ⟨resultId', rfl⟩ := hret callId id output isError rfl
        exact ⟨_, _, .call phase (.call which (@CallStep.outcome _ _ _ _ _ id resultId' callId output
          isError phase' journal)), rfl⟩
      | _ => cases hc
    | _ => cases hc
  | batch receipt phase => exact ⟨_, _, .batch ret phase, hcommit hc⟩
  | _ => cases hc

/-- A turn whose journal has accepted it, over every stream of accepted events, every interleaving of
its calls and every point of cancellation. Each commit is accepted, and the turn can go on with its
receipt, exactly when the value of a model request is within the record's limit. At the top of the
step loop the two histories are equal. A handler is called after the commit of its intent, with the
arguments recorded there, and once. -/
theorem journal_in_step (hb : Journaled.Begun g session r) {es : List TurnEffect} {j : Journaled}
    (h : Lts.Run (Journaled.Step g) ⟨Turn.start session, r⟩ es j) :
    (∀ e t op receipt, Turn.Step g j.turn e t → e.commit = some (op, receipt) → ∀ fresh,
      (∃ ret r' e' t', j.record.mutate g.context.turnId op fresh = .ok (ret, r') ∧
        Turn.Step g j.turn e' t' ∧ e'.commit = some (op, ret)) ↔ Fits session.limits op) ∧
    (∀ step, j.turn.phase = .boundary step → j.turn.session.history = j.record.history) ∧
    (∀ before e after callId arguments, es = before ++ e :: after →
      e.dispatched = some (callId, arguments) → ∃ e' ∈ before, ∃ original receipt,
        e'.commit = some (.dispatchIntent callId ⟨callId, original, arguments⟩, receipt)) ∧
    (dispatchedIds es).Nodup := by
  have hf := (Followed.start hb).run hb h
  rw [List.nil_append] at hf
  obtain ⟨run, hrun, -, hphase⟩ := hf.inStep.run
  have hd := hf.dispatches run hrun
  refine ⟨fun e t op receipt hstep hc fresh => ⟨fun hok => ?_, fun hfits => ?_⟩,
    fun step hstep => ?_, hd.preceded, hd.once⟩
  · obtain ⟨-, -, -, -, -, -, -, honly, -⟩ := hf.inStep.commit hb hstep hc fresh
    obtain ⟨ret, r', -, -, hm, -⟩ := hok
    exact honly ⟨_, hm⟩
  · obtain ⟨run', edited, history, ret, -, hm, hok, -, -⟩ := hf.inStep.commit hb hstep hc fresh
    obtain ⟨e', t', hstep', hc'⟩ := hstep.receive hb.journal hc ret (fun callId id output isError hop => by
      subst hop
      obtain ⟨c, -, hm⟩ := orElse_bind_ok hm
      obtain ⟨-, hm⟩ := refuse_bind_ok hm
      obtain ⟨-, hm⟩ := refuse_bind_ok hm
      obtain ⟨-, hm⟩ := refuse_bind_ok hm
      cases hm
      exact ⟨_, rfl⟩)
    exact ⟨ret, _, e', t', hok hfits, hstep', hc'⟩
  · unfold PhaseIn at hphase
    rw [hstep] at hphase
    exact hphase.1.symm

end

end

namespace Sample

/-- The id of the first step. -/
def firstStep : String := "00000000-0000-4000-8000-000000000002"

/-- The engine over a journal. -/
def journalling : Engine := { engine with
  coordinator := { coordinator with journalled := true }
  stepId := fun step =>
    if step = 0 then firstStep else "00000000-0000-4000-8000-000000000003" }

/-- A session with a limit on its model requests and a temperature of 0.7. -/
def limited (max : Nat) : ThreadSession := { session with
  limits := some { maxModelRequestBytes := some max }
  samplingOptions := { model := "model", temperature := some ⟨0x3F333333#32⟩ } }

def limitedRequest : ModelRequest :=
  ⟨journalling.context, 0, firstStep, ⟨none, [user]⟩, [], (limited 0).samplingOptions⟩

/-- The request as a value: the temperature is the `f64` of the same number. -/
def limitedValue : Value := .object [
  ("context", .object [("thread_id", .string "thread"), ("turn_id", .string "turn")]),
  ("model_context", .object [
    ("items", .array [.object [
      ("content", .array [.object [("text", .string "question"), ("type", .string "text")]]),
      ("id", .string "user"), ("type", .string "user_message")]]),
    ("system_prompt", .null)]),
  ("options", .object [("model", .string "model"), ("prompt_caching", .bool false),
    ("temperature", .number (.float (11744051 / 16777216)))]),
  ("step_id", .string firstStep), ("step_index", .number (.int 0)), ("tools", .array [])]

/-- The request's text has 326 bytes, with `0.7`; its value's has 340, with `0.699999988079071`. -/
@[reducible] def limitedSerde : RequestSerde where
  bytes r := if r = limitedRequest then .ok 326 else .error "not a sample input"
  value r := if r = limitedRequest then .ok limitedValue else .error "not a sample input"

@[reducible] def limitedExternal : External := { external with
  valueBytes := fun v => if v = limitedValue then .ok 340 else .error "not a sample input" }

/-- The record of the session when its journal has accepted the turn. -/
def begun (max : Nat) : SessionRecord :=
  let configuration := Value.object [("session", .object [("limits",
    .object [("max_model_request_bytes", .number (.int max))])])]
  match @SessionRecord.begin limitedExternal
    (@createdRecord limitedExternal key configuration "owner" "thread" 7)
    { threadId := "thread", turnId := "turn", inputItems := [user] } snapshot (.object []) with
  | .ok (_, r) => r
  | .error _ => record

/-- The sample's turn with its record, and its steps. -/
abbrev journalStep : Journaled → TurnEffect → Journaled → Prop :=
  @Journaled.Step limitedExternal limitedSerde toolJson journalling

/-- The turn before its first model input. -/
def requestedTurn (max : Nat) : Turn where
  session := { limited max with history := [user], acceptedTurns := 1 }
  generated := [user]
  phase := .requested 0 limitedRequest

/-- What depends on the limit. -/
structure BegunAt (max : Nat) : Prop where
  run : ∃ run, (begun max).runs.get? "turn" = some run ∧
    run.snapshot.status.isTerminal = false ∧ run.modelInputs = [] ∧ run.calls = []
  history : (begun max).history = [user]
  limits : @SessionRecord.sessionLimits limitedExternal (begun max) "" = .ok (limited max).limits

theorem BegunAt.journaled {max : Nat} (h : BegunAt max) :
    @Journaled.Begun limitedExternal limitedSerde journalling (limited max) (begun max) := by
  refine @Journaled.Begun.mk limitedExternal limitedSerde journalling _ _ rfl h.run h.history h.limits
    (fun step => ?_) (fun m n hmn hn => ?_) (fun request value h => ?_)
  · show (if step = 0 then firstStep else _) ≠ ""
    split <;> decide
  · have hn : n < 2 := hn
    obtain rfl : m = 0 := by omega
    obtain rfl : n = 1 := by omega
    decide
  · simp only [RequestSerde.value] at h
    split at h
    · cases h; rfl
    · cases h

theorem quiet_step {t t' : Turn} {e : TurnEffect} (r : SessionRecord)
    (h : @Turn.Step limitedExternal limitedSerde toolJson journalling t e t') (hc : e.commit = none) :
    journalStep ⟨t, r⟩ e ⟨t', r⟩ :=
  @Journaled.Step.quiet limitedExternal limitedSerde toolJson journalling ⟨t, r⟩ e t' h hc

/-- The accepted turn of the sample with some phase. -/
def limitedAt (max : Nat) (phase : TurnPhase) : Turn := { requestedTurn max with phase }

theorem requested_run {max : Nat} (h : 326 ≤ max) : Lts.Run journalStep
    ⟨Turn.start (limited max), begun max⟩ (List.replicate 4 {}) ⟨requestedTurn max, begun max⟩ := by
  let accepted : Turn :=
    { session := { limited max with acceptedTurns := 1 }, phase := .input [user] }
  have haccept : journalStep ⟨Turn.start (limited max), begun max⟩ {} ⟨accepted, begun max⟩ :=
    quiet_step _ (@Turn.Step.accepted limitedExternal limitedSerde toolJson journalling
      (Turn.start (limited max)) _ rfl (by decide) rfl) rfl
  have hinput : journalStep ⟨accepted, begun max⟩ {} ⟨limitedAt max (.input []), begun max⟩ :=
    quiet_step _ (@Turn.Step.input limitedExternal limitedSerde toolJson journalling accepted user []
      rfl) rfl
  have hinputs : journalStep ⟨limitedAt max (.input []), begun max⟩ {}
      ⟨limitedAt max (.boundary 0), begun max⟩ :=
    quiet_step _ (@Turn.Step.inputs limitedExternal limitedSerde toolJson journalling
      (limitedAt max (.input [])) rfl) rfl
  have hmade : @Engine.request limitedExternal limitedSerde journalling
      (limitedAt max (.boundary 0)).session 0 (.ok ⟨none, [user]⟩) = .ok limitedRequest := by
    have hlimit : @ThreadSession.checkModelRequestLimit limitedSerde
        (limitedAt max (.boundary 0)).session limitedRequest = .ok () := by
      show refuse (decide (326 > max)) _ = .ok ()
      exact refuse_ok_iff.2 (by simpa using h)
    show (@ThreadSession.checkModelRequestLimit limitedSerde (limitedAt max (.boundary 0)).session
      limitedRequest >>= fun _ => .ok limitedRequest) = .ok limitedRequest
    rw [hlimit]
    rfl
  have hrequest : journalStep ⟨limitedAt max (.boundary 0), begun max⟩ {}
      ⟨requestedTurn max, begun max⟩ :=
    quiet_step _ (@Turn.Step.request limitedExternal limitedSerde toolJson journalling
      (limitedAt max (.boundary 0)) 0 limitedRequest (.ok ⟨none, [user]⟩) rfl hmade) rfl
  exact .cons haccept (.cons hinput (.cons hinputs (.single hrequest)))

theorem begunAt_330 : BegunAt 330 := ⟨⟨_, rfl, rfl, rfl, rfl⟩, rfl, by decide +kernel⟩

theorem begunAt_340 : BegunAt 340 := ⟨⟨_, rfl, rfl, rfl, rfl⟩, rfl, by decide +kernel⟩

/-- The turn while its first step streams. -/
def limitedStream (max : Nat) : Turn :=
  limitedAt max (.streaming 0 { stepId := firstStep, state := .new [user] })

/-- The commit of the model input. -/
theorem input_step (max : Nat) : @Turn.Step limitedExternal limitedSerde toolJson journalling
    (requestedTurn max) { commit := some (.modelInput firstStep 0 limitedValue, none) }
    (limitedStream max) :=
  @Turn.Step.stream limitedExternal limitedSerde toolJson journalling (requestedTurn max) 0
    limitedRequest limitedValue none rfl fun _ => rfl

end Sample

/-- A temperature of 0.7 and a limit of 330 bytes: the engine admits the request, and the record
refuses it. -/
theorem temperature_request_refused :
    @Journaled.Begun Sample.limitedExternal Sample.limitedSerde Sample.journalling
      (Sample.limited 330) (Sample.begun 330) ∧
    (∃ es, Lts.Run Sample.journalStep ⟨Turn.start (Sample.limited 330), Sample.begun 330⟩ es
      ⟨Sample.requestedTurn 330, Sample.begun 330⟩) ∧
    @Turn.Step Sample.limitedExternal Sample.limitedSerde Sample.toolJson Sample.journalling
      (Sample.requestedTurn 330)
      { commit := some (.modelInput Sample.firstStep 0 Sample.limitedValue, none) }
      (Sample.limitedStream 330) ∧
    ∀ fresh, @SessionRecord.mutate Sample.limitedExternal (Sample.begun 330) "turn"
      (.modelInput Sample.firstStep 0 Sample.limitedValue) fresh =
      .error (.limitExceeded "max_model_request_bytes") := by
  refine ⟨Sample.begunAt_330.journaled, ⟨_, Sample.requested_run (by decide)⟩, Sample.input_step 330,
    fun fresh => ?_⟩
  have hlimits : @SessionRecord.checkLimits Sample.limitedExternal (Sample.begun 330)
      (.modelInput Sample.firstStep 0 Sample.limitedValue) =
      .error (.limitExceeded "max_model_request_bytes") := by decide +kernel
  simp only [SessionRecord.mutate, hlimits, error_bind]

/-- A limit of 340 bytes: the record accepts it. -/
theorem journal_in_step_sample : ∃ ret r', @SessionRecord.mutate Sample.limitedExternal
    (Sample.begun 340) "turn" (.modelInput Sample.firstStep 0 Sample.limitedValue)
    ⟨"result", "execution"⟩ = .ok (ret, r') := by
  obtain ⟨hcommits, -⟩ := @journal_in_step Sample.limitedExternal Sample.limitedSerde Sample.toolJson
    Sample.journalling (Sample.limited 340) (Sample.begun 340) Sample.begunAt_340.journaled _ _
    (Sample.requested_run (by decide))
  obtain ⟨ret, r', -, -, hm, -⟩ := (hcommits _ _ _ none (Sample.input_step 340) rfl
    ⟨"result", "execution"⟩).2 (by rintro max ⟨⟩; exact ⟨340, by decide +kernel, le_rfl⟩)
  exact ⟨ret, r', hm⟩

end Whale
