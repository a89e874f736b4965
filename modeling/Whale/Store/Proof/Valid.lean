import Whale.Store.State
import Mathlib.Data.List.Nodup
import Mathlib.Data.List.Infix

/-!
# What `validate` accepts

`Valid r` collects the conditions of `SessionRecord::validate` as named facts about the record;
`validate_ok_iff` says that `validate` accepts exactly the valid records. The loops of `validate`
that insert ids into a set are `Distinct`.
-/

namespace Whale

open Check

theorem isEmpty_eq_false_iff {s : String} : s.isEmpty = false ↔ s ≠ "" := by
  rw [← Bool.not_eq_true, String.isEmpty_iff]

/-! ## Distinct ids -/

/-- The ids are pairwise distinct and none is among `seen`. -/
def Distinct (seen ids : List String) : Prop := ids.Nodup ∧ ∀ id ∈ ids, id ∉ seen

theorem distinct_nil (seen : List String) : Distinct seen [] := ⟨.nil, by simp⟩

theorem distinct_cons {seen ids : List String} {id : String} :
    Distinct seen (id :: ids) ↔ id ∉ seen ∧ Distinct (id :: seen) ids := by
  simp only [Distinct, List.nodup_cons, List.mem_cons, forall_eq_or_imp, not_or]
  constructor
  · rintro ⟨⟨hn, hd⟩, hs, hr⟩
    exact ⟨hs, hd, fun x hx => ⟨fun he => hn (he ▸ hx), hr x hx⟩⟩
  · rintro ⟨hs, hd, hr⟩
    exact ⟨⟨fun hm => (hr id hm).1 rfl, hd⟩, hs, fun x hx => (hr x hx).2⟩

theorem distinct_append {seen : List String} : ∀ {xs ys : List String},
    Distinct seen (xs ++ ys) ↔ Distinct seen xs ∧ Distinct (xs.reverse ++ seen) ys
  | [], ys => by simp [distinct_nil]
  | x :: xs, ys => by
    rw [List.cons_append, distinct_cons, distinct_cons, distinct_append, List.reverse_cons,
      List.append_assoc, List.singleton_append, and_assoc]

theorem distinct_nil_iff {ids : List String} : Distinct [] ids ↔ ids.Nodup := by simp [Distinct]

theorem repeats_eq_false_iff {seen : List String} : ∀ {ids : List String},
    repeats seen ids = false ↔ Distinct seen ids
  | [] => by simp [repeats, distinct_nil]
  | id :: ids => by
    rw [repeats, Bool.or_eq_false_iff, repeats_eq_false_iff, distinct_cons]
    simp

/-! ## Validity -/

/-- The retention metadata of a schema-2 record. -/
structure RetentionOk (r : SessionRecord) : Prop where
  created : r.createdAtMs.isSome
  ordered : timeLt r.updatedAtMs r.createdAtMs = false
  attached : r.owner.isSome → r.detachedSinceMs = none
  detached : r.forgotten = false → r.owner = none → r.detachedSinceMs.isSome
  retired : r.forgotten = r.retiredAtMs.isSome
  reason : r.forgotten = r.retirementReason.isSome

/-- The model-input ledger of a run. -/
structure StepsOk (revision : Nat) (steps : List ModelInputRecord) : Prop where
  index : ∀ (i : Nat) (s : ModelInputRecord), steps[i]? = some s → s.stepIndex = i
  distinct : (steps.map (·.stepId)).Nodup
  named : ∀ s ∈ steps, s.stepId ≠ ""
  request : ∀ s ∈ steps, s.request.isObject = true
  usage : ∀ s ∈ steps, s.completed = s.usage.isSome
  revision : ∀ s ∈ steps, s.historyRevision ≤ revision

/-- The ledger entry of a call in a run with the step ids `steps`. -/
structure CallOk (history : List CanonicalItem) (steps : List String) (c : StoredCall) : Prop where
  named : c.callId ≠ ""
  step : c.stepId ∈ steps
  item : ∃ i ∈ history, c.isItem i = true
  intent : ∀ e, c.intent = some e → e.callId = c.callId
  settled : c.committed = true → c.outcome.isSome
  outcome : ∀ o, c.outcome = some o → c.isResult o = true
  recorded : c.committed = true → ∀ o, c.outcome = some o → o ∈ history

/-- The result of a snapshot repeats it. -/
structure ResultOk (s : RunSnapshot) (result : RunTurnResult) : Prop where
  thread : result.threadId = s.threadId
  turn : result.turnId = s.turnId
  status : result.status = s.status.turnStatus
  items : result.items = s.items
  usage : result.usage = s.usage

/-- The identity of a run stored under `id` in a record with `len` history items. -/
structure RunOk (len : Nat) (id : String) (run : StoredRun) : Prop where
  params : run.params.turnId = id
  turn : run.snapshot.turnId = id
  thread : run.params.threadId = run.snapshot.threadId
  start : run.historyStart ≤ len
  result : run.snapshot.status.isTerminal = true → run.snapshot.result.isSome

/-- The part of a record that the run operations write. -/
structure Ledger where
  history : List CanonicalItem
  runs : OrdMap String StoredRun
  unknown : List UnknownExecution

namespace SessionRecord

def ledger (r : SessionRecord) : Ledger := ⟨r.history, r.runs, r.unknownExecutions⟩

/-- The record with another ledger. -/
def withLedger (r : SessionRecord) (l : Ledger) : SessionRecord :=
  { r with history := l.history, runs := l.runs, unknownExecutions := l.unknown }

@[simp] theorem ledger_history (r : SessionRecord) : r.ledger.history = r.history := rfl
@[simp] theorem ledger_runs (r : SessionRecord) : r.ledger.runs = r.runs := rfl
@[simp] theorem ledger_unknown (r : SessionRecord) : r.ledger.unknown = r.unknownExecutions := rfl
@[simp] theorem ledger_withLedger (r : SessionRecord) (l : Ledger) : (r.withLedger l).ledger = l := rfl
@[simp] theorem withLedger_ledger (r : SessionRecord) : r.withLedger r.ledger = r := rfl
@[simp] theorem withLedger_withLedger (r : SessionRecord) (l l' : Ledger) :
    (r.withLedger l).withLedger l' = r.withLedger l' := rfl

end SessionRecord

/-- The ledger entries of all runs. -/
def Ledger.calls (l : Ledger) : List StoredCall := l.runs.values.flatMap (·.calls)

/-- The conditions of `validate` on the ledger of a record at `revision`. -/
structure Ledger.Ok (revision : Nat) (l : Ledger) : Prop where
  history : (l.history.map (·.id)).Nodup
  runs : ∀ id run, l.runs.get? id = some run → RunOk l.history.length id run
  steps : ∀ run ∈ l.runs.values, StepsOk revision run.modelInputs
  calls : ∀ run ∈ l.runs.values, ∀ c ∈ run.calls,
    CallOk l.history (run.modelInputs.map (·.stepId)) c
  results : ∀ run ∈ l.runs.values, ∀ result, run.snapshot.result = some result →
    ResultOk run.snapshot result
  callIds : (l.calls.map (·.callId)).Nodup
  executionIds : (l.calls.map (·.executionId)).Nodup
  resultIds : (l.calls.map (·.resultItemId)).Nodup
  unknownIds : (l.unknown.map (·.executionId)).Nodup
  unknown : ∀ u ∈ l.unknown, ∃ run, l.runs.get? u.turnId = some run ∧
    ∃ c ∈ run.calls, c.isUnknown u = true

/-- The conditions of `validate`. -/
structure Valid [External] (r : SessionRecord) : Prop where
  schema : r.schemaVersion = 1 ∨ r.schemaVersion = 2
  uuid : External.parseUuid r.recoveryId = true
  digestSize : r.secretDigest.utf8ByteSize = 64
  digestHex : allHexDigits r.secretDigest = true
  revision : r.revision ≠ 0
  lease : r.owner.isSome = r.threadId.isSome
  configuration : r.configuration.isObject = true
  epoch : r.epoch ≠ 0
  retention : r.schemaVersion = 2 → RetentionOk r
  tombstone : r.forgotten = true →
    r.owner = none ∧ r.history = [] ∧ r.runs.entries = [] ∧ r.unknownExecutions = []
  owner : ∀ o, r.owner = some o → blank o = false
  thread : ∀ t, r.threadId = some t → blank t = false ∧ t ∈ r.historicalThreadIds
  attached : r.active = true → r.owner.isSome
  threadsNamed : ∀ id ∈ r.historicalThreadIds, id ≠ ""
  threadsDistinct : r.historicalThreadIds.Nodup
  ledger : r.ledger.Ok r.revision

/-! ## The loops -/

theorem checkSteps_ok_iff {revision : Nat} : ∀ {steps : List ModelInputRecord} {index : Nat}
    {seen : List String}, checkSteps revision index seen steps = .ok () ↔
      (∀ (i : Nat) (s : ModelInputRecord), steps[i]? = some s → s.stepIndex = index + i) ∧
      Distinct seen (steps.map (·.stepId)) ∧ ∀ s ∈ steps, s.stepId ≠ "" ∧
        s.request.isObject = true ∧ s.completed = s.usage.isSome ∧ s.historyRevision ≤ revision
  | [], _, _ => by simp [checkSteps, distinct_nil]
  | s :: steps, index, seen => by
    rw [checkSteps, refuse_bind_ok_iff, checkSteps_ok_iff, List.map_cons, distinct_cons]
    simp only [Bool.or_eq_false_iff, bne_eq_false_iff_eq, isEmpty_eq_false_iff,
      Bool.not_eq_false', decide_eq_false_iff_not, not_lt, List.contains_eq_mem,
      List.mem_cons, forall_eq_or_imp]
    constructor
    · rintro ⟨⟨⟨⟨⟨⟨h1, h2⟩, h3⟩, h4⟩, h5⟩, h6⟩, hi, hd, hs⟩
      refine ⟨fun i t ht => ?_, ⟨h3, hd⟩, ⟨h2, h4, h5, h6⟩, hs⟩
      cases i with
      | zero => simpa [← h1] using congrArg (Option.map (·.stepIndex)) ht.symm
      | succ i => rw [hi i t (by simpa using ht)]; omega
    · rintro ⟨hi, ⟨h3, hd⟩, ⟨h2, h4, h5, h6⟩, hs⟩
      refine ⟨⟨⟨⟨⟨⟨by simpa using hi 0 s rfl, h2⟩, h3⟩, h4⟩, h5⟩, h6⟩, fun i t ht => ?_, hd, hs⟩
      rw [hi (i + 1) t (by simpa using ht)]; omega

theorem stepsOk_iff {revision : Nat} {steps : List ModelInputRecord} :
    checkSteps revision 0 [] steps = .ok () ↔ StepsOk revision steps := by
  rw [checkSteps_ok_iff, distinct_nil_iff]
  constructor
  · rintro ⟨hi, hd, hs⟩
    exact ⟨fun i s h => by simpa using hi i s h, hd, fun s h => (hs s h).1, fun s h => (hs s h).2.1,
      fun s h => (hs s h).2.2.1, fun s h => (hs s h).2.2.2⟩
  · rintro ⟨hi, hd, h1, h2, h3, h4⟩
    exact ⟨fun i s h => by simpa using hi i s h, hd, fun s h => ⟨h1 s h, h2 s h, h3 s h, h4 s h⟩⟩

/-- The ids seen after a list of calls. -/
def SeenIds.add (seen : SeenIds) (calls : List StoredCall) : SeenIds where
  callIds := (calls.map (·.callId)).reverse ++ seen.callIds
  executionIds := (calls.map (·.executionId)).reverse ++ seen.executionIds
  resultIds := (calls.map (·.resultItemId)).reverse ++ seen.resultIds

/-- The ids of the calls are new and distinct. -/
structure FreshCalls (seen : SeenIds) (calls : List StoredCall) : Prop where
  callIds : Distinct seen.callIds (calls.map (·.callId))
  executionIds : Distinct seen.executionIds (calls.map (·.executionId))
  resultIds : Distinct seen.resultIds (calls.map (·.resultItemId))

theorem freshCalls_cons {seen : SeenIds} {c : StoredCall} {calls : List StoredCall} :
    FreshCalls seen (c :: calls) ↔ (c.callId ∉ seen.callIds ∧ c.executionId ∉ seen.executionIds ∧
      c.resultItemId ∉ seen.resultIds) ∧ FreshCalls (seen.add [c]) calls := by
  constructor
  · rintro ⟨h1, h2, h3⟩
    rw [List.map_cons, distinct_cons] at h1 h2 h3
    exact ⟨⟨h1.1, h2.1, h3.1⟩, h1.2, h2.2, h3.2⟩
  · rintro ⟨⟨a1, a2, a3⟩, h1, h2, h3⟩
    exact ⟨distinct_cons.2 ⟨a1, h1⟩, distinct_cons.2 ⟨a2, h2⟩, distinct_cons.2 ⟨a3, h3⟩⟩

theorem freshCalls_append {seen : SeenIds} {xs ys : List StoredCall} :
    FreshCalls seen (xs ++ ys) ↔ FreshCalls seen xs ∧ FreshCalls (seen.add xs) ys := by
  constructor
  · rintro ⟨h1, h2, h3⟩
    rw [List.map_append, distinct_append] at h1 h2 h3
    exact ⟨⟨h1.1, h2.1, h3.1⟩, h1.2, h2.2, h3.2⟩
  · rintro ⟨⟨a1, a2, a3⟩, h1, h2, h3⟩
    refine ⟨?_, ?_, ?_⟩ <;> rw [List.map_append]
    · exact distinct_append.2 ⟨a1, h1⟩
    · exact distinct_append.2 ⟨a2, h2⟩
    · exact distinct_append.2 ⟨a3, h3⟩

theorem add_nil (seen : SeenIds) : seen.add [] = seen := rfl

theorem add_add (seen : SeenIds) (xs ys : List StoredCall) :
    (seen.add xs).add ys = seen.add (xs ++ ys) := by
  simp [SeenIds.add]

theorem checkOutcome_ok_iff {history : List CanonicalItem} {c : StoredCall} :
    checkOutcome history c = .ok () ↔
      ∀ o, c.outcome = some o → c.isResult o = true ∧ (c.committed = true → o ∈ history) := by
  unfold checkOutcome
  cases c.outcome with
  | none => simp
  | some o =>
    simp only [refuse_ok_iff, Option.some.injEq, forall_eq']
    cases c.isResult o <;> cases c.committed <;> simp

theorem checkCall_ok_iff {history : List CanonicalItem} {steps : List String} {seen seen' : SeenIds}
    {c : StoredCall} : checkCall history steps seen c = .ok seen' ↔
      (c.callId ∉ seen.callIds ∧ c.executionId ∉ seen.executionIds ∧
        c.resultItemId ∉ seen.resultIds) ∧ CallOk history steps c ∧ seen' = seen.add [c] := by
  have hadd : (⟨c.callId :: seen.callIds, c.executionId :: seen.executionIds,
      c.resultItemId :: seen.resultIds⟩ : SeenIds) = seen.add [c] := rfl
  have hbind : ∀ x : Except StoreError Unit, ((x >>= fun _ => Except.ok (seen.add [c])) =
      .ok seen' ↔ x = .ok () ∧ seen' = seen.add [c]) := by
    intro x
    cases x with
    | error e => simp
    | ok u => simp [eq_comm]
  unfold checkCall
  simp only [refuse_bind_ok_iff, hadd]
  rw [hbind, checkOutcome_ok_iff]
  simp only [Bool.or_eq_false_iff, isEmpty_eq_false_iff, List.contains_eq_mem,
    decide_eq_false_iff_not, Bool.not_eq_false', decide_eq_true_eq, List.any_eq_true,
    Bool.and_eq_false_iff, Option.any_eq_false, bne_eq_false_iff_eq]
  constructor
  · rintro ⟨⟨⟨⟨⟨⟨h1, h2⟩, h3⟩, h4⟩, h5⟩, h6⟩, ⟨h7, h8⟩, h9, h10⟩
    refine ⟨⟨h2, h3, h4⟩, ⟨h1, h5, h6, h7, fun hc => ?_, fun o ho => (h9 o ho).1,
      fun hc o ho => (h9 o ho).2 hc⟩, h10⟩
    rcases h8 with h8 | h8
    · rw [hc] at h8; cases h8
    · simpa [Option.isSome_iff_ne_none, Option.isNone_iff_eq_none] using h8
  · rintro ⟨⟨h2, h3, h4⟩, hc, h10⟩
    refine ⟨⟨⟨⟨⟨⟨hc.named, h2⟩, h3⟩, h4⟩, hc.step⟩, hc.item⟩, ⟨hc.intent, ?_⟩,
      fun o ho => ⟨hc.outcome o ho, fun h => hc.recorded h o ho⟩, h10⟩
    cases hcm : c.committed with
    | false => exact .inl rfl
    | true =>
      have := hc.settled hcm
      exact .inr (by cases ho : c.outcome with
        | none => rw [ho] at this; cases this
        | some o => rfl)

theorem checkCalls_ok_iff {history : List CanonicalItem} {steps : List String} :
    ∀ {calls : List StoredCall} {seen seen' : SeenIds},
      checkCalls history steps seen calls = .ok seen' ↔
        FreshCalls seen calls ∧ (∀ c ∈ calls, CallOk history steps c) ∧ seen' = seen.add calls
  | [], seen, seen' => by
    simp only [checkCalls, Except.ok.injEq, List.not_mem_nil, false_implies, implies_true,
      add_nil, true_and, eq_comm (a := seen)]
    exact ⟨fun h => ⟨⟨distinct_nil _, distinct_nil _, distinct_nil _⟩, h⟩, fun h => h.2⟩
  | c :: calls, seen, seen' => by
    rw [checkCalls, freshCalls_cons]
    simp only [List.mem_cons, forall_eq_or_imp]
    constructor
    · intro h
      obtain ⟨s, hc, h⟩ := bind_ok h
      obtain ⟨hf, hok, rfl⟩ := checkCall_ok_iff.1 hc
      obtain ⟨hfs, hoks, rfl⟩ := checkCalls_ok_iff.1 h
      exact ⟨⟨hf, hfs⟩, ⟨hok, hoks⟩, by rw [add_add]; rfl⟩
    · rintro ⟨⟨hf, hfs⟩, ⟨hok, hoks⟩, rfl⟩
      rw [checkCall_ok_iff.2 ⟨hf, hok, rfl⟩, ok_bind]
      exact checkCalls_ok_iff.2 ⟨hfs, hoks, by rw [add_add]; rfl⟩

theorem checkResult_ok_iff {s : RunSnapshot} :
    checkResult s = .ok () ↔ ∀ result, s.result = some result → ResultOk s result := by
  unfold checkResult
  cases s.result with
  | none => simp
  | some result =>
    simp only [refuse_ok_iff, Bool.or_eq_false_iff, bne_eq_false_iff_eq, Option.some.injEq,
      forall_eq']
    exact ⟨fun ⟨⟨⟨⟨h1, h2⟩, h3⟩, h4⟩, h5⟩ => ⟨h1, h2, h3, h4, h5⟩,
      fun ⟨h1, h2, h3, h4, h5⟩ => ⟨⟨⟨⟨h1, h2⟩, h3⟩, h4⟩, h5⟩⟩

/-- The facts about one run that `checkLedgers` establishes. -/
structure LedgerOk (revision : Nat) (history : List CanonicalItem) (run : StoredRun) : Prop where
  steps : StepsOk revision run.modelInputs
  calls : ∀ c ∈ run.calls, CallOk history (run.modelInputs.map (·.stepId)) c
  result : ∀ result, run.snapshot.result = some result → ResultOk run.snapshot result

theorem checkLedgers_ok_iff {revision : Nat} {history : List CanonicalItem} :
    ∀ {runs : List StoredRun} {seen : SeenIds}, checkLedgers revision history seen runs = .ok () ↔
      FreshCalls seen (runs.flatMap (·.calls)) ∧ ∀ run ∈ runs, LedgerOk revision history run
  | [], seen => by
    simp only [checkLedgers, List.flatMap_nil, List.not_mem_nil, false_implies, implies_true,
      and_true, true_iff]
    exact ⟨distinct_nil _, distinct_nil _, distinct_nil _⟩
  | run :: runs, seen => by
    rw [checkLedgers, List.flatMap_cons, freshCalls_append]
    simp only [List.mem_cons, forall_eq_or_imp]
    constructor
    · intro h
      obtain ⟨_, hs, h⟩ := bind_ok h
      obtain ⟨seen', hc, h⟩ := bind_ok h
      obtain ⟨_, hr, h⟩ := bind_ok h
      obtain ⟨hf, hok, rfl⟩ := checkCalls_ok_iff.1 hc
      obtain ⟨hfs, hoks⟩ := checkLedgers_ok_iff.1 h
      exact ⟨⟨hf, hfs⟩, ⟨stepsOk_iff.1 hs, hok, checkResult_ok_iff.1 hr⟩, hoks⟩
    · rintro ⟨⟨hf, hfs⟩, hrun, hruns⟩
      rw [stepsOk_iff.2 hrun.steps, ok_bind, checkCalls_ok_iff.2 ⟨hf, hrun.calls, rfl⟩, ok_bind,
        checkResult_ok_iff.2 hrun.result, ok_bind]
      exact checkLedgers_ok_iff.2 ⟨hfs, hruns⟩

theorem checkUnknown_ok_iff {runs : OrdMap String StoredRun} :
    ∀ {us : List UnknownExecution} {seen : List String}, checkUnknown runs seen us = .ok () ↔
      Distinct seen (us.map (·.executionId)) ∧ ∀ u ∈ us, ∃ run, runs.get? u.turnId = some run ∧
        ∃ c ∈ run.calls, c.isUnknown u = true
  | [], seen => by simp [checkUnknown, distinct_nil]
  | u :: us, seen => by
    rw [checkUnknown, refuse_bind_ok_iff, checkUnknown_ok_iff, List.map_cons, distinct_cons]
    simp only [Bool.or_eq_false_iff, List.contains_eq_mem, decide_eq_false_iff_not,
      Bool.not_eq_false', Option.any_eq_true, List.any_eq_true, List.mem_cons, forall_eq_or_imp]
    exact ⟨fun ⟨⟨h1, h2⟩, h3, h4⟩ => ⟨⟨h1, h3⟩, h2, h4⟩, fun ⟨⟨h1, h3⟩, h2, h4⟩ => ⟨⟨h1, h2⟩, h3, h4⟩⟩

/-! ## `validate` -/

theorem retentionOk_iff {r : SessionRecord} :
    (r.createdAtMs.isNone || timeLt r.updatedAtMs r.createdAtMs ||
      (r.owner.isSome && r.detachedSinceMs.isSome) ||
      (!r.forgotten && r.owner.isNone && r.detachedSinceMs.isNone) ||
      r.forgotten != r.retiredAtMs.isSome || r.forgotten != r.retirementReason.isSome) = false ↔
    RetentionOk r := by
  have hattached : (r.owner.isSome && r.detachedSinceMs.isSome) = false ↔
      (r.owner.isSome → r.detachedSinceMs = none) := by
    cases r.owner <;> cases r.detachedSinceMs <;> simp
  have hdetached : (!r.forgotten && r.owner.isNone && r.detachedSinceMs.isNone) = false ↔
      (r.forgotten = false → r.owner = none → r.detachedSinceMs.isSome) := by
    cases r.forgotten <;> cases r.owner <;> cases r.detachedSinceMs <;> simp
  have hcreated : r.createdAtMs.isNone = false ↔ r.createdAtMs.isSome := by
    cases r.createdAtMs <;> simp
  simp only [Bool.or_eq_false_iff, hattached, hdetached, hcreated, bne_eq_false_iff_eq]
  exact ⟨fun ⟨⟨⟨⟨⟨h1, h2⟩, h3⟩, h4⟩, h5⟩, h6⟩ => ⟨h1, h2, h3, h4, h5, h6⟩,
    fun ⟨h1, h2, h3, h4, h5, h6⟩ => ⟨⟨⟨⟨⟨h1, h2⟩, h3⟩, h4⟩, h5⟩, h6⟩⟩

theorem runsOk_iff {r : SessionRecord} :
    (r.runs.entries.any fun (id, run) =>
      id != run.params.turnId || id != run.snapshot.turnId ||
        run.params.threadId != run.snapshot.threadId || run.historyStart > r.history.length ||
        (run.snapshot.status.isTerminal && run.snapshot.result.isNone)) = false ↔
    ∀ id run, r.runs.get? id = some run → RunOk r.history.length id run := by
  simp only [List.any_eq_false, OrdMap.get?_eq_some_iff, Prod.forall, Bool.not_eq_true,
    Bool.or_eq_false_iff, bne_eq_false_iff_eq, decide_eq_false_iff_not, not_lt,
    Bool.and_eq_false_iff]
  refine forall_congr' fun id => forall_congr' fun run => forall_congr' fun _ => ?_
  constructor
  · rintro ⟨⟨⟨⟨h1, h2⟩, h3⟩, h4⟩, h5⟩
    refine ⟨h1.symm, h2.symm, h3, h4, fun ht => ?_⟩
    cases hr : run.snapshot.result <;> simp_all
  · rintro ⟨h1, h2, h3, h4, h5⟩
    refine ⟨⟨⟨⟨h1.symm, h2.symm⟩, h3⟩, h4⟩, ?_⟩
    cases ht : run.snapshot.status.isTerminal with
    | false => exact .inl rfl
    | true =>
      have := h5 ht
      exact .inr (by cases hr : run.snapshot.result <;> simp_all)

/-- `validate` accepts exactly the valid records. -/
theorem validate_ok_iff [External] {r : SessionRecord} : r.validate = .ok () ↔ Valid r := by
  unfold SessionRecord.validate
  simp only [refuse_bind_ok_iff]
  have hl : (checkLedgers r.revision r.history {} r.runs.values >>=
      fun _ => checkUnknown r.runs [] r.unknownExecutions) = .ok () ↔
      checkLedgers r.revision r.history {} r.runs.values = .ok () ∧
        checkUnknown r.runs [] r.unknownExecutions = .ok () := by
    cases checkLedgers r.revision r.history {} r.runs.values <;> simp
  rw [hl, runsOk_iff, checkLedgers_ok_iff, checkUnknown_ok_iff, repeats_eq_false_iff,
    distinct_nil_iff, distinct_nil_iff, Bool.and_eq_false_imp (x := r.schemaVersion == 2),
    retentionOk_iff]
  simp only [Bool.or_eq_false_iff, Bool.not_eq_false', Bool.or_eq_true, beq_iff_eq,
    bne_eq_false_iff_eq, beq_eq_false_iff_ne, Bool.and_eq_false_imp, Option.isSome_eq_false_iff,
    Option.isNone_iff_eq_none, List.isEmpty_iff, Option.any_eq_false, List.any_eq_false,
    List.contains_eq_mem, decide_eq_true_eq, Bool.not_eq_true, isEmpty_eq_false_iff,
    repeats_eq_false_iff, distinct_nil_iff]
  constructor
  · rintro ⟨⟨⟨⟨⟨⟨⟨⟨h1, h2⟩, h3⟩, h4⟩, h5⟩, h6⟩, h7⟩, h8⟩, hret, htomb, ⟨⟨ho, ht⟩, ha⟩, ⟨hn, hd⟩, hh, hruns,
      ⟨hf, hled⟩, hu, hun⟩
    exact
      { schema := h1, uuid := h2, digestSize := h3, digestHex := h4, revision := h5, lease := h6
        configuration := h7, epoch := h8, retention := hret
        tombstone := fun h => by obtain ⟨⟨⟨a, b⟩, c⟩, d⟩ := htomb h; exact ⟨a, b, c, d⟩
        owner := ho, thread := ht
        attached := fun h => by have := ha h; cases hw : r.owner <;> simp_all
        threadsNamed := hn, threadsDistinct := hd
        ledger :=
          { history := hh, runs := hruns, steps := fun run h => (hled run h).steps
            calls := fun run h => (hled run h).calls, results := fun run h => (hled run h).result
            callIds := distinct_nil_iff.1 hf.callIds
            executionIds := distinct_nil_iff.1 hf.executionIds
            resultIds := distinct_nil_iff.1 hf.resultIds, unknownIds := hu, unknown := hun } }
  · intro v
    refine ⟨⟨⟨⟨⟨⟨⟨⟨v.schema, v.uuid⟩, v.digestSize⟩, v.digestHex⟩, v.revision⟩, v.lease⟩, v.configuration⟩,
      v.epoch⟩, v.retention, fun h => ?_, ⟨⟨v.owner, v.thread⟩, fun h => ?_⟩,
      ⟨v.threadsNamed, v.threadsDistinct⟩, v.ledger.history, v.ledger.runs,
      ⟨⟨distinct_nil_iff.2 v.ledger.callIds, distinct_nil_iff.2 v.ledger.executionIds,
        distinct_nil_iff.2 v.ledger.resultIds⟩,
        fun run h => ⟨v.ledger.steps run h, v.ledger.calls run h, v.ledger.results run h⟩⟩,
      v.ledger.unknownIds, v.ledger.unknown⟩
    · obtain ⟨a, b, c, d⟩ := v.tombstone h; exact ⟨⟨⟨a, b⟩, c⟩, d⟩
    · have := v.attached h; cases hw : r.owner <;> simp_all

end Whale
