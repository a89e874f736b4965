import Whale.Core.Coordinator
import Mathlib.Data.List.Perm.Basic

/-!
# What a call has passed

`CallState.Ok` says, for each await point, what a call has passed to get there; every segment keeps
it (`CallStep.ok`) and brings the call further (`CallStep.rank_lt`). `CallStep.guard`,
`CallStep.execution` and `CallStep.finished` say what a segment does with the barrier, the progress
and the results.
-/

namespace Whale

open Check

section
variable [ToolJson]

/-! ## One call -/

/-- The handler's compiled schema accepts the arguments. -/
def Accepts (handler : ToolHandler) (arguments : Value) : Prop :=
  ∃ validator, compileToolSchema handler.parameters = .ok validator ∧ validator arguments = .ok ()

theorem validateArguments_ok {handler : ToolHandler} {label : String} {arguments : Value}
    (h : validateArguments handler label arguments = .ok ()) : Accepts handler arguments := by
  obtain ⟨validator, hc, h⟩ := bind_ok h
  refine ⟨validator, hc, ?_⟩
  cases hv : validator arguments with
  | error e => rw [hv] at h; cases h
  | ok u => rfl

/-- The call passed the checks before its approval. -/
structure Admitted (c : Coordinator) (item : CanonicalItem) (inv : Invocation) : Prop where
  call : ∃ id space name arguments rawArguments,
    item = .toolCall id inv.callId space name arguments rawArguments ∧
    c.lookup name = some inv.handler ∧ toolArguments arguments rawArguments = .ok inv.original
  original : Accepts inv.handler inv.original

/-- The call passed its approval, where its handler requires one. -/
def Approved (answer : Option (Except String ApprovalDecision)) (inv : Invocation) : Prop :=
  (inv.handler.requireApproval = false ∧ inv.arguments = inv.original) ∨
  (answer = some (.ok .accept) ∧ inv.arguments = inv.original) ∨
  answer = some (.ok (.modifyArguments inv.arguments))

/-- The call passed everything before the barrier. -/
structure Gated (c : Coordinator) (s : CallState) (inv : Invocation) : Prop where
  admitted : Admitted c s.item inv
  approved : Approved s.answer inv
  arguments : Accepts inv.handler inv.arguments

/-- A result of the call. -/
def Answers (item result : CanonicalItem) : Prop :=
  (∃ callId, result.resultId? = some callId ∧ ∀ id, item.callId? = some id → callId = id)

/-- How far a call with a result got. -/
inductive Ended (c : Coordinator) (s : CallState) : Prop
  | refused (execution : s.execution = none) (dispatched : s.dispatched = [])
  | recorded {inv : Invocation} (gated : Gated c s inv) (execution : s.execution = some inv.record)
      (dispatched : s.dispatched = [])
  | executed {inv : Invocation} (gated : Gated c s inv) (execution : s.execution = some inv.record)
      (dispatched : s.dispatched = [inv.arguments])

theorem Gated.at {c : Coordinator} {s : CallState} {inv : Invocation} (h : Gated c s inv)
    {t : CallState} (hi : t.item = s.item) (ha : t.answer = s.answer) : Gated c t inv :=
  ⟨hi ▸ h.admitted, ha ▸ h.approved, h.arguments⟩

theorem Ended.at {c : Coordinator} {s : CallState} (h : Ended c s) (phase : CallPhase) :
    Ended c { s with phase } := by
  cases h with
  | refused he hd => exact .refused he hd
  | recorded hg he hd => exact .recorded (hg.at rfl rfl) he hd
  | executed hg he hd => exact .executed (hg.at rfl rfl) he hd

/-- What a call has passed to get where it stands. -/
def CallState.Ok (c : Coordinator) (s : CallState) : Prop :=
  match s.phase with
  | .waiting => s.answer = none ∧ s.execution = none ∧ s.dispatched = []
  | .approving inv => Admitted c s.item inv ∧ inv.arguments = inv.original ∧ s.execution = none ∧
      s.dispatched = []
  | .queued inv => Gated c s inv ∧ s.execution = none ∧ s.dispatched = []
  | .intending inv => Gated c s inv ∧ s.execution = none ∧ s.dispatched = []
  | .announcing inv => Gated c s inv ∧ s.execution = some inv.record ∧ s.dispatched = []
  | .executing inv => Gated c s inv ∧ s.execution = some inv.record ∧
      s.dispatched = [inv.arguments]
  | .settled result => Answers s.item result ∧ Ended c s
  | .done result => Answers s.item result ∧ Ended c s

theorem admit_ok {c : Coordinator} {id callId name raw : String} {space : Option String}
    {arguments : Option Value} {inv : Invocation} (h : c.admitCall callId name arguments raw = .ok inv) :
    Admitted c (.toolCall id callId space name arguments raw) inv ∧ inv.callId = callId ∧
      inv.arguments = inv.original := by
  obtain ⟨handler, hl, h⟩ := orElse_bind_ok h
  obtain ⟨original, ha, h⟩ := bind_ok h
  obtain ⟨_, hv, h⟩ := bind_ok h
  cases h
  exact ⟨⟨⟨id, space, name, arguments, raw, rfl, hl, ha⟩, validateArguments_ok hv⟩, rfl, rfl⟩

omit [ToolJson] in
theorem Admitted.answers [ToolJson] {c : Coordinator} {item : CanonicalItem} {inv : Invocation}
    (h : Admitted c item inv) (id : String) (output : CanonicalToolOutput) (isError : Bool) :
    Answers item (.toolResult id inv.callId output isError) := by
  obtain ⟨i, space, name, arguments, raw, rfl, -⟩ := h.call
  refine ⟨inv.callId, rfl, fun _ h => ?_⟩
  cases h
  rfl

/-- A call past its approval is at the barrier or has a result. -/
theorem confirm_ok {c : Coordinator} {s : CallState} {inv : Invocation} {id : String}
    (hadm : Admitted c s.item inv) (happ : Approved s.answer inv) (he : s.execution = none)
    (hd : s.dispatched = []) : CallState.Ok c { s with phase := inv.confirm id } := by
  unfold Invocation.confirm
  cases hv : validateArguments inv.handler "Invalid approved tool arguments: " inv.arguments with
  | error message => exact ⟨hadm.answers _ _ _, .refused he hd⟩
  | ok u => exact ⟨⟨hadm, happ, validateArguments_ok hv⟩, he, hd⟩

theorem prepare_ok {c : Coordinator} {s : CallState} (id : String) (he : s.execution = none)
    (hd : s.dispatched = []) : CallState.Ok c { s with phase := c.prepare id s.item } := by
  obtain ⟨item, phase, answer, execution, dispatched⟩ := s
  cases item with
  | toolCall itemId callId space name arguments raw =>
    simp only [Coordinator.prepare]
    cases hadm : c.admitCall callId name arguments raw with
    | error message => exact ⟨⟨callId, rfl, fun _ h => by cases h; rfl⟩, .refused he hd⟩
    | ok inv =>
      obtain ⟨hadm, rfl, horig⟩ := admit_ok hadm
      cases hr : inv.handler.requireApproval with
      | false =>
        simp only [Bool.false_eq_true, if_false, hr]
        exact @confirm_ok _ c ⟨_, phase, answer, execution, dispatched⟩ inv id hadm
          (.inl ⟨hr, horig⟩) he hd
      | true =>
        simp only [if_true, hr]
        split
        · exact ⟨hadm, horig, he, hd⟩
        · exact ⟨hadm.answers _ _ _, .refused he hd⟩
  | _ => exact ⟨⟨"unknown", rfl, fun _ h => by cases h⟩, .refused he hd⟩

theorem answered_ok {c : Coordinator} {s : CallState} {inv : Invocation} (id : String)
    (answer : Except String ApprovalDecision) (hadm : Admitted c s.item inv)
    (horig : inv.arguments = inv.original) (he : s.execution = none) (hd : s.dispatched = []) :
    CallState.Ok c { s with phase := inv.answered id answer, answer := some answer } := by
  have hrefused : ∀ message, Answers s.item (errorResult id inv.callId message) :=
    fun message => hadm.answers _ _ _
  unfold Invocation.answered
  cases answer with
  | error e => exact ⟨hrefused _, .refused he hd⟩
  | ok decision =>
    cases decision with
    | deny reason => exact ⟨hrefused _, .refused he hd⟩
    | accept =>
      exact @confirm_ok _ c { s with answer := some (.ok .accept) } inv id hadm
        (.inr (.inl ⟨rfl, horig⟩)) he hd
    | modifyArguments arguments =>
      have hadm' : Admitted c s.item { inv with arguments } := ⟨hadm.call, hadm.original⟩
      exact @confirm_ok _ c { s with answer := some (.ok (.modifyArguments arguments)) }
        { inv with arguments } id hadm' (.inr (.inr rfl)) he hd

/-- Every segment keeps what a call has passed, and its item. -/
theorem CallStep.ok {c : Coordinator} {cancelled : Bool} {free : Bool → Bool} {s s' : CallState}
    {e : CallEffect} (h : CallStep c cancelled free s e s') (hs : CallState.Ok c s) :
    CallState.Ok c s' ∧ s'.item = s.item := by
  unfold CallState.Ok at hs
  cases h with
  | prepare id phase =>
    rw [phase] at hs
    exact ⟨prepare_ok id hs.2.1 hs.2.2, rfl⟩
  | answer id answer phase =>
    rw [phase] at hs
    exact ⟨answered_ok id answer hs.1 hs.2.1 hs.2.2.1 hs.2.2.2, rfl⟩
  | acquireCancelled id phase guard token =>
    rw [phase] at hs
    exact ⟨⟨hs.1.admitted.answers _ _ _, .refused hs.2.1 hs.2.2⟩, rfl⟩
  | acquireJournalled phase guard token journal =>
    rw [phase] at hs
    exact ⟨⟨hs.1.at rfl rfl, hs.2.1, hs.2.2⟩, rfl⟩
  | acquire phase guard token journal =>
    rw [phase] at hs
    exact ⟨⟨hs.1.at rfl rfl, rfl, hs.2.2⟩, rfl⟩
  | intent receipt phase =>
    rw [phase] at hs
    exact ⟨⟨hs.1.at rfl rfl, rfl, hs.2.2⟩, rfl⟩
  | closed id phase channel =>
    rw [phase] at hs
    exact ⟨⟨hs.1.admitted.answers _ _ _, .recorded (hs.1.at rfl rfl) hs.2.1 hs.2.2⟩, rfl⟩
  | announcedCancelled id phase token =>
    rw [phase] at hs
    exact ⟨⟨hs.1.admitted.answers _ _ _, .recorded (hs.1.at rfl rfl) hs.2.1 hs.2.2⟩, rfl⟩
  | dispatch phase token =>
    rw [phase] at hs
    exact ⟨⟨hs.1.at rfl rfl, hs.2.1, by simp [hs.2.2]⟩, rfl⟩
  | execute id outcome phase =>
    rw [phase] at hs
    refine ⟨⟨?_, .executed (hs.1.at rfl rfl) hs.2.1 hs.2.2⟩, rfl⟩
    cases outcome with
    | error e => exact hs.1.admitted.answers _ _ _
    | ok o => exact hs.1.admitted.answers _ _ _
  | finish phase journal =>
    rw [phase] at hs
    exact ⟨⟨hs.1, hs.2.at _⟩, rfl⟩
  | outcome phase journal =>
    rw [phase] at hs
    exact ⟨⟨hs.1, hs.2.at _⟩, rfl⟩

/-- How far a call is. -/
def CallPhase.rank : CallPhase → Nat
  | .waiting => 0
  | .approving _ => 1
  | .queued _ => 2
  | .intending _ => 3
  | .announcing _ => 4
  | .executing _ => 5
  | .settled _ => 6
  | .done _ => 7

omit [ToolJson] in
/-- A segment and the barrier: the call keeps its guard, gives it back, or takes one that is free. -/
inductive GuardChange (free : Bool → Bool) : Option Bool → Option Bool → Prop
  | keep (g : Option Bool) : GuardChange free g g
  | release (g : Option Bool) : GuardChange free g none
  | take {shared : Bool} (granted : free shared = true) : GuardChange free none (some shared)

theorem confirm_guard (inv : Invocation) (id : String) : (inv.confirm id).guard = none := by
  unfold Invocation.confirm
  split <;> rfl

theorem prepare_guard (c : Coordinator) (id : String) (item : CanonicalItem) :
    (c.prepare id item).guard = none := by
  unfold Coordinator.prepare
  split
  · split
    · rfl
    · split
      · split <;> rfl
      · exact confirm_guard _ _
  · rfl

theorem answered_guard (inv : Invocation) (id : String) (answer : Except String ApprovalDecision) :
    (inv.answered id answer).guard = none := by
  unfold Invocation.answered
  split
  · rfl
  · exact confirm_guard _ _

theorem CallStep.guard {c : Coordinator} {cancelled : Bool} {free : Bool → Bool}
    {s s' : CallState} {e : CallEffect} (h : CallStep c cancelled free s e s') :
    GuardChange free s.phase.guard s'.phase.guard := by
  cases h with
  | prepare id phase => rw [phase, prepare_guard]; exact .keep none
  | answer id answer phase => rw [phase, answered_guard]; exact .keep none
  | acquireCancelled id phase guard token => exact .release _
  | acquireJournalled phase guard token journal => rw [phase]; exact .take guard
  | acquire phase guard token journal => rw [phase]; exact .take guard
  | intent receipt phase => rw [phase]; exact .keep _
  | closed id phase channel => exact .release _
  | announcedCancelled id phase token => exact .release _
  | dispatch phase token => rw [phase]; exact .keep _
  | execute id outcome phase => exact .release _
  | finish phase journal => exact .release _
  | outcome phase journal => exact .release _

/-- The progress gains the record of a call when its execution is recorded. -/
theorem CallStep.execution {c : Coordinator} {cancelled : Bool} {free : Bool → Bool}
    {s s' : CallState} {e : CallEffect} (h : CallStep c cancelled free s e s')
    (hs : CallState.Ok c s) :
    s'.execution.toList = s.execution.toList ++ e.recorded.toList := by
  unfold CallState.Ok at hs
  cases h with
  | acquire phase guard token journal => rw [phase] at hs; simp [hs.2.1]
  | intent receipt phase => rw [phase] at hs; simp [hs.2.1]
  | _ => simp

/-- The result of a call that has completed. -/
def CallPhase.result? : CallPhase → Option CanonicalItem
  | .done result => some result
  | _ => none

theorem confirm_result (inv : Invocation) (id : String) : (inv.confirm id).result? = none := by
  unfold Invocation.confirm
  split <;> rfl

theorem prepare_result (c : Coordinator) (id : String) (item : CanonicalItem) :
    (c.prepare id item).result? = none := by
  unfold Coordinator.prepare
  split
  · split
    · rfl
    · split
      · split <;> rfl
      · exact confirm_result _ _
  · rfl

theorem answered_result (inv : Invocation) (id : String) (answer : Except String ApprovalDecision) :
    (inv.answered id answer).result? = none := by
  unfold Invocation.answered
  split
  · rfl
  · exact confirm_result _ _

/-- A call that takes a step has not completed, and completes with the result it reports. -/
theorem CallStep.finished {c : Coordinator} {cancelled : Bool} {free : Bool → Bool}
    {s s' : CallState} {e : CallEffect} (h : CallStep c cancelled free s e s') :
    s.phase.result? = none ∧ s'.phase.result? = e.finished := by
  cases h with
  | prepare id phase => rw [phase]; exact ⟨rfl, prepare_result _ _ _⟩
  | answer id answer phase => rw [phase]; exact ⟨rfl, answered_result _ _ _⟩
  | acquireCancelled id phase guard token => rw [phase]; exact ⟨rfl, rfl⟩
  | acquireJournalled phase guard token journal => rw [phase]; exact ⟨rfl, rfl⟩
  | acquire phase guard token journal => rw [phase]; exact ⟨rfl, rfl⟩
  | intent receipt phase => rw [phase]; exact ⟨rfl, rfl⟩
  | closed id phase channel => rw [phase]; exact ⟨rfl, rfl⟩
  | announcedCancelled id phase token => rw [phase]; exact ⟨rfl, rfl⟩
  | dispatch phase token => rw [phase]; exact ⟨rfl, rfl⟩
  | execute id outcome phase => rw [phase]; exact ⟨rfl, rfl⟩
  | finish phase journal => rw [phase]; exact ⟨rfl, rfl⟩
  | outcome phase journal => rw [phase]; exact ⟨rfl, rfl⟩

end

end Whale
