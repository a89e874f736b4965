import Whale.Core.Model

/-!
# What `ModelStepState` accepts

One inversion lemma for each kind of event: what an accepted item, the end of the step and any other
event require, and the state they leave.
-/

namespace Whale

open Check

namespace ModelStepState

/-- An accepted item: the step goes on, the item is the model's, its id is new and so is the call id
of a tool call. -/
structure ItemObserved (s : ModelStepState) (item : CanonicalItem) (s' : ModelStepState) : Prop where
  open_ : s.finished = false
  model : item.nonModel = false
  fresh : item.id ∉ s.itemIds
  call : ∀ callId, item.callId? = some callId →
    blank callId = false ∧ callId ∉ s.callIds ∧ s'.callIds = callId :: s.callIds
  noCall : item.callId? = none → s'.callIds = s.callIds
  itemIds : s'.itemIds = item.id :: s.itemIds
  finished : s'.finished = false
  pending : s'.pending = s.removePending item.id

theorem observe_item {s s' : ModelStepState} {item : CanonicalItem}
    (h : s.observe (.itemCompleted item) = .ok s') : ItemObserved s item s' := by
  obtain ⟨hopen, h⟩ := refuse_bind_ok h
  obtain ⟨hmodel, h⟩ := refuse_bind_ok h
  obtain ⟨hfresh, h⟩ := refuse_bind_ok h
  obtain ⟨callIds, hcall, h⟩ := bind_ok h
  cases h
  refine ⟨hopen, hmodel, by simpa using hfresh, fun callId hid => ?_, fun hnone => ?_, rfl, hopen, rfl⟩
  · cases item with
    | toolCall id c space name arguments raw =>
      cases hid
      obtain ⟨hblank, hcall⟩ := refuse_bind_ok hcall
      obtain ⟨hnew, hcall⟩ := refuse_bind_ok hcall
      cases hcall
      exact ⟨(Bool.or_eq_false_iff.1 hblank).1, by simpa using hnew, rfl⟩
    | _ => cases hid
  · cases item with
    | toolCall => cases hnone
    | _ => cases hcall; rfl

theorem observe_finished {s s' : ModelStepState} {usage : UsageMetrics}
    (h : s.observe (.stepFinished usage) = .ok s') :
    s.finished = false ∧ s' = { s with finished := true } := by
  obtain ⟨hopen, h⟩ := refuse_bind_ok h
  obtain ⟨-, h⟩ := refuse_bind_ok h
  cases h
  exact ⟨hopen, rfl⟩

theorem observeDelta_frame {s s' : ModelStepState} {itemId kind : String}
    (h : s.observeDelta itemId kind = .ok s') :
    s' = { s with pending := s'.pending } ∧ itemId ∉ s.itemIds := by
  obtain ⟨hnew, h⟩ := refuse_bind_ok h
  refine ⟨?_, by simpa using hnew⟩
  split at h
  · obtain ⟨-, h⟩ := refuse_bind_ok h
    cases h
    rfl
  · cases h
    rfl

/-- The id of the item an event is about, for the events that start or extend one. -/
def deltaId : ModelEvent → Option String
  | .itemStarted id _ _ => some id
  | .textDelta id _ => some id
  | .reasoningDelta id _ => some id
  | .reasoningSignature id _ => some id
  | .toolCallDelta id _ _ => some id
  | .itemCompleted _ => none
  | .stepFinished _ => none

theorem exists_deltaId {event : ModelEvent} (hi : ∀ item, event ≠ .itemCompleted item)
    (hf : ∀ usage, event ≠ .stepFinished usage) : ∃ id, deltaId event = some id := by
  cases event with
  | itemCompleted item => exact absurd rfl (hi item)
  | stepFinished usage => exact absurd rfl (hf usage)
  | _ => exact ⟨_, rfl⟩

/-- An event that starts or extends an item: the item is not completed, and only `pending` changes. -/
theorem observe_delta {s s' : ModelStepState} {event : ModelEvent} (h : s.observe event = .ok s')
    {id : String} (hid : deltaId event = some id) :
    s.finished = false ∧ s' = { s with pending := s'.pending } ∧ id ∉ s.itemIds := by
  obtain ⟨hopen, h⟩ := refuse_bind_ok h
  have hdelta : ∀ kind, s.observeDelta id kind = .ok s' →
      s.finished = false ∧ s' = { s with pending := s'.pending } ∧ id ∉ s.itemIds := fun kind h =>
    ⟨hopen, observeDelta_frame h⟩
  cases event with
  | itemStarted itemId itemType phase =>
    cases hid
    obtain ⟨-, h⟩ := refuse_bind_ok h
    obtain ⟨hnew, h⟩ := refuse_bind_ok h
    cases h
    exact ⟨hopen, rfl, by simpa using (Bool.or_eq_false_iff.1 hnew).1⟩
  | textDelta itemId delta => cases hid; exact hdelta _ h
  | reasoningDelta itemId delta => cases hid; exact hdelta _ h
  | reasoningSignature itemId signature => cases hid; exact hdelta _ h
  | toolCallDelta itemId callId delta => cases hid; exact hdelta _ h
  | itemCompleted item => cases hid
  | stepFinished usage => cases hid

end ModelStepState

end Whale
