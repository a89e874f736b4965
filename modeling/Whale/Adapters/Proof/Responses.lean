import Mathlib.Data.List.Perm.Basic
import Mathlib.Data.List.Perm.Subperm
import Whale.Adapters.Proof.AddsUp
import Whale.Adapters.Responses

/-!
# The output of a response

The events of a response follow one another rightly whatever the provider sends (`Follows`), and a response
that is reported as completed has been reported item by item (`Reported`). `Inv` ties the items under their
indices, the ids taken and the events to one another.
-/

namespace Whale

open Streaming Check

/-! ## What the events say -/

namespace AgentStreamEvent

/-- The item that an event starts, with its type. -/
def startedAs : AgentStreamEvent → Option (String × String)
  | itemStarted _ itemId itemType _ => some (itemId, itemType)
  | _ => none

/-- The type of the items that a delta is for. -/
def deltaType : AgentStreamEvent → Option String
  | textDelta .. => some "assistant_message"
  | reasoningDelta .. => some "reasoning"
  | toolCallDelta .. => some "tool_call"
  | _ => none

/-- The item that an event is about. -/
def itemId : AgentStreamEvent → Option String
  | itemStarted _ itemId _ _ | textDelta _ itemId _ | reasoningDelta _ itemId _
  | reasoningSignature _ itemId _ | toolCallDelta _ itemId _ _ => some itemId
  | itemCompleted _ item => some item.id
  | _ => none

end AgentStreamEvent

/-- The items that a stream completes. -/
def itemsCompleted (es : List AgentStreamEvent) : List CanonicalItem := es.filterMap (·.completed)

namespace Responses

/-- What an event of a response may be after some others. -/
structure Follows (pre : List AgentStreamEvent) (e : AgentStreamEvent) : Prop where
  /-- No item is started twice. -/
  starts : ∀ id, e.started = some id → id ∉ startedIds pre
  /-- A completed item was started. -/
  completes : ∀ item, e.completed = some item → item.id ∈ startedIds pre
  /-- A delta is for an item that was started with its type. -/
  deltas : ∀ d, e.delta = some d → ∃ x ∈ pre, ∃ type, x.startedAs = some (d.1, type) ∧ e.deltaType = some type
  /-- A completed item is left alone. -/
  untouched : ∀ id, e.itemId = some id → id ∉ completedIds pre
  last : ∀ x ∈ pre, x.isTerminal = false

section
variable [ToolJson]

/-- The output of a response is what was completed, and all that was started. -/
structure Reported (es : List AgentStreamEvent) (output : List Value) : Prop where
  items : ((itemsCompleted es).map Except.ok).Perm (output.map canonical)
  once : (completedIds es).Nodup
  nothingMissing : (startedIds es).Perm (completedIds es)

/-- The items, the ids and the events of a response. -/
structure Inv (es : List AgentStreamEvent) (s : ResponseState) : Prop where
  fits : Fits Follows es
  quiet : ∀ x ∈ es, x.isTerminal = false
  started : s.ids.Perm (startedIds es)
  nodup : s.ids.Nodup
  items : (s.items.values.map fun it => it.value.strAt "id").Perm (s.ids.map some)
  completed : ((itemsCompleted es).map Except.ok).Perm
    ((s.items.values.filter (·.completed)).map fun it => canonical it.value)
  announced : ∀ it ∈ s.items.values, it.completed = false → ∃ id type phase,
    it.value.strAt "id" = some id ∧ announced it.value = .ok (type, phase) ∧
      ∃ x ∈ es, x.startedAs = some (id, type)

variable {es out : List AgentStreamEvent} {s s' : ResponseState} {index : Nat} {value : Value}
  {turnId : String}

omit [ToolJson] in
theorem string_ok {field text : String} (h : string value field = .ok text) :
    value.strAt field = some text := orElse_ok h

/-- An item has the id of its value. -/
theorem canonical_id {item : CanonicalItem} (h : canonical value = .ok item) :
    value.strAt "id" = some item.id := by
  unfold canonical at h
  obtain ⟨id, hid, h⟩ := bind_ok h
  obtain ⟨type, -, h⟩ := bind_ok h
  rw [string_ok hid]
  split at h
  · obtain ⟨role, -, h⟩ := bind_ok h
    obtain ⟨-, h⟩ := refuse_bind_ok h
    obtain ⟨parts, -, h⟩ := orElse_bind_ok h
    obtain ⟨content, -, h⟩ := bind_ok h
    obtain ⟨ph, -, h⟩ := bind_ok h
    cases h
    rfl
  · obtain ⟨raw, -, h⟩ := bind_ok h
    obtain ⟨callId, -, h⟩ := bind_ok h
    obtain ⟨name, -, h⟩ := bind_ok h
    cases h
    rfl
  · obtain ⟨-, h⟩ := refuse_bind_ok h
    obtain ⟨summary, -, h⟩ := orElse_bind_ok h
    obtain ⟨thinking, -, h⟩ := bind_ok h
    cases h
    rfl
  · cases h

/-! ## Ids -/

omit [ToolJson] in
theorem completedIds_eq (es : List AgentStreamEvent) : completedIds es = (itemsCompleted es).map (·.id) := rfl

/-- The ids of the completed items are those of the items that are marked so. -/
theorem Inv.completedIds (h : Inv es s) : ((completedIds es).map some).Perm
    ((s.items.values.filter (·.completed)).map fun it => it.value.strAt "id") := by
  have hid : ∀ it ∈ s.items.values.filter (·.completed), ∃ item, canonical it.value = .ok item := by
    intro it hit
    have hm : canonical it.value ∈ (itemsCompleted es).map Except.ok :=
      h.completed.mem_iff.mpr (List.mem_map_of_mem hit)
    obtain ⟨item, -, heq⟩ := List.mem_map.mp hm
    exact ⟨item, heq.symm⟩
  have hperm := h.completed.map fun r : Except AdapterError CanonicalItem =>
    match r with
    | .ok item => some item.id
    | .error _ => none
  rw [List.map_map, List.map_map] at hperm
  rw [completedIds_eq, List.map_map]
  refine hperm.trans (.of_eq (List.map_congr_left fun it hit => ?_))
  obtain ⟨item, hitem⟩ := hid it hit
  show (match canonical it.value with | .ok item => some item.id | .error _ => none) = _
  rw [hitem, canonical_id hitem]

theorem Inv.nodup_values (h : Inv es s) : (s.items.values.map fun it => it.value.strAt "id").Nodup :=
  h.items.nodup_iff.mpr (h.nodup.map (Option.some_injective _))

theorem Inv.mem_ids_of_completed (h : Inv es s) {id : String} (hid : id ∈ Whale.completedIds es) :
    id ∈ s.ids := by
  have hm : some id ∈ (s.items.values.filter (·.completed)).map fun it => it.value.strAt "id" :=
    h.completedIds.mem_iff.mp (List.mem_map_of_mem hid)
  obtain ⟨it, hit, heq⟩ := List.mem_map.mp hm
  have hm : some id ∈ s.ids.map some := by
    rw [← h.items.mem_iff, ← heq]
    exact List.mem_map_of_mem (List.mem_of_mem_filter hit)
  simpa using hm

theorem Inv.mem_ids (h : Inv es s) {it : ItemState} (hit : it ∈ s.items.values) {id : String}
    (hid : it.value.strAt "id" = some id) : id ∈ s.ids := by
  have hm : some id ∈ s.ids.map some := by
    rw [← h.items.mem_iff, ← hid]
    exact List.mem_map_of_mem hit
  simpa using hm

/-- An item that is not marked has not been completed. -/
theorem Inv.not_completed (h : Inv es s) {it : ItemState} (hit : it ∈ s.items.values)
    (hopen : it.completed = false) {id : String} (hid : it.value.strAt "id" = some id) :
    id ∉ Whale.completedIds es := by
  intro hm
  have hm : some id ∈ (s.items.values.filter (·.completed)).map fun it => it.value.strAt "id" :=
    h.completedIds.mem_iff.mp (List.mem_map_of_mem hm)
  obtain ⟨it', hit', heq⟩ := List.mem_map.mp hm
  obtain ⟨hit', hdone⟩ := List.mem_filter.mp hit'
  have hsame : it = it' := List.inj_on_of_nodup_map h.nodup_values hit hit' (hid.trans heq.symm)
  rw [← hsame, hopen] at hdone
  cases hdone

theorem Inv.nodup_completedIds (h : Inv es s) : (Whale.completedIds es).Nodup := by
  refine (List.Nodup.of_map some) (h.completedIds.nodup_iff.mpr ?_)
  exact h.nodup_values.sublist (List.filter_sublist.map _)

/-! ## Steps -/

omit [ToolJson] in
/-- What `start` does. -/
theorem start_cases {ev : Option AgentStreamEvent} (h : s.start index value turnId = .ok (ev, s')) :
    (ev = none ∧ s' = s ∧ ∃ it, s.items.get? index = some it ∧
      it.value.index "id" = value.index "id") ∨
    ∃ id type phase, s.items.get? index = none ∧ value.strAt "id" = some id ∧ id ∉ s.ids ∧
      announced value = .ok (type, phase) ∧ ev = some (.itemStarted turnId id type phase) ∧
      s' = { items := s.items.insert index { value }, ids := id :: s.ids } := by
  unfold ResponseState.start at h
  cases hget : s.items.get? index with
  | some it =>
    rw [hget] at h
    obtain ⟨hid, h⟩ := refuse_bind_ok h
    cases h
    exact .inl ⟨rfl, rfl, it, rfl, by simpa using hid⟩
  | none =>
    rw [hget] at h
    obtain ⟨id, hid, h⟩ := bind_ok h
    obtain ⟨hnew, h⟩ := refuse_bind_ok h
    obtain ⟨⟨type, phase⟩, hannounced, h⟩ := bind_ok h
    cases h
    exact .inr ⟨id, type, phase, rfl, string_ok hid, by simpa using hnew, hannounced, rfl, rfl⟩

omit [ToolJson] in
theorem strAt_of_index {a b : Value} (h : a.index "id" = b.index "id") : a.strAt "id" = b.strAt "id" := by
  have hself : ∀ v : Value, v.strAt "id" = (v.index "id").asStr := by
    intro v
    unfold Value.strAt Value.index
    cases v.get "id" <;> rfl
  rw [hself, hself, h]

/-- What is known of the item of an index after `start`. -/
theorem Inv.start (h : Inv es s) {ev : Option AgentStreamEvent}
    (hs : s.start index value turnId = .ok (ev, s')) :
    Inv (es ++ ev.toList) s' ∧ (∃ it, s'.items.get? index = some it ∧
      it.value.strAt "id" = value.strAt "id") ∧
    ∀ j, j ≠ index → s'.items.get? j = s.items.get? j := by
  rcases start_cases hs with ⟨rfl, rfl, it, hit, hid⟩ | ⟨id, type, phase, hnone, hid, hnew, hann, rfl, rfl⟩
  · refine ⟨?_, ⟨it, hit, strAt_of_index hid⟩, fun _ _ => rfl⟩
    rw [Option.toList_none, List.append_nil]
    exact h
  · have hperm := OrdMap.values_insert_of_none hnone (ItemState.mk value false)
    have hnot : id ∉ startedIds es := fun hm => hnew (h.started.mem_iff.mpr hm)
    have hitems : itemsCompleted (es ++ [.itemStarted turnId id type phase]) = itemsCompleted es := by
      simp [itemsCompleted, AgentStreamEvent.completed]
    refine ⟨⟨?_, ?_, ?_, ?_, ?_, ?_, ?_⟩, ⟨_, OrdMap.get?_insert_self .., rfl⟩,
      fun j hj => OrdMap.get?_insert_ne _ _ (Ne.symm hj)⟩
    · refine fits_snoc.mpr ⟨h.fits, ⟨fun id' h' => ?_, ?_, ?_, fun id' h' => ?_, h.quiet⟩⟩
      · cases h'
        exact hnot
      · rintro _ ⟨⟩
      · rintro _ ⟨⟩
      · cases h'
        exact fun hm => hnew (h.mem_ids_of_completed hm)
    · exact quiet_snoc h.quiet rfl
    · rw [Option.toList_some, startedIds_append]
      exact (h.started.cons id).trans (List.perm_append_singleton _ _).symm
    · exact List.nodup_cons.mpr ⟨hnew, h.nodup⟩
    · refine (hperm.map _).trans ?_
      rw [List.map_cons, List.map_cons, hid]
      exact h.items.cons _
    · have hfilter : ((s.items.insert index { value }).values.filter (·.completed)).Perm
          (s.items.values.filter (·.completed)) :=
        (hperm.filter _).trans (.of_eq (List.filter_cons_of_neg Bool.false_ne_true))
      rw [Option.toList_some, hitems]
      exact h.completed.trans (hfilter.map _).symm
    · intro it hit hopen
      rcases List.mem_cons.mp (hperm.mem_iff.mp hit) with rfl | hit
      · exact ⟨id, type, phase, hid, hann, _, List.mem_append_right _ List.mem_cons_self, rfl⟩
      · obtain ⟨id', type', phase', h1, h2, x, hx, h3⟩ := h.announced it hit hopen
        exact ⟨id', type', phase', h1, h2, x, List.mem_append_left _ hx, h3⟩

/-- An item is completed with a value of its id. -/
theorem Inv.complete (h : Inv es s) {it : ItemState} (hit : s.items.get? index = some it)
    (hopen : it.completed = false) (hid : it.value.strAt "id" = value.strAt "id") {item : CanonicalItem}
    (hitem : canonical value = .ok item) (turnId : String) :
    Inv (es ++ [.itemCompleted turnId item])
      { s with items := s.items.insert index { value, completed := true } } := by
  obtain ⟨rest, hperm, hinsert⟩ := OrdMap.values_insert_of_some hit
  have hinsert := hinsert { value, completed := true }
  have hmem : it ∈ s.items.values := OrdMap.mem_values hit
  rw [canonical_id hitem] at hid
  have hstarted : item.id ∈ startedIds es := h.started.mem_iff.mp (h.mem_ids hmem hid)
  refine ⟨?_, quiet_snoc h.quiet rfl, ?_, h.nodup, ?_, ?_, fun it' hit' hopen' => ?_⟩
  · refine fits_snoc.mpr ⟨h.fits, ⟨nofun, fun item' h' => ?_, nofun, fun id h' => ?_, h.quiet⟩⟩
    · cases h'
      exact hstarted
    · cases h'
      exact h.not_completed hmem hopen hid
  · rw [startedIds_snoc rfl]
    exact h.started
  · refine (hinsert.map _).trans (.trans ?_ ((hperm.map _).symm.trans h.items))
    rw [List.map_cons, List.map_cons, hid, canonical_id hitem]
  · have hitems : itemsCompleted (es ++ [.itemCompleted turnId item]) = itemsCompleted es ++ [item] := by
      simp [itemsCompleted, AgentStreamEvent.completed]
    have hbefore : (s.items.values.filter (·.completed)).Perm (rest.filter (·.completed)) := by
      refine (hperm.filter _).trans (.of_eq ?_)
      rw [List.filter_cons_of_neg]
      rw [hopen]
      exact Bool.false_ne_true
    have hafter : ((s.items.insert index { value, completed := true }).values.filter (·.completed)).Perm
        ({ value, completed := true } :: rest.filter (·.completed)) :=
      (hinsert.filter _).trans (.of_eq (List.filter_cons_of_pos rfl))
    rw [hitems, List.map_append]
    refine (List.perm_append_singleton _ _).trans (.trans ?_ (hafter.map _).symm)
    rw [List.map_cons, hitem]
    exact (h.completed.trans (hbefore.map _)).cons _
  · rcases List.mem_cons.mp (hinsert.mem_iff.mp hit') with rfl | hit'
    · cases hopen'
    · obtain ⟨id', type', phase', h1, h2, x, hx, h3⟩ :=
        h.announced it' (hperm.mem_iff.mpr (List.mem_cons_of_mem _ hit')) hopen'
      exact ⟨id', type', phase', h1, h2, x, List.mem_append_left _ hx, h3⟩

/-- An index that is completed with the item of a value. -/
def Done (s : ResponseState) (index : Nat) (value : Value) : Prop :=
  ∃ it, s.items.get? index = some it ∧ it.completed = true ∧ canonical it.value = canonical value

theorem Inv.finish (h : Inv es s) (hf : s.finish index value turnId = .ok (out, s')) :
    Inv (es ++ out) s' ∧ Done s' index value ∧ ∀ j, j ≠ index → s'.items.get? j = s.items.get? j := by
  unfold ResponseState.finish at hf
  obtain ⟨⟨ev, s1⟩, hs, hf⟩ := bind_ok hf
  obtain ⟨hinv, ⟨it, hit, hid⟩, hother⟩ := h.start hs
  obtain ⟨item, hitem, hf⟩ := bind_ok hf
  rw [hit, Option.getD_some] at hf
  cases hdone : it.completed with
  | true =>
    rw [if_pos hdone] at hf
    obtain ⟨completed, hcompleted, hf⟩ := bind_ok hf
    obtain ⟨hsame, hf⟩ := refuse_bind_ok hf
    cases hf
    have hsame : completed = item := by simpa using hsame
    exact ⟨hinv, ⟨it, hit, hdone, by rw [hcompleted, hitem, hsame]⟩, hother⟩
  | false =>
    rw [if_neg (by simp [hdone])] at hf
    cases hf
    have hcomplete := hinv.complete hit hdone hid hitem turnId
    rw [List.append_assoc] at hcomplete
    refine ⟨hcomplete, ⟨_, OrdMap.get?_insert_self .., rfl, rfl⟩, fun j hj => ?_⟩
    rw [OrdMap.get?_insert_ne _ _ (Ne.symm hj)]
    exact hother j hj

/-- The loop over the output completes an index after the other. -/
theorem Inv.finishAll {es : List AgentStreamEvent} {s : ResponseState} (h : Inv es s) :
    ∀ (values : List Value) (index : Nat),
    (∃ s', Inv (es ++ (s.finishAll turnId index values).1) s') ∧
    ∀ s', (s.finishAll turnId index values).2 = .ok s' →
      Inv (es ++ (s.finishAll turnId index values).1) s' ∧
      (∀ i (hi : i < values.length), Done s' (index + i) values[i]) ∧
      ∀ j < index, s'.items.get? j = s.items.get? j
  | [], index => by
    have h : Inv (es ++ []) s := by rwa [List.append_nil]
    refine ⟨⟨s, h⟩, fun s' hs => ?_⟩
    cases hs
    exact ⟨h, nofun, fun _ _ => rfl⟩
  | value :: values, index => by
    unfold ResponseState.finishAll
    cases hf : s.finish index value turnId with
    | error e =>
      refine ⟨⟨s, ?_⟩, nofun⟩
      rwa [List.append_nil]
    | ok r =>
      obtain ⟨out, s1⟩ := r
      obtain ⟨hinv, ⟨it, hit, hdone, hcan⟩, hother⟩ := h.finish hf
      obtain ⟨hsome, hall⟩ := hinv.finishAll values (index + 1)
      dsimp only
      rw [← List.append_assoc]
      refine ⟨hsome, fun s' hs => ?_⟩
      obtain ⟨hinv', hrest, hbefore⟩ := hall s' hs
      refine ⟨hinv', fun i hi => ?_, fun j hj => ?_⟩
      · cases i with
        | zero => exact ⟨it, (hbefore index (Nat.lt_succ_self _)).trans hit, hdone, hcan⟩
        | succ i =>
          have hd := hrest i (Nat.lt_of_succ_lt_succ hi)
          rwa [Nat.add_right_comm] at hd
      · rw [hbefore j (Nat.lt_succ_of_lt hj), hother j hj.ne]

/-! ## The output -/

/-- When every index of the output is done and there is no other, the items are those of the output. -/
theorem values_perm {output : List Value} (hdone : ∀ i (hi : i < output.length), Done s i output[i])
    (hlen : s.items.entries.length = output.length) :
    (s.items.values.map fun it => canonical it.value).Perm (output.map canonical) := by
  have hkeys : (List.range output.length).Perm s.items.keys := by
    refine (List.subperm_of_subset List.nodup_range fun i hi => ?_).perm_of_length_le ?_
    · obtain ⟨it, hit, -⟩ := hdone i (List.mem_range.mp hi)
      exact List.mem_map_of_mem (f := Prod.fst) (OrdMap.get?_eq_some_iff.mp hit)
    · rw [List.length_range, OrdMap.keys, List.length_map, hlen]
  have hget : ((List.range output.length).map fun i =>
      (s.items.get? i).map fun it => canonical it.value) = (output.map canonical).map some := by
    refine List.ext_getElem (by simp) fun i hi _ => ?_
    have hi : i < output.length := by simpa using hi
    obtain ⟨it, hit, -, hcan⟩ := hdone i hi
    simp [hit, hcan]
  have hvalues : s.items.keys.map (fun i => (s.items.get? i).map fun it => canonical it.value) =
      (s.items.values.map fun it => canonical it.value).map some := by
    have hmap := congrArg (List.map (Option.map fun it => canonical it.value)) s.items.map_get?_keys
    rw [List.map_map, List.map_map] at hmap
    rw [List.map_map]
    exact hmap
  refine (List.map_perm_map_iff (Option.some_injective _)).mp ?_
  rw [← hvalues, ← hget]
  exact hkeys.symm.map _

/-- A response whose items are those of the output and all completed. -/
theorem Inv.reported (h : Inv es s) {output : List Value}
    (hdone : ∀ i (hi : i < output.length), Done s i output[i])
    (hlen : s.items.entries.length = output.length) (hall : ∀ it ∈ s.items.values, it.completed = true) :
    Reported es output := by
  have hfilter : s.items.values.filter (·.completed) = s.items.values := List.filter_eq_self.mpr hall
  refine ⟨?_, h.nodup_completedIds, ?_⟩
  · have hcompleted := h.completed
    rw [hfilter] at hcompleted
    exact hcompleted.trans (values_perm hdone hlen)
  · have hids := h.completedIds
    rw [hfilter] at hids
    refine (List.map_perm_map_iff (Option.some_injective _)).mp ?_
    exact (h.started.symm.map _).trans (h.items.symm.trans hids.symm)

/-- An event about no item changes nothing of what was reported. -/
theorem Reported.snoc {output : List Value} (h : Reported es output) {e : AgentStreamEvent}
    (he : e.itemId = none) : Reported (es ++ [e]) output := by
  have hnone : e.started = none ∧ e.completed = none := by
    cases e <;> first | exact ⟨rfl, rfl⟩ | cases he
  have hitems : itemsCompleted (es ++ [e]) = itemsCompleted es := by simp [itemsCompleted, hnone.2]
  refine ⟨?_, ?_, ?_⟩
  · rw [hitems]
    exact h.items
  · rw [completedIds_snoc hnone.2]
    exact h.once
  · rw [completedIds_snoc hnone.2, startedIds_snoc hnone.1]
    exact h.nothingMissing

/-! ## Events -/

variable {ids : StreamIds}

omit [ToolJson] in
theorem eventOf_completed {type : String} (h : eventOf type = .completed) : type = "response.completed" := by
  unfold eventOf at h
  split at h <;> first | rfl | cases h

/-- What `item` finds. -/
theorem Inv.item (_ : Inv es s) {it : ItemState} (h : s.item value = .ok it) :
    it ∈ s.items.values ∧ it.completed = false := by
  unfold ResponseState.item at h
  obtain ⟨index, -, h⟩ := orElse_bind_ok h
  obtain ⟨it', hget, h⟩ := orElse_bind_ok h
  obtain ⟨eventId, -, h⟩ := bind_ok h
  obtain ⟨itemId, -, h⟩ := bind_ok h
  obtain ⟨-, h⟩ := refuse_bind_ok h
  obtain ⟨hopen, h⟩ := refuse_bind_ok h
  cases h
  exact ⟨OrdMap.mem_values hget, hopen⟩

omit [ToolJson] in
/-- The item type of a value is that of its own type. -/
theorem announced_type {type itemType : String} {phase : Option MessagePhase}
    (h : announced value = .ok (itemType, phase)) (htype : string value "type" = .ok type) :
    (type = "message" → itemType = "assistant_message") ∧ (type = "reasoning" → itemType = "reasoning") ∧
      (type = "function_call" → itemType = "tool_call") := by
  unfold announced at h
  rw [htype, ok_bind] at h
  split at h
  · obtain ⟨ph, -, h⟩ := bind_ok h
    cases h
    exact ⟨fun _ => rfl, nofun, nofun⟩
  · cases h
    exact ⟨nofun, fun _ => rfl, nofun⟩
  · cases h
    exact ⟨nofun, nofun, fun _ => rfl⟩
  · cases h

/-- A delta is for an item that is open and of its type. -/
theorem Inv.delta (h : Inv es s) {kind : DeltaKind} {e : AgentStreamEvent}
    (hd : s.delta ids kind value = .ok e) : Inv (es ++ [e]) s := by
  unfold ResponseState.delta at hd
  obtain ⟨it, hitem, hd⟩ := bind_ok hd
  obtain ⟨itemId, hid, hd⟩ := bind_ok hd
  obtain ⟨d, -, hd⟩ := bind_ok hd
  obtain ⟨type, htype, hd⟩ := bind_ok hd
  obtain ⟨hmem, hopen⟩ := h.item hitem
  have hid := string_ok hid
  obtain ⟨id, itemType, phase, hid', hann, x, hx, hstarted⟩ := h.announced it hmem hopen
  obtain rfl : id = itemId := Option.some.inj (hid'.symm.trans hid)
  obtain ⟨hmessage, hreasoning, hcall⟩ := announced_type hann htype
  -- the delta is one of the open item, with the type that it was started with
  have he : (∃ d, e.delta = some (id, d)) ∧ e.deltaType = some itemType ∧ e.itemId = some id := by
    cases kind with
    | text =>
      obtain ⟨hk, hd⟩ := refuse_bind_ok hd
      cases hd
      exact ⟨⟨d, rfl⟩, by rw [hmessage (by simpa using hk)]; rfl, rfl⟩
    | reasoning =>
      obtain ⟨hk, hd⟩ := refuse_bind_ok hd
      cases hd
      exact ⟨⟨d, rfl⟩, by rw [hreasoning (by simpa using hk)]; rfl, rfl⟩
    | arguments =>
      obtain ⟨hk, hd⟩ := refuse_bind_ok hd
      obtain ⟨callId, -, hd⟩ := bind_ok hd
      cases hd
      exact ⟨⟨d, rfl⟩, by rw [hcall (by simpa using hk)]; rfl, rfl⟩
  obtain ⟨⟨d, hdelta⟩, hkind, hitemId⟩ := he
  obtain ⟨hs, hc, -, hterminal, -⟩ := e.of_delta hdelta
  have hitems : itemsCompleted (es ++ [e]) = itemsCompleted es := by simp [itemsCompleted, hc]
  refine ⟨fits_snoc.mpr ⟨h.fits, by simp [hs], by simp [hc], fun d' hd' => ?_, fun id' hid' => ?_, h.quiet⟩,
    quiet_snoc h.quiet hterminal, ?_, h.nodup, h.items, ?_, fun it' hit' hopen' => ?_⟩
  · rw [hdelta] at hd'
    cases hd'
    exact ⟨x, hx, itemType, hstarted, hkind⟩
  · rw [hitemId] at hid'
    cases hid'
    exact h.not_completed hmem hopen hid
  · rw [startedIds_snoc hs]
    exact h.started
  · rw [hitems]
    exact h.completed
  · obtain ⟨id', type', phase', h1, h2, x', hx', h3⟩ := h.announced it' hit' hopen'
    exact ⟨id', type', phase', h1, h2, x', List.mem_append_left _ hx', h3⟩

/-- The input is a completed response with an output. -/
structure Completes (input : Sse) (output : List Value) : Prop where
  completes : ∃ data value, input = .ok data ∧ ToolJson.parse data = .ok value ∧
    value.strAt "type" = some "response.completed" ∧
    (value.index "response").strAt "status" = some "completed" ∧
    ((value.index "response").index "output").asArray = some output

/-- What an emission does to the events before it. -/
def Proper (es : List AgentStreamEvent) (input : Sse) : Emission ResponseState → Prop
  | (out, .go s') => Inv (es ++ out) s'
  | (out, .fail _) => ∃ s', Inv (es ++ out) s'
  | (out, .stop) => ∃ pre e, out = pre ++ [e] ∧ (∃ s', Inv (es ++ pre) s') ∧ e.itemId = none ∧
      (e.isTurnCompleted = true → ∃ output, Completes input output ∧ Reported (es ++ pre) output)

theorem proper_emitted {input : Sse} {r : Except AdapterError (List AgentStreamEvent × ResponseState)}
    (h : Inv es s) (hr : ∀ out s', r = .ok (out, s') → Inv (es ++ out) s') :
    Proper es input (ResponseState.emitted r) := by
  cases r with
  | error e => exact ⟨s, by rwa [List.append_nil]⟩
  | ok p => exact hr p.1 p.2 rfl

theorem Inv.completed_response (h : Inv es s) {data : String} (hparse : ToolJson.parse data = .ok value)
    (htype : value.strAt "type" = some "response.completed") :
    Proper es (.ok data) (s.complete ids (value.index "response")) := by
  unfold ResponseState.complete
  cases hout : ResponseState.outputOf (value.index "response") with
  | error e => exact ⟨s, by rwa [List.append_nil]⟩
  | ok output =>
    unfold ResponseState.outputOf at hout
    obtain ⟨status, hstatus, hout⟩ := bind_ok hout
    obtain ⟨hcompleted, hout⟩ := refuse_bind_ok hout
    obtain rfl : status = "completed" := by simpa using hcompleted
    obtain ⟨hsome, hall⟩ : (∃ s', Inv (es ++ (s.finishAll ids.turnId 0 output).1) s') ∧ _ :=
      h.finishAll output 0
    dsimp only
    cases hr : s.finishAll ids.turnId 0 output with
    | mk out r =>
      rw [hr] at hsome hall
      cases r with
      | error e => exact hsome
      | ok s' =>
        obtain ⟨hinv, hdone, -⟩ := hall s' rfl
        dsimp only
        split
        · exact ⟨s', hinv⟩
        · rename_i hok
          rw [not_or, not_not] at hok
          refine ⟨out, _, rfl, ⟨s', hinv⟩, rfl, fun _ => ⟨output, ?_, hinv.reported ?_ hok.1 ?_⟩⟩
          · exact ⟨data, value, rfl, hparse, htype, string_ok hstatus, orElse_ok hout⟩
          · intro i hi
            have hd := hdone i hi
            rwa [Nat.zero_add] at hd
          · intro it hit
            by_contra hnot
            exact hok.2 (List.any_eq_true.mpr ⟨it, hit, by simpa using hnot⟩)

theorem Inv.event (h : Inv es s) {data type : String} (hparse : ToolJson.parse data = .ok value)
    (htype : value.strAt "type" = some type) : Proper es (.ok data) (s.event ids type value) := by
  have hgo : Inv (es ++ []) s := by rwa [List.append_nil]
  unfold ResponseState.event
  cases hevent : eventOf type with
  | progress => exact hgo
  | annotationAdded => exact hgo
  | other => exact ⟨s, hgo⟩
  | error => exact ⟨[], _, rfl, ⟨s, hgo⟩, rfl, nofun⟩
  | failed => exact ⟨[], _, rfl, ⟨s, hgo⟩, rfl, nofun⟩
  | incomplete => exact ⟨[], _, rfl, ⟨s, hgo⟩, rfl, nofun⟩
  | itemAdded =>
    refine proper_emitted h fun out s' hr => ?_
    obtain ⟨index, -, hr⟩ := bind_ok hr
    obtain ⟨⟨ev, s1⟩, hs, hr⟩ := bind_ok hr
    cases hr
    exact (h.start hs).1
  | itemDone =>
    refine proper_emitted h fun out s' hr => ?_
    obtain ⟨index, -, hr⟩ := bind_ok hr
    exact (h.finish hr).1
  | delta kind =>
    refine proper_emitted h fun out s' hr => ?_
    obtain ⟨e, hd, hr⟩ := bind_ok hr
    cases hr
    exact h.delta hd
  | part =>
    refine proper_emitted h fun out s' hr => ?_
    obtain ⟨it, -, hr⟩ := bind_ok hr
    cases hr
    exact hgo
  | completed => exact h.completed_response hparse (by rw [htype, eventOf_completed hevent])

theorem Inv.feed (h : Inv es s) (input : Sse) : Proper es input (s.feed ids input) := by
  have hgo : Inv (es ++ []) s := by rwa [List.append_nil]
  unfold ResponseState.feed
  cases input with
  | error e => exact ⟨s, hgo⟩
  | ok data =>
    dsimp only
    split
    · exact hgo
    · cases hparse : ToolJson.parse data with
      | error e => exact ⟨s, hgo⟩
      | ok value =>
        dsimp only
        cases htype : string value "type" with
        | error e => exact ⟨s, hgo⟩
        | ok type => exact h.event hparse (string_ok htype)

/-! ## Whole streams -/

end

end Responses

end Whale
