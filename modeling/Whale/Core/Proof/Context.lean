import Whale.Core.Session

/-!
# Scanning a conversation

How the scan of `validate_items` composes (`Scan.items_append`), what it accepts next in a given state,
and that its pending calls are the ones `close_unanswered_tool_calls` finds
(`Scan.unanswered_perm`). A history the scan accepts is accepted once its unanswered calls are closed
(`validateItems_close_iff`).
-/

namespace Whale

open Check

namespace Scan

theorem items_append (s : Scan) (index : Nat) (xs ys : List CanonicalItem) :
    s.items index (xs ++ ys) = (s.items index xs >>= fun s => s.items (index + xs.length) ys) := by
  induction xs generalizing s index with
  | nil => rfl
  | cons x xs ih =>
    rw [List.cons_append, items, items]
    cases s.item index x with
    | error e => rfl
    | ok s' =>
      simp only [ok_bind]
      rw [ih, List.length_cons, Nat.add_right_comm, Nat.add_assoc]

/-- One more item. -/
theorem items_snoc {s s' : Scan} {xs : List CanonicalItem} {index : Nat}
    (h : s.items index xs = .ok s') (i : CanonicalItem) :
    s.items index (xs ++ [i]) = s'.item (index + xs.length) i := by
  rw [items_append, h, ok_bind, items]
  cases s'.item (index + xs.length) i <;> rfl

/-- What is refused stays refused. -/
theorem items_error {s : Scan} {xs : List CanonicalItem} {index : Nat} {e : String}
    (h : s.items index xs = .error e) (ys : List CanonicalItem) :
    s.items index (xs ++ ys) = .error e := by rw [items_append, h]; rfl

/-! ## One item -/

theorem item_call {s : Scan} {id callId name raw : String} {space : Option String}
    {arguments : Option Value} (index : Nat) (hn : callId ≠ "") (hs : callId ∉ s.seen)
    (hb : s.pending ≠ [] → s.resultsStarted = false) :
    s.item index (.toolCall id callId space name arguments raw) =
      .ok ⟨callId :: s.seen, s.pending.orderedInsert (· ≤ ·) callId, false⟩ := by
  have hempty : callId.isEmpty = false := by simpa using hn
  have hseen : s.seen.contains callId = false := by simpa using hs
  have hbatch : (s.resultsStarted && !s.pending.isEmpty) = false := by
    by_cases hp : s.pending = []
    · simp [hp]
    · simp [hb hp]
  simp only [item, hempty, hseen, hbatch, refuse_false, ok_bind]

theorem item_result {s : Scan} {id callId : String} {output : CanonicalToolOutput} {isError : Bool}
    (index : Nat) (hp : callId ∈ s.pending) :
    s.item index (.toolResult id callId output isError) =
      .ok ⟨s.seen, s.pending.erase callId, !(s.pending.erase callId).isEmpty⟩ := by
  have hc : (!s.pending.contains callId) = false := by simpa using hp
  simp only [item, hc, refuse_false, ok_bind]

/-- Neither a call nor a result. -/
def other (i : CanonicalItem) : Prop := i.callId? = none ∧ i.resultId? = none

theorem item_other {s : Scan} {i : CanonicalItem} (index : Nat) (hi : other i) :
    s.item index i = if s.pending = [] then .ok { s with resultsStarted := false } else
      .error (s!"Context item {index} interrupts an unanswered tool-call batch: "
        ++ ", ".intercalate s.pending) := by
  obtain ⟨hc, hr⟩ := hi
  have hrefuse : ∀ e : String, (refuse (!s.pending.isEmpty) e >>= fun _ =>
      (.ok { s with resultsStarted := false } : Except String Scan)) =
      if s.pending = [] then .ok { s with resultsStarted := false } else .error e := by
    intro e
    by_cases hp : s.pending = []
    · simp [hp]
    · have hne : s.pending.isEmpty = false := by simpa using hp
      simp [hp, hne]
  cases i with
  | toolCall => cases hc
  | toolResult => cases hr
  | _ => exact hrefuse _

/-! ## The pending calls -/

theorem unanswered_append (calls : List String) (xs ys : List CanonicalItem) :
    unanswered calls (xs ++ ys) = unanswered (unanswered calls xs) ys := by
  induction xs generalizing calls with
  | nil => rfl
  | cons x xs ih => cases x <;> simp only [List.cons_append, unanswered, ih]

/-- The calls the repair finds are the pending ones. -/
theorem unanswered_perm {xs : List CanonicalItem} : ∀ {s s' : Scan} {index : Nat}
    {calls : List String}, s.items index xs = .ok s' → calls.Perm s.pending →
    (unanswered calls xs).Perm s'.pending := by
  induction xs with
  | nil =>
    intro s s' index calls h hp
    cases h
    exact hp
  | cons x xs ih =>
    intro s s' index calls h hp
    obtain ⟨s₁, hx, h⟩ := bind_ok h
    have hother : other x → unanswered calls (x :: xs) = unanswered calls xs →
        (unanswered calls (x :: xs)).Perm s'.pending := fun ho he => by
      rw [item_other index ho] at hx
      split at hx
      · cases hx
        rw [he]
        exact ih h hp
      · cases hx
    cases x with
    | toolCall id callId space name arguments raw =>
      obtain ⟨-, hx⟩ := refuse_bind_ok hx
      obtain ⟨-, hx⟩ := refuse_bind_ok hx
      obtain ⟨-, hx⟩ := refuse_bind_ok hx
      cases hx
      refine ih h ?_
      exact (List.perm_append_singleton callId calls).trans
        ((hp.cons callId).trans (List.perm_orderedInsert _ _ _).symm)
    | toolResult id callId output isError =>
      obtain ⟨-, hx⟩ := refuse_bind_ok hx
      cases hx
      exact ih h (hp.erase callId)
    | userMessage => exact hother ⟨rfl, rfl⟩ rfl
    | assistantMessage => exact hother ⟨rfl, rfl⟩ rfl
    | reasoning => exact hother ⟨rfl, rfl⟩ rfl

/-- The call ids seen are those of the items. -/
theorem seen_subset {xs : List CanonicalItem} : ∀ {s s' : Scan} {index : Nat},
    s.items index xs = .ok s' →
    ∀ id ∈ s'.seen, id ∈ s.seen ∨ id ∈ xs.filterMap (·.callId?) := by
  induction xs with
  | nil =>
    intro s s' index h id hid
    cases h
    exact .inl hid
  | cons x xs ih =>
    intro s s' index h id hid
    obtain ⟨s₁, hx, h⟩ := bind_ok h
    have hrest : s₁.seen = s.seen → id ∈ s.seen ∨ id ∈ (x :: xs).filterMap (·.callId?) :=
      fun hseen => by
        rcases ih h id hid with hid | hid
        · exact .inl (hseen ▸ hid)
        · obtain ⟨i, hi, hc⟩ := List.mem_filterMap.1 hid
          exact .inr (List.mem_filterMap.2 ⟨i, List.mem_cons_of_mem _ hi, hc⟩)
    have hother : other x → s₁.seen = s.seen := fun ho => by
      rw [item_other index ho] at hx
      split at hx
      · cases hx; rfl
      · cases hx
    cases x with
    | toolCall itemId callId space name arguments raw =>
      obtain ⟨-, hx⟩ := refuse_bind_ok hx
      obtain ⟨-, hx⟩ := refuse_bind_ok hx
      obtain ⟨-, hx⟩ := refuse_bind_ok hx
      cases hx
      rcases ih h id hid with hid | hid
      · rcases List.mem_cons.1 hid with rfl | hid
        · exact .inr (by simp [CanonicalItem.callId?])
        · exact .inl hid
      · exact .inr (by simp [CanonicalItem.callId?] at hid ⊢; exact .inr hid)
    | toolResult itemId callId output isError =>
      obtain ⟨-, hx⟩ := refuse_bind_ok hx
      cases hx
      exact hrest rfl
    | userMessage => exact hrest (hother ⟨rfl, rfl⟩)
    | assistantMessage => exact hrest (hother ⟨rfl, rfl⟩)
    | reasoning => exact hrest (hother ⟨rfl, rfl⟩)

/-- Results for all pending calls, in any order, are accepted and leave none pending. -/
theorem items_results {rs : List CanonicalItem} : ∀ {s : Scan} {ids : List String} (index : Nat),
    rs.map (·.resultId?) = ids.map some → ids.Perm s.pending →
    ∃ s', s.items index rs = .ok s' ∧ s'.pending = [] := by
  induction rs with
  | nil =>
    intro s ids index hids hp
    obtain rfl : ids = [] := by simpa using hids.symm
    exact ⟨s, rfl, List.nil_perm.1 hp⟩
  | cons r rs ih =>
    intro s ids index hids hp
    cases ids with
    | nil => cases hids
    | cons id ids =>
      simp only [List.map_cons, List.cons.injEq] at hids
      obtain ⟨hr, hids⟩ := hids
      cases r with
      | toolResult rid callId output isError =>
        obtain rfl : callId = id := by simpa [CanonicalItem.resultId?] using hr
        have hmem : callId ∈ s.pending := hp.subset (by simp)
        rw [items, item_result index hmem, ok_bind]
        refine ih (index + 1) hids ?_
        exact (List.cons_perm_iff_perm_erase.1 hp).2
      | _ => cases hr

end Scan

/-! ## Closing -/

theorem validateItems_ok_iff {items : List CanonicalItem} :
    validateItems items = .ok () ↔ ∃ s, Scan.items {} 0 items = .ok s ∧ s.pending = [] := by
  unfold validateItems
  cases h : Scan.items {} 0 items with
  | error e => simp
  | ok s =>
    rw [ok_bind, refuse_ok_iff]
    simp

/-- The unanswered calls after a valid history are those of the rest. -/
theorem unanswered_valid {history : List CanonicalItem} (h : validateItems history = .ok ())
    (rest : List CanonicalItem) : unanswered [] (history ++ rest) = unanswered [] rest := by
  obtain ⟨s, hs, hp⟩ := validateItems_ok_iff.1 h
  have hperm := Scan.unanswered_perm hs (List.Perm.refl _)
  rw [hp] at hperm
  rw [Scan.unanswered_append, List.perm_nil.1 hperm]

theorem close_resultIds (ids : Nat → String) (history : List CanonicalItem) (start : Nat) :
    (closeUnansweredToolCalls ids history start).map (·.resultId?) =
      (unanswered [] (history.drop start)).map some := by
  unfold closeUnansweredToolCalls
  refine List.ext_getElem? fun i => ?_
  rw [List.getElem?_map, List.getElem?_map, List.getElem?_mapIdx]
  cases (unanswered [] (history.drop start))[i]? <;> rfl

/-- Closing the calls of a turn: accepted exactly when the scan accepts the turn's items. -/
theorem validateItems_close_iff {history rest : List CanonicalItem}
    (h : validateItems history = .ok ()) (ids : Nat → String) :
    validateItems ((history ++ rest) ++ closeUnansweredToolCalls ids (history ++ rest)
      history.length) = .ok () ↔ ∃ s, Scan.items {} 0 (history ++ rest) = .ok s := by
  rw [validateItems_ok_iff]
  constructor
  · rintro ⟨s, hs, -⟩
    cases ho : Scan.items {} 0 (history ++ rest) with
    | error e => rw [Scan.items_error ho] at hs; cases hs
    | ok s' => exact ⟨s', rfl⟩
  · rintro ⟨s, hs⟩
    have hperm := Scan.unanswered_perm hs (List.Perm.refl _)
    have hids := close_resultIds ids (history ++ rest) history.length
    rw [List.drop_left, ← unanswered_valid h rest] at hids
    obtain ⟨s', hs', hp⟩ := Scan.items_results (0 + (history ++ rest).length) hids hperm
    exact ⟨s', by rw [Scan.items_append, hs, ok_bind, hs'], hp⟩

/-- A second repair finds nothing to close. -/
theorem close_close {history rest : List CanonicalItem} (h : validateItems history = .ok ())
    (ids ids' : Nat → String) {s : Scan} (hs : Scan.items {} 0 (history ++ rest) = .ok s) :
    let closed := (history ++ rest) ++ closeUnansweredToolCalls ids (history ++ rest) history.length
    closeUnansweredToolCalls ids' closed history.length = [] := by
  intro closed
  obtain ⟨s', hs', hp⟩ := validateItems_ok_iff.1 ((validateItems_close_iff h ids).2 ⟨s, hs⟩)
  have hperm := Scan.unanswered_perm hs' (List.Perm.refl _)
  rw [hp, List.append_assoc, unanswered_valid h] at hperm
  have hnil : unanswered [] (closed.drop history.length) = [] := by
    rw [show closed = history ++ (rest ++ closeUnansweredToolCalls ids (history ++ rest)
      history.length) from List.append_assoc _ _ _, List.drop_left]
    exact List.perm_nil.1 hperm
  simp [closeUnansweredToolCalls, hnil]

end Whale
