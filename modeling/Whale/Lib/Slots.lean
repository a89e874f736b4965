import Mathlib.Data.List.Basic

/-!
# Lists as slots

A list whose elements are known by their index, and that grows at its end: what is in a slot after another one was
changed (`get_set_iff`, `map_set`, `mem_set_of_ne`), and after one was added (`get_concat_iff`).
-/

namespace Slots

variable {α : Type} {l : List α} {i j : Nat} {a b c : α}

/-- After the slot `i` was changed. -/
theorem get_set_iff (h : l[i]? = some a) : (l.set i b)[j]? = some c ↔ j = i ∧ c = b ∨ j ≠ i ∧ l[j]? = some c := by
  have hlt := (List.getElem?_eq_some_iff.mp h).1
  rw [List.getElem?_set]
  by_cases hj : i = j
  · subst hj
    simp [hlt, eq_comm]
  · simp [hj, Ne.symm hj]

/-- A change of a slot that `f` does not see. -/
theorem map_set {β : Type} {f : α → β} (h : l[i]? = some a) (hf : f b = f a) : (l.set i b).map f = l.map f := by
  obtain ⟨hlt, rfl⟩ := List.getElem?_eq_some_iff.mp h
  rw [List.map_set, hf, ← List.getElem_map f (h := by simpa using hlt), List.set_getElem_self]

/-- After a slot was added. -/
theorem get_concat_iff : (l ++ [b])[j]? = some c ↔ l[j]? = some c ∨ j = l.length ∧ c = b := by
  obtain hj | hj := Nat.lt_or_ge j l.length
  · simp [List.getElem?_append_left hj, Nat.ne_of_lt hj]
  · rw [List.getElem?_append_right hj, List.getElem?_eq_none hj]
    constructor
    · intro h
      obtain ⟨hlt, heq⟩ := List.getElem?_eq_some_iff.mp h
      have hlen : j = l.length := by
        simp only [List.length_singleton] at hlt
        omega
      subst hlen
      simpa [eq_comm] using heq
    · rintro (h | ⟨rfl, rfl⟩)
      · cases h
      · simp

/-- A member that is not the one that was changed. -/
theorem mem_set_of_ne (h : l[i]? = some a) (hc : c ∈ l) (hne : c ≠ a) : c ∈ l.set i b := by
  obtain ⟨j, hj⟩ := List.mem_iff_getElem?.mp hc
  have hji : j ≠ i := by
    rintro rfl
    exact hne (Option.some.inj (hj.symm.trans h))
  exact List.mem_of_getElem? ((get_set_iff h).mpr (.inr ⟨hji, hj⟩))

end Slots
