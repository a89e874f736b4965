import Mathlib.Data.List.Nodup

/-!
# Association lists

`List.lookup` in a list without the entries of a key, and in one with unique keys.
-/

namespace Assoc

variable {κ ν : Type} [DecidableEq κ]

theorem lookup_filter (l : List (κ × ν)) (k k' : κ) :
    (l.filter (·.1 != k)).lookup k' = if k' = k then none else l.lookup k' := by
  induction l with
  | nil => simp
  | cons e l ih =>
    by_cases he : e.1 = k
    · rw [List.filter_cons_of_neg (by simp [he]), ih]
      by_cases hk : k' = k
      · rw [if_pos hk, if_pos hk]
      · have hne : (k' == e.1) = false := by simpa [he] using hk
        rw [if_neg hk, if_neg hk, List.lookup_cons, hne]
    · rw [List.filter_cons_of_pos (by simpa using he), List.lookup_cons, ih]
      by_cases hk : k' = k
      · have hne : (k' == e.1) = false := by simpa [hk] using Ne.symm he
        rw [hne, if_pos hk, if_pos hk]
      · rw [if_neg hk, if_neg hk, List.lookup_cons]

/-- An entry put in place of those of its key. -/
theorem lookup_insert (l : List (κ × ν)) (k k' : κ) (v : ν) :
    ((k, v) :: l.filter (·.1 != k)).lookup k' = if k' = k then some v else l.lookup k' := by
  rw [List.lookup_cons, lookup_filter]
  by_cases hk : k' = k
  · rw [beq_iff_eq.mpr hk, if_pos hk, if_pos hk]
  · rw [if_neg hk, if_neg hk, beq_eq_false_iff_ne.mpr hk]

theorem mem_of_lookup {l : List (κ × ν)} {k : κ} {v : ν} (h : l.lookup k = some v) : (k, v) ∈ l := by
  obtain ⟨l₁, l₂, rfl, -⟩ := List.lookup_eq_some_iff.1 h
  simp

theorem lookup_of_mem {l : List (κ × ν)} {k : κ} {v : ν} (hl : (l.map (·.1)).Nodup)
    (h : (k, v) ∈ l) : l.lookup k = some v := by
  obtain ⟨l₁, l₂, rfl⟩ := List.append_of_mem h
  refine List.lookup_eq_some_iff.2 ⟨l₁, l₂, rfl, fun p hp => ?_⟩
  rw [List.map_append, List.map_cons, List.nodup_append] at hl
  exact bne_iff_ne.mpr fun he => hl.2.2 p.1
    (List.mem_map_of_mem hp) k List.mem_cons_self he.symm

theorem lookup_isSome_iff {l : List (κ × ν)} {k : κ} : (l.lookup k).isSome ↔ k ∈ l.map (·.1) := by
  rw [List.lookup_isSome_iff, List.mem_map]
  exact exists_congr fun e => and_congr_right fun _ => beq_iff_eq.trans eq_comm

end Assoc
