import Mathlib.Data.List.Basic

/-!
# Consecutively numbered lists

`Numbered pos lo l`: the elements of `l` have the positions `lo + 1`, `lo + 2`, and so on. A filter by
a range of positions is then a segment of the list (`Numbered.filter_range`), and removing from the
front while the position is small is a `drop` (`Numbered.dropWhile_le`).
-/

/-- The elements have the positions after `lo`, in order and without a gap. -/
def Numbered {α : Type} (pos : α → Nat) : Nat → List α → Prop
  | _, [] => True
  | lo, a :: l => pos a = lo + 1 ∧ Numbered pos (lo + 1) l

namespace Numbered

variable {α : Type} {pos : α → Nat}

theorem nil {lo : Nat} : Numbered pos lo [] := trivial

theorem append {lo : Nat} {l m : List α} (h : Numbered pos lo l) (h' : Numbered pos (lo + l.length) m) :
    Numbered pos lo (l ++ m) := by
  induction l generalizing lo with
  | nil => exact h'
  | cons a l ih =>
    refine ⟨h.1, ih h.2 ?_⟩
    rw [List.length_cons] at h'
    have he : lo + 1 + l.length = lo + (l.length + 1) := by omega
    rw [he]
    exact h'

theorem snoc {lo : Nat} {l : List α} {a : α} (h : Numbered pos lo l) (ha : pos a = lo + l.length + 1) :
    Numbered pos lo (l ++ [a]) := h.append ⟨ha, trivial⟩

theorem drop {lo : Nat} {l : List α} (h : Numbered pos lo l) {n : Nat} (hn : n ≤ l.length) :
    Numbered pos (lo + n) (l.drop n) := by
  induction n generalizing lo l with
  | zero => exact h
  | succ n ih =>
    cases l with
    | nil => simp at hn
    | cons a l =>
      have he : lo + (n + 1) = lo + 1 + n := by omega
      rw [he, List.drop_succ_cons]
      exact ih h.2 (by simpa using hn)

theorem take {lo : Nat} {l : List α} (h : Numbered pos lo l) (n : Nat) :
    Numbered pos lo (l.take n) := by
  induction l generalizing lo n with
  | nil => simpa using h
  | cons a l ih =>
    cases n with
    | zero => trivial
    | succ n => exact ⟨h.1, ih h.2 n⟩

/-- Numbering looks at the positions only. -/
theorem map_iff {β : Type} {f : β → α} {lo : Nat} {l : List β} :
    Numbered pos lo (l.map f) ↔ Numbered (fun b => pos (f b)) lo l := by
  induction l generalizing lo with
  | nil => simp [Numbered]
  | cons b l ih => simp only [List.map_cons, Numbered, ih]

/-- The positions lie between the bounds. -/
theorem mem_bounds {lo : Nat} {l : List α} (h : Numbered pos lo l) {a : α} (ha : a ∈ l) :
    lo < pos a ∧ pos a ≤ lo + l.length := by
  induction l generalizing lo with
  | nil => cases ha
  | cons b l ih =>
    rcases List.mem_cons.mp ha with rfl | ha
    · have := h.1
      simp only [List.length_cons]
      omega
    · have := ih h.2 ha
      simp only [List.length_cons]
      omega

/-- The last element has the last position. -/
theorem getLast {lo : Nat} {l : List α} (h : Numbered pos lo l) {a : α} (ha : l.getLast? = some a) :
    pos a = lo + l.length := by
  induction l generalizing lo with
  | nil => cases ha
  | cons b l ih =>
    cases l with
    | nil =>
      cases ha
      exact h.1
    | cons c l =>
      rw [List.getLast?_cons_cons] at ha
      have := ih h.2 ha
      simp only [List.length_cons] at this ⊢
      omega

/-- Removing the small positions from the front. -/
theorem dropWhile_le {lo : Nat} {l : List α} (h : Numbered pos lo l) (m : Nat) :
    l.dropWhile (fun a => decide (pos a ≤ m)) = l.drop (m - lo) := by
  induction l generalizing lo with
  | nil => simp
  | cons a l ih =>
    have ha := h.1
    by_cases hm : pos a ≤ m
    · have he : m - lo = m - (lo + 1) + 1 := by omega
      rw [List.dropWhile_cons_of_pos (by simpa using hm), ih h.2, he, List.drop_succ_cons]
    · have he : m - lo = 0 := by omega
      rw [List.dropWhile_cons_of_neg (by simpa using hm), he, List.drop_zero]

/-- A range of positions is a segment of the list. -/
theorem filter_range {lo : Nat} {l : List α} (h : Numbered pos lo l) {after : Nat}
    (ha : lo ≤ after) (through : Nat) :
    l.filter (fun a => decide (after < pos a) && decide (pos a ≤ through)) =
      (l.drop (after - lo)).take (through - after) := by
  induction l generalizing lo after with
  | nil => simp
  | cons a l ih =>
    have hp := h.1
    by_cases hlo : lo = after
    · subst hlo
      by_cases ht : pos a ≤ through
      · have hlt : lo < pos a := by omega
        have he : through - lo = through - (lo + 1) + 1 := by omega
        have hskip : l.filter (fun b => decide (lo < pos b) && decide (pos b ≤ through)) =
            l.filter (fun b => decide (lo + 1 < pos b) && decide (pos b ≤ through)) := by
          apply List.filter_congr
          intro b hb
          have hb' := (h.2.mem_bounds hb).1
          have hb'' : lo < pos b := by omega
          simp [hb', hb'']
        rw [List.filter_cons_of_pos (by simp [hlt, ht]), hskip, ih h.2 (Nat.le_refl _), he]
        simp
      · have he : through - lo = 0 := by omega
        rw [List.filter_cons_of_neg (by simp [ht]), he, List.take_zero]
        apply List.filter_eq_nil_iff.mpr
        intro b hb
        have := h.2.mem_bounds hb
        simp only [Bool.and_eq_true, decide_eq_true_eq, not_and]
        omega
    · have he : after - lo = after - (lo + 1) + 1 := by omega
      have hn : ¬ after < pos a := by omega
      rw [List.filter_cons_of_neg (by simp [hn]), ih h.2 (by omega), he, List.drop_succ_cons]

end Numbered
