import Mathlib.Data.List.Basic

/-!
# Greedy scans

`scan` goes once through a list and takes an element when it has to go or while what has been taken
so far is too little. When the elements that have to go come first in the list, it takes the least
prefix that contains all of them and is not too little, or everything (`scan_least`).
-/

namespace Greedy

variable {α : Type} (must : α → Bool) (short : List α → Bool)

/-- The elements taken after those of `done`. -/
def scan : List α → List α → List α
  | done, [] => done
  | done, a :: as => if must a || short done then scan (done ++ [a]) as else scan done as

/-- The first `k` elements contain those that have to go, and are not too little or all there is. -/
structure Enough (l : List α) (k : Nat) : Prop where
  must : ∀ a ∈ l.drop k, must a = false
  short : short (l.take k) = false ∨ l.length ≤ k

/-- `k` is the least number of elements that is enough. -/
structure Least (l : List α) (k : Nat) : Prop where
  le : k ≤ l.length
  enough : Enough must short l k
  least : ∀ m, m < k → ¬ Enough must short l m

variable {must short}

/-- Nothing is taken once nothing has to go and enough has been taken. -/
theorem scan_stop {done : List α} (hshort : short done = false) : ∀ {rest : List α},
    (∀ a ∈ rest, must a = false) → scan must short done rest = done
  | [], _ => rfl
  | a :: rest, h => by
    have ha : (must a || short done) = false := by simp [h a List.mem_cons_self, hshort]
    rw [scan, if_neg (by simp [ha])]
    exact scan_stop hshort fun b hb => h b (List.mem_cons_of_mem _ hb)

/-- What a scan takes of the rest of the list: `k` elements, each of which had to go or was needed. -/
theorem scan_take {done : List α} : ∀ {rest : List α},
    (rest.Pairwise fun a b => must b = true → must a = true) →
    ∃ k, k ≤ rest.length ∧ scan must short done rest = done ++ rest.take k ∧
      (∀ a ∈ rest.drop k, must a = false) ∧
      (short (done ++ rest.take k) = false ∨ rest.length ≤ k) ∧
      ∀ m, m < k → (∃ a ∈ rest.drop m, must a = true) ∨ short (done ++ rest.take m) = true
  | [], _ => ⟨0, Nat.le_refl _, by simp [scan], by simp, .inr (Nat.le_refl _), fun m hm => by omega⟩
  | a :: rest, h => by
    obtain ⟨hfirst, hrest⟩ := List.pairwise_cons.1 h
    cases ha : must a || short done with
    | true =>
      obtain ⟨k, hk, hscan, hmust, hshort, hneeded⟩ := @scan_take (done ++ [a]) rest hrest
      have happend : ∀ m, done ++ (a :: rest).take (m + 1) = (done ++ [a]) ++ rest.take m :=
        fun m => by simp
      refine ⟨k + 1, by simpa using hk, ?_, hmust, ?_, fun m hm => ?_⟩
      · rw [scan, if_pos (by simp [ha]), hscan, happend]
      · rw [happend]
        exact hshort.imp id fun h => by simpa using h
      · cases m with
        | zero =>
          rcases Bool.or_eq_true _ _ ▸ ha with h | h
          · exact .inl ⟨a, by simp, h⟩
          · exact .inr (by simpa using h)
        | succ m =>
          rw [happend]
          exact hneeded m (by omega)
    | false =>
      obtain ⟨hamust, hdone⟩ := Bool.or_eq_false_iff.1 ha
      -- nothing after `a` has to go, or `a` would
      have hnone : ∀ b ∈ a :: rest, must b = false := fun b hb => by
        rcases List.mem_cons.1 hb with rfl | hb
        · exact hamust
        · cases hb' : must b with
          | false => rfl
          | true => rw [hfirst b hb hb'] at hamust; cases hamust
      refine ⟨0, Nat.zero_le _, ?_, hnone, .inl (by simpa using hdone), fun m hm => by omega⟩
      rw [scan_stop hdone hnone, List.take_zero, List.append_nil]

/-- A scan takes the least prefix that is enough. -/
theorem scan_least {l : List α} (h : l.Pairwise fun a b => must b = true → must a = true) :
    ∃ k, Least must short l k ∧ scan must short [] l = l.take k := by
  obtain ⟨k, hk, hscan, hmust, hshort, hneeded⟩ := @scan_take _ must short [] l h
  refine ⟨k, ⟨hk, ⟨hmust, hshort⟩, fun m hm henough => ?_⟩, hscan⟩
  rcases hneeded m hm with ⟨a, ha, hmust⟩ | hshort
  · rw [henough.must a ha] at hmust
    cases hmust
  · rcases henough.short with h | h
    · rw [List.nil_append, h] at hshort
      cases hshort
    · omega

end Greedy
