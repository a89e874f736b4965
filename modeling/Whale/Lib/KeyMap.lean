import Mathlib.Data.List.Nodup

/-!
# Finite maps

`KeyMap κ ν`: a finite map as a list of entries in no particular order, with every key once. Lookup is
membership (`get?_eq_some_iff`), and the operations are known by their lookups (`get?_insert`,
`get?_erase`, `get?_filter`, `get?_mapValues`).
-/

/-- A map from `κ` to `ν` as its entries. -/
structure KeyMap (κ ν : Type) where
  entries : List (κ × ν)
  nodup : (entries.map (·.1)).Nodup

namespace KeyMap

variable {κ ν : Type}

/-- The empty map. -/
def empty : KeyMap κ ν := ⟨[], .nil⟩

/-- The entries that satisfy a predicate. -/
def filter (m : KeyMap κ ν) (p : κ × ν → Bool) : KeyMap κ ν :=
  ⟨m.entries.filter p, (List.filter_sublist.map _).nodup m.nodup⟩

/-- The map with every value changed. -/
def mapValues (m : KeyMap κ ν) (f : κ → ν → ν) : KeyMap κ ν where
  entries := m.entries.map fun e => (e.1, f e.1 e.2)
  nodup := by
    rw [List.map_map]
    exact m.nodup

variable [DecidableEq κ]

/-- The value at `k`. -/
def get? (m : KeyMap κ ν) (k : κ) : Option ν := (m.entries.find? (·.1 == k)).map (·.2)

/-- The map without `k`. -/
def erase (m : KeyMap κ ν) (k : κ) : KeyMap κ ν := m.filter (·.1 != k)

/-- The map with `v` at `k`. -/
def insert (m : KeyMap κ ν) (k : κ) (v : ν) : KeyMap κ ν where
  entries := (k, v) :: (m.erase k).entries
  nodup := by
    rw [List.map_cons]
    refine List.nodup_cons.mpr ⟨fun h => ?_, (m.erase k).nodup⟩
    obtain ⟨e, he, heq⟩ := List.mem_map.mp h
    simpa [heq] using (List.mem_filter.mp he).2

theorem get?_eq_some_iff {m : KeyMap κ ν} {k : κ} {v : ν} :
    m.get? k = some v ↔ (k, v) ∈ m.entries := by
  obtain ⟨entries, nodup⟩ := m
  unfold get?
  simp only
  induction entries with
  | nil => simp
  | cons e es ih =>
    obtain ⟨hnot, hes⟩ := List.nodup_cons.mp nodup
    rw [List.find?_cons, List.mem_cons]
    by_cases he : e.1 = k
    · -- the key of the first entry is nowhere else
      have hne : (k, v) ∉ es := by
        intro h
        apply hnot
        show e.1 ∈ _
        rw [he]
        exact List.mem_map_of_mem h
      simp only [he, beq_self_eq_true, Option.map_some, Option.some.injEq, hne, or_false]
      obtain ⟨a, b⟩ := e
      simp only at he
      subst he
      simp [eq_comm]
    · have hne : (k, v) ≠ e := fun h => he (h ▸ rfl)
      rw [show (e.1 == k) = false by simpa using he]
      simp only [hne, false_or]
      exact ih hes

theorem get?_isSome_iff {m : KeyMap κ ν} {k : κ} :
    (m.get? k).isSome = true ↔ k ∈ m.entries.map (·.1) := by
  rw [Option.isSome_iff_exists]
  simp only [get?_eq_some_iff, List.mem_map, Prod.exists, exists_and_right, exists_eq_right]

@[simp] theorem get?_empty (k : κ) : (empty : KeyMap κ ν).get? k = none := rfl

theorem get?_filter {m : KeyMap κ ν} {p : κ × ν → Bool} {k : κ} {v : ν} :
    (m.filter p).get? k = some v ↔ m.get? k = some v ∧ p (k, v) = true := by
  rw [get?_eq_some_iff, get?_eq_some_iff]
  exact List.mem_filter

theorem get?_mapValues {m : KeyMap κ ν} {f : κ → ν → ν} {k : κ} {v : ν} :
    (m.mapValues f).get? k = some v ↔ ∃ u, m.get? k = some u ∧ v = f k u := by
  simp only [get?_eq_some_iff]
  show (k, v) ∈ m.entries.map _ ↔ _
  rw [List.mem_map]
  constructor
  · rintro ⟨⟨k', u⟩, hu, he⟩
    obtain ⟨rfl, rfl⟩ := Prod.mk.inj he
    exact ⟨u, hu, rfl⟩
  · rintro ⟨u, hu, rfl⟩
    exact ⟨(k, u), hu, rfl⟩

theorem get?_erase {m : KeyMap κ ν} {k k' : κ} {v : ν} :
    (m.erase k).get? k' = some v ↔ m.get? k' = some v ∧ k' ≠ k := by
  rw [erase, get?_filter]
  simp

theorem get?_insert {m : KeyMap κ ν} {k k' : κ} {v w : ν} :
    (m.insert k v).get? k' = some w ↔ (k' = k ∧ w = v) ∨ (m.get? k' = some w ∧ k' ≠ k) := by
  rw [← get?_erase, get?_eq_some_iff, get?_eq_some_iff]
  show (k', w) ∈ (k, v) :: (m.erase k).entries ↔ _
  rw [List.mem_cons, Prod.mk.injEq]

theorem get?_erase_self {m : KeyMap κ ν} {k : κ} : (m.erase k).get? k = none := by
  cases h : (m.erase k).get? k with
  | none => rfl
  | some v => exact absurd rfl (get?_erase.mp h).2

theorem get?_erase_ne {m : KeyMap κ ν} {k k' : κ} (h : k' ≠ k) : (m.erase k).get? k' = m.get? k' := by
  apply Option.ext
  intro v
  rw [get?_erase]
  simp [h]

theorem get?_insert_self {m : KeyMap κ ν} {k : κ} {v : ν} : (m.insert k v).get? k = some v :=
  get?_insert.mpr (.inl ⟨rfl, rfl⟩)

theorem get?_insert_ne {m : KeyMap κ ν} {k k' : κ} {v : ν} (h : k' ≠ k) :
    (m.insert k v).get? k' = m.get? k' := by
  apply Option.ext
  intro w
  rw [get?_insert]
  simp [h]

/-! ## Lookups as functions of the key -/

theorem get?_insert_eq (m : KeyMap κ ν) (k k' : κ) (v : ν) :
    (m.insert k v).get? k' = if k' = k then some v else m.get? k' := by
  split
  · next h => rw [h, get?_insert_self]
  · next h => rw [get?_insert_ne h]

theorem get?_erase_eq (m : KeyMap κ ν) (k k' : κ) :
    (m.erase k).get? k' = if k' = k then none else m.get? k' := by
  split
  · next h => rw [h, get?_erase_self]
  · next h => rw [get?_erase_ne h]

theorem get?_filter_eq (m : KeyMap κ ν) (p : κ × ν → Bool) (k : κ) :
    (m.filter p).get? k = (m.get? k).filter fun v => p (k, v) := by
  apply Option.ext
  intro v
  rw [get?_filter, Option.filter_eq_some_iff]

end KeyMap
