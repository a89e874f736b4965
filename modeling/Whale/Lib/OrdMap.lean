import Mathlib.Order.Lattice
import Mathlib.Data.List.Pairwise

/-!
# Ordered finite maps

`OrdMap κ ν`: a finite map kept as its entry list in strictly increasing key order, the shape in
which an ordered tree map iterates. The order is a field, so two maps with the same entries are
equal and a key occurs once. The facts the developments use are

* `get?_eq_some_iff` (lookup is membership), `get?_insert`, `mem_insert`;
* `split_of_get?`, `split_of_none`: the entry list around a present or an absent key, and what
  `insert` does to it. Facts about sums over all values (`flatMap`, `Nodup`) go through these;
* `get?_erase`, `mem_between`, `between_split`, `le_lastKey`: removal, the entries between two keys and the
  greatest key.
-/

/-- A map from `κ` to `ν` as its entries in increasing key order. -/
structure OrdMap (κ ν : Type) [LinearOrder κ] where
  entries : List (κ × ν)
  sorted : entries.Pairwise fun a b => a.1 < b.1

namespace OrdMap

variable {κ ν : Type} [LinearOrder κ]

instance [DecidableEq ν] : DecidableEq (OrdMap κ ν) := fun a b =>
  decidable_of_iff (a.entries = b.entries) ⟨fun h => by cases a; cases b; cases h; rfl, fun h => h ▸ rfl⟩

theorem ext_entries {a b : OrdMap κ ν} (h : a.entries = b.entries) : a = b := by
  cases a; cases b; cases h; rfl

/-! ## Operations -/

/-- The empty map. -/
def empty : OrdMap κ ν := ⟨[], .nil⟩

/-- The values in key order. -/
def values (m : OrdMap κ ν) : List ν := m.entries.map (·.2)

/-- The keys in order. -/
def keys (m : OrdMap κ ν) : List κ := m.entries.map (·.1)

/-- The value at the first entry with key `k`. -/
def lookup (k : κ) : List (κ × ν) → Option ν
  | [] => none
  | e :: es => if e.1 = k then some e.2 else lookup k es

/-- The value at `k`. -/
def get? (m : OrdMap κ ν) (k : κ) : Option ν := lookup k m.entries

/-- Ordered insertion into an entry list, replacing an entry with the same key. -/
def insertEntry (k : κ) (v : ν) : List (κ × ν) → List (κ × ν)
  | [] => [(k, v)]
  | e :: es =>
    if k < e.1 then (k, v) :: e :: es
    else if e.1 < k then e :: insertEntry k v es
    else (k, v) :: es

theorem mem_insertEntry {k : κ} {v : ν} {e : κ × ν} :
    ∀ {es : List (κ × ν)}, e ∈ insertEntry k v es → e = (k, v) ∨ e ∈ es
  | [], h => by simpa [insertEntry] using h
  | d :: es, h => by
    simp only [insertEntry] at h
    split at h
    · simpa using h
    · split at h
      · rcases List.mem_cons.1 h with rfl | h
        · simp
        · rcases mem_insertEntry h with rfl | h <;> simp [*]
      · rcases List.mem_cons.1 h with rfl | h <;> simp [*]

theorem sorted_insertEntry {k : κ} {v : ν} : ∀ {es : List (κ × ν)},
    es.Pairwise (fun a b => a.1 < b.1) → (insertEntry k v es).Pairwise fun a b => a.1 < b.1
  | [], _ => by simp [insertEntry]
  | d :: es, h => by
    obtain ⟨hd, hes⟩ := List.pairwise_cons.1 h
    simp only [insertEntry]
    split
    · rename_i hk
      refine List.pairwise_cons.2 ⟨fun e he => ?_, h⟩
      rcases List.mem_cons.1 he with rfl | he
      · exact hk
      · exact lt_trans hk (hd e he)
    · split
      · rename_i hk
        refine List.pairwise_cons.2 ⟨fun e he => ?_, sorted_insertEntry hes⟩
        rcases mem_insertEntry he with rfl | he
        · exact hk
        · exact hd e he
      · rename_i h1 h2
        have hk : k = d.1 := le_antisymm (not_lt.1 h2) (not_lt.1 h1)
        exact List.pairwise_cons.2 ⟨fun e he => hk ▸ hd e he, hes⟩

/-- Behind smaller keys, an insertion goes on. -/
theorem insertEntry_append {k : κ} {v : ν} : ∀ {l r : List (κ × ν)}, (∀ e ∈ l, e.1 < k) →
    insertEntry k v (l ++ r) = l ++ insertEntry k v r
  | [], _, _ => rfl
  | d :: l, r, h => by
    obtain ⟨hd, hl⟩ := List.forall_mem_cons.mp h
    rw [List.cons_append, insertEntry, if_neg (not_lt.mpr hd.le), if_pos hd, insertEntry_append hl,
      List.cons_append]

/-- The last of two insertions under one key stays. -/
theorem insertEntry_twice (k : κ) (v w : ν) : ∀ es : List (κ × ν),
    insertEntry k w (insertEntry k v es) = insertEntry k w es
  | [] => by simp [insertEntry]
  | d :: es => by
    have ih := insertEntry_twice k v w es
    simp only [insertEntry]
    split
    · simp [insertEntry]
    · split
      · rename_i h
        simp only [insertEntry, if_neg (not_lt.mpr (le_of_lt h)), if_pos h, ih]
      · simp [insertEntry]

/-- The map with `v` at `k`. -/
def insert (m : OrdMap κ ν) (k : κ) (v : ν) : OrdMap κ ν :=
  ⟨insertEntry k v m.entries, sorted_insertEntry m.sorted⟩

/-! ## The entry list around a key -/

theorem lookup_eq_some {k : κ} {v : ν} {es : List (κ × ν)} (h : lookup k es = some v) :
    (k, v) ∈ es := by
  induction es with
  | nil => simp [lookup] at h
  | cons e es ih =>
    simp only [lookup] at h
    split at h
    · rename_i he
      obtain rfl : e.2 = v := by simpa using h
      subst he
      exact List.mem_cons_self
    · exact List.mem_cons_of_mem _ (ih h)

theorem lookup_eq_none {k : κ} {es : List (κ × ν)} :
    lookup k es = none ↔ ∀ e ∈ es, e.1 ≠ k := by
  induction es with
  | nil => simp [lookup]
  | cons e es ih =>
    simp only [lookup]
    split
    · rename_i he; simp [he]
    · rename_i he; simp [he, ih]

/-- Around a present key the entries are smaller, then the entry, then larger. -/
theorem split_of_mem {k : κ} {v : ν} : ∀ {es : List (κ × ν)},
    es.Pairwise (fun a b => a.1 < b.1) → (k, v) ∈ es →
    ∃ l r, es = l ++ (k, v) :: r ∧ (∀ e ∈ l, e.1 < k) ∧ (∀ e ∈ r, k < e.1) ∧
      ∀ w, insertEntry k w es = l ++ (k, w) :: r
  | [], _, h => by simp at h
  | d :: es, hs, h => by
    obtain ⟨hd, hes⟩ := List.pairwise_cons.1 hs
    rcases List.mem_cons.1 h with rfl | h
    · exact ⟨[], es, rfl, by simp, hd, fun w => by simp [insertEntry]⟩
    · obtain ⟨l, r, rfl, hl, hr, hi⟩ := split_of_mem hes h
      have hdk : d.1 < k := hd (k, v) h
      refine ⟨d :: l, r, rfl, ?_, hr, fun w => ?_⟩
      · intro e he
        rcases List.mem_cons.1 he with rfl | he
        · exact hdk
        · exact hl e he
      · simp [insertEntry, not_lt.2 hdk.le, hdk, hi w]

theorem split_of_get? {m : OrdMap κ ν} {k : κ} {v : ν} (h : m.get? k = some v) :
    ∃ l r, m.entries = l ++ (k, v) :: r ∧ (∀ e ∈ l, e.1 < k) ∧ (∀ e ∈ r, k < e.1) ∧
      ∀ w, (m.insert k w).entries = l ++ (k, w) :: r :=
  split_of_mem m.sorted (lookup_eq_some h)

/-- Around an absent key the entries are smaller, then larger; `insert` puts the entry between. -/
theorem split_of_absent {k : κ} : ∀ {es : List (κ × ν)},
    es.Pairwise (fun a b => a.1 < b.1) → (∀ e ∈ es, e.1 ≠ k) →
    ∃ l r, es = l ++ r ∧ (∀ e ∈ l, e.1 < k) ∧ (∀ e ∈ r, k < e.1) ∧
      ∀ w, insertEntry k w es = l ++ (k, w) :: r
  | [], _, _ => ⟨[], [], rfl, by simp, by simp, fun w => by simp [insertEntry]⟩
  | d :: es, hs, h => by
    obtain ⟨hd, hes⟩ := List.pairwise_cons.1 hs
    rcases lt_or_gt_of_ne (h d List.mem_cons_self) with hk | hk
    · obtain ⟨l, r, rfl, hl, hr, hi⟩ :=
        split_of_absent hes fun e he => h e (List.mem_cons_of_mem _ he)
      refine ⟨d :: l, r, rfl, ?_, hr, fun w => by simp [insertEntry, not_lt.2 hk.le, hk, hi w]⟩
      intro e he
      rcases List.mem_cons.1 he with rfl | he
      · exact hk
      · exact hl e he
    · refine ⟨[], d :: es, rfl, by simp, ?_, fun w => by simp [insertEntry, hk]⟩
      intro e he
      rcases List.mem_cons.1 he with rfl | he
      · exact hk
      · exact lt_trans hk (hd e he)

theorem split_of_none {m : OrdMap κ ν} {k : κ} (h : m.get? k = none) :
    ∃ l r, m.entries = l ++ r ∧ (∀ e ∈ l, e.1 < k) ∧ (∀ e ∈ r, k < e.1) ∧
      ∀ w, (m.insert k w).entries = l ++ (k, w) :: r :=
  split_of_absent m.sorted (lookup_eq_none.1 h)

/-- The values after an insertion under a new key. -/
theorem values_insert_of_none {m : OrdMap κ ν} {k : κ} (h : m.get? k = none) (v : ν) :
    (m.insert k v).values.Perm (v :: m.values) := by
  obtain ⟨l, r, he, -, -, hi⟩ := split_of_none h
  rw [values, values, hi, he, List.map_append, List.map_append, List.map_cons]
  exact List.perm_middle

/-- The value under a key among the values, and what takes its place. -/
theorem values_insert_of_some {m : OrdMap κ ν} {k : κ} {v : ν} (h : m.get? k = some v) :
    ∃ rest, m.values.Perm (v :: rest) ∧ ∀ w, (m.insert k w).values.Perm (w :: rest) := by
  obtain ⟨l, r, he, -, -, hi⟩ := split_of_get? h
  refine ⟨l.map (·.2) ++ r.map (·.2), ?_, fun w => ?_⟩
  · rw [values, he, List.map_append, List.map_cons]
    exact List.perm_middle
  · rw [values, hi, List.map_append, List.map_cons]
    exact List.perm_middle

/-! ## Lookup -/

theorem get?_eq_some_iff {m : OrdMap κ ν} {k : κ} {v : ν} :
    m.get? k = some v ↔ (k, v) ∈ m.entries := by
  refine ⟨lookup_eq_some, fun h => ?_⟩
  cases hg : m.get? k with
  | none => exact absurd rfl (lookup_eq_none.1 hg _ h)
  | some w =>
    obtain ⟨l, r, he, hl, hr, -⟩ := split_of_get? hg
    rw [he, List.mem_append, List.mem_cons] at h
    rcases h with h | h | h
    · exact absurd (hl _ h) (lt_irrefl _)
    · simpa using h.symm
    · exact absurd (hr _ h) (lt_irrefl _)

theorem mem_values_iff {m : OrdMap κ ν} {v : ν} : v ∈ m.values ↔ ∃ k, m.get? k = some v := by
  simp [values, get?_eq_some_iff]

theorem mem_values {m : OrdMap κ ν} {k : κ} {v : ν} (h : m.get? k = some v) : v ∈ m.values :=
  mem_values_iff.2 ⟨k, h⟩

@[simp] theorem get?_empty (k : κ) : (empty : OrdMap κ ν).get? k = none := rfl

@[simp] theorem entries_empty : (empty : OrdMap κ ν).entries = [] := rfl

@[simp] theorem values_empty : (empty : OrdMap κ ν).values = [] := rfl

theorem lookup_insertEntry (k k' : κ) (v : ν) : ∀ es : List (κ × ν),
    lookup k' (insertEntry k v es) = if k = k' then some v else lookup k' es
  | [] => by simp [insertEntry, lookup]
  | d :: es => by
    simp only [insertEntry]
    split
    · simp [lookup]
    · split
      · rename_i h
        simp only [lookup, lookup_insertEntry k k' v es]
        split
        · rename_i hd; simp [← hd, (ne_of_lt h).symm]
        · rfl
      · rename_i h1 h2
        have hk : k = d.1 := le_antisymm (not_lt.1 h2) (not_lt.1 h1)
        subst hk
        simp only [lookup]
        split <;> simp [*]

theorem get?_insert (m : OrdMap κ ν) (k k' : κ) (v : ν) :
    (m.insert k v).get? k' = if k = k' then some v else m.get? k' :=
  lookup_insertEntry k k' v m.entries

@[simp] theorem get?_insert_self (m : OrdMap κ ν) (k : κ) (v : ν) :
    (m.insert k v).get? k = some v := by simp [get?_insert]

theorem get?_insert_ne (m : OrdMap κ ν) {k k' : κ} (v : ν) (h : k ≠ k') :
    (m.insert k v).get? k' = m.get? k' := by simp [get?_insert, h]

theorem nodup_keys (m : OrdMap κ ν) : m.keys.Nodup :=
  List.pairwise_map.mpr (m.sorted.imp fun hlt => hlt.ne)

/-- The values are found under the keys. -/
theorem map_get?_keys (m : OrdMap κ ν) : m.keys.map m.get? = m.values.map some := by
  rw [keys, values, List.map_map, List.map_map]
  exact List.map_congr_left fun e he => get?_eq_some_iff.mpr he

/-- Two maps with the same lookups are equal. -/
theorem ext_get? {a b : OrdMap κ ν} (h : ∀ k, a.get? k = b.get? k) : a = b := by
  apply ext_entries
  have hmem : ∀ e, e ∈ a.entries ↔ e ∈ b.entries := fun e => by
    rw [show e = (e.1, e.2) from rfl, ← get?_eq_some_iff, ← get?_eq_some_iff, h]
  have hn : ∀ m : OrdMap κ ν, m.entries.Nodup := fun m =>
    m.sorted.imp fun hlt he => absurd (he ▸ hlt) (lt_irrefl _)
  exact ((List.perm_ext_iff_of_nodup (hn a) (hn b)).2 hmem).eq_of_pairwise
    (fun _ _ _ _ h1 h2 => absurd (lt_trans h1 h2) (lt_irrefl _)) a.sorted b.sorted

/-! ## Maps of values -/

/-- The map with `f` applied to every value. -/
def mapValues {μ : Type} (m : OrdMap κ ν) (f : ν → μ) : OrdMap κ μ :=
  ⟨m.entries.map fun e => (e.1, f e.2), List.pairwise_map.mpr m.sorted⟩

theorem lookup_mapValues {μ : Type} (f : ν → μ) (k : κ) : ∀ es : List (κ × ν),
    lookup k (es.map fun e => (e.1, f e.2)) = (lookup k es).map f
  | [] => rfl
  | e :: es => by
    simp only [List.map_cons, lookup]
    split
    · rfl
    · exact lookup_mapValues f k es

@[simp] theorem get?_mapValues {μ : Type} (m : OrdMap κ ν) (f : ν → μ) (k : κ) :
    (m.mapValues f).get? k = (m.get? k).map f := lookup_mapValues f k m.entries

@[simp] theorem values_mapValues {μ : Type} (m : OrdMap κ ν) (f : ν → μ) :
    (m.mapValues f).values = m.values.map f := by
  simp [values, mapValues]

theorem insert_mapValues {μ : Type} (m : OrdMap κ ν) (f : ν → μ) (k : κ) (v : ν) :
    (m.insert k v).mapValues f = (m.mapValues f).insert k (f v) := by
  apply ext_get?
  intro k'
  rw [get?_mapValues, get?_insert, get?_insert, get?_mapValues]
  split <;> rfl

/-- Replacing a value by itself. -/
theorem insert_get? {m : OrdMap κ ν} {k : κ} {v : ν} (h : m.get? k = some v) :
    m.insert k v = m := by
  apply ext_get?
  intro k'
  rw [get?_insert]
  split
  · rename_i hk; rw [← hk, h]
  · rfl

/-! ## Removal and segments -/

/-- The map without `k`. -/
def erase (m : OrdMap κ ν) (k : κ) : OrdMap κ ν :=
  ⟨m.entries.filter fun e => decide (e.1 ≠ k), m.sorted.filter _⟩

theorem get?_erase (m : OrdMap κ ν) (k k' : κ) :
    (m.erase k).get? k' = if k = k' then none else m.get? k' := by
  apply Option.ext
  intro v
  rw [get?_eq_some_iff, erase, List.mem_filter]
  split
  · rename_i hk
    simp [hk]
  · rename_i hk
    simp [get?_eq_some_iff, Ne.symm hk]

theorem get?_erase_ne (m : OrdMap κ ν) {k k' : κ} (h : k ≠ k') : (m.erase k).get? k' = m.get? k' := by
  rw [get?_erase, if_neg h]

/-- An insertion takes the place of the entry with its key. -/
theorem values_insert (m : OrdMap κ ν) (k : κ) (v : ν) :
    (m.insert k v).values.Perm (v :: (m.erase k).values) := by
  obtain ⟨l, r, herase, hinsert⟩ : ∃ l r, (m.erase k).entries = l ++ r ∧
      (m.insert k v).entries = l ++ (k, v) :: r := by
    have hkeep : ∀ es : List (κ × ν), (∀ e ∈ es, e.1 ≠ k) →
        es.filter (fun e => decide (e.1 ≠ k)) = es :=
      fun es hes => List.filter_eq_self.mpr fun e he => decide_eq_true (hes e he)
    cases hget : m.get? k with
    | none =>
      obtain ⟨l, r, he, hl, hr, hi⟩ := split_of_none hget
      refine ⟨l, r, ?_, hi v⟩
      show m.entries.filter _ = _
      rw [he, List.filter_append, hkeep l fun e he => (hl e he).ne, hkeep r fun e he => (hr e he).ne']
    | some w =>
      obtain ⟨l, r, he, hl, hr, hi⟩ := split_of_get? hget
      refine ⟨l, r, ?_, hi v⟩
      show m.entries.filter _ = _
      rw [he, List.filter_append, List.filter_cons_of_neg (by simp), hkeep l fun e he => (hl e he).ne,
        hkeep r fun e he => (hr e he).ne']
  rw [values, values, hinsert, herase, List.map_append, List.map_append, List.map_cons]
  exact List.perm_middle

/-- The entries after one key, up to another. -/
def between (m : OrdMap κ ν) (lo hi : κ) : List (κ × ν) :=
  m.entries.filter fun e => decide (lo < e.1) && decide (e.1 ≤ hi)

theorem mem_between {m : OrdMap κ ν} {lo hi : κ} {e : κ × ν} :
    e ∈ m.between lo hi ↔ m.get? e.1 = some e.2 ∧ lo < e.1 ∧ e.1 ≤ hi := by
  rw [between, List.mem_filter, get?_eq_some_iff]
  simp

theorem sorted_between (m : OrdMap κ ν) (lo hi : κ) :
    (m.between lo hi).Pairwise fun a b => a.1 < b.1 := m.sorted.filter _

/-- Behind one of its entries, a segment goes on from that entry's key. -/
theorem between_split {m : OrdMap κ ν} {lo hi : κ} {l r : List (κ × ν)} {e : κ × ν}
    (h : m.between lo hi = l ++ e :: r) : m.between e.1 hi = r := by
  have hsorted := m.sorted_between lo hi
  rw [h] at hsorted
  obtain ⟨-, hright, hleft⟩ := List.pairwise_append.mp hsorted
  have hlo : lo < e.1 := by
    have he : e ∈ m.between lo hi := by
      rw [h]
      exact List.mem_append_right _ List.mem_cons_self
    exact (mem_between.mp he).2.1
  -- from a greater key, a segment is the part of it behind that key
  have hpart : m.between e.1 hi = (m.between lo hi).filter fun d => decide (e.1 < d.1) := by
    rw [between, between, List.filter_filter]
    refine List.filter_congr fun d _ => ?_
    by_cases hd : e.1 < d.1
    · simp [hd, lt_trans hlo hd]
    · simp [hd]
  rw [hpart, h, List.filter_append, List.filter_cons_of_neg (by simp)]
  have hnone : l.filter (fun d => decide (e.1 < d.1)) = [] := List.filter_eq_nil_iff.mpr fun d hd hlt =>
    absurd (lt_trans (hleft d hd e List.mem_cons_self) (of_decide_eq_true hlt)) (lt_irrefl _)
  rw [hnone, List.nil_append]
  exact List.filter_eq_self.mpr fun d hd => decide_eq_true ((List.pairwise_cons.mp hright).1 d hd)

/-- A segment that reaches over all keys is the whole map. -/
theorem between_all {m : OrdMap κ ν} {lo hi : κ} (h : ∀ k v, m.get? k = some v → lo < k ∧ k ≤ hi) :
    m.between lo hi = m.entries :=
  List.filter_eq_self.mpr fun e he => by
    obtain ⟨hlo, hhi⟩ := h e.1 e.2 (get?_eq_some_iff.mpr he)
    simp [hlo, hhi]

/-- Maps with the same entries in a range have the same segment there. -/
theorem between_congr {m m' : OrdMap κ ν} {lo hi : κ}
    (h : ∀ k v, lo < k → k ≤ hi → (m.get? k = some v ↔ m'.get? k = some v)) :
    m.between lo hi = m'.between lo hi := by
  have hmem : ∀ e, e ∈ m.between lo hi ↔ e ∈ m'.between lo hi := fun e => by
    rw [mem_between, mem_between]
    exact ⟨fun ⟨hget, hlo, hhi⟩ => ⟨(h _ _ hlo hhi).mp hget, hlo, hhi⟩,
      fun ⟨hget, hlo, hhi⟩ => ⟨(h _ _ hlo hhi).mpr hget, hlo, hhi⟩⟩
  have hn : ∀ m : OrdMap κ ν, (m.between lo hi).Nodup := fun m =>
    (m.sorted_between lo hi).imp fun hlt he => absurd (he ▸ hlt) (lt_irrefl _)
  exact ((List.perm_ext_iff_of_nodup (hn m) (hn m')).mpr hmem).eq_of_pairwise
    (fun _ _ _ _ h1 h2 => absurd (lt_trans h1 h2) (lt_irrefl _)) (m.sorted_between lo hi)
    (m'.sorted_between lo hi)

/-- The greatest key. -/
def lastKey (m : OrdMap κ ν) : Option κ := m.entries.getLast?.map (·.1)

/-- No key is greater than the greatest. -/
theorem le_lastKey {m : OrdMap κ ν} {k : κ} {v : ν} (h : m.get? k = some v) :
    ∃ l, m.lastKey = some l ∧ k ≤ l := by
  rw [get?_eq_some_iff] at h
  cases hl : m.entries.getLast? with
  | none =>
    rw [List.getLast?_eq_none_iff.mp hl] at h
    cases h
  | some e =>
    refine ⟨e.1, by rw [lastKey, hl]; rfl, ?_⟩
    obtain ⟨es, hes⟩ := List.getLast?_eq_some_iff.mp hl
    have hsorted := m.sorted
    rw [hes] at h hsorted
    rcases List.mem_append.mp h with h | h
    · exact le_of_lt ((List.pairwise_append.mp hsorted).2.2 _ h _ List.mem_cons_self)
    · rw [← List.mem_singleton.mp h]

end OrdMap
