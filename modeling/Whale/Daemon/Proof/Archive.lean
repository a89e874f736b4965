import Whale.Daemon.History
import Whale.Lib.Run
import Whale.Protocol.Proof.History

/-!
# The archive takes new items

`HistoryArchive.Archives`: the counters of an archive agree with what it retains, and it retains items of
the history only. Items with nonblank ids that are not in the history are appended (`Archives.append`).
-/

namespace Whale

open Check SessionHistoryWindow

namespace HistoryArchive

theorem evict_endIndex {a a' : HistoryArchive} : ∀ {items : List ArchivedItem} {bytes floor : Nat},
    a.evict items bytes floor = .ok a' → a'.endIndex = a.endIndex
  | [], bytes, floor, h => by
    cases h
    rfl
  | i :: is, bytes, floor, h => by
    unfold evict at h
    split at h
    · obtain ⟨floor', -, h⟩ := orElse_bind_ok h
      exact evict_endIndex h
    · cases h
      rfl

variable [EventSerde]

theorem push_endIndex {a a' : HistoryArchive} {item : CanonicalItem} (h : a.push item = .ok a') :
    a'.endIndex = a.endIndex + 1 := by
  obtain ⟨-, h⟩ := refuse_bind_ok h
  obtain ⟨size, -, h⟩ := bind_ok h
  obtain ⟨endIndex, hend, h⟩ := orElse_bind_ok h
  obtain ⟨bytes, -, h⟩ := orElse_bind_ok h
  rw [evict_endIndex h]
  unfold checkedSucc at hend
  split at hend
  · cases hend
    rfl
  · cases hend

theorem append_endIndex {a a' : HistoryArchive} {items : List CanonicalItem}
    (h : a.append items = .ok a') : a'.endIndex = a.endIndex + items.length := by
  induction items generalizing a with
  | nil =>
    cases h
    rfl
  | cons item items ih =>
    obtain ⟨a₁, hpush, h⟩ := bind_ok h
    rw [ih h, push_endIndex hpush, List.length_cons]
    omega

/-! ## Acceptance -/

/-- What holds of the archive of a history. -/
structure Archives (a : HistoryArchive) (history : List CanonicalItem) : Prop where
  floor : a.floor + a.items.length = a.endIndex
  index : a.endIndex = history.length
  bytes : a.bytes = (a.items.map (·.bytes)).sum
  limit : a.bytes ≤ a.maxBytes ∧ a.maxBytes ≤ maxSessionManagementHistoryBytes
  retained : ∀ i ∈ a.items, i.item.id ∈ ids history

omit [EventSerde] in
/-- Eviction ends within the limits. -/
theorem evict_ok {a : HistoryArchive} (hend : a.endIndex ≤ u64Max) :
    ∀ (items : List ArchivedItem) (bytes floor : Nat), floor + items.length = a.endIndex →
      bytes = (items.map (·.bytes)).sum →
    ∃ a', a.evict items bytes floor = .ok a' ∧ a'.floor + a'.items.length = a'.endIndex ∧
      a'.bytes = (a'.items.map (·.bytes)).sum ∧ a'.bytes ≤ a'.maxBytes ∧ a'.maxBytes = a.maxBytes ∧
      ∀ i ∈ a'.items, i ∈ items
  | [], bytes, floor, hfloor, hbytes => by
    refine ⟨_, rfl, hfloor, hbytes, ?_, rfl, fun i hi => hi⟩
    show bytes ≤ a.maxBytes
    rw [hbytes]
    exact Nat.zero_le _
  | i :: is, bytes, floor, hfloor, hbytes => by
    rw [List.length_cons] at hfloor
    rw [List.map_cons, List.sum_cons] at hbytes
    unfold evict
    by_cases hover : a.maxItems < (i :: is).length ∨ a.maxBytes < bytes
    · rw [if_pos hover]
      unfold checkedSucc
      rw [if_pos (by omega), orElse_some, ok_bind]
      obtain ⟨a', h, h1, h2, h3, h4, h5⟩ :=
        evict_ok hend is (bytes - i.bytes) (floor + 1) (by omega) (by omega)
      exact ⟨a', h, h1, h2, h3, h4, fun j hj => List.mem_cons_of_mem _ (h5 j hj)⟩
    · rw [if_neg hover]
      rw [not_or] at hover
      exact ⟨_, rfl, hfloor, hbytes, Nat.not_lt.mp hover.2, rfl, fun j hj => hj⟩

variable {a : HistoryArchive} {history : List CanonicalItem}

omit [EventSerde] in
/-- The archive with another item, after eviction. -/
theorem Archives.evicted (h : a.Archives history) (item : CanonicalItem) (size : Nat)
    (hlt : a.endIndex < u64Max) :
    ∃ a', ({ a with endIndex := a.endIndex + 1 } : HistoryArchive).evict (a.items ++ [⟨item, size⟩])
        (a.bytes + size) a.floor = .ok a' ∧ a'.Archives (history ++ [item]) := by
  obtain ⟨a', hevict, h1, h2, h3, h4, h5⟩ := evict_ok (a := { a with endIndex := a.endIndex + 1 })
    hlt (a.items ++ [⟨item, size⟩]) (a.bytes + size) a.floor
    (by have := h.floor; simp only [List.length_append, List.length_singleton]; omega)
    (by rw [List.map_append, List.sum_append, ← h.bytes]; rfl)
  refine ⟨a', hevict, h1, ?_, h2, ⟨h3, h4 ▸ h.limit.2⟩, fun i hi => ?_⟩
  · rw [evict_endIndex hevict, List.length_append, ← h.index]
    rfl
  · rw [ids_append, List.mem_append]
    rcases List.mem_append.mp (h5 i hi) with hi | hi
    · exact .inl (h.retained i hi)
    · rw [List.mem_singleton.mp hi]
      exact .inr List.mem_cons_self

/-- A new item is appended. -/
theorem Archives.push (h : a.Archives history) {item : CanonicalItem} (hblank : blank item.id = false)
    (hnew : item.id ∉ ids history) {size : Nat} (hsize : EventSerde.itemBytes item = .ok size)
    (hroom : maxSessionManagementHistoryBytes + size ≤ u64Max) (hlt : a.endIndex < u64Max) :
    ∃ a', a.push item = .ok a' ∧ a'.Archives (history ++ [item]) := by
  have hholds : a.holds item.id = false := by
    rw [holds, List.any_eq_false]
    intro i hi heq
    apply hnew
    rw [← beq_iff_eq.mp heq]
    exact h.retained i hi
  obtain ⟨hlim, hmax⟩ := h.limit
  obtain ⟨a', hevict, ha'⟩ := h.evicted item size hlt
  refine ⟨a', ?_, ha'⟩
  unfold HistoryArchive.push checkedSucc UsageMetrics.checkedAdd64
  rw [hblank, hholds, Bool.or_false, refuse_false, ok_bind, hsize, ok_bind, if_pos hlt, orElse_some,
    ok_bind, if_pos (by omega), orElse_some, ok_bind]
  exact hevict

/-- What an appended item leaves. -/
theorem Archives.push_ok (h : a.Archives history) {item : CanonicalItem} {a' : HistoryArchive}
    (hpush : a.push item = .ok a') : a'.Archives (history ++ [item]) := by
  obtain ⟨-, hpush⟩ := refuse_bind_ok hpush
  obtain ⟨size, -, hpush⟩ := bind_ok hpush
  obtain ⟨endIndex, hend, hpush⟩ := orElse_bind_ok hpush
  obtain ⟨bytes, hbytes, hpush⟩ := orElse_bind_ok hpush
  unfold checkedSucc at hend
  unfold UsageMetrics.checkedAdd64 at hbytes
  split at hend
  · split at hbytes
    · cases hend
      cases hbytes
      obtain ⟨a'', hevict, ha''⟩ := h.evicted item size ‹_›
      rw [hevict] at hpush
      cases hpush
      exact ha''
    · cases hbytes
  · cases hend

theorem Archives.append_ok {items : List CanonicalItem} {a' : HistoryArchive} (h : a.Archives history)
    (happ : a.append items = .ok a') : a'.Archives (history ++ items) := by
  induction items generalizing a history with
  | nil =>
    cases happ
    rwa [List.append_nil]
  | cons item items ih =>
    obtain ⟨a₁, hpush, happ⟩ := bind_ok happ
    have := ih (h.push_ok hpush) happ
    rwa [List.append_assoc, List.singleton_append] at this

/-- New items are appended, one after another. -/
theorem Archives.append (hser : ∀ item, ∃ size, EventSerde.itemBytes item = .ok size ∧
      maxSessionManagementHistoryBytes + size ≤ u64Max) :
    ∀ {items : List CanonicalItem} {a : HistoryArchive} {history : List CanonicalItem},
      a.Archives history → (∀ item ∈ items, blank item.id = false) → (ids (history ++ items)).Nodup →
      history.length + items.length ≤ u64Max →
    ∃ a', a.append items = .ok a' ∧ a'.Archives (history ++ items)
  | [], a, history, h, _, _, _ => ⟨a, rfl, by rwa [List.append_nil]⟩
  | item :: items, a, history, h, hblank, hnodup, hroom => by
    rw [List.length_cons] at hroom
    have hsplit : history ++ item :: items = (history ++ [item]) ++ items := by simp
    have hnew : item.id ∉ ids history := by
      rw [ids_append] at hnodup
      intro hin
      exact (List.nodup_append.mp hnodup).2.2 _ hin _ List.mem_cons_self rfl
    obtain ⟨size, hsize, hfit⟩ := hser item
    have hlt : a.endIndex < u64Max := by
      rw [h.index]
      omega
    obtain ⟨a₁, hpush, h₁⟩ := h.push (hblank item List.mem_cons_self) hnew hsize hfit hlt
    rw [hsplit] at hnodup ⊢
    obtain ⟨a₂, happ, h₂⟩ := Archives.append hser h₁
      (fun i hi => hblank i (List.mem_cons_of_mem _ hi)) hnodup
      (by rw [List.length_append, List.length_singleton]; omega)
    refine ⟨a₂, ?_, h₂⟩
    unfold HistoryArchive.append
    rw [hpush, ok_bind]
    exact happ

omit [EventSerde] in
theorem archives_empty (threadId streamId : String) (configuredMaxBytes : Option Nat) :
    (empty threadId streamId configuredMaxBytes).Archives [] :=
  ⟨rfl, rfl, rfl, ⟨Nat.zero_le _, Nat.min_le_left _ _⟩, by simp [empty]⟩

/-! ## What is retained -/

/-- The archive of a history: its counters, and its items, the last ones of the history. -/
structure Retains (a : HistoryArchive) (history : List CanonicalItem) : Prop where
  floor : a.floor + a.items.length = a.endIndex
  index : a.endIndex = history.length
  items : a.items.map (·.item) = history.drop a.floor
  sizes : ∀ i ∈ a.items, EventSerde.itemBytes i.item = .ok i.bytes
  bytes : a.bytes = (a.items.map (·.bytes)).sum
  limits : a.items.length ≤ a.maxItems ∧ a.bytes ≤ a.maxBytes
  distinct : (a.items.map (·.item.id)).Nodup
  range : a.endIndex ≤ u64Max

omit [EventSerde] in
/-- Eviction drops from the front until the limits are met. -/
theorem evict_drop {a a' : HistoryArchive} : ∀ {items : List ArchivedItem} {bytes floor : Nat},
    a.evict items bytes floor = .ok a' → bytes = (items.map (·.bytes)).sum →
    ∃ k, k ≤ items.length ∧ a' = { a with items := items.drop k, floor := floor + k, bytes := a'.bytes } ∧
      a'.bytes = (a'.items.map (·.bytes)).sum ∧ a'.items.length ≤ a.maxItems ∧ a'.bytes ≤ a.maxBytes
  | [], bytes, floor, h, hbytes => by
    cases h
    refine ⟨0, Nat.le_refl _, rfl, hbytes, Nat.zero_le _, ?_⟩
    show bytes ≤ a.maxBytes
    rw [hbytes]
    exact Nat.zero_le _
  | i :: is, bytes, floor, h, hbytes => by
    unfold evict at h
    split at h
    · obtain ⟨floor', hfloor, h⟩ := orElse_bind_ok h
      rw [List.map_cons, List.sum_cons] at hbytes
      obtain ⟨k, hk, heq, hrest⟩ := evict_drop h (by omega)
      unfold checkedSucc at hfloor
      split at hfloor
      · cases hfloor
        refine ⟨k + 1, Nat.succ_le_succ hk, ?_, hrest⟩
        rw [heq]
        simp only [List.drop_succ_cons, HistoryArchive.mk.injEq, and_true, true_and]
        omega
      · cases hfloor
    · rename_i hover
      rw [not_or] at hover
      cases h
      exact ⟨0, Nat.zero_le _, rfl, hbytes, Nat.not_lt.mp hover.1, Nat.not_lt.mp hover.2⟩

/-- An item that is pushed comes last. -/
theorem Retains.push {item : CanonicalItem} {a' : HistoryArchive} (h : a.Retains history)
    (hpush : a.push item = .ok a') : a'.Retains (history ++ [item]) := by
  obtain ⟨hid, hpush⟩ := refuse_bind_ok hpush
  obtain ⟨size, hsize, hpush⟩ := bind_ok hpush
  obtain ⟨endIndex, hend, hpush⟩ := orElse_bind_ok hpush
  obtain ⟨bytes, hbytes, hpush⟩ := orElse_bind_ok hpush
  have hfloor := h.floor
  have hindex := h.index
  unfold checkedSucc at hend
  unfold UsageMetrics.checkedAdd64 at hbytes
  split at hend
  · split at hbytes
    · rename_i hroom _
      cases hend
      cases hbytes
      obtain ⟨k, hk, heq, hsum, hcount, hlimit⟩ := evict_drop hpush (by
        rw [List.map_append, List.sum_append, ← h.bytes]
        rfl)
      rw [List.length_append, List.length_singleton] at hk
      rw [heq] at hsum hcount hlimit ⊢
      refine ⟨?_, ?_, ?_, fun i hi => ?_, hsum, ⟨hcount, hlimit⟩, ?_, hroom⟩
      · simp only [List.length_drop, List.length_append, List.length_singleton]
        omega
      · simp only [List.length_append, List.length_singleton]
        omega
      · simp only [List.map_drop, List.map_append, h.items, List.map_singleton]
        have hdrop : (history ++ [item]).drop (a.floor + k) = ((history ++ [item]).drop a.floor).drop k := by
          rw [List.drop_drop]
        have hlast : (history ++ [item]).drop a.floor = history.drop a.floor ++ [item] :=
          List.drop_append_of_le_length (by omega)
        rw [hdrop, hlast]
      · rcases List.mem_append.mp (List.mem_of_mem_drop hi) with hi | hi
        · exact h.sizes i hi
        · rw [List.mem_singleton.mp hi]
          exact hsize
      · rw [List.map_drop]
        refine List.Nodup.sublist (List.drop_sublist _ _) ?_
        rw [List.map_append, List.nodup_append]
        refine ⟨h.distinct, List.pairwise_singleton _ _, fun x hx y hy heq => ?_⟩
        rw [heq, List.mem_singleton.mp hy] at hx
        obtain ⟨i, hi, hsame⟩ := List.mem_map.mp hx
        rw [Bool.or_eq_false_iff, holds, List.any_eq_false] at hid
        exact hid.2 i hi (beq_iff_eq.mpr hsame)
    · cases hbytes
  · cases hend

theorem Retains.append {items : List CanonicalItem} {a' : HistoryArchive} (h : a.Retains history)
    (happ : a.append items = .ok a') : a'.Retains (history ++ items) := by
  induction items generalizing a history with
  | nil =>
    cases happ
    rwa [List.append_nil]
  | cons item items ih =>
    obtain ⟨a₁, hpush, happ⟩ := bind_ok happ
    have hrest := ih (h.push hpush) happ
    rwa [List.append_assoc, List.singleton_append] at hrest

theorem retains_empty (threadId streamId : String) (configuredMaxBytes : Option Nat) :
    (empty threadId streamId configuredMaxBytes).Retains [] :=
  ⟨rfl, rfl, rfl, by simp [empty], rfl, ⟨Nat.zero_le _, Nat.zero_le _⟩, .nil, Nat.zero_le _⟩

/-! ## An archive over time -/

/-- What happens to an archive: items are appended, or refused. -/
inductive ArchiveStep : HistoryArchive → List CanonicalItem → HistoryArchive → Prop
  | appended {a a' : HistoryArchive} (items : List CanonicalItem) (prepared : a.append items = .ok a') :
      ArchiveStep a items a'
  | refused {a : HistoryArchive} {message : String} (items : List CanonicalItem)
      (prepared : a.append items = .error message) : ArchiveStep a [] a

/-- The session and the limits of an archive. -/
def SameArchive (a a' : HistoryArchive) : Prop :=
  a'.threadId = a.threadId ∧ a'.streamId = a.streamId ∧ a'.maxItems = a.maxItems ∧ a'.maxBytes = a.maxBytes

omit [EventSerde] in
theorem SameArchive.trans {a a' a'' : HistoryArchive} (h : SameArchive a a') (h' : SameArchive a' a'') :
    SameArchive a a'' :=
  ⟨h'.1.trans h.1, h'.2.1.trans h.2.1, h'.2.2.1.trans h.2.2.1, h'.2.2.2.trans h.2.2.2⟩

omit [EventSerde] in
theorem evict_same {a a' : HistoryArchive} : ∀ {items : List ArchivedItem} {bytes floor : Nat},
    a.evict items bytes floor = .ok a' → SameArchive a a'
  | [], bytes, floor, h => by
    cases h
    exact ⟨rfl, rfl, rfl, rfl⟩
  | i :: is, bytes, floor, h => by
    unfold evict at h
    split at h
    · obtain ⟨floor', -, h⟩ := orElse_bind_ok h
      exact evict_same h
    · cases h
      exact ⟨rfl, rfl, rfl, rfl⟩

theorem append_same {a a' : HistoryArchive} {items : List CanonicalItem} (h : a.append items = .ok a') :
    SameArchive a a' := by
  induction items generalizing a with
  | nil =>
    cases h
    exact ⟨rfl, rfl, rfl, rfl⟩
  | cons item items ih =>
    obtain ⟨a₁, hpush, h⟩ := bind_ok h
    obtain ⟨-, hpush⟩ := refuse_bind_ok hpush
    obtain ⟨size, -, hpush⟩ := bind_ok hpush
    obtain ⟨endIndex, -, hpush⟩ := orElse_bind_ok hpush
    obtain ⟨bytes, -, hpush⟩ := orElse_bind_ok hpush
    have hfirst : SameArchive ({ a with endIndex } : HistoryArchive) a₁ := evict_same hpush
    exact SameArchive.trans (show SameArchive a a₁ from hfirst) (ih h)

/-- The history grows by what is appended. -/
theorem Retains.run {a a' : HistoryArchive} {history : List CanonicalItem} {appended : List (List CanonicalItem)}
    (hrun : Lts.Run ArchiveStep a appended a') (h : a.Retains history) :
    a'.Retains (history ++ appended.flatten) ∧ SameArchive a a' := by
  induction hrun generalizing history with
  | nil =>
    rw [List.flatten_nil, List.append_nil]
    exact ⟨h, rfl, rfl, rfl, rfl⟩
  | cons hs _ ih =>
    rw [List.flatten_cons, ← List.append_assoc]
    cases hs with
    | appended items prepared =>
      obtain ⟨hretains, hsame⟩ := ih (h.append prepared)
      exact ⟨hretains, (append_same prepared).trans hsame⟩
    | refused items prepared =>
      rw [List.append_nil]
      exact ih h

/-- The archive of a new session. -/
theorem retains_new {threadId streamId : String} {history : List CanonicalItem} {configuredMaxBytes : Option Nat}
    {a : HistoryArchive} (h : new threadId streamId history configuredMaxBytes = .ok a) :
    a.Retains history ∧ SameArchive (empty threadId streamId configuredMaxBytes) a :=
  ⟨(retains_empty threadId streamId configuredMaxBytes).append h, append_same h⟩

end HistoryArchive

end Whale
