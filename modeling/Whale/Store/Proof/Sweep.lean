import Whale.Lib.Greedy
import Whale.Store.Sweep
import Whale.Store.Proof.Backends
import Whale.Store.Proof.Acknowledged

/-!
# The retention sweep is exact

Without concurrent writers the loop of `sweep_owned` is a greedy scan (`Greedy.scan`) over the records
it may retire, oldest first: a record goes when its time is up, or while a budget is exceeded. Expired
records come first in that order, so the scan retires the least prefix that will do. With concurrent
writers each retirement is an exchange of the shared store, which is accepted only for the record its
conditions were checked on.
-/

namespace Whale

open Check

/-! ## Records as rows -/

section
variable [RecordSerde]

namespace SessionRecord

/-- The bytes of the record that count against the budget. -/
def payloadBytes (r : SessionRecord) : Nat :=
  if r.forgotten then 0 else (RecordSerde.toText r).utf8ByteSize

/-- The row of the record in a scan. -/
def scanned (r : SessionRecord) : RetentionMetadata where
  recoveryId := r.recoveryId
  revision := r.revision
  detachedSinceMs := r.detachedSinceMs
  forgotten := r.forgotten
  protectedActive := r.owner.isSome || r.active
  protectedUnknown := r.unresolved
  payloadBytes := r.payloadBytes

theorem retentionMetadata_eq {r : SessionRecord} (h : r.payloadBytes ≤ u64Max) :
    r.retentionMetadata = .ok r.scanned := by
  unfold retentionMetadata scanned
  cases hf : r.forgotten with
  | true => simp [payloadBytes, hf]
  | false =>
    have hsize : (RecordSerde.toText r).utf8ByteSize ≤ u64Max := by
      simpa [payloadBytes, hf] using h
    simp [payloadBytes, hf, serializedBytes, Nat.not_lt.mpr hsize, Except.mapError]

/-- The record is attached to no one, runs nothing and has nothing unacknowledged. -/
def unprotected (r : SessionRecord) : Bool := !(r.owner.isSome || r.active || r.unresolved)

/-- The record has been detached for the time to live. -/
def expired (policy : StoreRetentionPolicy) (now : Nat) (r : SessionRecord) : Bool :=
  r.scanned.expired policy now

/-- The record as the sweep retires it. -/
def retiredBy (policy : StoreRetentionPolicy) (now : Nat) (r : SessionRecord) : SessionRecord :=
  (r.retire now (sweepReason (r.expired policy now))).withRevision (r.revision + 1)

end SessionRecord

/-- The payload bytes of some records. -/
def payload (rs : List SessionRecord) : Nat := (rs.map (·.payloadBytes)).sum

namespace Records

/-- The records that are not forgotten. -/
def live (s : Records) : List SessionRecord := s.values.filter (!·.forgotten)

/-- The live records by detachment and id. -/
def inOrder (s : Records) : List SessionRecord := s.live.mergeSort fun a b => a.scanned.le b.scanned

/-- The unprotected live records by detachment and id. -/
def sweepable (s : Records) : List SessionRecord := s.inOrder.filter (·.unprotected)

/-- A budget is exceeded when the records of `done` have been retired. -/
def exceeded (policy : StoreRetentionPolicy) (s : Records) (done : List SessionRecord) : Bool :=
  policy.excess (s.live.length - done.length) (payload s.live - payload done)

/-- The records when those of `done` have been retired. -/
def retireAll (policy : StoreRetentionPolicy) (now : Nat) (s : Records) (done : List SessionRecord) :
    Records :=
  done.foldl (fun s r => s.insert r.recoveryId (r.retiredBy policy now)) s

end Records

/-! ## The scan of the metadata -/

/-- The rows of a page that ascend from the cursor are taken, the forgotten ones left out. -/
theorem takeRows {acc : Option String × List RetentionMetadata} : ∀ {rs : List SessionRecord},
    (rs.map (·.recoveryId)).Pairwise (· < ·) →
    (∀ r ∈ rs, ∀ old, acc.1 = some old → old < r.recoveryId) →
    (rs.map (·.scanned)).foldlM takeRow acc =
      .ok ((rs.getLast?.map (·.recoveryId)).or acc.1,
        acc.2 ++ (rs.filter (!·.forgotten)).map (·.scanned))
  | [], _, _ => by simp
  | r :: rs, hs, hc => by
    obtain ⟨hfirst, hrest⟩ := List.pairwise_cons.1 hs
    have hrow : takeRow acc r.scanned =
        .ok (some r.recoveryId, if r.forgotten then acc.2 else acc.2 ++ [r.scanned]) := by
      have hany : (acc.1.any fun old => decide (r.scanned.recoveryId ≤ old)) = false := by
        cases hacc : acc.1 with
        | none => rfl
        | some old => exact decide_eq_false (not_le.mpr (hc r List.mem_cons_self old hacc))
      rw [takeRow, hany, refuse_false, ok_bind]
      rfl
    have hnext : ∀ x ∈ rs, ∀ old, some r.recoveryId = some old → old < x.recoveryId := by
      rintro x hx old ⟨⟩
      exact hfirst _ (List.mem_map_of_mem hx)
    rw [List.map_cons, List.foldlM_cons, hrow, ok_bind, takeRows hrest hnext]
    cases hf : r.forgotten <;> cases hl : rs.getLast? <;>
      simp [hf, hl, List.getLast?_cons]

omit [RecordSerde] in
/-- What comes after the last element of a nonempty prefix of an ascending list. -/
theorem filter_after {α β : Type} [LinearOrder β] {f : α → β} {p q : List α} {last : α}
    (hs : ((p ++ q).map f).Pairwise (· < ·)) (hlast : p.getLast? = some last) :
    (p ++ q).filter (fun a => decide (f last < f a)) = q := by
  obtain ⟨p', rfl⟩ := List.getLast?_eq_some_iff.1 hlast
  rw [List.map_append, List.pairwise_append] at hs
  obtain ⟨hp, -, hcross⟩ := hs
  have hlow : (p' ++ [last]).filter (fun a => decide (f last < f a)) = [] := by
    rw [List.filter_eq_nil_iff]
    intro a ha
    rcases List.mem_append.1 ha with ha | ha
    · rw [List.map_append, List.pairwise_append] at hp
      have hlt := hp.2.2 (f a) (List.mem_map_of_mem ha) (f last) (by simp)
      simpa using hlt.le
    · rw [List.mem_singleton.1 ha]
      simp
  have hhigh : q.filter (fun a => decide (f last < f a)) = q := by
    rw [List.filter_eq_self]
    intro a ha
    exact decide_eq_true (hcross (f last) (List.mem_map_of_mem (by simp)) (f a)
      (List.mem_map_of_mem ha))
  rw [List.filter_append, hlow, hhigh, List.nil_append]

/-- The scan from a cursor, over the records that are left. -/
theorem metadataFrom_eq [External] {s : Records} : ∀ {fuel : Nat} {rest : List SessionRecord}
    {acc : Option String × List RetentionMetadata},
    (s.values.filter fun r => acc.1.all fun id => decide (id < r.recoveryId)) = rest →
    (rest.map (·.recoveryId)).Pairwise (· < ·) → (∀ r ∈ rest, r.payloadBytes ≤ u64Max) →
    rest.length < fuel →
    MemoryStore.metadataFrom s fuel acc =
      some (.ok (acc.2 ++ (rest.filter (!·.forgotten)).map (·.scanned)))
  | 0, _, _, _, _, _, hfuel => absurd hfuel (Nat.not_lt_zero _)
  | fuel + 1, rest, acc, hrest, hs, hsize, hfuel => by
    have hpage : MemoryStore.metadataPage s acc.1 128 = .ok ((rest.take 128).map (·.scanned)) := by
      show ((s.values.filter _).take 128).mapM _ = _
      rw [hrest]
      exact mapM_ok fun r hr => SessionRecord.retentionMetadata_eq (hsize r (List.mem_of_mem_take hr))
    have hcursor : ∀ r ∈ rest, ∀ old, acc.1 = some old → old < r.recoveryId := by
      intro r hr old hold
      rw [← hrest, List.mem_filter, hold] at hr
      simpa using hr.2
    cases rest with
    | nil =>
      rw [SessionStore.metadataFrom, hpage]
      simp
    | cons r rest =>
      have htake : (r :: rest).take 128 = r :: rest.take 127 := rfl
      have hsplit : (r :: rest).take 128 ++ (r :: rest).drop 128 = r :: rest :=
        List.take_append_drop 128 _
      have hsub := List.take_sublist 128 (r :: rest)
      have hrows := @takeRows _ acc _ (hs.sublist (hsub.map _)) fun x hx => hcursor x (hsub.subset hx)
      obtain ⟨last, hlast⟩ : ∃ last, ((r :: rest).take 128).getLast? = some last :=
        Option.isSome_iff_exists.1 (by simp)
      have hlater : acc.1.all (fun id => decide (id < last.recoveryId)) = true := by
        rw [Option.all_eq_true]
        exact fun old hold => decide_eq_true (hcursor last (hsub.subset (List.mem_of_getLast? hlast))
          old hold)
      -- the records after the page are those after its last one
      have hnext : (s.values.filter fun x => decide (last.recoveryId < x.recoveryId)) =
          (r :: rest).drop 128 := by
        have hafter := filter_after (q := (r :: rest).drop 128) (hsplit.symm ▸ hs) hlast
        rw [hsplit] at hafter
        rw [← hafter, ← hrest, List.filter_filter]
        refine List.filter_congr fun x _ => ?_
        cases hx : decide (last.recoveryId < x.recoveryId) with
        | false => rfl
        | true =>
          refine ((Bool.true_and _).trans ?_).symm
          rw [Option.all_eq_true] at hlater ⊢
          exact fun old hold => decide_eq_true
            ((of_decide_eq_true (hlater old hold)).trans (of_decide_eq_true hx))
      have ih := @metadataFrom_eq _ s fuel ((r :: rest).drop 128)
        (some last.recoveryId, acc.2 ++
          (((r :: rest).take 128).filter (!·.forgotten)).map (·.scanned))
        (by simpa using hnext) (hs.sublist ((List.drop_sublist 128 _).map _))
        (fun x hx => hsize x (List.mem_of_mem_drop hx))
        (by simp only [List.length_drop, List.length_cons] at hfuel ⊢; omega)
      rw [hlast, Option.map_some, Option.some_or, htake, List.map_cons] at hrows
      rw [htake, List.map_cons] at hpage
      rw [htake] at ih
      rw [SessionStore.metadataFrom, hpage]
      dsimp only
      rw [hrows]
      dsimp only
      rw [ih, List.append_assoc, ← List.map_append, ← List.filter_append, ← htake, hsplit]

/-! ## The order of the rows -/

namespace RetentionMetadata

omit [RecordSerde] in
theorem le_iff {a b : RetentionMetadata} : a.le b = true ↔
    a.detachedSinceMs = none ∧ b.detachedSinceMs = none ∧ a.recoveryId ≤ b.recoveryId ∨
    a.detachedSinceMs = none ∧ (∃ n, b.detachedSinceMs = some n) ∨
    ∃ m n, a.detachedSinceMs = some m ∧ b.detachedSinceMs = some n ∧
      (m < n ∨ m = n ∧ a.recoveryId ≤ b.recoveryId) := by
  unfold le
  cases a.detachedSinceMs <;> cases b.detachedSinceMs <;> simp

omit [RecordSerde] in
theorem le_total (a b : RetentionMetadata) : (a.le b || b.le a) = true := by
  rw [Bool.or_eq_true, le_iff, le_iff]
  cases a.detachedSinceMs with
  | none =>
    cases b.detachedSinceMs with
    | none => simpa using String.le_total a.recoveryId b.recoveryId
    | some n => simp
  | some m =>
    cases b.detachedSinceMs with
    | none => simp
    | some n =>
      rcases Nat.lt_trichotomy m n with h | rfl | h
      · simp [h]
      · simpa using String.le_total a.recoveryId b.recoveryId
      · simp [h]

omit [RecordSerde] in
theorem le_trans (a b c : RetentionMetadata) (hab : a.le b = true) (hbc : b.le c = true) :
    a.le c = true := by
  rw [le_iff] at *
  rcases hab with ⟨ha, hb, h⟩ | ⟨ha, n, hb⟩ | ⟨m, n, ha, hb, h⟩
  · rcases hbc with ⟨-, hc, h'⟩ | ⟨-, hc⟩ | ⟨m', n', hb', -⟩
    · exact .inl ⟨ha, hc, h.trans h'⟩
    · exact .inr (.inl ⟨ha, hc⟩)
    · rw [hb] at hb'
      cases hb'
  · rcases hbc with ⟨hb', -⟩ | ⟨hb', -⟩ | ⟨m', n', -, hc, -⟩
    · rw [hb] at hb'
      cases hb'
    · rw [hb] at hb'
      cases hb'
    · exact .inr (.inl ⟨ha, n', hc⟩)
  · rcases hbc with ⟨hb', -⟩ | ⟨hb', -⟩ | ⟨m', n', hb', hc, h'⟩
    · rw [hb] at hb'
      cases hb'
    · rw [hb] at hb'
      cases hb'
    · obtain rfl : n = m' := Option.some.inj (hb.symm.trans hb')
      refine .inr (.inr ⟨m, n', ha, hc, ?_⟩)
      rcases h with h | ⟨rfl, h⟩
      · exact .inl (h'.elim (Nat.lt_trans h) fun h' => h'.1 ▸ h)
      · exact h'.imp id fun h' => ⟨h'.1, h.trans h'.2⟩

end RetentionMetadata

/-! ## What the sweep leaves -/

/-- What the sweep relies on: valid records of schema 2, each under its own id, whose payload can be
counted. -/
structure Records.Held [External] (s : Records) : Prop where
  keyed : ∀ id r, s.get? id = some r → r.recoveryId = id
  valid : ∀ r ∈ s.values, Valid r
  schema : ∀ r ∈ s.values, r.schemaVersion = 2
  bytes : payload s.live ≤ u64Max

namespace Records

section
variable {s : Records} {done : List SessionRecord} (policy : StoreRetentionPolicy) (now : Nat)

omit [RecordSerde] in
theorem mem_live {r : SessionRecord} : r ∈ s.live ↔ r ∈ s.values ∧ r.forgotten = false := by
  rw [live, List.mem_filter, Bool.not_eq_true']

theorem mem_inOrder {r : SessionRecord} : r ∈ s.inOrder ↔ r ∈ s.live := List.mem_mergeSort

theorem mem_sweepable {r : SessionRecord} :
    r ∈ s.sweepable ↔ r ∈ s.live ∧ r.unprotected = true := by
  rw [sweepable, List.mem_filter, mem_inOrder]

theorem retireAll_snoc (r : SessionRecord) : s.retireAll policy now (done ++ [r]) =
    (s.retireAll policy now done).insert r.recoveryId (r.retiredBy policy now) := by
  rw [retireAll, List.foldl_append]
  rfl

omit [RecordSerde] in
theorem get_self (hkeyed : ∀ id r, s.get? id = some r → r.recoveryId = id) {r : SessionRecord}
    (hr : r ∈ s.values) : s.get? r.recoveryId = some r := by
  obtain ⟨id, hid⟩ := OrdMap.mem_values_iff.1 hr
  rw [hkeyed id r hid, hid]

omit [RecordSerde] in
/-- Stored records with one id are one. -/
theorem eq_of_id (hkeyed : ∀ id r, s.get? id = some r → r.recoveryId = id) {r x : SessionRecord}
    (hr : r ∈ s.values) (hx : x ∈ s.values) (h : r.recoveryId = x.recoveryId) : r = x := by
  have hr := get_self hkeyed hr
  rw [h, get_self hkeyed hx] at hr
  exact (Option.some.inj hr).symm

/-- Exactly the records of `done` are retired. -/
theorem retireAll_eq (hkeyed : ∀ id r, s.get? id = some r → r.recoveryId = id)
    (hdone : ∀ r ∈ done, r ∈ s.values) : s.retireAll policy now done =
      s.mapValues fun r =>
        if r.recoveryId ∈ done.map (·.recoveryId) then r.retiredBy policy now else r := by
  induction done using List.reverseRecOn with
  | nil => exact OrdMap.ext_get? fun id => by simp [retireAll]
  | append_singleton done r ih =>
    have hr : s.get? r.recoveryId = some r := get_self hkeyed (hdone r (by simp))
    refine OrdMap.ext_get? fun id => ?_
    rw [retireAll_snoc, ih fun x hx => hdone x (by simp [hx]), OrdMap.get?_insert,
      OrdMap.get?_mapValues, OrdMap.get?_mapValues]
    by_cases hid : r.recoveryId = id
    · rw [if_pos hid, ← hid, hr]
      simp
    · rw [if_neg hid]
      cases hx : s.get? id with
      | none => rfl
      | some x =>
        have hne : x.recoveryId ≠ r.recoveryId := fun he => hid (by rw [← he, hkeyed id x hx])
        simp [hne]

/-- The live records that are left. -/
theorem live_retireAll (hkeyed : ∀ id r, s.get? id = some r → r.recoveryId = id)
    (hdone : ∀ r ∈ done, r ∈ s.values) : (s.retireAll policy now done).live =
      s.live.filter fun r => decide (r.recoveryId ∉ done.map (·.recoveryId)) := by
  rw [live, live, retireAll_eq policy now hkeyed hdone, OrdMap.values_mapValues, List.filter_map,
    List.filter_filter]
  have hp : (s.values.filter ((fun r => !r.forgotten) ∘ fun r =>
      if r.recoveryId ∈ done.map (·.recoveryId) then r.retiredBy policy now else r)) =
      s.values.filter fun r =>
        decide (r.recoveryId ∉ done.map (·.recoveryId)) && !r.forgotten := by
    refine List.filter_congr fun r _ => ?_
    by_cases hr : r.recoveryId ∈ done.map (·.recoveryId)
    · simp only [Function.comp, hr, if_true, not_true_eq_false, decide_false, Bool.false_and]
      rfl
    · simp only [Function.comp, hr, if_false, not_false_eq_true, decide_true, Bool.true_and]
  rw [hp]
  refine (List.map_congr_left fun r hr => ?_).trans (List.map_id _)
  simp only [List.mem_filter, Bool.and_eq_true, decide_eq_true_eq] at hr
  rw [if_neg hr.2.1]
  rfl

omit [RecordSerde] in
theorem nodup_values (hkeyed : ∀ id r, s.get? id = some r → r.recoveryId = id) : s.values.Nodup :=
  (values_ids_nodup hkeyed).of_map _

/-- The live records are those of `done` and those that are left. -/
theorem live_perm (hkeyed : ∀ id r, s.get? id = some r → r.recoveryId = id) (hnodup : done.Nodup)
    (hdone : ∀ r ∈ done, r ∈ s.live) :
    (done ++ (s.retireAll policy now done).live).Perm s.live := by
  have hvalues : ∀ r ∈ s.live, r ∈ s.values := fun r hr => (mem_live.mp hr).1
  rw [live_retireAll policy now hkeyed fun r hr => hvalues r (hdone r hr)]
  have hlive : s.live.Nodup := (nodup_values hkeyed).filter _
  have htaken : done.Perm
      (s.live.filter fun r => decide (r.recoveryId ∈ done.map (·.recoveryId))) := by
    refine (List.perm_ext_iff_of_nodup hnodup (hlive.filter _)).mpr fun r => ?_
    rw [List.mem_filter, decide_eq_true_eq]
    refine ⟨fun h => ⟨hdone r h, List.mem_map_of_mem h⟩, fun ⟨hr, hid⟩ => ?_⟩
    obtain ⟨x, hx, he⟩ := List.mem_map.1 hid
    rwa [← eq_of_id hkeyed (hvalues x (hdone x hx)) (hvalues r hr) he]
  refine (htaken.append_right _).trans ?_
  have hsplit := List.filter_append_perm
    (fun r => decide (r.recoveryId ∈ done.map (·.recoveryId))) s.live
  simpa only [decide_not] using hsplit

/-- The live records are those of a prefix of the sweep and those that are left. -/
theorem swept_perm (hkeyed : ∀ id r, s.get? id = some r → r.recoveryId = id) (k : Nat) :
    (s.sweepable.take k ++ (s.retireAll policy now (s.sweepable.take k)).live).Perm s.live := by
  have hnodup : s.sweepable.Nodup :=
    ((List.mergeSort_perm _ _).nodup_iff.mpr ((nodup_values hkeyed).filter _)).filter _
  exact live_perm policy now hkeyed (hnodup.sublist (List.take_sublist _ _))
    fun r hr => (mem_sweepable.mp (List.mem_of_mem_take hr)).1

theorem payload_perm {xs ys : List SessionRecord} (h : xs.Perm ys) : payload xs = payload ys :=
  (h.map _).sum_nat

theorem payload_mem {rs : List SessionRecord} {r : SessionRecord} (h : r ∈ rs) :
    r.payloadBytes ≤ payload rs := by
  obtain ⟨p, q, rfl⟩ := List.append_of_mem h
  simp only [payload, List.map_append, List.map_cons, List.sum_append, List.sum_cons]
  omega

theorem payload_append (xs ys : List SessionRecord) :
    payload (xs ++ ys) = payload xs + payload ys := by
  rw [payload, List.map_append, List.sum_append]
  rfl

/-- The store that is left: the same ids, and no more payload. -/
structure Left (s t : Records) : Prop where
  keyed : ∀ id r, t.get? id = some r → r.recoveryId = id
  size : ∀ r ∈ t.values, r.payloadBytes ≤ u64Max
  length : t.values.length = s.values.length

theorem Held.left [External] (h : s.Held) (hdone : ∀ r ∈ done, r ∈ s.values) :
    Left s (s.retireAll policy now done) := by
  have hsize : ∀ r ∈ s.values, r.payloadBytes ≤ u64Max := fun r hr => by
    cases hf : r.forgotten with
    | true => simp [SessionRecord.payloadBytes, hf]
    | false => exact (payload_mem (mem_live.mpr ⟨hr, hf⟩)).trans h.bytes
  rw [retireAll_eq policy now h.keyed hdone]
  refine ⟨fun id r hr => ?_, fun r hr => ?_, by simp⟩
  · rw [OrdMap.get?_mapValues] at hr
    obtain ⟨x, hx, rfl⟩ := Option.map_eq_some_iff.1 hr
    rw [← h.keyed id x hx]
    split <;> rfl
  · rw [OrdMap.values_mapValues] at hr
    obtain ⟨x, hx, rfl⟩ := List.mem_map.1 hr
    split
    · exact Nat.zero_le _
    · exact hsize x hx

end

end Records

/-! ## The loops -/

section
variable [External]

/-- A backend whose states hold records, as far as the sweep uses it: the calls are those of the map,
for the records in `Good`. -/
structure Mirrors {σ : Type} (store : SessionStore σ) (embed : Records → σ) (Good : Records → Prop) :
    Prop where
  page : ∀ s, Good s → ∀ after,
    store.metadataPage (embed s) after 128 = MemoryStore.metadataPage s after 128
  retire : ∀ s s', Good s → Good s' → ∀ id expected now reason,
    MemoryStore.retireDetached s id expected now reason = .ok (true, s') →
    store.retireDetached (embed s) id expected now reason = .ok (true, embed s')

variable {σ : Type} {store : SessionStore σ} {embed : Records → σ} {Good : Records → Prop}

theorem Mirrors.metadataFrom (h : Mirrors store embed Good) {s : Records} (hs : Good s) :
    ∀ (fuel : Nat) (acc : Option String × List RetentionMetadata),
      store.metadataFrom (embed s) fuel acc = MemoryStore.metadataFrom s fuel acc
  | 0, _ => rfl
  | fuel + 1, acc => by
    unfold SessionStore.metadataFrom
    rw [h.page s hs]
    cases MemoryStore.metadataPage s acc.1 128 with
    | error e => rfl
    | ok page =>
      cases page with
      | nil => rfl
      | cons row rows =>
        dsimp only
        cases (row :: rows).foldlM takeRow acc with
        | error e => rfl
        | ok acc => exact h.metadataFrom hs fuel acc

/-- The scan of a store finds its live records. -/
theorem Mirrors.metadata (h : Mirrors store embed Good) {s : Records} (hs : Good s)
    (hkeyed : ∀ id r, s.get? id = some r → r.recoveryId = id)
    (hsize : ∀ r ∈ s.values, r.payloadBytes ≤ u64Max) {fuel : Nat} (hfuel : s.values.length < fuel) :
    store.metadata (embed s) fuel = some (.ok (s.live.map (·.scanned))) := by
  unfold SessionStore.metadata
  rw [h.metadataFrom hs, metadataFrom_eq (by simp) (values_ids_sorted hkeyed) hsize hfuel]
  rfl

omit [External] [RecordSerde] in
theorem saturatingAdd_eq {a b : Nat} (h : a + b ≤ u64Max) : saturatingAdd a b = a + b :=
  Nat.min_eq_left h

omit [External] in
/-- The first loop, over live records. -/
theorem examine_eq : ∀ {rs : List SessionRecord} {w : Sweep σ}, (∀ r ∈ rs, r.forgotten = false) →
    w.bytes + payload rs ≤ u64Max →
    (rs.map (·.scanned)).foldl Sweep.examine w = { w with
      report := { w.report with examined := w.report.examined + rs.length }
      sessions := w.sessions + rs.length
      bytes := w.bytes + payload rs }
  | [], _, _, _ => rfl
  | r :: rs, w, hlive, hbytes => by
    have hcons : payload (r :: rs) = r.payloadBytes + payload rs := by
      simp only [payload, List.map_cons, List.sum_cons]
    rw [hcons, ← Nat.add_assoc] at hbytes
    have hrow : w.examine r.scanned = { w with
        report := { w.report with examined := w.report.examined + 1 }
        sessions := w.sessions + 1
        bytes := w.bytes + r.payloadBytes } := by
      have hr : r.scanned.forgotten = false := hlive r List.mem_cons_self
      have hadd : saturatingAdd w.bytes r.scanned.payloadBytes = w.bytes + r.payloadBytes :=
        saturatingAdd_eq ((Nat.le_add_right _ _).trans hbytes)
      rw [Sweep.examine, if_neg (by simp [hr]), hadd]
    rw [List.map_cons, List.foldl_cons, hrow,
      examine_eq (fun x hx => hlive x (List.mem_cons_of_mem _ hx)) hbytes, hcons, List.length_cons]
    simp only [Nat.add_assoc, Nat.add_comm 1]

omit [External] in
/-- The last loop, over live records. -/
theorem remaining_eq : ∀ {rs : List SessionRecord} {report : RetentionReport},
    (∀ r ∈ rs, r.forgotten = false) → report.remainingPayloadBytes + payload rs ≤ u64Max →
    (rs.map (·.scanned)).foldl RetentionReport.remaining report = { report with
      remainingSessions := report.remainingSessions + rs.length
      remainingPayloadBytes := report.remainingPayloadBytes + payload rs
      protectedActive := report.protectedActive +
        (rs.filter fun r => r.owner.isSome || r.active).length
      protectedUnknown := report.protectedUnknown + (rs.filter (·.unresolved)).length }
  | [], _, _, _ => rfl
  | r :: rs, report, hlive, hbytes => by
    have hcons : payload (r :: rs) = r.payloadBytes + payload rs := by
      simp only [payload, List.map_cons, List.sum_cons]
    rw [hcons, ← Nat.add_assoc] at hbytes
    have hrow : report.remaining r.scanned = { report with
        remainingSessions := report.remainingSessions + 1
        remainingPayloadBytes := report.remainingPayloadBytes + r.payloadBytes
        protectedActive := report.protectedActive + (r.owner.isSome || r.active).toNat
        protectedUnknown := report.protectedUnknown + r.unresolved.toNat } := by
      have hr : r.scanned.forgotten = false := hlive r List.mem_cons_self
      have hadd : saturatingAdd report.remainingPayloadBytes r.scanned.payloadBytes =
          report.remainingPayloadBytes + r.payloadBytes :=
        saturatingAdd_eq ((Nat.le_add_right _ _).trans hbytes)
      rw [RetentionReport.remaining, if_neg (by simp [hr]), hadd]
      rfl
    have hcount : ∀ (p : SessionRecord → Bool) (n : Nat),
        n + (p r).toNat + (rs.filter p).length = n + ((r :: rs).filter p).length := by
      intro p n
      cases hp : p r <;> simp [hp, Nat.add_assoc, Nat.add_comm 1]
    rw [List.map_cons, List.foldl_cons, hrow,
      remaining_eq (fun x hx => hlive x (List.mem_cons_of_mem _ hx)) hbytes, hcons,
      List.length_cons]
    dsimp only
    rw [hcount (fun r => r.owner.isSome || r.active), hcount (·.unresolved), Nat.add_assoc,
      Nat.add_assoc, Nat.add_comm 1]

/-- A record the sweep may retire, if it has a next revision. -/
structure Retirable (r : SessionRecord) : Prop where
  valid : Valid r
  live : r.forgotten = false
  unprotected : r.unprotected = true
  schema : r.schemaVersion = 2

omit [External] [RecordSerde] in
theorem unprotected_iff {r : SessionRecord} :
    r.unprotected = true ↔ r.owner = none ∧ r.active = false ∧ r.unresolved = false := by
  simp [SessionRecord.unprotected, and_assoc]

omit [RecordSerde] in
theorem Retirable.replacement {r : SessionRecord} (h : Retirable r) (now : Nat) (reason : String) :
    retirementReplacement r r.revision now reason =
      (orElse (checkedSucc r.revision) .conflict >>= fun next =>
        .ok (some ((r.retire now reason).withRevision next))) := by
  obtain ⟨howner, hactive, hunresolved⟩ := unprotected_iff.mp h.unprotected
  have hdetached : r.detachedSinceMs.isNone = false := by
    have := (h.valid.retention h.schema).detached h.live howner
    simpa [Option.isSome_iff_ne_none] using this
  simp only [retirementReplacement, validate_ok_iff.2 h.valid, bne_self_eq_false, h.live, howner,
    hactive, hunresolved, h.schema, hdetached, refuse_false, ok_bind, Option.isSome_none,
    Bool.or_self, Bool.false_eq_true, if_false]

/-- `retire_detached` retires a record that may be and has a next revision. -/
theorem Retirable.retireDetached {s : Records} {r : SessionRecord} (h : Retirable r)
    (hrevision : r.revision < u64Max) (found : s.get? r.recoveryId = some r) (now : Nat)
    (reason : String) : MemoryStore.retireDetached s r.recoveryId r.revision now reason =
      .ok (true, s.insert r.recoveryId ((r.retire now reason).withRevision (r.revision + 1))) := by
  have hnext := checkedSucc_of_lt hrevision
  have hreplacement := h.replacement now reason
  rw [hnext, orElse_some, ok_bind] at hreplacement
  have hexchange : s.compareExchange r.recoveryId r.revision
      ((r.retire now reason).withRevision (r.revision + 1)) = .ok (s.insert r.recoveryId
        ((r.retire now reason).withRevision (r.revision + 1))) := by
    have hrep := retired_replaces now reason h.valid h.live (unprotected_iff.mp h.unprotected).1 hnext
    rw [Records.compareExchange, found, orElse_some, ok_bind, validateReplace_ok_iff.2 hrep, ok_bind]
  have hdefault : MemoryStore.retireDetached = SessionStore.defaultRetireDetached
      (fun s id => .ok (OrdMap.get? s id)) Records.compareExchange := rfl
  simp only [hdefault, SessionStore.defaultRetireDetached, found, orElse_some, ok_bind, hreplacement,
    hexchange]

/-- A record at the last revision is not retired. -/
theorem Retirable.retireDetached_last {s : Records} {r : SessionRecord} (h : Retirable r)
    (hrevision : ¬ r.revision < u64Max) (found : s.get? r.recoveryId = some r) (now : Nat)
    (reason : String) :
    MemoryStore.retireDetached s r.recoveryId r.revision now reason = .error .conflict := by
  have hreplacement := h.replacement now reason
  rw [checkedSucc, if_neg hrevision] at hreplacement
  have hdefault : MemoryStore.retireDetached = SessionStore.defaultRetireDetached
      (fun s id => .ok (OrdMap.get? s id)) Records.compareExchange := rfl
  simp only [hdefault, SessionStore.defaultRetireDetached, found, orElse_some, ok_bind, hreplacement]
  rfl

/-- The sweep when the records of `done` have been retired. -/
def sweepAt (embed : Records → σ) (policy : StoreRetentionPolicy) (now : Nat) (s : Records)
    (done : List SessionRecord) : Sweep σ where
  state := embed (s.retireAll policy now done)
  report := { examined := s.live.length, retired := done.length }
  sessions := s.live.length - done.length
  bytes := payload s.live - payload done

section
variable {s : Records} {policy : StoreRetentionPolicy} {now : Nat}

/-- One row of the loop: the record is retired when its time is up or a budget is exceeded. -/
theorem sweep_row (h : Mirrors store embed Good) (hs : s.Held)
    (hgood : ∀ done, (∀ x ∈ done, x ∈ s.sweepable) → Good (s.retireAll policy now done))
    (hretirable : ∀ x ∈ s.sweepable, Retirable x ∧ x.revision < u64Max)
    {done : List SessionRecord} {r : SessionRecord} (hdone : ∀ x ∈ done, x ∈ s.sweepable) (hr : r ∈ s.live)
    (hnot : r.recoveryId ∉ done.map (·.recoveryId)) :
    (sweepAt embed policy now s done).row store policy now r.scanned =
      .ok (sweepAt embed policy now s
        (if r.unprotected && (r.expired policy now || s.exceeded policy done) then done ++ [r]
          else done)) := by
  have hlive : r.scanned.forgotten = false := (Records.mem_live.mp hr).2
  have hprotected : (r.scanned.forgotten || r.scanned.protectedActive || r.scanned.protectedUnknown) =
      !r.unprotected := by
    rw [hlive]
    simp [SessionRecord.scanned, SessionRecord.unprotected]
  unfold Sweep.row
  rw [hprotected]
  cases hu : r.unprotected with
  | false => rfl
  | true =>
    have hsweep : r ∈ s.sweepable := Records.mem_sweepable.mpr ⟨hr, hu⟩
    have hover : policy.excess (sweepAt embed policy now s done).sessions
        (sweepAt embed policy now s done).bytes = s.exceeded policy done := rfl
    have hexpired : r.scanned.expired policy now = r.expired policy now := rfl
    rw [if_neg (by simp), hover, hexpired, Bool.true_and]
    dsimp only
    cases hgo : r.expired policy now || s.exceeded policy done with
    | false =>
      obtain ⟨h1, h2⟩ := Bool.or_eq_false_iff.1 hgo
      rw [h1, h2]
      rfl
    | true =>
      have hvalues : ∀ x ∈ done, x ∈ s.values := fun x hx =>
        (Records.mem_live.mp (Records.mem_sweepable.mp (hdone x hx)).1).1
      have hfound : (s.retireAll policy now done).get? r.recoveryId = some r := by
        rw [Records.retireAll_eq policy now hs.keyed hvalues, OrdMap.get?_mapValues,
          Records.get_self hs.keyed (Records.mem_live.mp hr).1, Option.map_some, if_neg hnot]
      have hnext : ∀ x ∈ done ++ [r], x ∈ s.sweepable := fun x hx => by
        rcases List.mem_append.1 hx with hx | hx
        · exact hdone x hx
        · rwa [List.mem_singleton.1 hx]
      have hretire := (hretirable r hsweep).1.retireDetached (hretirable r hsweep).2 hfound now
        (sweepReason (r.expired policy now))
      have hsnoc : s.retireAll policy now (done ++ [r]) = _ := Records.retireAll_snoc policy now r
      rw [SessionRecord.retiredBy] at hsnoc
      rw [← hsnoc] at hretire
      have hstep : store.retireDetached (sweepAt embed policy now s done).state r.scanned.recoveryId
          r.scanned.revision now (sweepReason (r.expired policy now)) =
          .ok (true, embed (s.retireAll policy now (done ++ [r]))) :=
        h.retire _ _ (hgood done hdone) (hgood _ hnext) _ _ now _ hretire
      have hstop : (!r.expired policy now && !s.exceeded policy done) = false := by
        rw [← Bool.not_or, hgo]
        rfl
      rw [hstop, if_neg Bool.false_ne_true, hstep]
      simp only [if_true, sweepAt, Records.payload_append, List.length_append, List.length_singleton,
        Nat.sub_sub]
      rfl

/-- The loop is a greedy scan of the unprotected records. -/
theorem sweep_rows (h : Mirrors store embed Good) (hs : s.Held)
    (hgood : ∀ done, (∀ x ∈ done, x ∈ s.sweepable) → Good (s.retireAll policy now done))
    (hretirable : ∀ x ∈ s.sweepable, Retirable x ∧ x.revision < u64Max) : ∀ {rest done : List SessionRecord},
    (∀ x ∈ done, x ∈ s.sweepable) → (∀ x ∈ rest, x ∈ s.live) →
    ((done ++ rest).map (·.recoveryId)).Nodup →
    Sweep.rows store policy now (sweepAt embed policy now s done) (rest.map (·.scanned)) =
      (.ok (), sweepAt embed policy now s (Greedy.scan (·.expired policy now) (s.exceeded policy) done
        (rest.filter (·.unprotected))))
  | [], _, _, _, _ => rfl
  | r :: rest, done, hdone, hrest, hnodup => by
    have hlive := hrest r List.mem_cons_self
    have hrest' := fun x hx => hrest x (List.mem_cons_of_mem r hx)
    rw [List.map_append, List.nodup_append] at hnodup
    obtain ⟨hnodupDone, hnodupRest, hdisjoint⟩ := hnodup
    have hnot : r.recoveryId ∉ done.map (·.recoveryId) := fun hm =>
      hdisjoint _ hm r.recoveryId (by simp) rfl
    have hrow := sweep_row h hs hgood hretirable hdone hlive hnot
    -- the rows that are left follow those retired so far, with or without this one
    have hwithout : ((done ++ rest).map (·.recoveryId)).Nodup := by
      rw [List.map_append, List.nodup_append]
      exact ⟨hnodupDone, (List.nodup_cons.1 hnodupRest).2,
        fun a ha b hb => hdisjoint a ha b (List.mem_cons_of_mem _ hb)⟩
    have hwith : (((done ++ [r]) ++ rest).map (·.recoveryId)).Nodup := by
      rw [List.append_assoc, List.singleton_append, List.map_append, List.nodup_append]
      exact ⟨hnodupDone, hnodupRest, hdisjoint⟩
    rw [List.map_cons, Sweep.rows, hrow]
    dsimp only
    cases hu : r.unprotected with
    | false =>
      rw [Bool.false_and, if_neg Bool.false_ne_true, List.filter_cons_of_neg (by simp [hu])]
      exact sweep_rows h hs hgood hretirable hdone hrest' hwithout
    | true =>
      rw [Bool.true_and, List.filter_cons_of_pos hu, Greedy.scan]
      split
      · refine sweep_rows h hs hgood hretirable (fun x hx => ?_) hrest' hwith
        rcases List.mem_append.1 hx with hx | hx
        · exact hdone x hx
        · rw [List.mem_singleton.1 hx]
          exact Records.mem_sweepable.mpr ⟨hlive, hu⟩
      · exact sweep_rows h hs hgood hretirable hdone hrest' hwithout

end

/-- Expired records come first in the order of the sweep. -/
theorem sweepable_expired {s : Records} (hretirable : ∀ x ∈ s.sweepable, Retirable x)
    (policy : StoreRetentionPolicy) (now : Nat) :
    s.sweepable.Pairwise fun a b => b.expired policy now = true → a.expired policy now = true := by
  have hle : s.sweepable.Pairwise fun a b => a.scanned.le b.scanned = true :=
    (List.pairwise_mergeSort
      (fun a b c => RetentionMetadata.le_trans a.scanned b.scanned c.scanned)
      (fun a b => RetentionMetadata.le_total a.scanned b.scanned) s.live).filter _
  refine hle.imp_of_mem fun {a b} ha _ h hb => ?_
  have hdetached : a.detachedSinceMs.isSome := by
    have hr := hretirable a ha
    exact (hr.valid.retention hr.schema).detached hr.live (unprotected_iff.mp hr.unprotected).1
  obtain ⟨m, hm⟩ := Option.isSome_iff_exists.1 hdetached
  unfold SessionRecord.expired RetentionMetadata.expired at hb ⊢
  cases httl : policy.detachedTtlMs with
  | none =>
    rw [httl] at hb
    cases hb
  | some ttl =>
    rw [httl] at hb
    have hb : ((b.detachedSinceMs.bind fun since => checkedSub now since).any fun age =>
      decide (ttl ≤ age)) = true := hb
    cases hn : b.detachedSinceMs with
    | none =>
      rw [hn] at hb
      cases hb
    | some n =>
      have hmn : m ≤ n := by
        rcases RetentionMetadata.le_iff.mp h with ⟨h, -⟩ | ⟨h, -⟩ | ⟨m', n', hm', hn', h⟩
        · exact absurd (hm.symm.trans h) (by simp)
        · exact absurd (hm.symm.trans h) (by simp)
        · obtain rfl : m = m' := Option.some.inj (hm.symm.trans hm')
          obtain rfl : n = n' := Option.some.inj (hn.symm.trans hn')
          exact h.elim Nat.le_of_lt fun h => Nat.le_of_eq h.1
      rw [hn, Option.bind_some, checkedSub] at hb
      split at hb
      · have hage : ttl ≤ now - n := by simpa using hb
        show ((a.detachedSinceMs.bind fun since => checkedSub now since).any fun age =>
          decide (ttl ≤ age)) = true
        rw [hm, Option.bind_some, checkedSub, if_pos (by omega)]
        exact decide_eq_true (by omega)
      · cases hb

/-- What the report says when `retired` records of `s` have been retired and `s'` is left. -/
def sweepReport (policy : StoreRetentionPolicy) (s s' : Records) (retired : Nat) :
    RetentionReport where
  examined := s.live.length
  retired
  protectedActive := (s'.live.filter fun r => r.owner.isSome || r.active).length
  protectedUnknown := (s'.live.filter (·.unresolved)).length
  remainingSessions := s'.live.length
  remainingPayloadBytes := payload s'.live
  unmetSessions := policy.maxRetainedSessions.elim 0 (s'.live.length - ·)
  unmetPayloadBytes := policy.maxRetainedPayloadBytes.elim 0 (payload s'.live - ·)

/-- The sweep of a backend that holds records. -/
theorem Mirrors.sweep (h : Mirrors store embed Good) {s : Records} (hs : s.Held)
    {policy : StoreRetentionPolicy} {now : Nat}
    (hgood : ∀ done, (∀ x ∈ done, x ∈ s.sweepable) → Good (s.retireAll policy now done))
    (hrevision : ∀ x ∈ s.sweepable, x.revision < u64Max) {fuel : Nat}
    (hfuel : s.values.length < fuel) :
    ∃ k, Greedy.Least (·.expired policy now) (s.exceeded policy) s.sweepable k ∧
      store.sweepOwned policy now fuel (embed s) =
        some (.ok (sweepReport policy s (s.retireAll policy now (s.sweepable.take k)) k),
          embed (s.retireAll policy now (s.sweepable.take k))) := by
  have hretirable : ∀ x ∈ s.sweepable, Retirable x := fun x hx => by
    obtain ⟨hlive, hu⟩ := Records.mem_sweepable.mp hx
    obtain ⟨hv, hf⟩ := Records.mem_live.mp hlive
    exact ⟨hs.valid x hv, hf, hu, hs.schema x hv⟩
  obtain ⟨k, hleast, hscan⟩ :=
    @Greedy.scan_least _ _ (s.exceeded policy) _ (sweepable_expired hretirable policy now)
  refine ⟨k, hleast, ?_⟩
  have hvalues : ∀ x ∈ s.sweepable.take k, x ∈ s.values := fun x hx =>
    (Records.mem_live.mp (Records.mem_sweepable.mp (List.mem_of_mem_take hx)).1).1
  have hlive : ∀ {t : Records}, ∀ x ∈ t.live, x.forgotten = false := fun x hx =>
    (Records.mem_live.mp hx).2
  have hids : (s.live.map (·.recoveryId)).Nodup :=
    (values_ids_nodup hs.keyed).sublist (List.filter_sublist.map _)
  -- the first scan
  have hbefore : Records.Left s (s.retireAll policy now []) :=
    hs.left policy now (List.forall_mem_nil _)
  have hfirst := h.metadata (hgood [] (List.forall_mem_nil _)) hbefore.keyed hbefore.size
    (hbefore.length.trans_lt hfuel)
  have hexamine : (s.live.map (·.scanned)).foldl Sweep.examine { state := embed s } =
      sweepAt embed policy now s [] := by
    rw [examine_eq hlive (by simpa using hs.bytes)]
    simp [sweepAt, payload, Records.retireAll]
  -- the loop
  have hsort : (s.live.map (·.scanned)).mergeSort RetentionMetadata.le =
      s.inOrder.map (·.scanned) :=
    (@List.map_mergeSort _ _ (fun a b : SessionRecord => a.scanned.le b.scanned) RetentionMetadata.le
      SessionRecord.scanned s.live fun _ _ _ _ => rfl).symm
  have hnodup : (([] ++ s.inOrder).map SessionRecord.recoveryId).Nodup :=
    ((List.mergeSort_perm _ _).map _).nodup_iff.mpr hids
  have hloop := sweep_rows h hs hgood (fun x hx => ⟨hretirable x hx, hrevision x hx⟩)
    (List.forall_mem_nil _) (fun x hx => Records.mem_inOrder.mp hx) hnodup
  rw [show s.inOrder.filter (·.unprotected) = s.sweepable from rfl, hscan] at hloop
  -- the last scan
  have hafter := hs.left policy now hvalues
  have hlast := h.metadata (hgood _ fun x hx => List.mem_of_mem_take hx) hafter.keyed hafter.size
    (hafter.length.trans_lt hfuel)
  have hleft : payload (s.retireAll policy now (s.sweepable.take k)).live ≤ u64Max := by
    have hperm := Records.payload_perm (Records.swept_perm policy now hs.keyed k)
    rw [Records.payload_append] at hperm
    exact (Nat.le_add_left _ _).trans (hperm.le.trans hs.bytes)
  rw [SessionStore.sweepOwned, show embed s = embed (s.retireAll policy now []) from rfl, hfirst]
  dsimp only
  rw [show (s.retireAll policy now []) = s from rfl, hexamine, hsort, hloop]
  dsimp only [sweepAt]
  rw [hlast]
  dsimp only
  rw [remaining_eq hlive (by simpa using hleft)]
  simp only [RetentionReport.unmet, sweepReport, Nat.zero_add, List.length_take_of_le hleast.le]

/-! ## The built-in backends -/

theorem mirrors_memory : Mirrors MemoryStore id fun _ => True where
  page := fun _ _ _ => rfl
  retire := fun _ _ _ _ _ _ _ _ h => h

omit [External] in
theorem backed_self {s : Records} (hkeyed : ∀ id r, s.get? id = some r → r.recoveryId = id)
    (hst : ∀ r ∈ s.values, Storable r) : Backed (s.mapValues SessionRecord.row) s :=
  ⟨rfl, hkeyed, hst⟩

theorem mirrors_sqlite : Mirrors SQLiteStore (OrdMap.mapValues · SessionRecord.row) fun s =>
    (∀ id r, s.get? id = some r → r.recoveryId = id) ∧ ∀ r ∈ s.values, Storable r where
  page := fun s hs after => (backed_self hs.1 hs.2).metadataPage after (by decide)
  retire := fun s s' hs hs' id expected now reason h => by
    have hdefault : SessionStore.defaultRetireDetached (fun s id => .ok (OrdMap.get? s id))
        Records.compareExchange s id expected now reason = .ok (true, s') := h
    have hstored : ∀ b x, SessionStore.defaultRetireDetached (fun s id => .ok (OrdMap.get? s id))
        Records.compareExchange s id expected now reason = .ok (b, x) → ∀ r ∈ x.values, Storable r := by
      intro b x hx
      rw [hdefault] at hx
      cases hx
      exact hs'.2
    have hsql := (backed_self hs.1 hs.2).retireDetached hstored
    rw [hdefault] at hsql
    exact hsql

/-- What an exact sweep leaves of `s`: the first `k` sweepable records are retired, where `k` is the
least number that takes all expired ones and meets the budgets, or takes everything. -/
structure SweptTo (policy : StoreRetentionPolicy) (now : Nat) (s : Records) (k : Nat) (s' : Records) :
    Prop where
  least : Greedy.Least (·.expired policy now) (s.exceeded policy) s.sweepable k
  retired : ∀ id, s'.get? id = (s.get? id).map fun r =>
    if r.recoveryId ∈ (s.sweepable.take k).map (·.recoveryId) then r.retiredBy policy now else r
  kept : ∀ id r, s.get? id = some r →
    r.owner.isSome = true ∨ r.active = true ∨ r.unresolved = true → s'.get? id = some r
  sessions : k + s'.live.length = s.live.length
  bytes : payload (s.sweepable.take k) + payload s'.live = payload s.live

theorem sweptTo {policy : StoreRetentionPolicy} {now : Nat} {s : Records} (hs : s.Held) {k : Nat}
    (least : Greedy.Least (·.expired policy now) (s.exceeded policy) s.sweepable k) :
    SweptTo policy now s k (s.retireAll policy now (s.sweepable.take k)) := by
  have hsweep : ∀ x ∈ s.sweepable.take k, x ∈ s.values ∧ x.unprotected = true := fun x hx => by
    obtain ⟨hlive, hu⟩ := Records.mem_sweepable.mp (List.mem_of_mem_take hx)
    exact ⟨(Records.mem_live.mp hlive).1, hu⟩
  have heq := Records.retireAll_eq policy now hs.keyed fun x hx => (hsweep x hx).1
  have hperm := Records.swept_perm policy now hs.keyed k
  have hlength := hperm.length_eq
  rw [List.length_append, List.length_take_of_le least.le] at hlength
  refine ⟨least, fun id => by rw [heq, OrdMap.get?_mapValues], fun id r hr hp => ?_, hlength, ?_⟩
  · rw [heq, OrdMap.get?_mapValues, hr, Option.map_some, if_neg fun hm => ?_]
    obtain ⟨x, hx, he⟩ := List.mem_map.1 hm
    obtain ⟨hv, hu⟩ := hsweep x hx
    rw [Records.eq_of_id hs.keyed hv (OrdMap.mem_values hr) he, unprotected_iff] at hu
    obtain ⟨h1, h2, h3⟩ := hu
    simp [h1, h2, h3] at hp
  · rw [← Records.payload_append]
    exact Records.payload_perm hperm

omit [RecordSerde] in
/-- `retirement_replacement` of a live record: its conditions, and the tombstone. -/
theorem retirementReplacement_some {r new : SessionRecord} {expected now : Nat} {reason : String}
    (h : retirementReplacement r expected now reason = .ok (some new)) :
    r.owner = none ∧ r.active = false ∧ r.unresolved = false ∧ r.revision = expected ∧
      new = (r.retire now reason).withRevision (r.revision + 1) := by
  obtain ⟨_, -, h⟩ := bind_ok h
  obtain ⟨hrev, h⟩ := refuse_bind_ok h
  obtain rfl : r.revision = expected := bne_eq_false_iff_eq.mp hrev
  split at h
  · cases h
  · obtain ⟨hidle, h⟩ := refuse_bind_ok h
    obtain ⟨hresolved, h⟩ := refuse_bind_ok h
    obtain ⟨-, h⟩ := refuse_bind_ok h
    obtain ⟨next, hnext, h⟩ := orElse_bind_ok h
    obtain ⟨howner, hactive⟩ := Bool.or_eq_false_iff.1 hidle
    obtain ⟨rfl, -⟩ := checkedSucc_some hnext
    cases h
    exact ⟨by simpa using howner, hactive, hresolved, rfl, rfl⟩

omit [RecordSerde] in
/-- A retirement that is accepted meets its conditions at that moment. -/
theorem retired_idle {s t : SharedStore} (h : SharedStore.Inv s) {id reason : String}
    {expected now : Nat} {p : Pending} (hstep : SharedStore.Step s (.exchange p) t)
    (hw : p.writer = .retire id expected now reason) :
    ∃ r, s.records.get? id = some r ∧ r.owner = none ∧ r.active = false ∧ r.unresolved = false ∧
      r.revision = expected ∧
      t.records = s.records.insert id ((r.retire now reason).withRevision (r.revision + 1)) := by
  cases hstep with
  | exchange under stored =>
    obtain ⟨old, hex⟩ := h.exchanged (by simp [under]) stored
    have hsub := hex.submitted
    have hstored := hex.stored
    have hrecords := hex.records
    rw [hw] at hsub hstored hrecords
    obtain ⟨new, hnew, hs⟩ := submission_some hsub
    obtain ⟨howner, hactive, hresolved, hrev, rfl⟩ := retirementReplacement_some hnew
    refine ⟨old, hstored, howner, hactive, hresolved, hrev, ?_⟩
    rw [hrecords, hs]
    rfl

/-- **The sweep is exact.** Over records of schema 2, each valid and under its own id, whose payload fits
in `u64` and of which those it may retire have a next revision: `sweep_owned` retires the least prefix of
the unprotected live records, by detachment and id, that contains every expired one and meets the
budgets, or all of them; it leaves every other record as it is, and its report counts what it did and
what is left. The table of `SQLiteStore` does as the map of `MemoryStore`. With any other calls between
its steps, a retirement replaces a record that is, at that moment, detached, idle, resolved and at the
revision of the scan. -/
theorem retention_sweep_exact :
    (∀ (policy : StoreRetentionPolicy) (now fuel : Nat) (s : Records), s.Held →
      (∀ r ∈ s.sweepable, r.revision < u64Max) → s.values.length < fuel →
      (∃ k s', SweptTo policy now s k s' ∧
        MemoryStore.sweepOwned policy now fuel s =
          some (.ok (sweepReport policy s s' k), s')) ∧
      ((∀ r ∈ s.values, Storable r ∧ Storable (r.retiredBy policy now)) →
        ∃ k s', SweptTo policy now s k s' ∧
          SQLiteStore.sweepOwned policy now fuel (s.mapValues SessionRecord.row) =
            some (.ok (sweepReport policy s s' k), s'.mapValues SessionRecord.row))) ∧
    ∀ (s₀ s t : SharedStore) (es : List Event) (id reason : String) (expected now : Nat)
      (p : Pending), SharedStore.Initial s₀ → Lts.Run SharedStore.Step s₀ es s →
      SharedStore.Step s (.exchange p) t → p.writer = .retire id expected now reason →
      ∃ r, s.records.get? id = some r ∧ r.owner = none ∧ r.active = false ∧ r.unresolved = false ∧
        r.revision = expected ∧
        t.records = s.records.insert id ((r.retire now reason).withRevision (r.revision + 1)) := by
  refine ⟨fun policy now fuel s hs hrevision hfuel => ⟨?_, fun hst => ?_⟩,
    fun s₀ s t es id reason expected now p h₀ hrun hstep hw => ?_⟩
  · have hgood : ∀ done : List SessionRecord, (∀ x ∈ done, x ∈ s.sweepable) → True :=
      fun _ _ => trivial
    obtain ⟨k, hleast, hsweep⟩ := @Mirrors.sweep _ _ _ _ _ _ mirrors_memory s hs policy now hgood
      hrevision fuel hfuel
    exact ⟨k, _, sweptTo hs hleast, hsweep⟩
  · have hgood : ∀ done : List SessionRecord, (∀ x ∈ done, x ∈ s.sweepable) →
        (∀ id r, (s.retireAll policy now done).get? id = some r → r.recoveryId = id) ∧
        ∀ r ∈ (s.retireAll policy now done).values, Storable r := fun done hdone => by
      have hvalues : ∀ x ∈ done, x ∈ s.values := fun x hx =>
        (Records.mem_live.mp (Records.mem_sweepable.mp (hdone x hx)).1).1
      refine ⟨(hs.left policy now hvalues).keyed, fun r hr => ?_⟩
      rw [Records.retireAll_eq policy now hs.keyed hvalues, OrdMap.values_mapValues] at hr
      obtain ⟨x, hx, rfl⟩ := List.mem_map.1 hr
      split
      · exact (hst x hx).2
      · exact (hst x hx).1
    obtain ⟨k, hleast, hsweep⟩ := mirrors_sqlite.sweep hs hgood hrevision hfuel
    exact ⟨k, _, sweptTo hs hleast, hsweep⟩
  · exact retired_idle (h₀.run hrun) hstep hw

/-- A record that is alone, due and at the last revision is passed over. -/
theorem exhausted_passed {s : Records} (hs : s.Held) {r : SessionRecord} (hlive : s.live = [r])
    (hr : Retirable r) (hlast : ¬ r.revision < u64Max) {policy : StoreRetentionPolicy} {now : Nat}
    (hexpired : r.expired policy now = true) {fuel : Nat} (hfuel : s.values.length < fuel) :
    ∃ report : RetentionReport, report.retired = 0 ∧
      MemoryStore.sweepOwned policy now fuel s = some (.ok report, s) := by
  have hmem : r ∈ s.values := (Records.mem_live.mp (hlive ▸ List.mem_singleton_self r)).1
  have hrefused := hr.retireDetached_last hlast (Records.get_self hs.keyed hmem) now
    (sweepReason (r.expired policy now))
  have hsize := (hs.left policy now (List.forall_mem_nil _)).size
  have hmetadata : MemoryStore.metadata s fuel = some (.ok (s.live.map (·.scanned))) :=
    mirrors_memory.metadata trivial hs.keyed hsize hfuel
  rw [hlive, List.map_singleton] at hmetadata
  have hforgotten : r.scanned.forgotten = false := hr.live
  have hprotected : (r.scanned.forgotten || r.scanned.protectedActive || r.scanned.protectedUnknown) =
      false := by
    rw [hforgotten]
    simpa [SessionRecord.scanned, SessionRecord.unprotected] using hr.unprotected
  have hdue : r.scanned.expired policy now = true := hexpired
  have hexamine : Sweep.examine ({ state := s } : Sweep Records) r.scanned =
      { state := s, report := { examined := 1 }, sessions := 1
        bytes := saturatingAdd 0 r.scanned.payloadBytes } := by
    rw [Sweep.examine, if_neg (by simp [hforgotten])]
  have hrow : ∀ w : Sweep Records, w.state = s → w.row MemoryStore policy now r.scanned = .ok w := by
    rintro w rfl
    rw [hexpired] at hrefused
    unfold Sweep.row
    rw [hprotected, if_neg Bool.false_ne_true, hdue]
    dsimp only
    rw [Bool.not_true, Bool.false_and, if_neg Bool.false_ne_true,
      show MemoryStore.retireDetached w.state r.scanned.recoveryId r.scanned.revision now
        (sweepReason true) = .error .conflict from hrefused]
    rfl
  refine ⟨((({ examined := 1 } : RetentionReport).remaining r.scanned).unmet policy), ?_, ?_⟩
  · rw [RetentionReport.remaining, if_neg (by simp [hforgotten])]
    rfl
  · unfold SessionStore.sweepOwned
    rw [hmetadata]
    dsimp only [List.foldl_cons, List.foldl_nil]
    rw [List.mergeSort_singleton, hexamine, Sweep.rows, hrow _ rfl]
    dsimp only [Sweep.rows]
    rw [hmetadata]
    rfl

/-- The sweep of such a record is not exact. -/
theorem exhausted_unswept {s : Records} (hs : s.Held) {r : SessionRecord} (hlive : s.live = [r])
    (hr : Retirable r) (hlast : ¬ r.revision < u64Max) {policy : StoreRetentionPolicy} {now : Nat}
    (hexpired : r.expired policy now = true) {fuel : Nat} (hfuel : s.values.length < fuel) :
    ¬ ∃ k s', SweptTo policy now s k s' ∧
      MemoryStore.sweepOwned policy now fuel s = some (.ok (sweepReport policy s s' k), s') := by
  rintro ⟨k, s', hswept, hsweep⟩
  obtain ⟨report, hnone, hpassed⟩ := exhausted_passed hs hlive hr hlast hexpired hfuel
  rw [hpassed] at hsweep
  cases hsweep
  -- nothing was taken, although the record is due
  obtain rfl : k = 0 := hnone
  have hsweepable : r ∈ s.sweepable :=
    Records.mem_sweepable.mpr ⟨hlive ▸ List.mem_singleton_self r, hr.unprotected⟩
  have hmust := hswept.least.enough.must r hsweepable
  rw [hexpired] at hmust
  cases hmust

end

end

namespace Sample

/-- The sample session, detached at the last revision. -/
def exhausted : SessionRecord :=
  { record with owner := none, threadId := none, detachedSinceMs := some 7, revision := u64Max }

/-- The sample session, detached. -/
def idling : SessionRecord := { exhausted with revision := 1 }

/-- Detached sessions are retired after a millisecond. -/
def expiry : StoreRetentionPolicy := { detachedTtlMs := some 1 }

theorem exhausted_values : (store exhausted).values = [exhausted] := rfl

theorem idling_values : (store idling).values = [idling] := rfl

theorem held {serde : RecordSerde} {r : SessionRecord} (hid : r.recoveryId = recoveryId)
    (hvalues : (store r).values = [r]) (hvalid : @SessionRecord.validate external r = .ok ())
    (hschema : r.schemaVersion = 2) (hbytes : @SessionRecord.payloadBytes serde r ≤ u64Max) :
    @Records.Held serde external (store r) := by
  have hmem : ∀ x ∈ (store r).values, x = r := by
    rw [hvalues]
    exact fun x hx => List.mem_singleton.mp hx
  refine @Records.Held.mk serde external _ (fun id x hx => ?_) (fun x hx => ?_) (fun x hx => ?_) ?_
  · obtain ⟨rfl, rfl⟩ := store_get hx
    exact hid
  · rw [hmem x hx]
    exact (@validate_ok_iff external _).mp hvalid
  · rw [hmem x hx]
    exact hschema
  · have hpayload : @payload serde (store r).live ≤ @payload serde [r] := by
      rw [Records.live, hvalues]
      cases hf : r.forgotten <;> simp [hf, payload]
    exact hpayload.trans (by simpa [payload] using hbytes)

theorem exhausted_held : @Records.Held blankSerde external (store exhausted) :=
  held rfl exhausted_values rfl rfl (by decide +kernel)

end Sample

/-- A record at the last revision outlives its time: the sweep passes over the conflict. -/
theorem revision_exhausted_kept : ¬ ∀ (policy : StoreRetentionPolicy) (now fuel : Nat) (s : Records),
    @Records.Held Sample.blankSerde Sample.external s → s.values.length < fuel →
    ∃ k s', @SweptTo Sample.blankSerde policy now s k s' ∧
      (@MemoryStore Sample.external Sample.blankSerde).sweepOwned policy now fuel s =
        some (.ok (@sweepReport Sample.blankSerde policy s s' k), s') := by
  intro h
  have hheld := Sample.exhausted_held
  have hvalid := @Records.Held.valid Sample.blankSerde Sample.external _ hheld Sample.exhausted
    (List.mem_singleton_self _)
  have hretirable := @Retirable.mk Sample.external Sample.exhausted hvalid rfl rfl rfl
  exact @exhausted_unswept Sample.blankSerde Sample.external _ hheld Sample.exhausted rfl hretirable
    (Nat.lt_irrefl _) Sample.expiry 9 rfl 2 (by decide)
    (h Sample.expiry 9 2 (Sample.store Sample.exhausted) hheld (by decide))

namespace Sample

/-- The detached session as the sweep retires it. -/
def swept : SessionRecord := (idling.retire 9 "detached_ttl").withRevision 2

/-- The members that the two records share. -/
def idText : String :=
  "\"recovery_id\":\"00000000-0000-4000-8000-000000000001\"," ++
  "\"secret_digest\":\"60e05bd1b195af2f94112fa7197a5c88289058840ce7c6df9693756bc6250f55\","

def idlingText : String :=
  "\x7b\"schema_version\":2,\"created_at_ms\":7,\"updated_at_ms\":7,\"detached_since_ms\":7," ++
  "\"retired_at_ms\":null,\"retirement_reason\":null," ++ idText ++
  "\"revision\":1,\"epoch\":1,\"owner\":null,\"thread_id\":null," ++
  "\"historical_thread_ids\":[\"thread\"],\"forgotten\":false,\"configuration\":\x7b\x7d,\"history\":[]," ++
  "\"runs\":\x7b\x7d,\"unknown_executions\":[]\x7d"

def sweptText : String :=
  "\x7b\"schema_version\":2,\"created_at_ms\":7,\"updated_at_ms\":9,\"detached_since_ms\":null," ++
  "\"retired_at_ms\":9,\"retirement_reason\":\"detached_ttl\"," ++ idText ++
  "\"revision\":2,\"epoch\":1,\"owner\":null,\"thread_id\":null," ++
  "\"historical_thread_ids\":[],\"forgotten\":true,\"configuration\":\x7b\x7d,\"history\":[]," ++
  "\"runs\":\x7b\x7d,\"unknown_executions\":[]\x7d"

/-- Serialization of the two records. -/
@[reducible] def sweepSerde : RecordSerde :=
  { blankSerde with
    toText := fun r => if r.forgotten then sweptText else idlingText
    fromText := fun text =>
      if text = idlingText then .ok idling
      else if text = sweptText then .ok swept
      else .error "not a sample input"
    parse := fun text =>
      if text = idlingText then some (@SessionRecord.document blankSerde idling)
      else if text = sweptText then some (@SessionRecord.document blankSerde swept)
      else none }

theorem swept_text : sweptText ≠ idlingText := by decide +kernel

theorem idling_storable : @Storable sweepSerde idling :=
  @Storable.mk sweepSerde idling (if_pos rfl) (if_pos rfl) (by decide) (by decide +kernel)

theorem swept_storable : @Storable sweepSerde swept :=
  @Storable.mk sweepSerde swept ((if_neg swept_text).trans (if_pos rfl))
    ((if_neg swept_text).trans (if_pos rfl)) (by decide) (by decide +kernel)

theorem idling_held : @Records.Held sweepSerde external (store idling) :=
  held rfl idling_values rfl rfl (by decide +kernel)

/-- The retirement of the session between its load and its exchange. -/
def retiring : Pending :=
  ⟨.retire recoveryId 1 9 "detached_ttl", idling, ⟨1, swept, none⟩⟩

end Sample

/-- The detached session is swept from either backend, and retired by a sweep under way. -/
theorem retention_sweep_exact_sample :
    (∃ k s', @SweptTo Sample.sweepSerde Sample.expiry 9 (Sample.store Sample.idling) k s' ∧
      (@MemoryStore Sample.external Sample.sweepSerde).sweepOwned Sample.expiry 9 2
        (Sample.store Sample.idling) =
          some (.ok (@sweepReport Sample.sweepSerde Sample.expiry (Sample.store Sample.idling) s' k), s')) ∧
    (∃ k s', @SweptTo Sample.sweepSerde Sample.expiry 9 (Sample.store Sample.idling) k s' ∧
      (@SQLiteStore Sample.sweepSerde Sample.external).sweepOwned Sample.expiry 9 2
        ((Sample.store Sample.idling).mapValues (@SessionRecord.row Sample.sweepSerde)) =
          some (.ok (@sweepReport Sample.sweepSerde Sample.expiry (Sample.store Sample.idling) s' k),
            s'.mapValues (@SessionRecord.row Sample.sweepSerde))) ∧
    ∃ t, @SharedStore.Step Sample.external ⟨Sample.store Sample.idling, [], [Sample.retiring]⟩
      (.exchange Sample.retiring) t ∧
        t.records = (Sample.store Sample.idling).insert Sample.recoveryId Sample.swept := by
  obtain ⟨hsweep, hretired⟩ := @retention_sweep_exact Sample.sweepSerde Sample.external
  have hmem : ∀ r ∈ (Sample.store Sample.idling).values, r = Sample.idling :=
    fun r hr => List.mem_singleton.mp hr
  obtain ⟨hmemory, hsqlite⟩ := hsweep Sample.expiry 9 2 (Sample.store Sample.idling)
    Sample.idling_held (fun r hr => by
      have hlive := ((@Records.mem_sweepable Sample.sweepSerde _ _).mp hr).1
      rw [hmem r (Records.mem_live.mp hlive).1]
      decide) (by decide)
  refine ⟨hmemory, hsqlite fun r hr => ?_, ?_⟩
  · rw [hmem r hr]
    exact ⟨Sample.idling_storable, Sample.swept_storable⟩
  have h₀ : @SharedStore.Initial Sample.external ⟨Sample.store Sample.idling, [], []⟩ :=
    @SharedStore.Initial.mk Sample.external _ (fun id r h => by
      obtain ⟨rfl, rfl⟩ := Sample.store_get h
      rfl) (fun id r h => by
      obtain ⟨rfl, rfl⟩ := Sample.store_get h
      rfl) rfl rfl
  have hload : @SharedStore.Step Sample.external ⟨Sample.store Sample.idling, [], []⟩
      (.load Sample.retiring) ⟨Sample.store Sample.idling, [], [Sample.retiring]⟩ :=
    @SharedStore.Step.load Sample.external _ _ _ _ trivial (OrdMap.get?_insert_self _ _ _) rfl
  have hexchange := @SharedStore.Step.exchange Sample.external
    ⟨Sample.store Sample.idling, [], [Sample.retiring]⟩ Sample.retiring [] []
    ((Sample.store Sample.idling).insert Sample.recoveryId Sample.swept) rfl rfl
  obtain ⟨r, hr, -, -, -, -, ht⟩ := hretired _ _ _ _ _ _ _ _ _ h₀ (.single hload) hexchange rfl
  obtain ⟨-, rfl⟩ := Sample.store_get hr
  exact ⟨_, hexchange, ht⟩

end Whale
