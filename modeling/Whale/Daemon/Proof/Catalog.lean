import Whale.Daemon.Proof.Tombstones
import Whale.Daemon.Proof.Replay

/-!
# Catalogs and records

`CatalogStep`: what happens to a registry, with every catalog lock held through a step. The catalog entries of an
owner are then the owner's records, one to one, under ordinals that were given out (`CatalogStep.matched`).
A removal takes the entry and its record together (`foldl_removeTombstone`).
-/

namespace Whale

open Check

namespace ManagementProjection

section
variable [External] [EventSerde]

/-- A closed session stays closed. -/
theorem Step.closed {p p' : ManagementProjection} {label : Option SessionEventEnvelopeV2} (hs : Step p label p')
    (h : p.snapshot.lifecycle = .closed) : p'.snapshot.lifecycle = .closed := by
  cases hs with
  | publish _ _ _ prepared => exact absurd h (prepare_ok prepared).1.running
  | retire _ _ prepared =>
    rw [prepareRetireRun_some prepared]
    exact h

end

end ManagementProjection

section
variable [External] [EventSerde] [SnapshotSerde]

/-- A record with a new projection. -/
def CatalogRecord.publish (r : CatalogRecord) {label : Option SessionEventEnvelopeV2} {p : ManagementProjection}
    (step : ManagementProjection.Step r.projection label p) (history : HistoryArchive)
    (acceptingMetadata : Bool) : CatalogRecord :=
  { r with
    projection := p
    history
    acceptingMetadata
    closed := fun h => step.closed (r.closed h) }

omit [External] [EventSerde] [SnapshotSerde] in
/-- A record whose session has become `Closed`. -/
def CatalogRecord.close (r : CatalogRecord) (now : Nat) (lifecycle : r.projection.snapshot.lifecycle = .closed) :
    CatalogRecord :=
  { r with closedAt := some now, closed := fun _ => lifecycle }

/-- What happens to a registry: a session is inserted, a record publishes an event or forgets a run, a session
that has become `Closed` gets its time, and an owner's tombstones are pruned. -/
inductive CatalogEvent where
  | inserted (owner threadId : String)
  | published (threadId : String) (event : Option SessionEventEnvelopeV2)
  | closed (threadId : String)
  | pruned (owner : String)

inductive CatalogStep : SessionManagementRegistry → CatalogEvent → SessionManagementRegistry → Prop
  | insert {r r' : SessionManagementRegistry} (owner threadId : String) (agentName : Option String)
      (metadata : JsonMap) (history : List CanonicalItem) (createdAtMs : Nat) (persistence : SessionPersistence)
      (maxHistoryBytes : Option Nat) (streamId : String) (identity : Nat)
      (inserted : r.insert owner threadId agentName metadata history createdAtMs persistence maxHistoryBytes
        streamId identity = .ok r') :
      CatalogStep r (.inserted owner threadId) r'
  | publish {r : SessionManagementRegistry} {record : CatalogRecord} {p : ManagementProjection}
      {history : HistoryArchive} {label : Option SessionEventEnvelopeV2} (threadId : String)
      (items : List CanonicalItem) (acceptingMetadata : Bool) (found : r.records.get? threadId = some record)
      (step : ManagementProjection.Step record.projection label p)
      (archived : record.history.append items = .ok history) :
      CatalogStep r (.published threadId label)
        { r with records := r.records.insert threadId (record.publish step history acceptingMetadata) }
  | close {r : SessionManagementRegistry} {record : CatalogRecord} (threadId : String) (now : Nat)
      (found : r.records.get? threadId = some record) (fresh : record.closedAt = none)
      (lifecycle : record.projection.snapshot.lifecycle = .closed) :
      CatalogStep r (.closed threadId)
        { r with records := r.records.insert threadId (record.close now lifecycle) }
  | prune (r : SessionManagementRegistry) (limits : ManagementLimits) (now : Nat) (owner : String)
      (protectedRecord : Option Nat) :
      CatalogStep r (.pruned owner) (r.pruneOwner limits now owner protectedRecord)

end

namespace SessionManagementRegistry

/-- Catalog entries and records, one to one. -/
def Matched (r : SessionManagementRegistry) : Prop :=
  ∀ owner ordinal threadId, (r.ownerCatalog owner).entries.get? ordinal = some threadId ↔
    ∃ record, r.records.get? threadId = some record ∧ record.owner = owner ∧ record.catalogOrdinal = ordinal

/-! ## Removals -/

/-- A catalog with its lock held and the records. -/
abbrev Locked := OrdMap String CatalogRecord × OwnerCatalogState

/-- A closed session of the catalog and its record. -/
def Held (owner : String) (s : Locked) (c : ClosedSession) : Prop :=
  s.2.entries.get? c.ordinal = some c.threadId ∧
    ∃ record, s.1.get? c.threadId = some record ∧ record.owner = owner ∧
      record.catalogOrdinal = c.ordinal ∧ record.closedAt.isSome = true

/-- `n` removals, on the generation. -/
def Advanced (s s' : OwnerCatalogState) (n : Nat) : Prop :=
  (s.generation + n ≤ u64Max → s'.generation = s.generation + n ∧
    s'.generationExhausted = s.generationExhausted) ∧
  (u64Max < s.generation + n → s'.generation = u64Max ∧ s'.generationExhausted = true)

theorem removeTombstone_held {limits : ManagementLimits} {owner : String} {s : Locked} {c : ClosedSession}
    (h : Held owner s c) : removeTombstone limits owner s c.ordinal =
      (s.1.erase c.threadId,
        (({ s.2 with entries := s.2.entries.erase c.ordinal }).remember limits c.threadId).advance) := by
  obtain ⟨hentry, record, hrecord, howner, hordinal, hclosed⟩ := h
  unfold removeTombstone
  rw [hentry]
  simp [hrecord, howner, hordinal, hclosed]

@[simp] theorem advance_entries (s : OwnerCatalogState) : s.advance.entries = s.entries := by
  unfold OwnerCatalogState.advance
  split <;> rfl

@[simp] theorem advance_nextOrdinal (s : OwnerCatalogState) : s.advance.nextOrdinal = s.nextOrdinal := by
  unfold OwnerCatalogState.advance
  split <;> rfl

theorem advance_advanced {s : OwnerCatalogState} (h : s.generation ≤ u64Max) : Advanced s s.advance 1 := by
  unfold OwnerCatalogState.advance checkedSucc
  split
  · rename_i g hg
    split at hg
    · cases hg
      exact ⟨fun _ => ⟨rfl, rfl⟩, fun hlt => by omega⟩
    · cases hg
  · rename_i hg
    split at hg
    · cases hg
    · refine ⟨fun hle => by omega, fun _ => ⟨?_, rfl⟩⟩
      show s.generation = u64Max
      omega

theorem Advanced.le {s s' : OwnerCatalogState} {n : Nat} (h : Advanced s s' n) :
    s'.generation ≤ u64Max := by
  by_cases hn : s.generation + n ≤ u64Max
  · rw [(h.1 hn).1]
    exact hn
  · rw [(h.2 (by omega)).1]

theorem Advanced.trans {s s' s'' : OwnerCatalogState} {m n : Nat} (h : Advanced s s' m) (h' : Advanced s' s'' n) :
    Advanced s s'' (m + n) := by
  by_cases hm : s.generation + m ≤ u64Max
  · obtain ⟨hgen, hexhausted⟩ := h.1 hm
    refine ⟨fun hle => ?_, fun hlt => h'.2 (by omega)⟩
    obtain ⟨hgen', hexhausted'⟩ := h'.1 (by omega)
    exact ⟨by omega, hexhausted'.trans hexhausted⟩
  · obtain ⟨hgen, hexhausted⟩ := h.2 (by omega)
    refine ⟨fun hle => by omega, fun hlt => ?_⟩
    by_cases hn : s'.generation + n ≤ u64Max
    · obtain ⟨hgen', hexhausted'⟩ := h'.1 hn
      exact ⟨by omega, hexhausted'.trans hexhausted⟩
    · exact h'.2 (by omega)

/-- What the removals leave. -/
theorem foldl_removeTombstone {limits : ManagementLimits} {owner : String} {removed : List ClosedSession}
    {s : Locked} (hheld : ∀ c ∈ removed, Held owner s c) (hn : (removed.map (·.ordinal)).Nodup)
    (hgen : s.2.generation ≤ u64Max) {s' : Locked}
    (hs' : s' = (removed.map (·.ordinal)).foldl (removeTombstone limits owner) s) :
    (∀ threadId, s'.1.get? threadId =
      if threadId ∈ removed.map (·.threadId) then none else s.1.get? threadId) ∧
    (∀ ordinal, s'.2.entries.get? ordinal =
      if ordinal ∈ removed.map (·.ordinal) then none else s.2.entries.get? ordinal) ∧
    s'.2.nextOrdinal = s.2.nextOrdinal ∧ Advanced s.2 s'.2 removed.length := by
  induction removed generalizing s with
  | nil =>
    subst hs'
    exact ⟨by simp, by simp, rfl, ⟨fun _ => ⟨rfl, rfl⟩, fun hlt => by simp at hlt; omega⟩⟩
  | cons c removed ih =>
    obtain ⟨hfirst, hrest⟩ := List.nodup_cons.1 hn
    have hc := hheld c List.mem_cons_self
    obtain ⟨-, record, hrecord, -, hordinal, -⟩ := hheld c List.mem_cons_self
    rw [List.map_cons, List.foldl_cons, removeTombstone_held hc] at hs'
    -- the others are still there: another ordinal is another thread
    have hothers : ∀ d ∈ removed, Held owner (s.1.erase c.threadId,
        (({ s.2 with entries := s.2.entries.erase c.ordinal }).remember limits c.threadId).advance) d := by
      intro d hd
      obtain ⟨hdentry, drecord, hdrecord, hdowner, hdordinal, hdclosed⟩ := hheld d (List.mem_cons_of_mem _ hd)
      have hne : c.ordinal ≠ d.ordinal := fun heq => by
        apply hfirst
        show c.ordinal ∈ _
        rw [heq]
        exact List.mem_map_of_mem hd
      have hthread : c.threadId ≠ d.threadId := by
        intro heq
        rw [← heq, hrecord] at hdrecord
        cases hdrecord
        exact hne (hordinal.symm.trans hdordinal)
      refine ⟨?_, drecord, ?_, hdowner, hdordinal, hdclosed⟩
      · rw [advance_entries]
        exact (OrdMap.get?_erase_ne _ hne).trans hdentry
      · exact (OrdMap.get?_erase_ne _ hthread).trans hdrecord
    have hadvanced := advance_advanced
      (s := ({ s.2 with entries := s.2.entries.erase c.ordinal }).remember limits c.threadId) hgen
    obtain ⟨hrecords, hentries, hnext, hmore⟩ := ih hothers hrest hadvanced.le hs'
    refine ⟨fun threadId => ?_, fun ordinal => ?_, ?_, ?_⟩
    · rw [hrecords, OrdMap.get?_erase]
      simp only [List.map_cons, List.mem_cons]
      by_cases hthread : threadId = c.threadId
      · simp [hthread]
      · simp [hthread, Ne.symm hthread]
    · rw [hentries, advance_entries]
      show (if _ then none else (s.2.entries.erase c.ordinal).get? ordinal) = _
      rw [OrdMap.get?_erase]
      simp only [List.map_cons, List.mem_cons]
      by_cases heq : ordinal = c.ordinal
      · simp [heq]
      · simp [heq, Ne.symm heq]
    · rw [hnext, advance_nextOrdinal]
      rfl
    · rw [List.length_cons, Nat.add_comm]
      exact Advanced.trans hadvanced hmore

/-! ## The candidates -/

section
variable [SnapshotSerde] {r : SessionManagementRegistry}

theorem mem_candidates {entries : OrdMap Nat String} {c : ClosedSession} :
    c ∈ r.candidates entries ↔ entries.get? c.ordinal = some c.threadId ∧
      ∃ record, r.records.get? c.threadId = some record ∧ record.closedAt = some c.closedAt ∧
        record.identity = c.identity ∧ record.retainedBytes = c.bytes := by
  rw [candidates, List.mem_mergeSort, List.mem_filterMap]
  constructor
  · rintro ⟨⟨ordinal, threadId⟩, he, hc⟩
    rw [← OrdMap.get?_eq_some_iff] at he
    unfold candidate at hc
    simp only [Option.bind_eq_bind, Option.bind_eq_some_iff] at hc
    obtain ⟨record, hrecord, closedAt, hclosed, hc⟩ := hc
    cases hc
    exact ⟨he, record, hrecord, hclosed, rfl, rfl⟩
  · rintro ⟨hentry, record, hrecord, hclosed, hidentity, hbytes⟩
    refine ⟨(c.ordinal, c.threadId), OrdMap.get?_eq_some_iff.1 hentry, ?_⟩
    unfold candidate
    simp only [hrecord, hclosed, hidentity, hbytes, Option.bind_eq_bind, Option.bind_some]

theorem numbered_candidates (entries : OrdMap Nat String) :
    ClosedSession.Numbered (r.candidates entries) := by
  have hperm := (List.mergeSort_perm (entries.entries.filterMap r.candidate) ClosedSession.before).map
    fun c : ClosedSession => c.ordinal
  refine hperm.nodup_iff.2 ?_
  -- an entry keeps its ordinal
  have hsub : ∀ es : List (Nat × String),
      ((es.filterMap r.candidate).map fun c => c.ordinal).Sublist (es.map (·.1)) := by
    intro es
    induction es with
    | nil => exact .slnil
    | cons e es ih =>
      rw [List.map_cons]
      cases hc : r.candidate e with
      | none =>
        rw [List.filterMap_cons_none hc]
        exact ih.cons _
      | some c =>
        have hordinal : c.ordinal = e.1 := by
          unfold candidate at hc
          simp only [Option.bind_eq_bind, Option.bind_eq_some_iff] at hc
          obtain ⟨_, -, _, -, hc⟩ := hc
          cases hc
          rfl
        rw [List.filterMap_cons_some hc, List.map_cons, hordinal]
        exact ih.cons_cons _
  exact (hsub _).nodup entries.nodup_keys

theorem sorted_candidates (entries : OrdMap Nat String) :
    (r.candidates entries).Pairwise fun a b =>
      a.closedAt < b.closedAt ∨ a.closedAt = b.closedAt ∧ a.ordinal < b.ordinal := by
  have hsorted : (r.candidates entries).Pairwise fun a b => ClosedSession.before a b = true := by
    refine List.pairwise_mergeSort (fun a b c => ?_) (fun a b => ?_) _
    · simp only [ClosedSession.before, Bool.or_eq_true, Bool.and_eq_true, decide_eq_true_eq]
      omega
    · simp only [ClosedSession.before, Bool.or_eq_true, Bool.and_eq_true, decide_eq_true_eq]
      omega
  have hdistinct : (r.candidates entries).Pairwise fun a b => a.ordinal ≠ b.ordinal :=
    List.pairwise_map.1 (numbered_candidates entries)
  refine (hsorted.and hdistinct).imp fun {a b} h => ?_
  obtain ⟨hle, hne⟩ := h
  simp only [ClosedSession.before, Bool.or_eq_true, Bool.and_eq_true, decide_eq_true_eq] at hle
  omega

/-- What is left when some sessions of an owner are removed. -/
structure Removed (owner : String) (removed : List ClosedSession) (r r' : SessionManagementRegistry) : Prop where
  records : ∀ threadId, r'.records.get? threadId =
    if threadId ∈ removed.map (·.threadId) then none else r.records.get? threadId
  entries : ∀ ordinal, (r'.ownerCatalog owner).entries.get? ordinal =
    if ordinal ∈ removed.map (·.ordinal) then none else (r.ownerCatalog owner).entries.get? ordinal
  next : (r'.ownerCatalog owner).nextOrdinal = (r.ownerCatalog owner).nextOrdinal
  generation : Advanced (r.ownerCatalog owner) (r'.ownerCatalog owner) removed.length
  others : ∀ other, other ≠ owner → r'.ownerCatalog other = r.ownerCatalog other

/-- A removed session is there under its ordinal, closed. -/
theorem Matched.held (h : r.Matched) {owner : String} {c : ClosedSession}
    (hc : c ∈ r.candidates (r.ownerCatalog owner).entries) :
    Held owner (r.records, r.ownerCatalog owner) c := by
  obtain ⟨hentry, record, hrecord, hclosed, -, -⟩ := mem_candidates.1 hc
  obtain ⟨record', hrecord', howner, hordinal⟩ := (h owner c.ordinal c.threadId).1 hentry
  rw [hrecord] at hrecord'
  cases hrecord'
  exact ⟨hentry, record, hrecord, howner, hordinal, by rw [hclosed]; rfl⟩

omit [SnapshotSerde] in
theorem ownerCatalog_insert (r : SessionManagementRegistry) (records : OrdMap String CatalogRecord)
    (owner : String) (state : OwnerCatalogState) (other : String) :
    (⟨records, r.owners.insert owner state⟩ : SessionManagementRegistry).ownerCatalog other =
      if owner = other then state else r.ownerCatalog other := by
  unfold ownerCatalog
  rw [OrdMap.get?_insert]
  split <;> rfl

/-- Pruning removes what `tombstones` names. -/
theorem Matched.pruneOwner (h : r.Matched) {owner : String}
    (hgen : (r.ownerCatalog owner).generation ≤ u64Max) (limits : ManagementLimits) (now : Nat)
    (protectedRecord : Option Nat) {removed : List ClosedSession}
    (hsub : removed ⊆ r.candidates (r.ownerCatalog owner).entries) (hnodup : (removed.map (·.ordinal)).Nodup)
    (htombs : tombstones limits now protectedRecord (r.candidates (r.ownerCatalog owner).entries) =
      removed.map (·.ordinal)) :
    Removed owner removed r (r.pruneOwner limits now owner protectedRecord) := by
  unfold SessionManagementRegistry.pruneOwner
  cases howner : r.owners.get? owner with
  | none =>
    -- no catalog, no candidates
    have hempty : r.ownerCatalog owner = {} := by
      unfold ownerCatalog
      rw [howner]
      rfl
    have hnone : removed = [] := by
      refine List.eq_nil_iff_forall_not_mem.2 fun c hc => ?_
      have hentry := (mem_candidates.1 (hsub hc)).1
      rw [hempty] at hentry
      cases hentry
    subst hnone
    exact ⟨by simp, by simp, rfl, ⟨fun _ => ⟨rfl, rfl⟩, fun hlt => by simp at hlt; omega⟩, fun _ _ => rfl⟩
  | some state =>
    have hstate : r.ownerCatalog owner = state := by
      unfold ownerCatalog
      rw [howner]
      rfl
    rw [hstate] at htombs hsub hgen
    simp only [htombs]
    obtain ⟨hrecords, hentries, hnext, hadvanced⟩ := foldl_removeTombstone
      (fun c hc => hstate ▸ h.held (hstate.symm ▸ hsub hc)) hnodup hgen
      (show _ = (removed.map (·.ordinal)).foldl (removeTombstone limits owner) (r.records, state) from rfl)
    refine ⟨hrecords, fun ordinal => ?_, ?_, ?_, fun other hother => ?_⟩
    · rw [ownerCatalog_insert, if_pos rfl, hstate]
      exact hentries ordinal
    · rw [ownerCatalog_insert, if_pos rfl, hstate]
      exact hnext
    · rw [ownerCatalog_insert, if_pos rfl, hstate]
      exact hadvanced
    · rw [ownerCatalog_insert, if_neg (Ne.symm hother)]

end

/-! ## What holds of every registry -/

section
variable [External]

/-- What holds of every registry. -/
structure Kept (r : SessionManagementRegistry) : Prop where
  matched : r.Matched
  range : ∀ owner ordinal threadId, (r.ownerCatalog owner).entries.get? ordinal = some threadId →
    1 ≤ ordinal ∧ ordinal < (r.ownerCatalog owner).nextOrdinal
  next : ∀ owner, 1 ≤ (r.ownerCatalog owner).nextOrdinal ∧ (r.ownerCatalog owner).nextOrdinal ≤ u64Max
  generation : ∀ owner, (r.ownerCatalog owner).generation ≤ u64Max
  good : ∀ threadId record, r.records.get? threadId = some record →
    record.projection.snapshot.validate = .ok () ∧ record.projection.snapshot.cursor.threadId = threadId

theorem Kept.empty : Kept {} where
  matched owner ordinal threadId := by
    constructor
    · intro h
      cases h
    · rintro ⟨_, h, -⟩
      cases h
  range _ _ _ h := by cases h
  next _ := ⟨Nat.le_refl 1, (by decide : 1 ≤ u64Max)⟩
  generation _ := Nat.zero_le _
  good _ _ h := by cases h

variable {r r' : SessionManagementRegistry}

/-- A record that keeps its owner and its ordinal. -/
theorem Kept.update (h : r.Kept) {threadId : String} {record record' : CatalogRecord}
    (hfound : r.records.get? threadId = some record) (howner : record'.owner = record.owner)
    (hordinal : record'.catalogOrdinal = record.catalogOrdinal)
    (hgood : record'.projection.snapshot.validate = .ok () ∧
      record'.projection.snapshot.cursor.threadId = threadId) :
    Kept { r with records := r.records.insert threadId record' } where
  matched owner ordinal thread := by
    show (r.ownerCatalog owner).entries.get? ordinal = some thread ↔ _
    rw [h.matched owner ordinal thread]
    by_cases heq : threadId = thread
    · subst heq
      simp [hfound, howner, hordinal]
    · simp only [OrdMap.get?_insert_ne _ _ heq]
  range := h.range
  next := h.next
  generation := h.generation
  good thread found hget := by
    rw [OrdMap.get?_insert] at hget
    split at hget
    · rename_i heq
      cases hget
      exact heq ▸ hgood
    · exact h.good thread found hget

/-- What a removal keeps. -/
theorem Kept.removed [SnapshotSerde] (h : r.Kept) {owner : String} {removed : List ClosedSession}
    (hsub : removed ⊆ r.candidates (r.ownerCatalog owner).entries)
    (hr : Removed owner removed r r') : r'.Kept where
  matched other ordinal threadId := by
    have hheld : ∀ c ∈ removed, Held owner (r.records, r.ownerCatalog owner) c := fun c hc =>
      h.matched.held (hsub hc)
    rw [hr.records]
    by_cases hother : other = owner
    · subst hother
      rw [hr.entries]
      -- the entry and the record of a removed session go together
      by_cases hgone : ordinal ∈ removed.map (·.ordinal)
      · rw [if_pos hgone]
        refine ⟨nofun, ?_⟩
        rintro ⟨record, hrecord, howner, hordinal⟩
        split at hrecord
        · cases hrecord
        · rename_i hthread
          obtain ⟨c, hc, rfl⟩ := List.mem_map.1 hgone
          obtain ⟨hentry, -⟩ := hheld c hc
          rw [(h.matched other c.ordinal threadId).2 ⟨record, hrecord, howner, hordinal⟩] at hentry
          cases hentry
          exact absurd (List.mem_map_of_mem hc) hthread
      · rw [if_neg hgone, h.matched other ordinal threadId]
        refine ⟨?_, ?_⟩
        · rintro ⟨record, hrecord, howner, hordinal⟩
          refine ⟨record, ?_, howner, hordinal⟩
          rw [if_neg, hrecord]
          intro hthread
          obtain ⟨c, hc, rfl⟩ := List.mem_map.1 hthread
          obtain ⟨-, record', hrecord', -, hordinal', -⟩ := hheld c hc
          rw [hrecord] at hrecord'
          cases hrecord'
          exact hgone (List.mem_map.2 ⟨c, hc, hordinal'.symm.trans hordinal⟩)
        · rintro ⟨record, hrecord, howner, hordinal⟩
          split at hrecord
          · cases hrecord
          · exact ⟨record, hrecord, howner, hordinal⟩
    · rw [hr.others other hother, h.matched other ordinal threadId]
      refine ⟨?_, ?_⟩
      · rintro ⟨record, hrecord, howner, hordinal⟩
        refine ⟨record, ?_, howner, hordinal⟩
        rw [if_neg, hrecord]
        intro hthread
        obtain ⟨c, hc, rfl⟩ := List.mem_map.1 hthread
        obtain ⟨-, record', hrecord', howner', -, -⟩ := hheld c hc
        rw [hrecord] at hrecord'
        cases hrecord'
        exact hother (howner.symm.trans howner')
      · rintro ⟨record, hrecord, howner, hordinal⟩
        split at hrecord
        · cases hrecord
        · exact ⟨record, hrecord, howner, hordinal⟩
  range other ordinal threadId hentry := by
    by_cases hother : other = owner
    · subst hother
      rw [hr.entries] at hentry
      rw [hr.next]
      split at hentry
      · cases hentry
      · exact h.range other ordinal threadId hentry
    · rw [hr.others other hother] at hentry ⊢
      exact h.range other ordinal threadId hentry
  next other := by
    by_cases hother : other = owner
    · subst hother
      rw [hr.next]
      exact h.next other
    · rw [hr.others other hother]
      exact h.next other
  generation other := by
    by_cases hother : other = owner
    · subst hother
      exact hr.generation.le
    · rw [hr.others other hother]
      exact h.generation other
  good threadId record hrecord := by
    rw [hr.records] at hrecord
    split at hrecord
    · cases hrecord
    · exact h.good threadId record hrecord

/-- Pruning removes some closed sessions, and never a protected one. -/
theorem Kept.prune [SnapshotSerde] (h : r.Kept) (limits : ManagementLimits) (now : Nat) (owner : String)
    (protectedRecord : Option Nat) :
    ∃ removed, removed ⊆ r.candidates (r.ownerCatalog owner).entries ∧
      (∀ c ∈ removed, c.exempt protectedRecord = false) ∧
      Removed owner removed r (r.pruneOwner limits now owner protectedRecord) := by
  obtain ⟨removed, htombs, hsub, hnodup, hexempt⟩ :=
    tombstones_sub limits now protectedRecord (numbered_candidates (r.ownerCatalog owner).entries)
  exact ⟨removed, hsub, hexempt, h.matched.pruneOwner (h.generation owner) limits now protectedRecord hsub
    hnodup htombs⟩

variable [EventSerde]

/-- A session that is inserted takes the next ordinal. -/
theorem insert_ok {owner threadId : String} {agentName : Option String} {metadata : JsonMap}
    {history : List CanonicalItem} {createdAtMs : Nat} {persistence : SessionPersistence}
    {maxHistoryBytes : Option Nat} {streamId : String} {identity : Nat}
    (hr : r.insert owner threadId agentName metadata history createdAtMs persistence maxHistoryBytes
      streamId identity = .ok r') :
    ∃ record : CatalogRecord, record.owner = owner ∧
      record.catalogOrdinal = (r.ownerCatalog owner).nextOrdinal ∧
      (record.projection.snapshot.validate = .ok () ∧ record.projection.snapshot.cursor.threadId = threadId) ∧
      r.records.get? threadId = none ∧ (r.ownerCatalog owner).nextOrdinal < u64Max ∧
      r' = ⟨r.records.insert threadId record, r.owners.insert owner { r.ownerCatalog owner with
        nextOrdinal := (r.ownerCatalog owner).nextOrdinal + 1
        entries := (r.ownerCatalog owner).entries.insert (r.ownerCatalog owner).nextOrdinal threadId }⟩ := by
  unfold SessionManagementRegistry.insert at hr
  obtain ⟨record, hrecord, hr⟩ := bind_ok hr
  obtain ⟨-, hr⟩ := refuse_bind_ok hr
  obtain ⟨hfresh, hr⟩ := refuse_bind_ok hr
  obtain ⟨next, hnext, hr⟩ := orElse_bind_ok hr
  have hgood := (ManagementRecord.good_of_insert hrecord).snapshot
  have hplace : record.owner = owner ∧ record.projection.snapshot.cursor.threadId = threadId := by
    unfold ManagementRecord.insert at hrecord
    obtain ⟨_, -, hrecord⟩ := bind_ok hrecord
    obtain ⟨_, -, hrecord⟩ := bind_ok hrecord
    obtain ⟨_, -, hrecord⟩ := bind_ok hrecord
    cases hrecord
    exact ⟨rfl, rfl⟩
  unfold checkedSucc at hnext
  split at hnext
  · cases hnext
    cases hr
    refine ⟨{ record with
      identity, catalogOrdinal := (r.ownerCatalog owner).nextOrdinal, closed := by simp }, ?_⟩
    exact ⟨hplace.1, rfl, ⟨hgood, hplace.2⟩, by simpa using hfresh, ‹_›, rfl⟩
  · cases hnext

omit [EventSerde] in
/-- A new session under the next ordinal. -/
theorem Kept.enter (h : r.Kept) {owner threadId : String} {record : CatalogRecord} (howner : record.owner = owner)
    (hordinal : record.catalogOrdinal = (r.ownerCatalog owner).nextOrdinal)
    (hgood : record.projection.snapshot.validate = .ok () ∧
      record.projection.snapshot.cursor.threadId = threadId)
    (hfresh : r.records.get? threadId = none) (hroom : (r.ownerCatalog owner).nextOrdinal < u64Max) :
    Kept ⟨r.records.insert threadId record, r.owners.insert owner { r.ownerCatalog owner with
      nextOrdinal := (r.ownerCatalog owner).nextOrdinal + 1
      entries := (r.ownerCatalog owner).entries.insert (r.ownerCatalog owner).nextOrdinal threadId }⟩ where
  matched other ordinal thread := by
    have hmatched := h.matched other ordinal thread
    rw [ownerCatalog_insert]
    by_cases hthread : threadId = thread
    · subst hthread
      -- no catalog had the thread
      have hnew : (r.ownerCatalog other).entries.get? ordinal ≠ some threadId := by
        intro hentry
        obtain ⟨_, hrecord, -⟩ := hmatched.1 hentry
        rw [hfresh] at hrecord
        cases hrecord
      simp only [OrdMap.get?_insert_self, Option.some.injEq, exists_eq_left', howner]
      by_cases hother : owner = other
      · subst hother
        rw [if_pos rfl, hordinal, OrdMap.get?_insert]
        split
        · rename_i hsame
          simp [hsame]
        · rename_i hsame
          simp [hsame, hnew]
      · rw [if_neg hother]
        simp [hother, hnew]
    · simp only [OrdMap.get?_insert_ne _ _ hthread]
      rw [← hmatched]
      by_cases hother : owner = other
      · subst hother
        rw [if_pos rfl, OrdMap.get?_insert]
        split
        · rename_i hsame
          -- the next ordinal was not in use
          have hunused : (r.ownerCatalog owner).entries.get? ordinal ≠ some thread := fun hentry => by
            have := (h.range owner ordinal thread hentry).2
            omega
          simp [hthread, hunused]
        · rfl
      · rw [if_neg hother]
  range other ordinal thread hentry := by
    rw [ownerCatalog_insert] at hentry ⊢
    by_cases hother : owner = other
    · subst hother
      rw [if_pos rfl] at hentry ⊢
      have hnext := (h.next owner).1
      rw [OrdMap.get?_insert] at hentry
      split at hentry
      · simp only
        omega
      · have := h.range owner ordinal thread hentry
        simp only
        omega
    · rw [if_neg hother] at hentry ⊢
      exact h.range other ordinal thread hentry
  next other := by
    rw [ownerCatalog_insert]
    split
    · exact ⟨Nat.le_add_left 1 _, hroom⟩
    · exact h.next other
  generation other := by
    rw [ownerCatalog_insert]
    split
    · exact h.generation owner
    · exact h.generation other
  good thread found hget := by
    rw [OrdMap.get?_insert] at hget
    split at hget
    · rename_i heq
      cases hget
      exact ⟨hgood.1, hgood.2.trans heq⟩
    · exact h.good thread found hget

/-- A step of a record keeps the stream and the validity of its snapshot. -/
theorem good_step {p p' : ManagementProjection} {label : Option SessionEventEnvelopeV2} {threadId : String}
    (h : p.snapshot.validate = .ok () ∧ p.snapshot.cursor.threadId = threadId)
    (hs : ManagementProjection.Step p label p') :
    p'.snapshot.validate = .ok () ∧ p'.snapshot.cursor.threadId = threadId := by
  cases hs with
  | publish _ _ _ prepared =>
    have ha := (ManagementProjection.prepare_ok prepared).1
    exact ⟨ha.target, (congrArg Cursor.threadId (ha.cursor_eq.trans ha.cursor)).trans h.2⟩
  | retire _ _ prepared =>
    rw [ManagementProjection.prepareRetireRun_some prepared]
    exact h

variable [SnapshotSerde]

/-- Every step keeps it. -/
theorem Kept.step {e : CatalogEvent} (h : r.Kept) (hs : CatalogStep r e r') : r'.Kept := by
  cases hs with
  | insert _ _ _ _ _ _ _ _ _ _ inserted =>
    obtain ⟨record, howner, hordinal, hgood, hfresh, hroom, rfl⟩ := insert_ok inserted
    exact h.enter howner hordinal hgood hfresh hroom
  | publish threadId _ _ found step _ =>
    exact h.update found rfl rfl (good_step (h.good threadId _ found) step)
  | close threadId _ found _ _ =>
    have hgood := h.good threadId _ found
    exact h.update found rfl rfl hgood
  | prune limits now owner protectedRecord =>
    obtain ⟨removed, hsub, -, hr⟩ := h.prune limits now owner protectedRecord
    exact h.removed hsub hr

/-- A registry that steps lead to. -/
theorem Kept.run {es : List CatalogEvent} (hrun : Lts.Run CatalogStep {} es r) : r.Kept :=
  hrun.invariant Kept (fun _ _ _ h hs => h.step hs) .empty

end

end SessionManagementRegistry

/-! ## Pruning -/

section
variable [SnapshotSerde]

open SessionManagementRegistry

/-- The closed sessions of an owner, oldest first. -/
structure ClosedSessions (r : SessionManagementRegistry) (owner : String) (closed : List ClosedSession) :
    Prop where
  mem : ∀ c, c ∈ closed ↔ ∃ record, r.records.get? c.threadId = some record ∧ record.owner = owner ∧
    record.catalogOrdinal = c.ordinal ∧ record.closedAt = some c.closedAt ∧ record.identity = c.identity ∧
    record.retainedBytes = c.bytes
  sorted : closed.Pairwise fun a b =>
    a.closedAt < b.closedAt ∨ a.closedAt = b.closedAt ∧ a.ordinal < b.ordinal

theorem SessionManagementRegistry.Matched.closedSessions {r : SessionManagementRegistry} (h : r.Matched)
    (owner : String) : ClosedSessions r owner (r.candidates (r.ownerCatalog owner).entries) where
  mem c := by
    rw [mem_candidates, h owner c.ordinal c.threadId]
    constructor
    · rintro ⟨⟨record, hrecord, howner, hordinal⟩, record', hrecord', hrest⟩
      rw [hrecord] at hrecord'
      cases hrecord'
      exact ⟨record, hrecord, howner, hordinal, hrest⟩
    · rintro ⟨record, hrecord, howner, hordinal, hrest⟩
      exact ⟨⟨record, hrecord, howner, hordinal⟩, record, hrecord, hrest⟩
  sorted := sorted_candidates _

/-- Its members and its order determine the list. -/
theorem ClosedSessions.unique {r : SessionManagementRegistry} {owner : String} {closed closed' : List ClosedSession}
    (h : ClosedSessions r owner closed) (h' : ClosedSessions r owner closed') : closed = closed' := by
  have hnodup : ∀ {cs : List ClosedSession}, ClosedSessions r owner cs → cs.Nodup := fun h =>
    h.sorted.imp fun hlt heq => by
      subst heq
      omega
  refine ((List.perm_ext_iff_of_nodup (hnodup h) (hnodup h')).2 fun c => ?_).eq_of_pairwise
    (fun a b _ _ hab hba => ?_) h.sorted h'.sorted
  · rw [h.mem, h'.mem]
  · omega

/-- A thread is there once. -/
theorem ClosedSessions.thread_inj {r : SessionManagementRegistry} {owner : String} {closed : List ClosedSession}
    (h : ClosedSessions r owner closed) {a b : ClosedSession} (ha : a ∈ closed) (hb : b ∈ closed)
    (heq : a.threadId = b.threadId) : a = b := by
  obtain ⟨ra, hra, -, haordinal, haclosed, haidentity, habytes⟩ := (h.mem a).1 ha
  obtain ⟨rb, hrb, -, hbordinal, hbclosed, hbidentity, hbbytes⟩ := (h.mem b).1 hb
  rw [heq, hrb] at hra
  cases hra
  have hclosedAt : a.closedAt = b.closedAt := Option.some.inj (haclosed.symm.trans hbclosed)
  obtain ⟨_, _, _, _, _⟩ := a
  obtain ⟨_, _, _, _, _⟩ := b
  simp_all

/-- The closed sessions that are left. -/
theorem ClosedSessions.without {r r' : SessionManagementRegistry} {owner : String}
    {closed removed : List ClosedSession} (h : ClosedSessions r owner closed) (hsub : removed ⊆ closed)
    (hr : Removed owner removed r r') : ClosedSessions r' owner (ClosedSession.without closed removed) where
  mem c := by
    rw [ClosedSession.without, List.mem_filter, decide_eq_true_eq, h.mem, hr.records]
    constructor
    · rintro ⟨⟨record, hrecord, hrest⟩, hstays⟩
      refine ⟨record, ?_, hrest⟩
      rw [if_neg, hrecord]
      intro hthread
      obtain ⟨d, hd, heq⟩ := List.mem_map.1 hthread
      rw [h.thread_inj (hsub hd) ((h.mem c).2 ⟨record, hrecord, hrest⟩) heq] at hd
      exact hstays hd
    · rintro ⟨record, hrecord, hrest⟩
      split at hrecord
      · cases hrecord
      · rename_i hthread
        exact ⟨⟨record, hrecord, hrest⟩, fun hgone => hthread (List.mem_map_of_mem hgone)⟩
  sorted := h.sorted.filter _

/-- Nothing happens when there is nothing to remove. -/
theorem SessionManagementRegistry.pruneOwner_idle {r : SessionManagementRegistry} {limits : ManagementLimits}
    {now : Nat} {owner : String} {protectedRecord : Option Nat}
    (h : tombstones limits now protectedRecord (r.candidates (r.ownerCatalog owner).entries) = []) :
    r.pruneOwner limits now owner protectedRecord = r := by
  unfold SessionManagementRegistry.pruneOwner
  cases howner : r.owners.get? owner with
  | none => rfl
  | some state =>
    have hstate : r.ownerCatalog owner = state := by
      unfold ownerCatalog
      rw [howner]
      rfl
    rw [hstate] at h
    simp only [h, List.foldl_nil, OrdMap.insert_get? howner]

variable [External] [EventSerde]

/-- **Tombstone pruning is exact and safe.** -/
theorem prune_owner_exact (events : List CatalogEvent) (r : SessionManagementRegistry)
    (hrun : Lts.Run CatalogStep {} events r) (limits : ManagementLimits) (now : Nat) (owner : String)
    (protectedRecord : Option Nat) (closed : List ClosedSession) (hclosed : ClosedSessions r owner closed)
    (hbytes : (closed.map (·.bytes)).sum ≤ u64Max) (r' : SessionManagementRegistry)
    (hr' : r' = r.pruneOwner limits now owner protectedRecord) :
    -- what goes
    (∃ removed k, ClosedSession.Prunes limits now protectedRecord closed removed k ∧
      Removed owner removed r r') ∧
    -- what stays
    (∀ threadId record, r.records.get? threadId = some record →
      record.owner ≠ owner ∨ record.projection.snapshot.lifecycle ≠ .closed ∨
        protectedRecord = some record.identity →
      r'.records.get? threadId = some record) ∧
    -- the counters at every turn of the loop
    (∀ visited rest, closed = visited ++ rest → ∃ gone, Pressure.Exact closed gone
      (Pressure.relieve limits protectedRecord visited
        (.start closed (ClosedSession.expired limits now protectedRecord closed)))) ∧
    r.Matched ∧ r'.Matched ∧
    r'.pruneOwner limits now owner protectedRecord = r' := by
  have hkept : r.Kept := Kept.run hrun
  obtain rfl := hclosed.unique (hkept.matched.closedSessions owner)
  have hn : ClosedSession.Numbered (r.candidates (r.ownerCatalog owner).entries) := numbered_candidates _
  obtain ⟨removed, k, hprunes, htombs⟩ := tombstones_prunes limits now protectedRecord hn hbytes
  obtain ⟨removed', htombs', hsub', hnodup', hexempt'⟩ := tombstones_sub limits now protectedRecord hn
  have hsub : removed ⊆ r.candidates (r.ownerCatalog owner).entries := by
    rw [hprunes.removed_eq]
    exact List.append_subset.2 ⟨List.filter_sublist.subset,
      fun c hc => (List.mem_filter.1 (List.mem_of_mem_take hc)).1⟩
  have hnodup : (removed.map (·.ordinal)).Nodup := by
    rw [← htombs, htombs']
    exact hnodup'
  have hexempt : ∀ c ∈ removed, c.exempt protectedRecord = false := fun c hc => by
    have hmem : c.ordinal ∈ removed'.map (·.ordinal) := by
      rw [← htombs', htombs]
      exact List.mem_map_of_mem hc
    exact hexempt' c ((hn.ordinal_mem (hsub hc) hsub').1 hmem)
  have hr : Removed owner removed r r' :=
    hr' ▸ hkept.matched.pruneOwner (hkept.generation owner) limits now protectedRecord hsub hnodup htombs
  have hkept' : r'.Kept := hkept.removed hsub hr
  refine ⟨⟨removed, k, hprunes, hr⟩, fun threadId record hrecord hsafe => ?_, fun visited rest heq => ?_,
    hkept.matched, hkept'.matched, ?_⟩
  · rw [hr.records, if_neg, hrecord]
    intro hthread
    obtain ⟨c, hc, rfl⟩ := List.mem_map.1 hthread
    obtain ⟨found, hfound, howner, -, hclosedAt, hidentity, -⟩ := (hclosed.mem c).1 (hsub hc)
    rw [hrecord] at hfound
    cases hfound
    rcases hsafe with hsafe | hsafe | hsafe
    · exact hsafe howner
    · exact hsafe (record.closed (by rw [hclosedAt]; rfl))
    · have hfree := hexempt c hc
      unfold ClosedSession.exempt at hfree
      rw [hsafe, hidentity, beq_self_eq_true] at hfree
      cases hfree
  · rw [heq] at hn hbytes ⊢
    exact Pressure.relieve_exact limits now protectedRecord hn hbytes
  · apply pruneOwner_idle
    rw [((hkept'.matched.closedSessions owner).unique (hclosed.without hsub hr))]
    exact hprunes.again hn hbytes

end

/-! ## A session that is closed and pruned -/

namespace Sample

/-- Every snapshot is a hundred bytes long. -/
@[reducible] def snapshots : SnapshotSerde := ⟨fun _ => .ok 100⟩

/-- No tombstone is retained. -/
def noTombstones : ManagementLimits := { maxClosedTombstones := 0 }

/-- The record of the session, open, closing and closed. -/
def listed : CatalogRecord := { managementRecord with identity := 7, catalogOrdinal := 1, closed := by simp }

def listedClosing : CatalogRecord :=
  @CatalogRecord.publish host serde listed _ _
    (@publishedV2_step _ (.lifecycleChanged .closing) none (by decide +kernel))
    listed.history true

def listedClosed : CatalogRecord :=
  @CatalogRecord.publish host serde listedClosing _ _
    (@publishedV2_step _ (.lifecycleChanged .closed) none (by decide +kernel))
    listed.history true

/-- The registry of the session alone, with its record in these states. -/
def registry (record : CatalogRecord) : SessionManagementRegistry where
  records := .insert .empty "t" record
  owners := .insert .empty "o" { nextOrdinal := 2, entries := .insert .empty 1 "t" }

def withRecord (r : SessionManagementRegistry) (record : CatalogRecord) : SessionManagementRegistry :=
  { r with records := r.records.insert "t" record }

def prunable : SessionManagementRegistry :=
  withRecord (withRecord (withRecord (registry listed) listedClosing) listedClosed) (listedClosed.close 20 rfl)

end Sample

open SessionManagementRegistry in
/-- A session that was closed goes when no tombstone is retained. -/
theorem prune_owner_exact_sample : ∃ events,
    Lts.Run (@CatalogStep Sample.host Sample.serde Sample.snapshots) {} events Sample.prunable ∧
    (@candidates Sample.snapshots Sample.prunable (Sample.prunable.ownerCatalog "o").entries).length = 1 ∧
    ∃ removed k, ClosedSession.Prunes Sample.noTombstones 30 none
        (@candidates Sample.snapshots Sample.prunable (Sample.prunable.ownerCatalog "o").entries) removed k ∧
      Removed "o" removed Sample.prunable
        (@pruneOwner Sample.snapshots Sample.prunable Sample.noTombstones 30 "o" none) := by
  have hinsert : @CatalogStep Sample.host Sample.serde Sample.snapshots {} _ (Sample.registry Sample.listed) :=
    @CatalogStep.insert Sample.host Sample.serde Sample.snapshots _ _ "o" "t" none [] [] 0 .ephemeral none "s" 7 rfl
  have hclosing : @CatalogStep Sample.host Sample.serde Sample.snapshots _ _
      (Sample.withRecord (Sample.registry Sample.listed) Sample.listedClosing) :=
    @CatalogStep.publish Sample.host Sample.serde Sample.snapshots (Sample.registry Sample.listed) Sample.listed
      _ _ _ "t" [] true rfl (Sample.publishedV2_step (by decide +kernel)) rfl
  have hclosed : @CatalogStep Sample.host Sample.serde Sample.snapshots _ _
      (Sample.withRecord (Sample.withRecord (Sample.registry Sample.listed) Sample.listedClosing)
        Sample.listedClosed) :=
    @CatalogStep.publish Sample.host Sample.serde Sample.snapshots _ Sample.listedClosing
      _ _ _ "t" [] true rfl (Sample.publishedV2_step (by decide +kernel)) rfl
  have hclose : @CatalogStep Sample.host Sample.serde Sample.snapshots _ _ Sample.prunable :=
    @CatalogStep.close Sample.host Sample.serde Sample.snapshots _ Sample.listedClosed "t" 20 rfl rfl rfl
  have hrun := Lts.Run.cons hinsert (.cons hclosing (.cons hclosed (.single hclose)))
  have hmatched := @Kept.matched Sample.host _ (@Kept.run Sample.host _ Sample.serde Sample.snapshots _ hrun)
  refine ⟨_, hrun, by decide +kernel, ?_⟩
  exact (@prune_owner_exact Sample.snapshots Sample.host Sample.serde _ _ hrun Sample.noTombstones 30 "o" none _
    (@Matched.closedSessions Sample.snapshots _ hmatched "o") (by decide +kernel) _ rfl).1

end Whale
