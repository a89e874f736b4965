import Mathlib.Data.Nat.Digits.Lemmas
import Mathlib.Data.Nat.Pairing
import Whale.Daemon.Listing
import Whale.Daemon.Proof.Catalog

/-!
# Listing is a walk over a frozen catalog

A page of the list is a prefix of what is left of its window, and its cursor names the rest
(`SessionManagementRegistry.Paged`, `listPage_ok`). The entries of a catalog below an ordinal change by removals
only, and a removal changes the generation (`Later`). So the pages that follow one cursor after another show
the sessions of the first catalog in order, each once (`WalkedTo`, `list_sessions_walk`).
-/

namespace Whale

open Check

/-- What the serializer and the codec do: a signed token is decoded again, it is printable and short, and every
page has a length. -/
class LawfulListing [CursorCodec ListCursorClaims] [ListSerde] : Prop where
  decoded : ∀ owner (c : ListCursorClaims), c.validShape = true →
    CursorCodec.claims owner (CursorCodec.token owner c) = some c
  printable : ∀ owner (c : ListCursorClaims) name, c.validShape = true →
    validateIdentityV2 (CursorCodec.token owner c) name = .ok ()
  short : ∀ owner (c : ListCursorClaims), c.validShape = true → c.generation ≤ u64Max →
    c.throughOrdinal ≤ u64Max → c.expiresAtMs ≤ u64Max →
    (CursorCodec.token owner c).utf8ByteSize ≤ maxSessionCursorTokenBytes
  measured : ∀ result, ∃ n, ListSerde.listBytes result = .ok n
  empty : ListSerde.listBytes {} = .ok 15

/-- The clock of the cursors does not run out. -/
structure ListClock.Bounded (clock : ListClock) : Prop where
  turn : ∀ i, clock.turn i + CursorCodec.ttlMs ≤ u64Max
  last : clock.last + CursorCodec.ttlMs ≤ u64Max

/-- The session can be listed: a client takes the id of its active run. -/
def SessionListEntry.Printable (e : SessionListEntry) : Prop :=
  ∀ run, e.activeRun = some run → run.turnId.toList.any isControl = false

theorem CatalogRecord.validate_listEntry [External] {r : CatalogRecord}
    (h : r.projection.snapshot.validate = .ok ()) (hprintable : r.listEntry.Printable) :
    r.listEntry.validate = .ok () := by
  have hv := SessionSnapshotV2.validate_iff.1 h
  unfold SessionListEntry.validate
  rw [show r.listEntry.summary.validateV2 = .ok () from hv.summary, ok_bind,
    show r.listEntry.persistence.validate = .ok () from hv.persistence, ok_bind,
    show r.listEntry.cursor.validateV2 = .ok () from hv.cursor, ok_bind, refuse_bind_ok_iff]
  refine ⟨?_, ?_⟩
  · show (r.projection.snapshot.summary.threadId != r.projection.snapshot.cursor.threadId ||
      r.projection.snapshot.summary.revision != r.projection.snapshot.cursor.seq) = false
    simp [hv.thread, hv.revision]
  have hlast : validateLast r.listEntry.lastRun = .ok () := by
    show validateLast r.projection.snapshot.lastRun = .ok ()
    cases hl : r.projection.snapshot.lastRun with
    | none => rfl
    | some run => exact hv.last run hl
  have hactive : r.listEntry.validateActive = .ok () := by
    unfold SessionListEntry.validateActive
    cases ha : r.projection.snapshot.activeRun with
    | none =>
      rw [show r.listEntry.activeRun = none by simp [listEntry, ha]]
    | some run =>
      obtain ⟨hrun, -, hopen⟩ := hv.active run ha
      have hentry : r.listEntry.activeRun =
          some ⟨run.snapshot.turnId, run.snapshot.status, run.acceptedAtMs, run.updatedAtMs⟩ := by
        simp [listEntry, ha]
      have hcontrol := hprintable _ hentry
      obtain ⟨_, -, hrun⟩ := bind_ok hrun
      obtain ⟨_, hturn, hrun⟩ := bind_ok hrun
      obtain ⟨hterminal, hrun⟩ := refuse_bind_ok hrun
      obtain ⟨htimes, -⟩ := refuse_bind_ok hrun
      have hidentity : validateIdentityV2 run.snapshot.turnId "turn_id" = .ok () := by
        unfold validateIdentityV2
        rw [refuse_ok_iff, hcontrol, Bool.or_false]
        exact refuse_ok hturn
      rw [hentry]
      simp only [SessionRunHeadline.validate]
      rw [hidentity, ok_bind, hterminal, refuse_false, ok_bind, htimes, refuse_false, ok_bind, refuse_ok_iff]
      show (r.projection.snapshot.lifecycle == .closed) = false
      simpa using hopen
  rw [hactive, ok_bind, hlast]

namespace SessionManagementRegistry

/-! ## A page -/

section
variable [CursorCodec ListCursorClaims] [ListSerde]

/-- A turn of the loop that ends with a page: it takes some of the candidates, and the cursor is that behind the
last one taken. -/
structure Filled (owner : String) (state : OwnerCatalogState) (generation through : Nat) (turn : Nat → Nat) (i : Nat)
    (rest : List (Nat × SessionListEntry)) (result : ListSessionsResult) (last k : Nat)
    (result' : ListSessionsResult) (last' : Nat) : Prop where
  le : k ≤ rest.length
  sessions : result'.sessions = result.sessions ++ (rest.take k).map (·.2)
  none : k = 0 → result' = result ∧ last' = last
  some : ∀ j, k = j + 1 → ∃ entry, rest[j]? = some (last', entry) ∧
    nextListCursor owner state generation last' through (turn (i + j)) = .ok result'.nextCursor ∧
    ∃ n, ListSerde.listBytes result' = .ok n ∧ n ≤ maxSessionManagementPageBytes

/-- A page that the loop ends with. -/
theorem fillListPage_ok {owner : String} {state : OwnerCatalogState} {generation through : Nat} {turn : Nat → Nat} :
    ∀ {rest : List (Nat × SessionListEntry)} {i last last' : Nat} {result result' : ListSessionsResult},
      fillListPage owner state generation through turn i rest result last = .ok (result', last') →
      ∃ k, Filled owner state generation through turn i rest result last k result' last' ∧
        (result.sessions = [] → rest ≠ [] → 1 ≤ k)
  | [], i, last, last', result, result', h => by
    cases h
    exact ⟨0, ⟨Nat.le_refl _, by simp, fun _ => ⟨rfl, rfl⟩, fun j hj => by omega⟩, by simp⟩
  | (ordinal, entry) :: rest, i, last, last', result, result', h => by
    obtain ⟨cursor, hnext, h⟩ := bind_ok h
    obtain ⟨n, hn, h⟩ := bind_ok h
    rw [mapError_ok_iff] at hn
    by_cases hover : maxSessionManagementPageBytes < n
    · rw [if_pos hover] at h
      split at h
      · cases h
      · rename_i hsome
        cases h
        refine ⟨0, ⟨Nat.zero_le _, by simp, fun _ => ⟨rfl, rfl⟩, fun j hj => by omega⟩, fun hnone => ?_⟩
        rw [hnone] at hsome
        simp at hsome
    · rw [if_neg hover] at h
      obtain ⟨k, hfilled, -⟩ := fillListPage_ok h
      refine ⟨k + 1, ⟨?_, ?_, fun h => by omega, fun j hj => ?_⟩, fun _ _ => by omega⟩
      · rw [List.length_cons]
        exact Nat.succ_le_succ hfilled.le
      · rw [hfilled.sessions]
        simp
      · obtain rfl : k = j := by omega
        cases k with
        | zero =>
          obtain ⟨rfl, rfl⟩ := hfilled.none rfl
          exact ⟨entry, rfl, hnext, n, hn, Nat.le_of_not_lt hover⟩
        | succ k =>
          obtain ⟨entry', hget, hnext', hbytes⟩ := hfilled.some k rfl
          refine ⟨entry', by simpa using hget, ?_, hbytes⟩
          rw [show i + (k + 1) = i + 1 + k by omega]
          exact hnext'

/-- While cursors can be made and pages measured, the loop ends with a page unless there is no room for the first
session. -/
theorem fillListPage_cases {owner : String} {state : OwnerCatalogState} {generation through : Nat}
    {turn : Nat → Nat} (hser : ∀ result, ∃ n, ListSerde.listBytes result = .ok n) :
    ∀ {rest : List (Nat × SessionListEntry)} (i last : Nat) (result : ListSessionsResult),
      (∀ c ∈ rest, ∀ j, ∃ cursor, nextListCursor owner state generation c.1 through (turn j) = .ok cursor) →
      (∃ page, fillListPage owner state generation through turn i rest result last = .ok page) ∨
      ∃ actual, fillListPage owner state generation through turn i rest result last =
        .error (.resourceLimit "session_list_page" actual maxSessionManagementPageBytes none)
  | [], i, last, result, _ => .inl ⟨_, rfl⟩
  | (ordinal, entry) :: rest, i, last, result, hcursor => by
    obtain ⟨cursor, hnext⟩ := hcursor _ List.mem_cons_self i
    obtain ⟨n, hn⟩ := hser ⟨result.sessions ++ [entry], cursor⟩
    unfold fillListPage
    simp only [hnext, ok_bind, hn, Except.mapError]
    split
    · split
      · exact .inr ⟨n, rfl⟩
      · exact .inl ⟨_, rfl⟩
    · exact fillListPage_cases hser _ _ _ fun c hc => hcursor c (List.mem_cons_of_mem _ hc)

/-! ## The candidates -/

variable [External]

omit [CursorCodec ListCursorClaims] [ListSerde] in
/-- The candidates are the window, each session with its entry. -/
theorem Kept.listCandidates {r : SessionManagementRegistry} (h : r.Kept) (owner : String) (after through : Nat) :
    (r.listCandidates owner (r.ownerCatalog owner) after through).map (fun c => (c.1, c.2.summary.threadId)) =
      (r.ownerCatalog owner).entries.between after through := by
  unfold SessionManagementRegistry.listCandidates
  have hfound : ∀ e ∈ (r.ownerCatalog owner).entries.between after through, ∃ record,
      r.records.get? e.2 = some record ∧ record.owner = owner ∧ record.listEntry.summary.threadId = e.2 := by
    intro e he
    obtain ⟨record, hrecord, howner, -⟩ := (h.matched owner e.1 e.2).1 (OrdMap.mem_between.1 he).1
    obtain ⟨hvalid, hthread⟩ := h.good e.2 record hrecord
    exact ⟨record, hrecord, howner, (SessionSnapshotV2.validate_iff.1 hvalid).thread.trans hthread⟩
  generalize (r.ownerCatalog owner).entries.between after through = window at hfound
  induction window with
  | nil => rfl
  | cons e window ih =>
    obtain ⟨record, hrecord, howner, hthread⟩ := hfound e List.mem_cons_self
    have hview : (do
        let record ← r.records.get? e.2
        if record.owner == owner then some (e.1, record.listEntry) else none) =
        some (e.1, record.listEntry) := by
      simp [hrecord, howner]
    have hrest := ih fun d hd => hfound d (List.mem_cons_of_mem _ hd)
    simp only [List.filterMap_cons, hview, List.map_cons, hthread]
    exact congrArg _ hrest

/-- What a page shows of its window: its first `k` sessions, with a cursor behind them when there are more. -/
structure Paged (owner : String) (generation through : Nat) (window : List (Nat × String)) (limit now k : Nat)
    (page : ListSessionsResult) : Prop where
  le : k ≤ window.length
  limit : k ≤ limit
  progress : window ≠ [] → 1 ≤ k
  sessions : page.sessions.map (·.summary.threadId) = (window.take k).map (·.2)
  next : (k = window.length ∧ page.nextCursor = none) ∨
    ∃ shown e rest cursor, window = shown ++ e :: rest ∧ rest ≠ [] ∧ k = shown.length + 1 ∧
      page.nextCursor = some cursor ∧ listCursor owner generation e.1 through now = .ok cursor

omit [ListSerde] [External] in
theorem Paged.sessions_ne_nil {owner : String} {generation through limit now k : Nat} {window : List (Nat × String)}
    {page : ListSessionsResult} (h : Paged owner generation through window limit now k page) (hsome : window ≠ []) :
    page.sessions ≠ [] := by
  intro hnil
  have hlength := congrArg List.length h.sessions
  rw [hnil, List.map_nil, List.length_nil, List.length_map, List.length_take] at hlength
  have hle := h.le
  have hprogress := h.progress hsome
  omega

omit [CursorCodec ListCursorClaims] [ListSerde] [External] in
theorem ListSessionsParams.limit_pos {p : ListSessionsParams} (h : p.validate = .ok ()) : 1 ≤ p.limit := by
  obtain ⟨_, -, h⟩ := bind_ok h
  have hbound := refuse_ok h
  simp only [Bool.or_eq_false_iff, beq_eq_false_iff_ne] at hbound
  omega

/-- A page that is answered. -/
theorem listPage_ok {r : SessionManagementRegistry} (h : r.Kept) {owner : String} {params : ListSessionsParams}
    {claims : Option ListCursorClaims} {clock : ListClock} {page : ListSessionsResult}
    (hpage : r.listPage owner params claims clock = .ok page) :
    (r.ownerCatalog owner).generationExhausted = false ∧ page.validateFor params = .ok () ∧
    ∃ generation after through k, listWindow (r.ownerCatalog owner) claims = .ok (generation, after, through) ∧
      Paged owner generation through ((r.ownerCatalog owner).entries.between after through) params.limit
        clock.last k page := by
  unfold listPage at hpage
  obtain ⟨hexhausted, hpage⟩ := refuse_bind_ok hpage
  obtain ⟨⟨generation, after, through⟩, hwindow, hpage⟩ := bind_ok hpage
  obtain ⟨⟨result, last⟩, hfill, hpage⟩ := bind_ok hpage
  obtain ⟨page', hcursor, hpage⟩ := bind_ok hpage
  unfold finishListPage at hcursor
  obtain ⟨_, hvalid, hpage⟩ := bind_ok hpage
  rw [mapError_ok_iff] at hvalid
  cases hpage
  refine ⟨hexhausted, hvalid, generation, after, through, ?_⟩
  have hcands := h.listCandidates owner after through
  generalize hwin : (r.ownerCatalog owner).entries.between after through = window at hcands ⊢
  generalize r.listCandidates owner (r.ownerCatalog owner) after through = cands at hcands hfill
  have hlen : cands.length = window.length := by rw [← hcands, List.length_map]
  have hlimit : 1 ≤ params.limit := by
    obtain ⟨_, hparams, -⟩ := bind_ok hvalid
    exact ListSessionsParams.limit_pos hparams
  obtain ⟨k, hfilled, hprogress⟩ := fillListPage_ok hfill
  have hle := hfilled.le
  rw [List.length_take] at hle
  have hsessions : result.sessions.map (·.summary.threadId) = (window.take k).map (·.2) := by
    rw [hfilled.sessions, ← hcands, List.take_take, Nat.min_eq_left (by omega), List.nil_append, ← List.map_take,
      List.map_map, List.map_map]
    rfl
  refine ⟨k, hwindow, ?_⟩
  have hstart : window ≠ [] → 1 ≤ k := fun hne => by
    refine hprogress rfl fun hnone => ?_
    rcases List.take_eq_nil_iff.1 hnone with hzero | hnil
    · omega
    · rw [hnil] at hlen
      exact hne (List.length_eq_zero_iff.1 hlen.symm)
  cases k with
  | zero =>
    have hempty : result.sessions = [] := List.map_eq_nil_iff.1 (by rw [hsessions]; rfl)
    rw [hempty] at hcursor
    cases hcursor
    have hnone : window = [] := by
      by_contra hne
      exact absurd (hstart hne) (by omega)
    exact ⟨by omega, by omega, hstart, rfl, .inl ⟨by rw [hnone]; rfl, rfl⟩⟩
  | succ j =>
    obtain ⟨entry, hget, hnext, -⟩ := hfilled.some j rfl
    have hshown : ∃ threadId, window[j]? = some (last, threadId) := by
      refine ⟨entry.summary.threadId, ?_⟩
      rw [← hcands, List.getElem?_map]
      rw [List.getElem?_take_of_lt (by omega)] at hget
      rw [hget]
      rfl
    obtain ⟨threadId, hshown⟩ := hshown
    obtain ⟨hj, hat⟩ := List.getElem?_eq_some_iff.1 hshown
    have hsplit : window = window.take j ++ (last, threadId) :: window.drop (j + 1) := by
      rw [← hat, ← List.drop_eq_getElem_cons hj, List.take_append_drop]
    have hrest : (r.ownerCatalog owner).entries.between last through = window.drop (j + 1) :=
      OrdMap.between_split (hwin.trans hsplit)
    have hnonempty : result.sessions.isEmpty = false := by
      rw [hfilled.sessions, List.isEmpty_eq_false_iff]
      intro hnil
      have hlength := congrArg List.length hnil
      simp only [List.length_append, List.length_map, List.length_take, List.length_nil] at hlength
      omega
    rw [hnonempty, hrest] at hcursor
    simp only [Bool.false_eq_true, if_false] at hcursor
    by_cases hend : (window.drop (j + 1)).isEmpty = true
    · rw [if_pos hend] at hcursor
      cases hcursor
      refine ⟨by omega, by omega, hstart, hsessions, .inl ⟨?_, ?_⟩⟩
      · rw [List.isEmpty_iff, List.drop_eq_nil_iff] at hend
        omega
      · unfold nextListCursor at hnext
        rw [hrest, if_pos hend] at hnext
        exact (Except.ok.inj hnext).symm
    · rw [if_neg hend] at hcursor
      obtain ⟨cursor, hmade, hcursor⟩ := bind_ok hcursor
      cases hcursor
      refine ⟨by omega, by omega, hstart, hsessions, .inr ⟨window.take j, (last, threadId), window.drop (j + 1),
        cursor, hsplit, fun hnil => ?_, ?_, rfl, hmade⟩⟩
      · rw [hnil] at hend
        exact hend rfl
      · rw [List.length_take]
        omega

/-! ## Pages that are answered -/

/-- The page still fits when its cursor is made again. -/
def Steady (owner : String) (state : OwnerCatalogState) (generation through : Nat)
    (cands : List (Nat × SessionListEntry)) (clock : ListClock) : Prop :=
  ∀ k c, cands[k]? = some c → ∀ tried made n n',
    nextListCursor owner state generation c.1 through (clock.turn k) = .ok tried →
    nextListCursor owner state generation c.1 through clock.last = .ok made →
    ListSerde.listBytes ⟨(cands.take (k + 1)).map (·.2), tried⟩ = .ok n →
    ListSerde.listBytes ⟨(cands.take (k + 1)).map (·.2), made⟩ = .ok n' →
    n ≤ maxSessionManagementPageBytes → n' ≤ maxSessionManagementPageBytes

omit [External] in
/-- A clock that stands still during the call is enough. -/
theorem steady_of_still {owner : String} {state : OwnerCatalogState} {generation through : Nat}
    {cands : List (Nat × SessionListEntry)} {clock : ListClock} (h : ∀ i, clock.turn i = clock.last) :
    Steady owner state generation through cands clock := by
  intro k c _ tried made n n' htried hmade hn hn' hle
  rw [h k, hmade] at htried
  cases htried
  rw [hn'] at hn
  cases hn
  exact hle

omit [ListSerde] [External] in
theorem listCursor_ok [ListSerde] [LawfulListing] (owner : String) {generation after through now : Nat}
    (hgen : generation ≤ u64Max) (hthrough : through ≤ u64Max) (hafter : after ≤ through)
    (hnow : now + CursorCodec.ttlMs ≤ u64Max) :
    listCursor owner generation after through now = .ok (CursorCodec.token owner
      ({ generation, afterOrdinal := after, throughOrdinal := through, expiresAtMs := now + CursorCodec.ttlMs } :
        ListCursorClaims)) := by
  have hexpiry : CursorCodec.expiry now = .ok (now + CursorCodec.ttlMs) := by
    unfold CursorCodec.expiry UsageMetrics.checkedAdd64
    rw [if_pos hnow]
    rfl
  have hshape : (ListCursorClaims.mk 1 "session_list" generation after through
      (now + CursorCodec.ttlMs)).validShape = true := by
    simp [ListCursorClaims.validShape, hafter]
  have hshort := LawfulListing.short owner _ hshape hgen hthrough hnow
  have htoken : ∀ name, validateToken (CursorCodec.token owner
      ({ generation, afterOrdinal := after, throughOrdinal := through, expiresAtMs := now + CursorCodec.ttlMs } :
        ListCursorClaims)) name = .ok () := fun name => by
    unfold validateToken
    rw [LawfulListing.printable owner _ name hshape, ok_bind, decide_eq_false (Nat.not_lt.2 hshort)]
    rfl
  unfold listCursor
  rw [hexpiry, ok_bind, CursorCodec.encode_ok hshort, ok_bind, htoken]
  rfl

omit [External] in
/-- A cursor can be made for a position in the window. -/
theorem nextListCursor_ok [LawfulListing] {owner : String} {state : OwnerCatalogState}
    {generation ordinal through now : Nat} (hgen : generation ≤ u64Max) (hthrough : through ≤ u64Max)
    (hordinal : ordinal ≤ through) (hnow : now + CursorCodec.ttlMs ≤ u64Max) :
    ∃ cursor, nextListCursor owner state generation ordinal through now = .ok cursor ∧
      validateListCursor cursor = .ok () := by
  unfold nextListCursor
  split
  · exact ⟨none, rfl, rfl⟩
  · have hcursor := listCursor_ok owner hgen hthrough hordinal hnow
    refine ⟨_, by rw [hcursor]; rfl, ?_⟩
    unfold listCursor at hcursor
    obtain ⟨_, -, hcursor⟩ := bind_ok hcursor
    obtain ⟨token, -, hcursor⟩ := bind_ok hcursor
    obtain ⟨_, hvalid, hcursor⟩ := bind_ok hcursor
    rw [mapError_ok_iff] at hvalid
    rw [← Except.ok.inj hcursor]
    exact hvalid

omit [CursorCodec ListCursorClaims] [ListSerde] in
/-- A candidate is the entry of a valid record. -/
theorem Kept.candidate_entry {r : SessionManagementRegistry} (h : r.Kept) {owner : String}
    {state : OwnerCatalogState} {after through : Nat} {c : Nat × SessionListEntry}
    (hc : c ∈ r.listCandidates owner state after through) :
    c.1 ≤ through ∧ ∃ record : CatalogRecord, record.projection.snapshot.validate = .ok () ∧
      c.2 = record.listEntry := by
  obtain ⟨e, he, hview⟩ := List.mem_filterMap.1 hc
  simp only [Option.bind_eq_bind, Option.bind_eq_some_iff, Option.ite_none_right_eq_some] at hview
  obtain ⟨record, hrecord, -, hview⟩ := hview
  obtain rfl := Option.some.inj hview
  exact ⟨(OrdMap.mem_between.1 he).2.2, record, (h.good e.2 record hrecord).1, rfl⟩

omit [CursorCodec ListCursorClaims] [ListSerde] in
/-- A thread is in a catalog once. -/
theorem Kept.nodup_threads {r : SessionManagementRegistry} (h : r.Kept) (owner : String) (after through : Nat) :
    (((r.ownerCatalog owner).entries.between after through).map (·.2)).Nodup := by
  refine List.pairwise_map.2 (((r.ownerCatalog owner).entries.sorted_between after through).imp_of_mem ?_)
  intro a b ha hb hlt heq
  obtain ⟨record, hrecord, -, hordinal⟩ := (h.matched owner a.1 a.2).1 (OrdMap.mem_between.1 ha).1
  obtain ⟨record', hrecord', -, hordinal'⟩ := (h.matched owner b.1 b.2).1 (OrdMap.mem_between.1 hb).1
  rw [heq, hrecord'] at hrecord
  cases hrecord
  omega

omit [CursorCodec ListCursorClaims] in
/-- Valid entries of distinct threads with a valid cursor are accepted, if they fit. -/
theorem validateFor_page {page : ListSessionsResult} {params : ListSessionsParams} {n : Nat}
    (hparams : params.validate = .ok ()) (hbytes : ListSerde.listBytes page = .ok n)
    (hfits : n ≤ maxSessionManagementPageBytes) (hlimit : page.sessions.length ≤ params.limit)
    (hvalid : ∀ e ∈ page.sessions, e.validate = .ok ())
    (hnodup : (page.sessions.map (·.summary.threadId)).Nodup)
    (hcursor : validateListCursor page.nextCursor = .ok ()) : page.validateFor params = .ok () := by
  unfold ListSessionsResult.validateFor validateManagementPageBytes
  rw [hparams, ok_bind, hbytes, ok_bind, decide_eq_false (Nat.not_lt.2 hfits), refuse_false, ok_bind,
    decide_eq_false (Nat.not_lt.2 hlimit), refuse_false, ok_bind,
    distinct_ok_iff.2 ⟨hvalid, hnodup, by simp⟩, ok_bind, hcursor]

omit [ListSerde] [External] in
/-- The page behind the loop. -/
theorem finishListPage_eq {owner : String} {state : OwnerCatalogState} {generation through now last : Nat}
    {result : ListSessionsResult} {made : Option String} (hsome : result.sessions ≠ [])
    (hnone : (state.entries.between last through).isEmpty = true → result.nextCursor = none)
    (hmade : nextListCursor owner state generation last through now = .ok made) :
    finishListPage owner state generation through now result last = .ok { result with nextCursor := made } := by
  unfold finishListPage
  rw [if_neg (by simpa using hsome)]
  unfold nextListCursor at hmade
  split
  · rename_i hend
    rw [if_pos hend] at hmade
    rw [← Except.ok.inj hmade, ← hnone hend]
  · rename_i hend
    rw [if_neg hend] at hmade
    obtain ⟨cursor, hcursor, hmade⟩ := bind_ok hmade
    rw [hcursor, ← Except.ok.inj hmade]
    rfl

/-- What the loop ends with is a page that clients accept. -/
theorem finishListPage_cases [LawfulListing] {owner : String} {state : OwnerCatalogState}
    {generation after through last : Nat} {params : ListSessionsParams} {clock : ListClock}
    {cands : List (Nat × SessionListEntry)} {result : ListSessionsResult} (hparams : params.validate = .ok ())
    (hmade : ∀ c ∈ cands, ∀ now, now + CursorCodec.ttlMs ≤ u64Max → ∃ cursor,
      nextListCursor owner state generation c.1 through now = .ok cursor ∧ validateListCursor cursor = .ok ())
    (hvalid : ∀ c ∈ cands.take params.limit, c.2.validate = .ok ())
    (hnodup : (cands.map (·.2.summary.threadId)).Nodup) (hclock : clock.Bounded)
    (hsteady : Steady owner state generation through (cands.take params.limit) clock)
    (hfill : fillListPage owner state generation through clock.turn 0 (cands.take params.limit) {} after =
      .ok (result, last)) :
    ∃ page, finishListPage owner state generation through clock.last result last = .ok page ∧
      page.validateFor params = .ok () := by
  obtain ⟨k, hfilled, -⟩ := fillListPage_ok hfill
  have hle := hfilled.le
  rw [List.length_take] at hle
  have hsessions : result.sessions = (cands.take k).map (·.2) := by
    rw [hfilled.sessions, List.take_take, Nat.min_eq_left (by omega), List.nil_append]
  cases k with
  | zero =>
    refine ⟨{}, ?_, validateFor_page hparams LawfulListing.empty (by decide) (Nat.zero_le _) (by simp) .nil rfl⟩
    unfold finishListPage
    rw [if_pos (by rw [hsessions]; rfl)]
  | succ j =>
    obtain ⟨entry, hget, htried, n, hn, hfits⟩ := hfilled.some j rfl
    rw [List.getElem?_take_of_lt (by omega)] at hget
    have hmem : (last, entry) ∈ cands := List.mem_of_getElem? hget
    obtain ⟨made, hcursor, haccepted⟩ := hmade _ hmem clock.last hclock.last
    obtain ⟨n', hn'⟩ := LawfulListing.measured { result with nextCursor := made }
    have hsome : result.sessions ≠ [] := by
      intro hnil
      have hlength := congrArg List.length (hsessions.symm.trans hnil)
      rw [List.length_map, List.length_take, List.length_nil] at hlength
      omega
    refine ⟨{ result with nextCursor := made }, finishListPage_eq hsome (fun hend => ?_) hcursor, ?_⟩
    · unfold nextListCursor at htried
      rw [if_pos hend] at htried
      exact (Except.ok.inj htried).symm
    refine validateFor_page hparams hn' ?_ ?_ (fun e he => ?_) ?_ haccepted
    · have htried' : nextListCursor owner state generation last through (clock.turn j) = .ok result.nextCursor := by
        rw [← Nat.zero_add j]
        exact htried
      have hshown : ((cands.take params.limit).take (j + 1)).map (·.2) = result.sessions := by
        rw [hsessions, List.take_take, Nat.min_eq_left (by omega)]
      refine hsteady j _ (by rw [List.getElem?_take_of_lt (by omega), hget]) _ _ n n' htried' hcursor ?_ ?_ hfits
      · rw [hshown]
        exact hn
      · rw [hshown]
        exact hn'
    · show result.sessions.length ≤ _
      rw [hsessions, List.length_map, List.length_take]
      omega
    · rw [show ({ result with nextCursor := made } : ListSessionsResult).sessions = result.sessions from rfl,
        hsessions] at he
      obtain ⟨c, hc, rfl⟩ := List.mem_map.1 he
      refine hvalid c ?_
      rw [show cands.take (j + 1) = (cands.take params.limit).take (j + 1) by
        rw [List.take_take, Nat.min_eq_left (by omega)]] at hc
      exact List.mem_of_mem_take hc
    · show (result.sessions.map (·.summary.threadId)).Nodup
      rw [hsessions, List.map_map, List.map_take]
      exact List.Nodup.sublist (List.take_sublist _ _) hnodup

/-- A request whose window is known is answered with a page, or there is no room for its first session. -/
theorem listPage_cases [LawfulListing] {r : SessionManagementRegistry} (h : r.Kept) {owner : String}
    {params : ListSessionsParams} {claims : Option ListCursorClaims} {clock : ListClock}
    {generation after through : Nat} (hparams : params.validate = .ok ())
    (hexhausted : (r.ownerCatalog owner).generationExhausted = false)
    (hwindow : listWindow (r.ownerCatalog owner) claims = .ok (generation, after, through))
    (hgen : generation ≤ u64Max) (hthrough : through ≤ u64Max) (hclock : clock.Bounded)
    (hprintable : ∀ c ∈ (r.listCandidates owner (r.ownerCatalog owner) after through).take params.limit,
      c.2.Printable)
    (hsteady : Steady owner (r.ownerCatalog owner) generation through
      ((r.listCandidates owner (r.ownerCatalog owner) after through).take params.limit) clock) :
    (∃ page, r.listPage owner params claims clock = .ok page) ∨
      ∃ actual, r.listPage owner params claims clock =
        .error (.resourceLimit "session_list_page" actual maxSessionManagementPageBytes none) := by
  have hmade : ∀ c ∈ r.listCandidates owner (r.ownerCatalog owner) after through, ∀ now,
      now + CursorCodec.ttlMs ≤ u64Max → ∃ cursor,
        nextListCursor owner (r.ownerCatalog owner) generation c.1 through now = .ok cursor ∧
          validateListCursor cursor = .ok () := fun c hc now hnow =>
    nextListCursor_ok hgen hthrough (h.candidate_entry hc).1 hnow
  have hvalid : ∀ c ∈ (r.listCandidates owner (r.ownerCatalog owner) after through).take params.limit,
      c.2.validate = .ok () := fun c hc => by
    obtain ⟨-, record, hrecord, heq⟩ := h.candidate_entry (List.mem_of_mem_take hc)
    have hp := hprintable c hc
    rw [heq] at hp ⊢
    exact CatalogRecord.validate_listEntry hrecord hp
  have hnodup : ((r.listCandidates owner (r.ownerCatalog owner) after through).map
      (·.2.summary.threadId)).Nodup := by
    have hthreads := h.nodup_threads owner after through
    rw [← h.listCandidates owner after through, List.map_map] at hthreads
    exact hthreads
  unfold listPage
  simp only [hexhausted, refuse_false, ok_bind, hwindow]
  rcases fillListPage_cases LawfulListing.measured 0 after {} (fun c hc j => by
      obtain ⟨cursor, hcursor, -⟩ := hmade c (List.mem_of_mem_take hc) _ (hclock.turn j)
      exact ⟨cursor, hcursor⟩) with ⟨⟨result, last⟩, hfill⟩ | ⟨actual, hfill⟩
  · left
    obtain ⟨page, hfinish, haccepted⟩ := finishListPage_cases hparams hmade hvalid hnodup hclock hsteady hfill
    refine ⟨page, ?_⟩
    rw [hfill]
    simp only [ok_bind, hfinish, haccepted, Except.mapError]
  · right
    refine ⟨actual, ?_⟩
    rw [hfill]
    rfl

end

/-! ## A catalog over time -/

/-- Every session of the catalog is still there. -/
def Intact (owner : String) (r r' : SessionManagementRegistry) : Prop :=
  ∀ ordinal threadId, (r.ownerCatalog owner).entries.get? ordinal = some threadId →
    (r'.ownerCatalog owner).entries.get? ordinal = some threadId

/-- What holds between an earlier and a later state of a catalog: no ordinal is given out again, and a removal
changes the generation or exhausts it. -/
structure Later (owner : String) (r r' : SessionManagementRegistry) : Prop where
  generation : (r.ownerCatalog owner).generation ≤ (r'.ownerCatalog owner).generation
  exhausted : (r.ownerCatalog owner).generationExhausted = true →
    (r'.ownerCatalog owner).generationExhausted = true
  next : (r.ownerCatalog owner).nextOrdinal ≤ (r'.ownerCatalog owner).nextOrdinal
  old : ∀ ordinal threadId, (r'.ownerCatalog owner).entries.get? ordinal = some threadId →
    ordinal < (r.ownerCatalog owner).nextOrdinal → (r.ownerCatalog owner).entries.get? ordinal = some threadId
  removal : (r'.ownerCatalog owner).generationExhausted = true ∨
    (r.ownerCatalog owner).generation < (r'.ownerCatalog owner).generation ∨ Intact owner r r'

variable {owner : String} {r r' r'' : SessionManagementRegistry}

/-- The catalog did not change. -/
theorem Later.of_eq (h : r'.ownerCatalog owner = r.ownerCatalog owner) : Later owner r r' :=
  ⟨h ▸ Nat.le_refl _, fun he => h ▸ he, h ▸ Nat.le_refl _, fun _ _ hget _ => h ▸ hget,
    .inr (.inr fun _ _ hget => h ▸ hget)⟩

theorem Later.refl (r : SessionManagementRegistry) : Later owner r r := .of_eq rfl

theorem Later.trans (h : Later owner r r') (h' : Later owner r' r'') : Later owner r r'' where
  generation := h.generation.trans h'.generation
  exhausted he := h'.exhausted (h.exhausted he)
  next := h.next.trans h'.next
  old ordinal threadId hget hlt :=
    h.old ordinal threadId (h'.old ordinal threadId hget (hlt.trans_le h.next)) hlt
  removal := by
    have hgen := h.generation
    have hgen' := h'.generation
    rcases h'.removal with hex | hlt | hintact
    · exact .inl hex
    · exact .inr (.inl (by omega))
    · rcases h.removal with hex | hlt | hintact'
      · exact .inl (h'.exhausted hex)
      · exact .inr (.inl (by omega))
      · exact .inr (.inr fun ordinal threadId hget => hintact _ _ (hintact' _ _ hget))

/-- A session that is there at the end was there before, if it is old enough. -/
theorem Later.intact_left (h' : Later owner r' r'') (hnext : (r.ownerCatalog owner).nextOrdinal ≤
    (r'.ownerCatalog owner).nextOrdinal)
    (hrange : ∀ ordinal threadId, (r.ownerCatalog owner).entries.get? ordinal = some threadId →
      ordinal < (r.ownerCatalog owner).nextOrdinal)
    (h : Intact owner r r'') : Intact owner r r' := fun ordinal threadId hget =>
  h'.old ordinal threadId (h _ _ hget) ((hrange _ _ hget).trans_le hnext)

/-- Nothing below an ordinal changes while nothing is removed. -/
theorem Later.between_eq (h : Later owner r r') (hintact : Intact owner r r') {after through : Nat}
    (hthrough : through < (r.ownerCatalog owner).nextOrdinal) :
    (r'.ownerCatalog owner).entries.between after through =
      (r.ownerCatalog owner).entries.between after through :=
  OrdMap.between_congr fun ordinal threadId _ hle =>
    ⟨fun hget => h.old ordinal threadId hget (by omega), fun hget => hintact ordinal threadId hget⟩

section
variable [External]

/-- Removing sessions. -/
theorem Removed.later {other : String} {removed : List ClosedSession} (h : r.Kept)
    (hr : Removed other removed r r') : Later owner r r' := by
  by_cases hother : owner = other
  · subst hother
    have hgen := hr.generation
    have hbound := h.generation owner
    refine ⟨?_, fun he => ?_, hr.next ▸ Nat.le_refl _, fun ordinal threadId hget _ => ?_, ?_⟩
    · by_cases hle : (r.ownerCatalog owner).generation + removed.length ≤ u64Max
      · rw [(hgen.1 hle).1]
        exact Nat.le_add_right _ _
      · rw [(hgen.2 (by omega)).1]
        exact hbound
    · by_cases hle : (r.ownerCatalog owner).generation + removed.length ≤ u64Max
      · rw [(hgen.1 hle).2]
        exact he
      · exact (hgen.2 (by omega)).2
    · rw [hr.entries] at hget
      split at hget
      · cases hget
      · exact hget
    · by_cases hle : (r.ownerCatalog owner).generation + removed.length ≤ u64Max
      · cases removed with
        | nil =>
          refine .inr (.inr fun ordinal threadId hget => ?_)
          rw [hr.entries, if_neg (by simp)]
          exact hget
        | cons c removed =>
          refine .inr (.inl ?_)
          rw [(hgen.1 hle).1, List.length_cons]
          omega
      · exact .inl (hgen.2 (by omega)).2
  · exact .of_eq (hr.others owner hother)

theorem Kept.later_prune [SnapshotSerde] (h : r.Kept) (limits : ManagementLimits) (now : Nat) (other : String)
    (protectedRecord : Option Nat) : Later owner r (r.pruneOwner limits now other protectedRecord) := by
  obtain ⟨removed, -, -, hr⟩ := h.prune limits now other protectedRecord
  exact hr.later h

theorem Kept.later_step [EventSerde] [SnapshotSerde] {e : CatalogEvent} (h : r.Kept) (hs : CatalogStep r e r') :
    Later owner r r' := by
  cases hs with
  | insert other _ _ _ _ _ _ _ _ _ inserted =>
    obtain ⟨record, -, -, -, -, -, rfl⟩ := insert_ok inserted
    by_cases hother : other = owner
    · subst hother
      have hcatalog : ∀ records state, (⟨records, r.owners.insert other state⟩ :
          SessionManagementRegistry).ownerCatalog other = state := fun records state => by
        rw [ownerCatalog_insert, if_pos rfl]
      refine ⟨?_, ?_, ?_, fun ordinal thread hget hlt => ?_, .inr (.inr fun ordinal thread hget => ?_)⟩
      · rw [hcatalog]
      · rw [hcatalog]
        exact id
      · rw [hcatalog]
        exact Nat.le_succ _
      · rw [hcatalog, OrdMap.get?_insert_ne _ _ (Ne.symm hlt.ne)] at hget
        exact hget
      · rw [hcatalog, OrdMap.get?_insert_ne _ _ (h.range other ordinal thread hget).2.ne']
        exact hget
    · refine .of_eq ?_
      rw [ownerCatalog_insert, if_neg hother]
  | publish _ _ _ _ _ _ => exact .of_eq rfl
  | close _ _ _ _ _ => exact .of_eq rfl
  | prune limits now other protectedRecord => exact h.later_prune limits now other protectedRecord

theorem Kept.later_run [EventSerde] [SnapshotSerde] {es : List CatalogEvent} (h : r.Kept)
    (hrun : Lts.Run CatalogStep r es r') : Later owner r r' :=
  hrun.rel Kept (Later owner) (fun _ _ _ h hs => h.step hs) Later.refl (fun _ _ _ => Later.trans)
    (fun _ _ _ h hs => h.later_step hs) h

/-- The generation, and whether it is exhausted. -/
def SameGeneration (owner : String) (r r' : SessionManagementRegistry) : Prop :=
  (r'.ownerCatalog owner).generation = (r.ownerCatalog owner).generation ∧
    (r'.ownerCatalog owner).generationExhausted = (r.ownerCatalog owner).generationExhausted

/-- A removal that removes nothing. -/
theorem Kept.quiet_prune [SnapshotSerde] (h : r.Kept) {limits : ManagementLimits} {now : Nat} {other : String}
    {protectedRecord : Option Nat} (hintact : Intact owner r (r.pruneOwner limits now other protectedRecord)) :
    SameGeneration owner r (r.pruneOwner limits now other protectedRecord) := by
  obtain ⟨removed, hsub, -, hr⟩ := h.prune limits now other protectedRecord
  by_cases hother : owner = other
  · subst hother
    have hnone : removed = [] := by
      refine List.eq_nil_iff_forall_not_mem.2 fun c hc => ?_
      have hstays := hintact _ _ (mem_candidates.1 (hsub hc)).1
      rw [hr.entries, if_pos (List.mem_map_of_mem hc)] at hstays
      cases hstays
    subst hnone
    exact hr.generation.1 (h.generation owner)
  · unfold SameGeneration
    rw [hr.others owner hother]
    exact ⟨rfl, rfl⟩

/-- A step that removes nothing of the owner's. -/
def Quiet [EventSerde] [SnapshotSerde] (owner : String) (r : SessionManagementRegistry) (e : CatalogEvent)
    (r' : SessionManagementRegistry) : Prop :=
  CatalogStep r e r' ∧ Intact owner r r'

theorem Kept.quiet_step [EventSerde] [SnapshotSerde] {e : CatalogEvent} (h : r.Kept) (hs : Quiet owner r e r') :
    SameGeneration owner r r' := by
  obtain ⟨hs, hintact⟩ := hs
  cases hs with
  | insert other _ _ _ _ _ _ _ _ _ inserted =>
    obtain ⟨record, -, -, -, -, -, rfl⟩ := insert_ok inserted
    unfold SameGeneration
    rw [ownerCatalog_insert]
    split
    · rename_i heq
      subst heq
      exact ⟨rfl, rfl⟩
    · exact ⟨rfl, rfl⟩
  | publish _ _ _ _ _ _ => exact ⟨rfl, rfl⟩
  | close _ _ _ _ _ => exact ⟨rfl, rfl⟩
  | prune _ _ _ _ => exact h.quiet_prune hintact

theorem Kept.quiet_run [EventSerde] [SnapshotSerde] {es : List CatalogEvent} (h : r.Kept)
    (hrun : Lts.Run (Quiet owner) r es r') : SameGeneration owner r r' :=
  hrun.rel Kept (SameGeneration owner) (fun _ _ _ h hs => h.step hs.1) (fun _ => ⟨rfl, rfl⟩)
    (fun _ _ _ h h' => ⟨h'.1.trans h.1, h'.2.trans h.2⟩) (fun _ _ _ h hs => h.quiet_step hs) h

end

/-! ## Calls -/

section
variable [CursorCodec ListCursorClaims] [ListSerde]

/-- The claims of a cursor that was returned. -/
theorem decode_listCursor [LawfulListing] {owner : String} {generation after through now : Nat} {cursor : String}
    (h : listCursor owner generation after through now = .ok cursor) (hafter : after ≤ through) :
    (CursorCodec.decode owner cursor : Option ListCursorClaims) =
      some ⟨1, "session_list", generation, after, through, now + CursorCodec.ttlMs⟩ := by
  unfold listCursor at h
  obtain ⟨expiresAtMs, hexpiry, h⟩ := bind_ok h
  obtain ⟨token, htoken, h⟩ := bind_ok h
  obtain ⟨_, -, h⟩ := bind_ok h
  obtain rfl := Except.ok.inj h
  unfold CursorCodec.expiry UsageMetrics.checkedAdd64 at hexpiry
  split at hexpiry
  · obtain rfl := Except.ok.inj hexpiry
    unfold CursorCodec.encode at htoken
    obtain ⟨hshort, htoken⟩ := refuse_bind_ok htoken
    obtain rfl := Except.ok.inj htoken
    unfold CursorCodec.decode
    rw [if_neg (of_decide_eq_false hshort)]
    exact LawfulListing.decoded owner _ (by simp [ListCursorClaims.validShape, hafter])
  · cases hexpiry

omit [ListSerde] in
theorem listClaims_error {owner : String} {params : ListSessionsParams} {now : Nat} {e : PageFailure}
    (h : listClaims owner params now = .error e) : e = .listCursorInvalid ∨ e = .listCursorExpired := by
  unfold listClaims at h
  split at h
  · cases h
  · rename_i cursor _
    cases hdecode : (CursorCodec.decode owner cursor : Option ListCursorClaims) with
    | none =>
      rw [hdecode] at h
      exact .inl (Except.error.inj h).symm
    | some claims =>
      rw [hdecode, orElse_some, ok_bind] at h
      rcases refuse_bind_error h with rfl | h
      · exact .inl rfl
      · rcases refuse_bind_error h with rfl | h
        · exact .inr rfl
        · cases h

omit [CursorCodec ListCursorClaims] [ListSerde] in
theorem listWindow_error {state : OwnerCatalogState} {claims : Option ListCursorClaims} {e : PageFailure}
    (h : listWindow state claims = .error e) : e = .listCursorInvalid ∨ e = .listCursorExpired := by
  cases claims with
  | none => cases h
  | some claims =>
    rcases refuse_bind_error h with rfl | h
    · exact .inr rfl
    · rcases refuse_bind_error h with rfl | h
      · exact .inl rfl
      · cases h

omit [CursorCodec ListCursorClaims] [ListSerde] in
theorem listWindow_some (state : OwnerCatalogState) (claims : ListCursorClaims)
    (hgeneration : claims.generation = state.generation) (hthrough : claims.throughOrdinal < state.nextOrdinal) :
    listWindow state (some claims) = .ok (claims.generation, claims.afterOrdinal, claims.throughOrdinal) := by
  simp only [listWindow, hgeneration, bne_self_eq_false, decide_eq_false (Nat.not_le.2 hthrough), refuse_false,
    ok_bind]

omit [CursorCodec ListCursorClaims] [ListSerde] in
theorem listWindow_expired {state : OwnerCatalogState} {claims : ListCursorClaims}
    (hgeneration : claims.generation ≠ state.generation) :
    listWindow state (some claims) = .error .listCursorExpired := by
  simp only [listWindow, bne_iff_ne.2 hgeneration, refuse_true, error_bind]

omit [ListSerde] in
theorem listClaims_some {owner cursor : String} {params : ListSessionsParams} {claims : ListCursorClaims}
    (now : Nat) (hcursor : params.cursor = some cursor) (hdecode : CursorCodec.decode owner cursor = some claims)
    (hshape : claims.validShape = true) : listClaims owner params now =
      if claims.expiresAtMs ≤ now then .error .listCursorExpired else .ok (some claims) := by
  unfold listClaims
  rw [hcursor]
  simp only [hdecode, orElse, ok_bind, hshape, Bool.not_true, refuse_false]
  split
  · rename_i hexpired
    rw [decide_eq_true hexpired]
    rfl
  · rename_i hexpired
    rw [decide_eq_false hexpired]
    rfl

variable [External] [SnapshotSerde]

/-- A request that is answered. -/
theorem listSessions_ok {limits : ManagementLimits} {params : ListSessionsParams} {clock : ListClock}
    {page : ListSessionsResult} (h : r.listSessions limits owner params clock = (r', .ok page)) :
    r' = r.pruneOwner limits clock.pruned owner none ∧ ∃ claims,
      listClaims owner params clock.checked = .ok claims ∧ r'.listPage owner params claims clock = .ok page := by
  unfold listSessions at h
  split at h
  · cases h
  · rename_i claims hclaims
    obtain ⟨_, -, hclaims⟩ := bind_ok hclaims
    obtain ⟨rfl, hpage⟩ := Prod.mk.inj h
    exact ⟨rfl, claims, hclaims, hpage⟩

/-- A request whose claims are known. -/
theorem listSessions_eq {limits : ManagementLimits} {params : ListSessionsParams} {clock : ListClock}
    {claims : Option ListCursorClaims} (hparams : params.validate = .ok ())
    (hclaims : listClaims owner params clock.checked = .ok claims) :
    r.listSessions limits owner params clock = (r.pruneOwner limits clock.pruned owner none,
      (r.pruneOwner limits clock.pruned owner none).listPage owner params claims clock) := by
  unfold listSessions
  simp only [hparams, hclaims, Except.mapError, ok_bind]

/-- A request whose cursor is refused. -/
theorem listSessions_error {limits : ManagementLimits} {params : ListSessionsParams} {clock : ListClock}
    {e : PageFailure} (hparams : params.validate = .ok ())
    (hclaims : listClaims owner params clock.checked = .error e) :
    r.listSessions limits owner params clock = (r, .error e) := by
  unfold listSessions
  simp only [hparams, hclaims, Except.mapError, ok_bind]

omit [CursorCodec ListCursorClaims] [SnapshotSerde] in
theorem validateFor_fits {page : ListSessionsResult} {params : ListSessionsParams}
    (h : page.validateFor params = .ok ()) : page.sessions.length ≤ params.limit ∧
      ∃ n, ListSerde.listBytes page = .ok n ∧ n ≤ maxSessionManagementPageBytes := by
  unfold ListSessionsResult.validateFor validateManagementPageBytes at h
  obtain ⟨_, -, h⟩ := bind_ok h
  obtain ⟨_, hbytes, h⟩ := bind_ok h
  obtain ⟨hlimit, -⟩ := refuse_bind_ok h
  obtain ⟨n, hn, hfits⟩ := bind_ok hbytes
  exact ⟨Nat.le_of_not_lt (of_decide_eq_false hlimit), n, hn,
    Nat.le_of_not_lt (of_decide_eq_false (refuse_ok hfits))⟩

end

/-! ## Walks -/

/-- The threads that pages show. -/
def shownThreads (pages : List (ListSessionsParams × ListSessionsResult)) : List String :=
  pages.flatMap fun p => p.2.sessions.map (·.summary.threadId)

/-- The cursor of the last page. -/
def followed (pages : List (ListSessionsParams × ListSessionsResult)) : Option String :=
  pages.getLast?.bind fun p => p.2.nextCursor

@[simp] theorem shownThreads_snoc (pages : List (ListSessionsParams × ListSessionsResult))
    (p : ListSessionsParams × ListSessionsResult) :
    shownThreads (pages ++ [p]) = shownThreads pages ++ p.2.sessions.map (·.summary.threadId) := by
  simp [shownThreads]

@[simp] theorem followed_snoc (pages : List (ListSessionsParams × ListSessionsResult))
    (p : ListSessionsParams × ListSessionsResult) : followed (pages ++ [p]) = p.2.nextCursor := by
  simp [followed]

section
variable [CursorCodec ListCursorClaims]

/-- How far a walk has come: what is shown of the entries, and the cursor behind it. -/
structure Reached (owner : String) (generation through now : Nat) (entries : List (Nat × String))
    (threads : List String) (next : Option String) (done rest : List (Nat × String)) : Prop where
  split : entries = done ++ rest
  shown : threads = done.map (·.2)
  next : rest = [] ∧ next = none ∨ ∃ pre e cursor, done = pre ++ [e] ∧ rest ≠ [] ∧ next = some cursor ∧
    (CursorCodec.decode owner cursor : Option ListCursorClaims) =
      some ⟨1, "session_list", generation, e.1, through, now + CursorCodec.ttlMs⟩

/-- A page of what is left. -/
theorem Paged.reached [ListSerde] [LawfulListing] {generation through limit now k : Nat}
    {rest : List (Nat × String)} {page : ListSessionsResult} (h : Paged owner generation through rest limit now k page)
    (hle : ∀ e ∈ rest, e.1 ≤ through) (done : List (Nat × String)) :
    Reached owner generation through now (done ++ rest)
      (done.map (·.2) ++ page.sessions.map (·.summary.threadId)) page.nextCursor
      (done ++ rest.take k) (rest.drop k) where
  split := by rw [List.append_assoc, List.take_append_drop]
  shown := by rw [List.map_append, h.sessions]
  next := by
    rcases h.next with ⟨rfl, hnone⟩ | ⟨shown, e, more, cursor, rfl, hmore, rfl, hnext, hcursor⟩
    · exact .inl ⟨List.drop_length, hnone⟩
    · have hsplit : shown ++ e :: more = (shown ++ [e]) ++ more := List.append_cons shown e more
      have hlength : shown.length + 1 = (shown ++ [e]).length := by simp
      refine .inr ⟨done ++ shown, e, cursor, ?_, ?_, hnext, decode_listCursor hcursor (hle e (by simp))⟩
      · rw [hsplit, hlength, List.take_left, List.append_assoc]
      · rw [hsplit, hlength, List.drop_left]
        exact hmore

end

section
variable [CursorCodec ListCursorClaims] [ListSerde] [External] [EventSerde] [SnapshotSerde]

/-- The calls of a client that follows one cursor after another, with other steps between them: the registry of the
first call, the pages, the time of the last cursor, and the registry behind the last call. -/
inductive ListWalk (limits : ManagementLimits) (owner : String) (r₀ : SessionManagementRegistry) :
    SessionManagementRegistry → List (ListSessionsParams × ListSessionsResult) → Nat →
      SessionManagementRegistry → Prop
  | first {r₁ : SessionManagementRegistry} {page : ListSessionsResult} (params : ListSessionsParams)
      (clock : ListClock) (start : params.cursor = none)
      (answered : r₀.listSessions limits owner params clock = (r₁, .ok page)) :
      ListWalk limits owner r₀ r₁ [(params, page)] clock.last r₁
  | next {r₁ r r' r'' : SessionManagementRegistry} {pages : List (ListSessionsParams × ListSessionsResult)}
      {now : Nat} {events : List CatalogEvent} {page : ListSessionsResult} {cursor : String}
      (walk : ListWalk limits owner r₀ r₁ pages now r) (between : Lts.Run CatalogStep r events r')
      (params : ListSessionsParams) (clock : ListClock) (more : followed pages = some cursor)
      (follows : params.cursor = some cursor)
      (answered : r'.listSessions limits owner params clock = (r'', .ok page)) :
      ListWalk limits owner r₀ r₁ (pages ++ [(params, page)]) clock.last r''

/-- What holds behind every call of a walk. -/
structure WalkedTo (owner : String) (r₁ : SessionManagementRegistry)
    (pages : List (ListSessionsParams × ListSessionsResult)) (now : Nat) (r : SessionManagementRegistry) : Prop where
  first : r₁.Kept
  kept : r.Kept
  later : Later owner r₁ r
  same : SameGeneration owner r₁ r
  fresh : (r.ownerCatalog owner).generationExhausted = false
  reached : ∃ done rest, Reached owner (r₁.ownerCatalog owner).generation
    ((r₁.ownerCatalog owner).entries.lastKey.getD 0) now (r₁.ownerCatalog owner).entries.entries
    (shownThreads pages) (followed pages) done rest
  fits : ∀ p ∈ pages, p.2.sessions.length ≤ p.1.limit ∧
    ∃ n, ListSerde.listBytes p.2 = .ok n ∧ n ≤ maxSessionManagementPageBytes
  progress : (r₁.ownerCatalog owner).entries.entries ≠ [] → ∀ p ∈ pages, p.2.sessions ≠ []
  single : (r₁.ownerCatalog owner).entries.entries = [] → pages.length = 1

omit [CursorCodec ListCursorClaims] [ListSerde] [EventSerde] [SnapshotSerde] in
/-- The first window is the whole catalog. -/
theorem Kept.whole (h : r.Kept) (owner : String) :
    (r.ownerCatalog owner).entries.between 0 ((r.ownerCatalog owner).entries.lastKey.getD 0) =
      (r.ownerCatalog owner).entries.entries :=
  OrdMap.between_all fun ordinal threadId hget => by
    obtain ⟨last, hlast, hle⟩ := OrdMap.le_lastKey hget
    rw [hlast]
    exact ⟨(h.range owner ordinal threadId hget).1, hle⟩

omit [CursorCodec ListCursorClaims] [ListSerde] [EventSerde] [SnapshotSerde] in
theorem Kept.le_through (h : r.Kept) (owner : String) {e : Nat × String}
    (he : e ∈ (r.ownerCatalog owner).entries.entries) :
    e.1 ≤ (r.ownerCatalog owner).entries.lastKey.getD 0 := by
  rw [← h.whole owner] at he
  exact (OrdMap.mem_between.1 he).2.2

omit [CursorCodec ListCursorClaims] [ListSerde] [EventSerde] [SnapshotSerde] in
/-- The end of the first window was given out. -/
theorem Kept.through_lt (h : r.Kept) (owner : String) :
    (r.ownerCatalog owner).entries.lastKey.getD 0 < (r.ownerCatalog owner).nextOrdinal := by
  cases hl : (r.ownerCatalog owner).entries.lastKey with
  | none => exact (h.next owner).1
  | some last =>
    unfold OrdMap.lastKey at hl
    obtain ⟨e, he, rfl⟩ := Option.map_eq_some_iff.1 hl
    exact (h.range owner e.1 e.2 (OrdMap.get?_eq_some_iff.2 (List.mem_of_getLast? he))).2

omit [EventSerde] in
/-- The first call. -/
theorem WalkedTo.start [LawfulListing] {limits : ManagementLimits} {params : ListSessionsParams} {clock : ListClock}
    {page : ListSessionsResult} {r₁ : SessionManagementRegistry} (h : r.Kept) (start : params.cursor = none)
    (answered : r.listSessions limits owner params clock = (r₁, .ok page)) :
    WalkedTo owner r₁ [(params, page)] clock.last r₁ := by
  obtain ⟨rfl, claims, hclaims, hpage⟩ := listSessions_ok answered
  obtain ⟨removed, hsub, -, hr⟩ := h.prune limits clock.pruned owner none
  have hkept := h.removed hsub hr
  generalize r.pruneOwner limits clock.pruned owner none = r₁ at hkept hpage ⊢
  unfold listClaims at hclaims
  rw [start] at hclaims
  obtain rfl := Except.ok.inj hclaims
  obtain ⟨hfresh, hvalid, generation, after, through, k, hwindow, hpaged⟩ := listPage_ok hkept hpage
  cases hwindow
  rw [hkept.whole owner] at hpaged
  have hreached := hpaged.reached (fun e he => hkept.le_through owner he) []
  rw [List.nil_append, List.map_nil, List.nil_append, List.nil_append] at hreached
  have hshown : shownThreads [(params, page)] = page.sessions.map (·.summary.threadId) := by simp [shownThreads]
  refine ⟨hkept, hkept, .refl _, ⟨rfl, rfl⟩, hfresh, ⟨_, _, hshown ▸ hreached⟩, ?_, fun hsome p hp => ?_,
    fun _ => rfl⟩
  · rintro p hp
    obtain rfl := List.mem_singleton.1 hp
    exact validateFor_fits hvalid
  · obtain rfl := List.mem_singleton.1 hp
    exact hpaged.sessions_ne_nil hsome

/-- A call with the cursor of the last page. -/
theorem WalkedTo.next [LawfulListing] {limits : ManagementLimits} {params : ListSessionsParams} {clock : ListClock}
    {page : ListSessionsResult} {r₁ r r' r'' : SessionManagementRegistry} {cursor : String} {now : Nat}
    {pages : List (ListSessionsParams × ListSessionsResult)} {events : List CatalogEvent}
    (h : WalkedTo owner r₁ pages now r) (between : Lts.Run CatalogStep r events r')
    (more : followed pages = some cursor) (follows : params.cursor = some cursor)
    (answered : r'.listSessions limits owner params clock = (r'', .ok page)) :
    WalkedTo owner r₁ (pages ++ [(params, page)]) clock.last r'' := by
  obtain ⟨rfl, claims, hclaims, hpage⟩ := listSessions_ok answered
  have hrun : Lts.Run CatalogStep r (events ++ [.pruned owner]) (r'.pruneOwner limits clock.pruned owner none) :=
    between.snoc (.prune r' limits clock.pruned owner none)
  have hkept : (r'.pruneOwner limits clock.pruned owner none).Kept :=
    hrun.invariant Kept (fun _ _ _ h hs => h.step hs) h.kept
  have hlater := h.later.trans (h.kept.later_run hrun)
  generalize r'.pruneOwner limits clock.pruned owner none = r'' at hkept hlater hpage ⊢
  obtain ⟨done, rest, hreached⟩ := h.reached
  rcases hreached.next with ⟨-, hnone⟩ | ⟨pre, e, token, rfl, hrest, htoken, hdecode⟩
  · rw [hnone] at more
    cases more
  rw [more] at htoken
  obtain rfl := Option.some.inj htoken
  have he : e ∈ (r₁.ownerCatalog owner).entries.entries := by
    rw [hreached.split]
    simp
  -- the cursor is taken, and its generation is that of the catalog
  rw [listClaims_some _ follows hdecode (by simp [ListCursorClaims.validShape, h.first.le_through owner he])]
    at hclaims
  split at hclaims
  · cases hclaims
  obtain rfl := Except.ok.inj hclaims
  obtain ⟨hfresh, hvalid, generation, after, through, k, hwindow, hpaged⟩ := listPage_ok hkept hpage
  obtain ⟨hgeneration, hwindow⟩ := refuse_bind_ok hwindow
  obtain ⟨-, hwindow⟩ := refuse_bind_ok hwindow
  cases hwindow
  have hsame : (r₁.ownerCatalog owner).generation = (r''.ownerCatalog owner).generation := by
    simpa using hgeneration
  -- so nothing was removed, and the window is what is left
  have hintact : Intact owner r₁ r'' := by
    rcases hlater.removal with hexhausted | hlt | hintact
    · rw [hexhausted] at hfresh
      cases hfresh
    · omega
    · exact hintact
  have hwindow : (r''.ownerCatalog owner).entries.between e.1 ((r₁.ownerCatalog owner).entries.lastKey.getD 0) =
      rest := by
    rw [hlater.between_eq hintact (h.first.through_lt owner)]
    refine OrdMap.between_split (l := pre) ((h.first.whole owner).trans ?_)
    rw [hreached.split, ← List.append_cons]
  rw [hwindow] at hpaged
  have hle : ∀ d ∈ rest, d.1 ≤ (r₁.ownerCatalog owner).entries.lastKey.getD 0 := fun d hd =>
    h.first.le_through owner (by rw [hreached.split]; exact List.mem_append_right _ hd)
  have hfurther := hpaged.reached hle (pre ++ [e])
  rw [← hreached.split, ← hreached.shown, ← shownThreads_snoc pages (params, page),
    ← followed_snoc pages (params, page)] at hfurther
  refine ⟨h.first, hkept, hlater, ⟨hsame.symm, ?_⟩, hfresh, ⟨_, _, hfurther⟩, fun p hp => ?_,
    fun hsome p hp => ?_, fun hnone => ?_⟩
  · rw [hfresh, ← h.fresh]
    exact h.same.2
  · rcases List.mem_append.1 hp with hp | hp
    · exact h.fits p hp
    · obtain rfl := List.mem_singleton.1 hp
      exact validateFor_fits hvalid
  · rcases List.mem_append.1 hp with hp | hp
    · exact h.progress hsome p hp
    · obtain rfl := List.mem_singleton.1 hp
      exact hpaged.sessions_ne_nil hrest
  · rw [hnone] at he
    cases he

/-- Every walk. -/
theorem ListWalk.walkedTo [LawfulListing] {limits : ManagementLimits} {r₀ r₁ r : SessionManagementRegistry}
    {pages : List (ListSessionsParams × ListSessionsResult)} {now : Nat} (h : r₀.Kept)
    (hwalk : ListWalk limits owner r₀ r₁ pages now r) : WalkedTo owner r₁ pages now r := by
  induction hwalk with
  | first params clock start answered => exact .start h start answered
  | next _ between params clock more follows answered ih => exact ih.next between more follows answered

/-- What a client sees of a walk: the sessions of the first catalog in the order of their ordinals, each once, and
no more pages than sessions. -/
structure Shown (owner : String) (r₁ : SessionManagementRegistry)
    (pages : List (ListSessionsParams × ListSessionsResult)) : Prop where
  order : ∃ rest, (r₁.ownerCatalog owner).entries.entries.map (·.2) = shownThreads pages ++ rest ∧
    (followed pages = none ↔ rest = [])
  once : (shownThreads pages).Nodup
  fits : ∀ p ∈ pages, p.2.sessions.length ≤ p.1.limit ∧
    ∃ n, ListSerde.listBytes p.2 = .ok n ∧ n ≤ maxSessionManagementPageBytes
  progress : (r₁.ownerCatalog owner).entries.entries ≠ [] → ∀ p ∈ pages, p.2.sessions ≠ []
  ends : pages.length ≤ max 1 (r₁.ownerCatalog owner).entries.entries.length

omit [CursorCodec ListCursorClaims] [ListSerde] [External] [EventSerde] [SnapshotSerde] in
theorem length_le_shownThreads : ∀ {pages : List (ListSessionsParams × ListSessionsResult)},
    (∀ p ∈ pages, p.2.sessions ≠ []) → pages.length ≤ (shownThreads pages).length
  | [], _ => Nat.le_refl _
  | p :: pages, h => by
    have hpage := List.length_pos_iff.2 (h p List.mem_cons_self)
    have hrest := length_le_shownThreads fun q hq => h q (List.mem_cons_of_mem _ hq)
    unfold shownThreads at hrest ⊢
    rw [List.flatMap_cons, List.length_append, List.length_map, List.length_cons]
    omega

omit [EventSerde] [SnapshotSerde] in
theorem WalkedTo.shown {r₁ : SessionManagementRegistry} {now : Nat}
    {pages : List (ListSessionsParams × ListSessionsResult)} (h : WalkedTo owner r₁ pages now r) :
    Shown owner r₁ pages := by
  obtain ⟨done, rest, hreached⟩ := h.reached
  have horder : (r₁.ownerCatalog owner).entries.entries.map (·.2) = shownThreads pages ++ rest.map (·.2) := by
    rw [hreached.split, hreached.shown, List.map_append]
  refine ⟨⟨_, horder, ?_⟩, ?_, h.fits, h.progress, ?_⟩
  · rw [List.map_eq_nil_iff]
    rcases hreached.next with ⟨hrest, hnone⟩ | ⟨_, _, _, -, hrest, hsome, -⟩
    · exact ⟨fun _ => hrest, fun _ => hnone⟩
    · rw [hsome]
      exact ⟨nofun, fun hnil => absurd hnil hrest⟩
  · have hnodup := h.first.nodup_threads owner 0 ((r₁.ownerCatalog owner).entries.lastKey.getD 0)
    rw [h.first.whole owner, horder] at hnodup
    exact (List.nodup_append.1 hnodup).1
  · by_cases hsome : (r₁.ownerCatalog owner).entries.entries = []
    · rw [h.single hsome]
      exact Nat.le_max_left _ _
    · have hpages := length_le_shownThreads (h.progress hsome)
      have hlength := congrArg List.length horder
      rw [List.length_map, List.length_append] at hlength
      omega

/-! ## Requests of any client -/

/-- What a request needs to be answered: the clock does not run out, the sessions that the page may show can be
listed, and the page still fits when its cursor is made again. -/
structure Listable (r : SessionManagementRegistry) (owner : String) (params : ListSessionsParams)
    (clock : ListClock) : Prop where
  bounded : clock.Bounded
  window : ∀ claims generation after through, listClaims owner params clock.checked = .ok claims →
    listWindow (r.ownerCatalog owner) claims = .ok (generation, after, through) →
    (∀ c ∈ (r.listCandidates owner (r.ownerCatalog owner) after through).take params.limit, c.2.Printable) ∧
    Steady owner (r.ownerCatalog owner) generation through
      ((r.listCandidates owner (r.ownerCatalog owner) after through).take params.limit) clock

omit [EventSerde] [SnapshotSerde] in
theorem listPage_error {params : ListSessionsParams} {claims : Option ListCursorClaims} {clock : ListClock}
    {e : PageFailure} (hfresh : (r.ownerCatalog owner).generationExhausted = false)
    (hwindow : listWindow (r.ownerCatalog owner) claims = .error e) :
    r.listPage owner params claims clock = .error e := by
  unfold listPage
  simp only [hfresh, refuse_false, ok_bind, hwindow, error_bind]

omit [EventSerde] [SnapshotSerde] in
/-- A page, or no room for its first session. -/
theorem Kept.listPage_cases [LawfulListing] (h : r.Kept) {params : ListSessionsParams}
    {claims : Option ListCursorClaims} {clock : ListClock} {window : Nat × Nat × Nat}
    (hparams : params.validate = .ok ()) (hclaims : listClaims owner params clock.checked = .ok claims)
    (hwindow : listWindow (r.ownerCatalog owner) claims = .ok window)
    (hfresh : (r.ownerCatalog owner).generationExhausted = false) (hlistable : Listable r owner params clock) :
    (∃ page, r.listPage owner params claims clock = .ok page) ∨
      ∃ actual, r.listPage owner params claims clock =
        .error (.resourceLimit "session_list_page" actual maxSessionManagementPageBytes none) := by
  obtain ⟨generation, after, through⟩ := window
  obtain ⟨hprintable, hsteady⟩ := hlistable.window _ _ _ _ hclaims hwindow
  have hbounds : generation ≤ u64Max ∧ through ≤ u64Max := by
    have hgeneration := h.generation owner
    have hnext := (h.next owner).2
    cases claims with
    | none =>
      cases hwindow
      have hlast := h.through_lt owner
      exact ⟨hgeneration, by omega⟩
    | some claims =>
      obtain ⟨hsame, hwindow⟩ := refuse_bind_ok hwindow
      obtain ⟨hlast, hwindow⟩ := refuse_bind_ok hwindow
      cases hwindow
      have hsame : claims.generation = (r.ownerCatalog owner).generation := by simpa using hsame
      have hlast := of_decide_eq_false hlast
      exact ⟨by omega, by omega⟩
  exact SessionManagementRegistry.listPage_cases h hparams hfresh hwindow hbounds.1 hbounds.2 hlistable.bounded
    hprintable hsteady

omit [EventSerde] in
/-- No request is answered with `InvalidProjection`. -/
theorem Kept.listSessions_projection [LawfulListing] (h : r.Kept) {limits : ManagementLimits}
    {params : ListSessionsParams} {clock : ListClock}
    (hfresh : ((r.pruneOwner limits clock.pruned owner none).ownerCatalog owner).generationExhausted = false)
    (hlistable : Listable (r.pruneOwner limits clock.pruned owner none) owner params clock) (message : String) :
    (r.listSessions limits owner params clock).2 ≠ .error (.invalidProjection message) := by
  cases hparams : params.validate with
  | error e =>
    unfold listSessions
    rw [hparams]
    exact fun heq => PageFailure.noConfusion (Except.error.inj heq) fun heq => by cases heq
  | ok =>
    cases hclaims : listClaims owner params clock.checked with
    | error e =>
      rw [listSessions_error hparams hclaims]
      rintro heq
      obtain rfl := Except.error.inj heq
      rcases listClaims_error hclaims with he | he <;> cases he
    | ok claims =>
      rw [listSessions_eq hparams hclaims]
      obtain ⟨removed, hsub, -, hr⟩ := h.prune limits clock.pruned owner none
      have hkept := h.removed hsub hr
      cases hwindow : listWindow ((r.pruneOwner limits clock.pruned owner none).ownerCatalog owner) claims with
      | ok window =>
        rcases hkept.listPage_cases hparams hclaims hwindow hfresh hlistable with ⟨page, hpage⟩ | ⟨actual, hpage⟩
        · rw [hpage]
          exact nofun
        · rw [hpage]
          exact nofun
      | error e =>
        rw [listPage_error hfresh hwindow]
        rintro heq
        obtain rfl := Except.error.inj heq
        rcases listWindow_error hwindow with he | he <;> cases he

omit [CursorCodec ListCursorClaims] [ListSerde] [External] [EventSerde] [SnapshotSerde] in
theorem listWindow_generation {state : OwnerCatalogState} {claims : Option ListCursorClaims}
    {generation after through : Nat} (h : listWindow state claims = .ok (generation, after, through)) :
    generation = state.generation := by
  cases claims with
  | none =>
    cases h
    rfl
  | some claims =>
    obtain ⟨hsame, h⟩ := refuse_bind_ok h
    obtain ⟨-, h⟩ := refuse_bind_ok h
    cases h
    simpa using hsame

omit [EventSerde] in
/-- The claims of a cursor that a page returned. -/
theorem Kept.returned [LawfulListing] (h : r.Kept) {limits : ManagementLimits} {params : ListSessionsParams}
    {clock : ListClock} {page : ListSessionsResult} {cursor : String}
    (answered : r.listSessions limits owner params clock = (r', .ok page)) (hcursor : page.nextCursor = some cursor) :
    r'.Kept ∧ ∃ claims : ListCursorClaims, claims.validShape = true ∧
      CursorCodec.decode owner cursor = some claims ∧ claims.generation = (r'.ownerCatalog owner).generation := by
  obtain ⟨rfl, claims, -, hpage⟩ := listSessions_ok answered
  obtain ⟨removed, hsub, -, hr⟩ := h.prune limits clock.pruned owner none
  have hkept := h.removed hsub hr
  obtain ⟨-, -, generation, after, through, k, hwindow, hpaged⟩ := listPage_ok hkept hpage
  refine ⟨hkept, ?_⟩
  rcases hpaged.next with ⟨-, hnone⟩ | ⟨shown, e, rest, made, hsplit, -, -, hmade, hlist⟩
  · rw [hnone] at hcursor
    cases hcursor
  · rw [hmade] at hcursor
    obtain rfl := Option.some.inj hcursor
    have he : e.1 ≤ through := by
      have hmem : e ∈ shown ++ e :: rest := by simp
      rw [← hsplit] at hmem
      exact (OrdMap.mem_between.1 hmem).2.2
    exact ⟨_, by simp [ListCursorClaims.validShape, he], decode_listCursor hlist he, listWindow_generation hwindow⟩

/-- A cursor from before a removal is expired. -/
theorem Kept.listSessions_removed [LawfulListing] {a b : SessionManagementRegistry} {limits : ManagementLimits}
    {params : ListSessionsParams} {clock : ListClock} {cursor : String} {claims : ListCursorClaims}
    {events events' : List CatalogEvent} (h : r.Kept) (hshape : claims.validShape = true)
    (hdecode : CursorCodec.decode owner cursor = some claims)
    (hgeneration : claims.generation = (r.ownerCatalog owner).generation) (ha : Lts.Run CatalogStep r events a)
    (hb : Lts.Run CatalogStep a events' b) (hcursor : params.cursor = some cursor) (hparams : params.validate = .ok ())
    (hgone : ¬ Intact owner a (b.pruneOwner limits clock.pruned owner none))
    (hfresh : ((b.pruneOwner limits clock.pruned owner none).ownerCatalog owner).generationExhausted = false) :
    (b.listSessions limits owner params clock).2 = .error .listCursorExpired := by
  have hclaims := listClaims_some clock.checked hcursor hdecode hshape
  split at hclaims
  · rw [listSessions_error hparams hclaims]
  · rw [listSessions_eq hparams hclaims]
    have hkept : a.Kept := ha.invariant Kept (fun _ _ _ h hs => h.step hs) h
    have hlater : Later owner a _ := hkept.later_run (hb.snoc (.prune b limits clock.pruned owner none))
    have hbefore := (show Later owner r a from h.later_run ha).generation
    have hlt : (a.ownerCatalog owner).generation <
        ((b.pruneOwner limits clock.pruned owner none).ownerCatalog owner).generation := by
      rcases hlater.removal with hexhausted | hlt | hintact
      · rw [hexhausted] at hfresh
        cases hfresh
      · exact hlt
      · exact absurd hintact hgone
    exact listPage_error hfresh (listWindow_expired (by omega))

/-- The cursor of the last page is taken while nothing is removed. -/
theorem WalkedTo.more [LawfulListing] {limits : ManagementLimits} {params : ListSessionsParams} {clock : ListClock}
    {r₁ r r' : SessionManagementRegistry} {cursor : String} {now : Nat}
    {pages : List (ListSessionsParams × ListSessionsResult)} {events : List CatalogEvent}
    (h : WalkedTo owner r₁ pages now r) (more : followed pages = some cursor)
    (quiet : Lts.Run (Quiet owner) r events r')
    (intact : Intact owner r' (r'.pruneOwner limits clock.pruned owner none)) (follows : params.cursor = some cursor)
    (hparams : params.validate = .ok ()) (hclock : clock.checked < now + CursorCodec.ttlMs)
    (hlistable : Listable (r'.pruneOwner limits clock.pruned owner none) owner params clock) :
    (∃ page, (r'.listSessions limits owner params clock).2 = .ok page) ∨
      ∃ actual, (r'.listSessions limits owner params clock).2 =
        .error (.resourceLimit "session_list_page" actual maxSessionManagementPageBytes none) := by
  obtain ⟨done, rest, hreached⟩ := h.reached
  rcases hreached.next with ⟨-, hnone⟩ | ⟨pre, e, token, rfl, hrest, htoken, hdecode⟩
  · rw [hnone] at more
    cases more
  rw [more] at htoken
  obtain rfl := Option.some.inj htoken
  have he : e ∈ (r₁.ownerCatalog owner).entries.entries := by
    rw [hreached.split]
    simp
  have hclaims := listClaims_some clock.checked follows hdecode
    (by simp [ListCursorClaims.validShape, h.first.le_through owner he])
  rw [if_neg (Nat.not_le.2 hclock)] at hclaims
  rw [listSessions_eq hparams hclaims]
  have hrun : Lts.Run CatalogStep r (events ++ [.pruned owner]) (r'.pruneOwner limits clock.pruned owner none) :=
    (quiet.mono fun hs => hs.1).snoc (.prune r' limits clock.pruned owner none)
  have hkept' : r'.Kept := (quiet.mono fun hs => hs.1).invariant Kept (fun _ _ _ h hs => h.step hs) h.kept
  have hkept : (r'.pruneOwner limits clock.pruned owner none).Kept :=
    hrun.invariant Kept (fun _ _ _ h hs => h.step hs) h.kept
  have hlater : Later owner r₁ _ := h.later.trans (h.kept.later_run hrun)
  have hquiet := h.kept.quiet_run quiet
  have hquiet' := hkept'.quiet_prune intact
  have hthrough := h.first.through_lt owner
  have hfresh : ((r'.pruneOwner limits clock.pruned owner none).ownerCatalog owner).generationExhausted = false := by
    rw [hquiet'.2, hquiet.2, h.fresh]
  have hwindow := listWindow_some
    ((r'.pruneOwner limits clock.pruned owner none).ownerCatalog owner)
    ⟨1, "session_list", (r₁.ownerCatalog owner).generation, e.1,
      (r₁.ownerCatalog owner).entries.lastKey.getD 0, now + CursorCodec.ttlMs⟩
    (by rw [hquiet'.1, hquiet.1, h.same.1]) (lt_of_lt_of_le hthrough hlater.next)
  exact hkept.listPage_cases hparams hclaims hwindow hfresh hlistable

end

end SessionManagementRegistry

/-! ## The walk -/

open SessionManagementRegistry in
/-- **Listing the sessions is a walk over the first catalog.** -/
theorem list_sessions_walk [CursorCodec ListCursorClaims] [ListSerde] [External] [EventSerde] [SnapshotSerde]
    [LawfulListing] (limits : ManagementLimits) (owner : String) (events : List CatalogEvent)
    (r₀ : SessionManagementRegistry) (hrun : Lts.Run CatalogStep {} events r₀) :
    -- what the pages show
    (∀ r₁ pages now r, ListWalk limits owner r₀ r₁ pages now r → Shown owner r₁ pages) ∧
    -- the next page, while nothing is removed and the cursor has not expired
    (∀ r₁ pages now r, ListWalk limits owner r₀ r₁ pages now r →
      ∀ cursor events' r' params clock, followed pages = some cursor → Lts.Run (Quiet owner) r events' r' →
        Intact owner r' (r'.pruneOwner limits clock.pruned owner none) → params.cursor = some cursor →
        params.validate = .ok () → clock.checked < now + CursorCodec.ttlMs →
        Listable (r'.pruneOwner limits clock.pruned owner none) owner params clock →
        (∃ page, (r'.listSessions limits owner params clock).2 = .ok page) ∨
          ∃ actual, (r'.listSessions limits owner params clock).2 =
            .error (.resourceLimit "session_list_page" actual maxSessionManagementPageBytes none)) ∧
    -- any cursor, after a removal
    (∀ params clock r₁ page cursor, r₀.listSessions limits owner params clock = (r₁, .ok page) →
      page.nextCursor = some cursor → ∀ before a after b params' clock', Lts.Run CatalogStep r₁ before a →
        Lts.Run CatalogStep a after b → params'.cursor = some cursor → params'.validate = .ok () →
        ¬ Intact owner a (b.pruneOwner limits clock'.pruned owner none) →
        ((b.pruneOwner limits clock'.pruned owner none).ownerCatalog owner).generationExhausted = false →
        (b.listSessions limits owner params' clock').2 = .error .listCursorExpired) ∧
    -- any request
    ∀ params clock message,
      ((r₀.pruneOwner limits clock.pruned owner none).ownerCatalog owner).generationExhausted = false →
      Listable (r₀.pruneOwner limits clock.pruned owner none) owner params clock →
      (r₀.listSessions limits owner params clock).2 ≠ .error (.invalidProjection message) := by
  have hkept : r₀.Kept := Kept.run hrun
  refine ⟨fun r₁ pages now r hwalk => (hwalk.walkedTo hkept).shown, ?_, ?_, ?_⟩
  · intro r₁ pages now r hwalk cursor events' r' params clock more quiet intact follows hparams hclock hlistable
    exact (hwalk.walkedTo hkept).more more quiet intact follows hparams hclock hlistable
  · intro params clock r₁ page cursor answered hcursor before a after b params' clock' ha hb hfollows hparams hgone
      hfresh
    obtain ⟨hkept₁, claims, hshape, hdecode, hgeneration⟩ := hkept.returned answered hcursor
    exact hkept₁.listSessions_removed hshape hdecode hgeneration ha hb hfollows hparams hgone hfresh
  · intro params clock message hfresh hlistable
    exact hkept.listSessions_projection hfresh hlistable message

/-! ## Two sessions, a page each -/

namespace Sample

def bit (d : Nat) : Char := if d = 0 then '0' else '1'

/-- A number in binary. -/
def binary (n : Nat) : String := .ofList ('c' :: (Nat.digits 2 n).map bit)

/-- The number that was written. -/
def ofBinary (token : String) : Option Nat :=
  match token.toList with
  | 'c' :: bits => some (Nat.ofDigits 2 (bits.map fun c => if c = '0' then 0 else 1))
  | _ => none

theorem bit_digits {ds : List Nat} (h : ∀ d ∈ ds, d < 2) :
    (ds.map bit).map (fun c => if c = '0' then 0 else 1) = ds := by
  induction ds with
  | nil => rfl
  | cons d ds ih =>
    have hd := h d List.mem_cons_self
    rw [List.map_cons, List.map_cons, ih fun e he => h e (List.mem_cons_of_mem _ he)]
    obtain rfl | rfl : d = 0 ∨ d = 1 := by omega
    · rfl
    · rfl

theorem ofBinary_binary (n : Nat) : ofBinary (binary n) = some n := by
  unfold ofBinary binary
  rw [String.toList_ofList]
  simp only [bit_digits fun d hd => Nat.digits_lt_base (by decide) hd, Nat.ofDigits_digits]

theorem binary_chars {n : Nat} {d : Char} (hd : d ∈ (binary n).toList) :
    isWhitespace d = false ∧ isControl d = false := by
  unfold binary at hd
  rw [String.toList_ofList] at hd
  rcases List.mem_cons.1 hd with rfl | hd
  · decide
  · obtain ⟨n, -, rfl⟩ := List.mem_map.1 hd
    unfold bit
    split <;> decide

theorem printable_binary (n : Nat) (name : String) : validateIdentityV2 (binary n) name = .ok () := by
  have hchars : ∀ d ∈ (binary n).toList, isWhitespace d = false ∧ isControl d = false := fun d hd =>
    binary_chars hd
  unfold validateIdentityV2
  rw [refuse_ok_iff, Bool.or_eq_false_iff, Bool.or_eq_false_iff]
  refine ⟨⟨?_, ?_⟩, ?_⟩
  · unfold blank binary
    rw [String.toList_ofList]
    rfl
  · unfold padded
    rw [Bool.or_eq_false_iff, Option.any_eq_false, Option.any_eq_false]
    exact ⟨fun d hd => by simpa using (hchars d (List.mem_of_mem_head? hd)).1,
      fun d hd => by simpa using (hchars d (List.mem_of_getLast? hd)).1⟩
  · rw [List.any_eq_false]
    exact fun d hd => by simpa using (hchars d hd).2

/-- A string of one-byte characters. -/
theorem size_ascii : ∀ {cs : List Char}, (∀ c ∈ cs, c.utf8Size = 1) → (String.ofList cs).utf8ByteSize = cs.length
  | [], _ => rfl
  | c :: cs, h => by
    rw [← List.singleton_append, String.ofList_append, String.utf8ByteSize_append,
      size_ascii fun d hd => h d (List.mem_cons_of_mem _ hd), List.length_append]
    have hc := h c List.mem_cons_self
    rw [show String.ofList [c] = String.singleton c from rfl, String.utf8ByteSize_singleton, hc]
    rfl

theorem size_binary {n k : Nat} (h : n < 2 ^ k) : (binary n).utf8ByteSize ≤ k + 1 := by
  unfold binary
  rw [size_ascii]
  · rw [List.length_cons, List.length_map]
    exact Nat.succ_le_succ ((Nat.digits_length_le_iff (by decide : 1 < 2) n).2 h)
  · intro d hd
    rcases List.mem_cons.1 hd with rfl | hd
    · rfl
    · obtain ⟨n, -, rfl⟩ := List.mem_map.1 hd
      unfold bit
      split <;> rfl

/-- The token of claims: their numbers as one. -/
def cursorToken (c : ListCursorClaims) : String :=
  binary (Nat.pair (Nat.pair c.generation c.afterOrdinal) (Nat.pair c.throughOrdinal c.expiresAtMs))

/-- The claims of a token. -/
def cursorClaims (token : String) : Option ListCursorClaims :=
  (ofBinary token).map fun n =>
    ⟨1, "session_list", n.unpair.1.unpair.1, n.unpair.1.unpair.2, n.unpair.2.unpair.1, n.unpair.2.unpair.2⟩

@[reducible] def listCodec : CursorCodec ListCursorClaims := ⟨fun _ => cursorToken, fun _ => cursorClaims⟩

/-- Every entry is four hundred bytes long. -/
@[reducible] def listSerde : ListSerde where
  listBytes result := .ok (15 + 400 * result.sessions.length +
    result.nextCursor.elim 0 fun cursor => 16 + cursor.utf8ByteSize)

theorem decoded_cursor (c : ListCursorClaims) (h : c.validShape = true) : cursorClaims (cursorToken c) = some c := by
  unfold cursorClaims cursorToken
  simp only [ofBinary_binary, Option.map_some, Nat.unpair_pair]
  unfold ListCursorClaims.validShape at h
  obtain ⟨version, kind, _⟩ := c
  simp at h
  simp [h]

theorem pair_lt {m n k : Nat} (hm : m < 2 ^ k) (hn : n < 2 ^ k) : Nat.pair m n < 2 ^ (2 * k) := by
  refine lt_of_lt_of_le (Nat.pair_lt_max_add_one_sq m n) ?_
  rw [Nat.mul_comm, Nat.pow_mul]
  exact Nat.pow_le_pow_left (by omega) 2

theorem short_cursor (c : ListCursorClaims) (hshape : c.validShape = true) (hgeneration : c.generation ≤ u64Max)
    (hthrough : c.throughOrdinal ≤ u64Max) (hexpiry : c.expiresAtMs ≤ u64Max) :
    (cursorToken c).utf8ByteSize ≤ maxSessionCursorTokenBytes := by
  have hafter : c.afterOrdinal ≤ c.throughOrdinal := by
    unfold ListCursorClaims.validShape at hshape
    simp only [Bool.and_eq_true, decide_eq_true_eq] at hshape
    exact hshape.2
  have hword : ∀ {n : Nat}, n ≤ u64Max → n < 2 ^ 64 := fun h => lt_of_le_of_lt h (by decide)
  refine le_trans (size_binary (pair_lt (pair_lt (hword hgeneration) (hword (hafter.trans hthrough)))
    (pair_lt (hword hthrough) (hword hexpiry)))) (by decide)

theorem listCodec_lawful : @LawfulListing listCodec listSerde :=
  letI := listCodec
  letI := listSerde
  { decoded := fun _ c => decoded_cursor c
    printable := fun _ _ name _ => printable_binary _ name
    short := fun _ c hshape hgeneration hthrough hexpiry => short_cursor c hshape hgeneration hthrough hexpiry
    measured := fun _ => ⟨_, rfl⟩
    empty := rfl }

/-- The registry with one more session of the owner. -/
def entered (r : SessionManagementRegistry) (threadId : String) (identity : Nat) : SessionManagementRegistry :=
  match @SessionManagementRegistry.insert host serde r "o" threadId none [] [] 0 .ephemeral none "s" identity with
  | .ok r' => r'
  | .error _ => r

theorem entered_step {r : SessionManagementRegistry} {threadId : String} {identity : Nat}
    (h : (@SessionManagementRegistry.insert host serde r "o" threadId none [] [] 0 .ephemeral none "s"
      identity).isOk = true) :
    @CatalogStep host serde snapshots r (.inserted "o" threadId) (entered r threadId identity) := by
  refine @CatalogStep.insert host serde snapshots _ _ "o" threadId none [] [] 0 .ephemeral none "s" identity ?_
  unfold entered
  split
  · assumption
  · rename_i hr
    rw [hr] at h
    cases h

def twoSessions : SessionManagementRegistry := entered (entered {} "t" 7) "u" 8

theorem twoSessions_run : ∃ events, Lts.Run (@CatalogStep host serde snapshots) {} events twoSessions :=
  ⟨_, .cons (entered_step (by decide +kernel)) (.single (entered_step (by decide +kernel)))⟩

/-- A clock that stands still. -/
def stillAt (now : Nat) : ListClock := ⟨now, now, fun _ => now, now⟩

/-- The answer to a request for one session. -/
def listOne (r : SessionManagementRegistry) (cursor : Option String) :
    SessionManagementRegistry × Except PageFailure ListSessionsResult :=
  @SessionManagementRegistry.listSessions listCodec listSerde host snapshots r {} "o" ⟨cursor, 1⟩ (stillAt 10)

/-- The page of an answer. -/
def pageOf (answer : SessionManagementRegistry × Except PageFailure ListSessionsResult) : ListSessionsResult :=
  match answer.2 with
  | .ok page => page
  | .error _ => {}

theorem answer_eq {answer : SessionManagementRegistry × Except PageFailure ListSessionsResult}
    (h : answer.2.isOk = true) : answer = (answer.1, .ok (pageOf answer)) := by
  obtain ⟨r, _ | page⟩ := answer
  · cases h
  · rfl

def firstAnswer : SessionManagementRegistry × Except PageFailure ListSessionsResult := listOne twoSessions none

def secondAnswer : SessionManagementRegistry × Except PageFailure ListSessionsResult :=
  listOne firstAnswer.1 (pageOf firstAnswer).nextCursor

/-- The two pages with their requests. -/
def twoPages : List (ListSessionsParams × ListSessionsResult) :=
  [(⟨none, 1⟩, pageOf firstAnswer)] ++ [(⟨(pageOf firstAnswer).nextCursor, 1⟩, pageOf secondAnswer)]

end Sample

open SessionManagementRegistry in
/-- Two sessions are shown, a page each. -/
theorem list_sessions_walk_two : ∃ r₁ now r,
    @ListWalk Sample.listCodec Sample.listSerde Sample.host Sample.serde Sample.snapshots {} "o" Sample.twoSessions
      r₁ Sample.twoPages now r ∧
    @Shown Sample.listSerde "o" r₁ Sample.twoPages ∧ shownThreads Sample.twoPages = ["t", "u"] := by
  obtain ⟨events, hrun⟩ := Sample.twoSessions_run
  have hcursor : ∃ cursor, (Sample.pageOf Sample.firstAnswer).nextCursor = some cursor :=
    Option.isSome_iff_exists.1 (by decide +kernel)
  obtain ⟨cursor, hcursor⟩ := hcursor
  have hfirst : @ListWalk Sample.listCodec Sample.listSerde Sample.host Sample.serde Sample.snapshots {} "o"
      Sample.twoSessions Sample.firstAnswer.1 [(⟨none, 1⟩, Sample.pageOf Sample.firstAnswer)] 10
      Sample.firstAnswer.1 :=
    @ListWalk.first Sample.listCodec Sample.listSerde Sample.host Sample.serde Sample.snapshots _ _ _ _ _ ⟨none, 1⟩
      (Sample.stillAt 10) rfl (Sample.answer_eq (by decide +kernel))
  have hwalk : @ListWalk Sample.listCodec Sample.listSerde Sample.host Sample.serde Sample.snapshots {} "o"
      Sample.twoSessions Sample.firstAnswer.1 Sample.twoPages 10 Sample.secondAnswer.1 :=
    @ListWalk.next Sample.listCodec Sample.listSerde Sample.host Sample.serde Sample.snapshots _ _ _ _ _ _ _ _ _ _ _
      cursor hfirst (.nil _) ⟨(Sample.pageOf Sample.firstAnswer).nextCursor, 1⟩ (Sample.stillAt 10) hcursor hcursor
      (Sample.answer_eq (by decide +kernel))
  refine ⟨_, _, _, hwalk, ?_, by decide +kernel⟩
  exact (@list_sessions_walk Sample.listCodec Sample.listSerde Sample.host Sample.serde Sample.snapshots
    Sample.listCodec_lawful {} "o" _ _ hrun).1 _ _ _ _ hwalk

namespace Sample

/-- The session with a run of this turn. -/
def listedRunning (turnId : String)
    (h : (@ManagementProjection.prepare host serde listed.projection 7 (.runChanged (.new (started turnId) 7))
      (some (turnId, 1))).isOk = true) : CatalogRecord :=
  @CatalogRecord.publish host serde listed _ _ (publishedV2_step h) listed.history true

/-- A turn id with a bell in it. -/
def belled : SessionManagementRegistry := withRecord (registry listed) (listedRunning "a\u0007b" (by decide +kernel))

end Sample

/-- A run is accepted under any turn id that is neither blank nor padded. With a control character in it, no page of
the list can show its session. -/
theorem list_sessions_belled : ∃ events,
    Lts.Run (@CatalogStep Sample.host Sample.serde Sample.snapshots) {} events Sample.belled ∧
    (Sample.belled.ownerCatalog "o").generation = 0 ∧ (Sample.belled.ownerCatalog "o").nextOrdinal = 2 ∧
    (Sample.listOne Sample.belled none).2 =
      .error (.invalidProjection "turn_id must be nonempty, unpadded, and printable") := by
  have hinsert : @CatalogStep Sample.host Sample.serde Sample.snapshots {} _ (Sample.registry Sample.listed) :=
    @CatalogStep.insert Sample.host Sample.serde Sample.snapshots _ _ "o" "t" none [] [] 0 .ephemeral none "s" 7 rfl
  have haccepted : @CatalogStep Sample.host Sample.serde Sample.snapshots _ _ Sample.belled :=
    @CatalogStep.publish Sample.host Sample.serde Sample.snapshots (Sample.registry Sample.listed) Sample.listed
      _ _ _ "t" [] true rfl (Sample.publishedV2_step (by decide +kernel)) rfl
  exact ⟨_, .cons hinsert (.single haccepted), rfl, rfl, by decide +kernel⟩

end Whale
