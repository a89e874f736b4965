import Whale.Daemon.Paging
import Whale.Daemon.Proof.Archive
import Whale.Daemon.Proof.Listing

/-!
# Paging backward is exact

A page is a piece of the history that ends where the one before began (`HistoryArchive.Paged`, `page_ok`), and the
archive only grows at its end and loses items at its floor. So the pages that follow one cursor after another are
the history from the floor of the last page up to the position the first page froze (`HistoryWalk`).
-/

namespace Whale

open Check

/-- The items of a history from one index up to another. -/
def piece (history : List CanonicalItem) (lo hi : Nat) : List CanonicalItem := (history.take hi).drop lo

theorem piece_self (history : List CanonicalItem) (i : Nat) : piece history i i = [] :=
  List.drop_eq_nil_of_le (List.length_take_le i history)

theorem length_piece {history : List CanonicalItem} {lo hi : Nat} (h : hi ≤ history.length) :
    (piece history lo hi).length = hi - lo := by
  rw [piece, List.length_drop, List.length_take, Nat.min_eq_left h]

theorem piece_cons {history : List CanonicalItem} {lo hi : Nat} {item : CanonicalItem} (hlt : lo < hi)
    (hget : history[lo]? = some item) : piece history lo hi = item :: piece history (lo + 1) hi := by
  obtain ⟨hlo, rfl⟩ := List.getElem?_eq_some_iff.mp hget
  have hlength : lo < (history.take hi).length := by
    rw [List.length_take]
    omega
  rw [piece, List.drop_eq_getElem_cons hlength, List.getElem_take]
  rfl

theorem piece_append {history : List CanonicalItem} {lo mid hi : Nat} (hlo : lo ≤ mid) (hmid : mid ≤ hi)
    (hhi : hi ≤ history.length) : piece history lo mid ++ piece history mid hi = piece history lo hi := by
  have hsplit : history.take hi = history.take mid ++ (history.take hi).drop mid := by
    conv_lhs => rw [← List.take_append_drop mid (history.take hi), List.take_take, Nat.min_eq_left hmid]
  have hlength : lo ≤ (history.take mid).length := by
    rw [List.length_take]
    omega
  unfold piece
  conv_rhs => rw [hsplit, List.drop_append_of_le_length hlength]

/-- What is appended later is behind the piece. -/
theorem piece_more {history : List CanonicalItem} (more : List CanonicalItem) {lo hi : Nat}
    (h : hi ≤ history.length) : piece (history ++ more) lo hi = piece history lo hi := by
  rw [piece, List.take_append_of_le_length h, piece]

/-- What the serializer and the codec do: a signed token is decoded again, it is printable, and every page has a
length. -/
class LawfulPaging [CursorCodec HistoryCursorClaims] [HistorySerde] : Prop where
  decoded : ∀ owner (c : HistoryCursorClaims), c.validShape = true →
    CursorCodec.claims owner (CursorCodec.token owner c) = some c
  printable : ∀ owner (c : HistoryCursorClaims) name, c.validShape = true →
    validateIdentityV2 (CursorCodec.token owner c) name = .ok ()
  measured : ∀ result, ∃ n, HistorySerde.pageBytes result = .ok n

/-- The clock of the cursors does not run out. -/
def PageClock.Bounded (clock : PageClock) : Prop := ∀ i, clock.turn i + CursorCodec.ttlMs ≤ u64Max

namespace HistoryArchive

section
variable [CursorCodec HistoryCursorClaims] [HistorySerde]

/-- A page that fits: the history before an index, from another on. -/
structure Fitting (a : HistoryArchive) (owner : String) (before through start : Nat) (items : List CanonicalItem)
    (result : GetSessionHistoryResult) : Prop where
  made : ∃ now, a.result owner start before through now items = .ok result
  fits : ∃ n, HistorySerde.pageBytes result = .ok n ∧ n ≤ maxSessionManagementPageBytes

/-- How far the loop has come. -/
structure PageFilled (a : HistoryArchive) (owner : String) (before through limit : Nat)
    (history : List CanonicalItem) (start : Nat) (items : List CanonicalItem)
    (accepted : Option GetSessionHistoryResult) : Prop where
  le : start ≤ before
  floor : a.floor ≤ start
  shown : items = piece history start before
  limit : items.length ≤ limit
  accepted : start = before ∧ accepted = none ∨
    start < before ∧ ∃ result, accepted = some result ∧ a.Fitting owner before through start items result

variable [EventSerde] {a : HistoryArchive} {history : List CanonicalItem} {owner : String}
  {before through limit : Nat} {turn : Nat → Nat}

omit [CursorCodec HistoryCursorClaims] [HistorySerde] in
/-- The candidate of a turn. -/
theorem Retains.candidate (h : a.Retains history) {start : Nat} (hfloor : a.floor < start + 1)
    (hend : start < a.endIndex) :
    ∃ i, a.items[start - a.floor]? = some i ∧ history[start]? = some i.item := by
  have hcount := h.floor
  have hlt : start - a.floor < a.items.length := by omega
  refine ⟨_, List.getElem?_eq_getElem hlt, ?_⟩
  have hitem : (history.drop a.floor)[start - a.floor]? = some a.items[start - a.floor].item := by
    rw [← h.items, List.getElem?_map, List.getElem?_eq_getElem hlt]
    rfl
  rw [List.getElem?_drop, show a.floor + (start - a.floor) = start by omega] at hitem
  exact hitem

/-- What the loop ends with. -/
theorem fillPage_ok (h : a.Retains history) (hbefore : before ≤ a.endIndex) :
    ∀ {start : Nat} {items items' : List CanonicalItem} {accepted accepted' : Option GetSessionHistoryResult},
      PageFilled a owner before through limit history start items accepted →
      a.fillPage owner before through limit turn start items accepted = .ok (items', accepted') →
      ∃ start', start' ≤ start ∧ PageFilled a owner before through limit history start' items' accepted' ∧
        (a.floor < start → items = [] → 0 < limit → start' < start)
  | 0, items, items', accepted, accepted', hfilled, hpage => by
    cases hpage
    exact ⟨0, Nat.le_refl _, hfilled, fun hlt => absurd hlt (Nat.not_lt_zero _)⟩
  | start + 1, items, items', accepted, accepted', hfilled, hpage => by
    unfold fillPage at hpage
    split at hpage
    · rename_i hmore
      obtain ⟨candidate, hcandidate, hpage⟩ := orElse_bind_ok hpage
      obtain ⟨result, hresult, hpage⟩ := bind_ok hpage
      obtain ⟨n, hn, hpage⟩ := bind_ok hpage
      rw [mapError_ok_iff] at hn
      have hle := hfilled.le
      obtain ⟨i, hi, hitem⟩ := h.candidate hmore.1 (by omega)
      rw [hcandidate] at hi
      obtain rfl := Option.some.inj hi
      split at hpage
      · split at hpage
        · cases hpage
        · rename_i hsome
          cases hpage
          refine ⟨start + 1, Nat.le_refl _, hfilled, fun _ hnil => ?_⟩
          rw [hnil] at hsome
          simp at hsome
      · rename_i hover
        have hnext : PageFilled a owner before through limit history start (candidate.item :: items)
            (some result) := by
          refine ⟨by omega, by omega, ?_, hmore.2, .inr ⟨by omega, result, rfl, ⟨_, hresult⟩, n, hn,
            Nat.le_of_not_lt hover⟩⟩
          rw [hfilled.shown, piece_cons (by omega) hitem]
        obtain ⟨start', hle', hfilled', -⟩ := fillPage_ok h hbefore hnext hpage
        exact ⟨start', by omega, hfilled', fun _ _ _ => by omega⟩
    · rename_i hstop
      cases hpage
      refine ⟨start + 1, Nat.le_refl _, hfilled, fun hlt hnil hlimit => absurd ⟨hlt, ?_⟩ hstop⟩
      rw [hnil]
      exact hlimit

omit [CursorCodec HistoryCursorClaims] [HistorySerde] [EventSerde] in
theorem limit_pos {p : GetSessionHistoryParams} (h : p.validate = .ok ()) : 1 ≤ p.limit := by
  obtain ⟨_, -, h⟩ := bind_ok h
  obtain ⟨-, h⟩ := refuse_bind_ok h
  obtain ⟨_, -, h⟩ := bind_ok h
  obtain ⟨_, -, h⟩ := bind_ok h
  have hbound := refuse_ok h
  simp only [Bool.or_eq_false_iff, beq_eq_false_iff_ne] at hbound
  omega

/-- A page of a window: a piece of the history that ends at its position, and the cursor behind it. -/
structure Paged (a : HistoryArchive) (owner : String) (history : List CanonicalItem) (limit through before : Nat)
    (page : GetSessionHistoryResult) : Prop where
  floor : a.floor ≤ before
  le : before ≤ through ∧ through ≤ a.endIndex
  start : a.floor ≤ page.startIndex ∧ page.startIndex ≤ before
  shown : page.items = piece history page.startIndex before
  indexes : page.endIndex = before ∧ page.through = a.anchor through ∧ page.currentEnd = a.anchor a.endIndex
  limit : page.items.length ≤ limit
  next : page.startIndex = a.floor ∧ page.nextCursor = none ∨
    a.floor < page.startIndex ∧ page.startIndex < before ∧ ∃ cursor now, page.nextCursor = some cursor ∧
      a.pageCursor owner page.startIndex through now = .ok (some cursor)

omit [HistorySerde] [EventSerde] in
/-- A result and its cursor. -/
theorem result_ok {start endIndex now : Nat} {items : List CanonicalItem} {page : GetSessionHistoryResult}
    (h : a.result owner start endIndex through now items = .ok page) :
    ∃ cursor, a.pageCursor owner start through now = .ok cursor ∧
      page = ⟨items, start, endIndex, a.anchor through, a.anchor a.endIndex, cursor⟩ := by
  obtain ⟨cursor, hcursor, h⟩ := bind_ok h
  exact ⟨cursor, hcursor, (Except.ok.inj h).symm⟩

omit [HistorySerde] [EventSerde] in
theorem pageCursor_floor {now : Nat} {cursor : Option String}
    (h : a.pageCursor owner a.floor through now = .ok cursor) : cursor = none := by
  unfold pageCursor at h
  rw [if_neg (Nat.lt_irrefl _)] at h
  exact (Except.ok.inj h).symm

omit [HistorySerde] [EventSerde] in
theorem pageCursor_some {start now : Nat} {cursor : Option String} (hlt : a.floor < start)
    (h : a.pageCursor owner start through now = .ok cursor) : ∃ token, cursor = some token := by
  unfold pageCursor at h
  rw [if_pos hlt] at h
  obtain ⟨expiresAtMs, -, h⟩ := bind_ok h
  obtain ⟨token, -, h⟩ := bind_ok h
  obtain ⟨_, -, h⟩ := bind_ok h
  exact ⟨token, (Except.ok.inj h).symm⟩

omit [EventSerde] in
/-- What is behind the loop is a page of the window. -/
theorem PageFilled.paged {start : Nat} {items : List CanonicalItem} {now : Nat}
    {accepted : Option GetSessionHistoryResult} {page : GetSessionHistoryResult}
    (hfilled : PageFilled a owner before through limit history start items accepted)
    (hprogress : a.floor < before → start < before) (hle : before ≤ through ∧ through ≤ a.endIndex)
    (hpage : a.lastResult owner before through now items accepted = .ok page) :
    Paged a owner history limit through before page := by
  have hfloor := hfilled.floor
  have hstart := hfilled.le
  rcases hfilled.accepted with ⟨rfl, rfl⟩ | ⟨hlt, result, rfl, ⟨now', hmade⟩, -⟩
  · obtain rfl : a.floor = start := by omega
    obtain ⟨cursor, hcursor, rfl⟩ := result_ok hpage
    exact ⟨Nat.le_refl _, hle, ⟨Nat.le_refl _, Nat.le_refl _⟩, hfilled.shown, ⟨rfl, rfl, rfl⟩, hfilled.limit,
      .inl ⟨rfl, pageCursor_floor hcursor⟩⟩
  · obtain rfl := Except.ok.inj hpage
    obtain ⟨cursor, hcursor, rfl⟩ := result_ok hmade
    refine ⟨by omega, hle, ⟨hfloor, hstart⟩, hfilled.shown, ⟨rfl, rfl, rfl⟩, hfilled.limit, ?_⟩
    rcases Nat.lt_or_ge a.floor start with hmore | hend
    · obtain ⟨token, rfl⟩ := pageCursor_some hmore hcursor
      exact .inr ⟨hmore, hlt, token, now', rfl, hcursor⟩
    · obtain rfl : a.floor = start := by omega
      exact .inl ⟨rfl, pageCursor_floor hcursor⟩

omit [CursorCodec HistoryCursorClaims] [EventSerde] in
theorem validateFor_fits {page : GetSessionHistoryResult} {params : GetSessionHistoryParams}
    (h : page.validateFor params = .ok ()) : params.validate = .ok () ∧
      ∃ n, HistorySerde.pageBytes page = .ok n ∧ n ≤ maxSessionManagementPageBytes := by
  unfold GetSessionHistoryResult.validateFor validateManagementPageBytes at h
  obtain ⟨_, hparams, h⟩ := bind_ok h
  obtain ⟨_, hbytes, -⟩ := bind_ok h
  obtain ⟨n, hn, hfits⟩ := bind_ok hbytes
  exact ⟨hparams, n, hn, Nat.le_of_not_lt (of_decide_eq_false (refuse_ok hfits))⟩

omit [EventSerde] in
/-- The loop starts at the position of the window. -/
theorem pageFilled_start (hfloor : a.floor ≤ before) :
    PageFilled a owner before through limit history before [] none :=
  ⟨Nat.le_refl _, hfloor, (piece_self history before).symm, Nat.zero_le _, .inl ⟨rfl, rfl⟩⟩

/-- A page that is answered. -/
theorem page_ok (h : a.Retains history) {params : GetSessionHistoryParams} {clock : PageClock}
    {page : GetSessionHistoryResult} (hpage : a.page owner params clock = .ok page) :
    params.validate = .ok () ∧ (∃ n, HistorySerde.pageBytes page = .ok n ∧ n ≤ maxSessionManagementPageBytes) ∧
    ∃ through before, a.window owner params clock.checked = .ok (through, before) ∧
      Paged a owner history params.limit through before page := by
  unfold HistoryArchive.page at hpage
  obtain ⟨_, -, hpage⟩ := bind_ok hpage
  obtain ⟨⟨through, before⟩, hwindow, hpage⟩ := bind_ok hpage
  obtain ⟨hfloor, hpage⟩ := refuse_bind_ok hpage
  obtain ⟨hrange, hpage⟩ := refuse_bind_ok hpage
  obtain ⟨⟨items, accepted⟩, hfill, hpage⟩ := bind_ok hpage
  obtain ⟨result, hlast, hpage⟩ := bind_ok hpage
  obtain ⟨_, hvalid, hpage⟩ := bind_ok hpage
  rw [mapError_ok_iff] at hvalid
  obtain rfl := Except.ok.inj hpage
  obtain ⟨hparams, hfits⟩ := validateFor_fits hvalid
  simp only [Bool.or_eq_false_iff, decide_eq_false_iff_not, Nat.not_lt] at hfloor hrange
  obtain ⟨start, -, hfilled, hprogress⟩ := fillPage_ok h (hrange.1.trans hrange.2) (pageFilled_start hfloor) hfill
  exact ⟨hparams, hfits, through, before, hwindow,
    hfilled.paged (fun hlt => hprogress hlt rfl (limit_pos hparams)) hrange hlast⟩

/-! ## Pages that are answered -/

/-- An id that sessions and projections admit. -/
def AdmittedId (id : String) : Prop := ∀ name, validateIdentityV2 id name = .ok ()

omit [CursorCodec HistoryCursorClaims] [HistorySerde] [EventSerde] in
theorem AdmittedId.not_blank {id : String} (h : AdmittedId id) : blank id = false := by
  have hid := refuse_ok (h "")
  simp only [Bool.or_eq_false_iff] at hid
  exact hid.1.1

/-- The session's ids are short enough for its cursors, and for a page without items. -/
structure Brief (owner threadId streamId : String) : Prop where
  token : ∀ through before expiresAtMs, before ≤ through → through ≤ u64Max → expiresAtMs ≤ u64Max →
    (CursorCodec.token owner (HistoryCursorClaims.mk 1 "session_history" threadId streamId through before
      expiresAtMs)).utf8ByteSize ≤ maxSessionCursorTokenBytes
  empty : ∀ index through current n,
    HistorySerde.pageBytes ⟨[], index, index, ⟨threadId, streamId, through⟩, ⟨threadId, streamId, current⟩, none⟩ =
      .ok n → n ≤ maxSessionManagementPageBytes

/-- What a session needs so that its history can be paged. -/
structure Pageable (a : HistoryArchive) (owner : String) : Prop where
  thread : AdmittedId a.threadId
  stream : AdmittedId a.streamId
  items : ∀ i ∈ a.items, AdmittedId i.item.id
  brief : Brief owner a.threadId a.streamId

omit [EventSerde] in
/-- A cursor can be made for a position in the window. -/
theorem Pageable.pageCursor [LawfulPaging] (h : Pageable a owner) {start now : Nat} (hstart : start ≤ through)
    (hthrough : through ≤ u64Max) (hnow : now + CursorCodec.ttlMs ≤ u64Max) :
    ∃ cursor, a.pageCursor owner start through now = .ok cursor ∧ validateHistoryCursor cursor = .ok () := by
  unfold HistoryArchive.pageCursor
  split
  · have hexpiry : CursorCodec.expiry now = .ok (now + CursorCodec.ttlMs) := by
      unfold CursorCodec.expiry UsageMetrics.checkedAdd64
      rw [if_pos hnow]
      rfl
    have hshape : (HistoryCursorClaims.mk 1 "session_history" a.threadId a.streamId through start
        (now + CursorCodec.ttlMs)).validShape = true := by
      simp [HistoryCursorClaims.validShape, hstart, h.thread.not_blank, h.stream.not_blank]
    have hshort := h.brief.token through start (now + CursorCodec.ttlMs) hstart hthrough hnow
    have htoken : ∀ name, validateToken (CursorCodec.token owner (HistoryCursorClaims.mk 1 "session_history" a.threadId
        a.streamId through start (now + CursorCodec.ttlMs))) name = .ok () := fun name => by
      unfold validateToken
      rw [LawfulPaging.printable owner _ name hshape, ok_bind, decide_eq_false (Nat.not_lt.2 hshort)]
      rfl
    refine ⟨some _, ?_, htoken "Session history page cursor"⟩
    rw [hexpiry, ok_bind, CursorCodec.encode_ok hshort, ok_bind, htoken]
    rfl
  · exact ⟨none, rfl, rfl⟩

/-- The loop ends with a page, or there is no room for its first item. -/
theorem fillPage_cases [LawfulPaging] (h : a.Retains history)
    (hcursor : ∀ start, start ≤ before → ∀ j, ∃ cursor, a.pageCursor owner start through (turn j) = .ok cursor)
    (hbefore : before ≤ a.endIndex) :
    ∀ {start : Nat} {items : List CanonicalItem} {accepted : Option GetSessionHistoryResult}, start ≤ before →
      (∃ r, a.fillPage owner before through limit turn start items accepted = .ok r) ∨
      ∃ actual index, a.fillPage owner before through limit turn start items accepted =
        .error (.resourceLimit "session_history_page" actual maxSessionManagementPageBytes (some index))
  | 0, items, accepted, _ => .inl ⟨_, rfl⟩
  | start + 1, items, accepted, hle => by
    unfold fillPage
    split
    · rename_i hmore
      obtain ⟨i, hi, -⟩ := h.candidate hmore.1 (by omega)
      obtain ⟨cursor, hmade⟩ := hcursor start (by omega) items.length
      obtain ⟨n, hn⟩ := LawfulPaging.measured
        ⟨i.item :: items, start, before, a.anchor through, a.anchor a.endIndex, cursor⟩
      have hresult : a.result owner start before through (turn items.length) (i.item :: items) =
          .ok ⟨i.item :: items, start, before, a.anchor through, a.anchor a.endIndex, cursor⟩ := by
        unfold HistoryArchive.result
        rw [hmade]
        rfl
      rw [hi, orElse_some, ok_bind, hresult, ok_bind, hn]
      simp only [Except.mapError, ok_bind]
      split
      · split
        · exact .inr ⟨n, start, rfl⟩
        · exact .inl ⟨_, rfl⟩
      · exact fillPage_cases h hcursor hbefore (by omega)
    · exact .inl ⟨_, rfl⟩

omit [CursorCodec HistoryCursorClaims] [HistorySerde] in
/-- The items of a piece above the floor are retained. -/
theorem Retains.sublist_piece (h : a.Retains history) {lo hi : Nat} (hlo : a.floor ≤ lo) :
    (piece history lo hi).Sublist (a.items.map (·.item)) := by
  rw [h.items, piece, List.drop_take]
  refine (List.take_sublist _ _).trans ?_
  obtain ⟨k, rfl⟩ := Nat.exists_eq_add_of_le hlo
  rw [← List.drop_drop]
  exact List.drop_sublist _ _

omit [HistorySerde] [EventSerde] in
/-- The window of a first request is the one that clients expect. -/
theorem window_first {params : GetSessionHistoryParams} {now : Nat}
    (hwindow : a.window owner params now = .ok (through, before)) (hcursor : params.cursor = none) :
    before = through ∧ through = (params.before.map fun b => min b.index a.endIndex).getD a.endIndex ∧
      ∀ b, params.before = some b → b.threadId = a.threadId ∧ b.streamId = a.streamId := by
  unfold window at hwindow
  rw [hcursor] at hwindow
  cases hb : params.before with
  | none =>
    rw [hb] at hwindow
    cases hwindow
    exact ⟨rfl, rfl, nofun⟩
  | some b =>
    rw [hb] at hwindow
    obtain ⟨hsame, hwindow⟩ := refuse_bind_ok hwindow
    cases hwindow
    simp only [Bool.or_eq_false_iff, bne_eq_false_iff_eq] at hsame
    refine ⟨rfl, rfl, ?_⟩
    rintro _ ⟨⟩
    exact hsame

/-- A page of the window is accepted, if it fits. -/
theorem Paged.validateFor (h : a.Retains history) (hpageable : Pageable a owner) {params : GetSessionHistoryParams}
    {now : Nat} {page : GetSessionHistoryResult} (hpaged : Paged a owner history params.limit through before page)
    (hparams : params.validate = .ok ()) (hthread : params.threadId = a.threadId)
    (hwindow : a.window owner params now = .ok (through, before))
    (hfits : ∃ n, HistorySerde.pageBytes page = .ok n ∧ n ≤ maxSessionManagementPageBytes)
    (hcursor : validateHistoryCursor page.nextCursor = .ok ()) : page.validateFor params = .ok () := by
  obtain ⟨n, hn, hfits⟩ := hfits
  obtain ⟨hend, hthrough, hcurrent⟩ := hpaged.indexes
  obtain ⟨hbefore, hle⟩ := hpaged.le
  have hstart := hpaged.start
  have hindex := h.index
  have hlimit := hpaged.limit
  have hcount : page.items.length = before - page.startIndex := by
    rw [hpaged.shown]
    exact length_piece (by omega)
  rw [hcount] at hlimit
  have hanchor : ∀ index, (a.anchor index).validate = .ok () := fun index => by
    unfold SessionHistoryAnchor.validate
    rw [show (a.anchor index).threadId = a.threadId from rfl, hpageable.thread, ok_bind]
    exact hpageable.stream _
  have hsub : page.items.Sublist (a.items.map (·.item)) := by
    rw [hpaged.shown]
    exact h.sublist_piece hstart.1
  have hitems : ∀ item ∈ page.items, validateIdentityV2 item.id "history item_id" = .ok () := fun item hitem => by
    obtain ⟨i, hi, rfl⟩ := List.mem_map.1 (hsub.subset hitem)
    exact hpageable.items i hi _
  have hdistinct : (page.items.map (·.id)).Nodup := by
    refine List.Nodup.sublist (hsub.map _) ?_
    rw [List.map_map]
    exact h.distinct
  have hfirst : page.validateFirst params = .ok () := by
    unfold GetSessionHistoryResult.validateFirst
    cases hc : params.cursor with
    | some cursor => rfl
    | none =>
      obtain ⟨hsame, hexpected, hstream⟩ := window_first hwindow hc
      simp only [hend, hthrough, hcurrent]
      rw [show (before != (a.anchor through).index) = false by rw [hsame]; exact bne_self_eq_false _,
        refuse_false, ok_bind, show ((a.anchor through).index != (params.before.map fun b =>
          min b.index (a.anchor a.endIndex).index).getD (a.anchor a.endIndex).index) = false by
            exact bne_eq_false_iff_eq.2 hexpected, refuse_false, ok_bind, refuse_ok_iff]
      rw [Option.any_eq_false]
      intro b hb
      obtain ⟨hbthread, hbstream⟩ := hstream b hb
      simp [SessionHistoryAnchor.sameStream, anchor, hbthread, hbstream]
  have hsession : (page.through.threadId != params.threadId || page.currentEnd.threadId != params.threadId ||
      !page.through.sameStream page.currentEnd) = false := by
    rw [hthrough, hcurrent]
    simp [anchor, hthread, SessionHistoryAnchor.sameStream]
  have hrange : (decide (page.endIndex < page.startIndex) || decide (page.through.index < page.endIndex) ||
      decide (page.currentEnd.index < page.through.index)) = false := by
    rw [hthrough, hcurrent, hend]
    simp only [Bool.or_eq_false_iff, decide_eq_false_iff_not]
    exact ⟨⟨Nat.not_lt.2 hstart.2, Nat.not_lt.2 hbefore⟩, Nat.not_lt.2 hle⟩
  have hshown : (page.endIndex - page.startIndex != page.items.length ||
      decide (params.limit < page.items.length)) = false := by
    rw [hend, hcount, bne_self_eq_false, Bool.false_or, decide_eq_false_iff_not]
    omega
  unfold GetSessionHistoryResult.validateFor validateManagementPageBytes
  rw [hparams, ok_bind, hn, ok_bind, decide_eq_false (Nat.not_lt.2 hfits), refuse_false, ok_bind,
    show page.through.validate = .ok () from hthrough ▸ hanchor _, ok_bind,
    show page.currentEnd.validate = .ok () from hcurrent ▸ hanchor _, ok_bind, hsession, refuse_false, ok_bind,
    hrange, refuse_false, ok_bind, hshown, refuse_false, ok_bind,
    distinct_ok_iff.2 ⟨hitems, hdistinct, by simp⟩, ok_bind, hfirst, ok_bind, hcursor]

omit [HistorySerde] [EventSerde] in
/-- A cursor that is returned was checked. -/
theorem pageCursor_valid {start now : Nat} {cursor : Option String}
    (h : a.pageCursor owner start through now = .ok cursor) : validateHistoryCursor cursor = .ok () := by
  unfold pageCursor at h
  split at h
  · obtain ⟨expiresAtMs, -, h⟩ := bind_ok h
    obtain ⟨token, -, h⟩ := bind_ok h
    obtain ⟨_, hvalid, h⟩ := bind_ok h
    rw [mapError_ok_iff] at hvalid
    rw [← Except.ok.inj h]
    exact hvalid
  · rw [← Except.ok.inj h]
    rfl

omit [EventSerde] in
/-- The page behind the loop fits, with a valid cursor. -/
theorem PageFilled.answered [LawfulPaging] {start : Nat} {items : List CanonicalItem}
    {accepted : Option GetSessionHistoryResult} (hpageable : Pageable a owner)
    (hfilled : PageFilled a owner before through limit history start items accepted)
    (hprogress : a.floor < before → start < before) (now : Nat) :
    ∃ page, a.lastResult owner before through now items accepted = .ok page ∧
      (∃ n, HistorySerde.pageBytes page = .ok n ∧ n ≤ maxSessionManagementPageBytes) ∧
      validateHistoryCursor page.nextCursor = .ok () := by
  have hfloor := hfilled.floor
  rcases hfilled.accepted with ⟨rfl, rfl⟩ | ⟨hlt, result, rfl, ⟨now', hmade⟩, hfits⟩
  · obtain rfl : a.floor = start := by omega
    -- a page without items ends at the floor: nothing is behind it
    have hitems : items = [] := hfilled.shown.trans (piece_self history a.floor)
    obtain ⟨n, hn⟩ := LawfulPaging.measured
      ⟨[], a.floor, a.floor, a.anchor through, a.anchor a.endIndex, none⟩
    refine ⟨_, ?_, ⟨n, hn, hpageable.brief.empty _ _ _ _ hn⟩, rfl⟩
    unfold lastResult HistoryArchive.result pageCursor
    rw [hitems, if_neg (Nat.lt_irrefl _)]
    rfl
  · obtain ⟨cursor, hcursor, heq⟩ := result_ok hmade
    refine ⟨result, rfl, hfits, ?_⟩
    rw [heq]
    exact pageCursor_valid hcursor

/-- A request of a window is answered with a page, or there is no room for its first item. -/
theorem page_cases [LawfulPaging] (h : a.Retains history) (hpageable : Pageable a owner)
    {params : GetSessionHistoryParams} {clock : PageClock} (hclock : clock.Bounded)
    (hparams : params.validate = .ok ()) (hthread : params.threadId = a.threadId)
    (hwindow : a.window owner params clock.checked = .ok (through, before)) (hfloor : a.floor ≤ before)
    (hbefore : before ≤ through) (hthrough : through ≤ a.endIndex) :
    (∃ page, a.page owner params clock = .ok page) ∨
      ∃ actual index, a.page owner params clock =
        .error (.resourceLimit "session_history_page" actual maxSessionManagementPageBytes (some index)) := by
  have hrange := h.range
  have hcursor : ∀ start, start ≤ before → ∀ j, ∃ cursor,
      a.pageCursor owner start through (clock.turn j) = .ok cursor ∧ validateHistoryCursor cursor = .ok () :=
    fun start hstart j => hpageable.pageCursor (hstart.trans hbefore) (hthrough.trans hrange) (hclock j)
  unfold HistoryArchive.page
  simp only [hparams, Except.mapError, ok_bind, hwindow, decide_eq_false (Nat.not_lt.2 hfloor), refuse_false,
    decide_eq_false (Nat.not_lt.2 hbefore), decide_eq_false (Nat.not_lt.2 hthrough), Bool.or_false]
  rcases fillPage_cases h (fun start hstart j => (hcursor start hstart j).imp fun _ hc => hc.1)
    (hbefore.trans hthrough) (Nat.le_refl before) with ⟨⟨items, accepted⟩, hfill⟩ | ⟨actual, index, hfill⟩
  · left
    obtain ⟨start, -, hfilled, hprogress⟩ := fillPage_ok h (hbefore.trans hthrough) (pageFilled_start hfloor) hfill
    have hmore : a.floor < before → start < before := fun hlt => hprogress hlt rfl (limit_pos hparams)
    obtain ⟨page, hlast, hfits, hvalid⟩ := hfilled.answered hpageable hmore (clock.turn items.length)
    have hpaged := hfilled.paged hmore ⟨hbefore, hthrough⟩ hlast
    have haccepted := hpaged.validateFor h hpageable hparams hthread hwindow hfits hvalid
    refine ⟨page, ?_⟩
    rw [hfill]
    simp only [ok_bind, hlast, haccepted]
  · right
    refine ⟨actual, index, ?_⟩
    rw [hfill]
    rfl

omit [HistorySerde] [EventSerde] in
theorem window_error {params : GetSessionHistoryParams} {now : Nat} {e : PageFailure}
    (h : a.window owner params now = .error e) : e = .historyCursorInvalid ∧ params.cursor.isSome = true ∨
      ∃ requested current, e = .historyStreamReset requested current := by
  unfold window at h
  cases hc : params.cursor with
  | none =>
    rw [hc] at h
    cases hb : params.before with
    | none =>
      rw [hb] at h
      cases h
    | some b =>
      rw [hb] at h
      rcases refuse_bind_error h with rfl | h
      · exact .inr ⟨_, _, rfl⟩
      · cases h
  | some cursor =>
    rw [hc] at h
    simp only at h
    cases hd : (CursorCodec.decode owner cursor : Option HistoryCursorClaims) with
    | none =>
      rw [hd] at h
      exact .inl ⟨(Except.error.inj h).symm, rfl⟩
    | some claims =>
      rw [hd, orElse_some, ok_bind] at h
      rcases refuse_bind_error h with rfl | h
      · exact .inl ⟨rfl, rfl⟩
      rcases refuse_bind_error h with rfl | h
      · exact .inl ⟨rfl, rfl⟩
      rcases refuse_bind_error h with rfl | h
      · exact .inr ⟨_, _, rfl⟩
      rcases refuse_bind_error h with rfl | h
      · exact .inl ⟨rfl, rfl⟩
      · cases h

/-- What a request is answered with. -/
theorem Pageable.page_answer [LawfulPaging] (hpageable : Pageable a owner) (h : a.Retains history)
    {params : GetSessionHistoryParams} {clock : PageClock} (hclock : clock.Bounded)
    (hthread : params.threadId = a.threadId) :
    (∀ message, a.page owner params clock ≠ .error (.invalidProjection message)) ∧
      (params.cursor = none → a.page owner params clock ≠ .error .historyCursorInvalid) := by
  cases hparams : params.validate with
  | error message =>
    have hpage : a.page owner params clock = .error (.management (.invalidParams message)) := by
      unfold HistoryArchive.page
      rw [hparams]
      rfl
    rw [hpage]
    exact ⟨fun _ heq => (by cases heq), fun _ heq => (by cases heq)⟩
  | ok =>
    cases hwindow : a.window owner params clock.checked with
    | error e =>
      have hpage : a.page owner params clock = .error e := by
        unfold HistoryArchive.page
        simp only [hparams, Except.mapError, ok_bind, hwindow, error_bind]
      rw [hpage]
      rcases window_error hwindow with ⟨rfl, hsome⟩ | ⟨requested, current, rfl⟩
      · refine ⟨fun _ heq => (by cases heq), fun hnone => ?_⟩
        rw [hnone] at hsome
        cases hsome
      · exact ⟨fun _ heq => (by cases heq), fun _ heq => (by cases heq)⟩
    | ok range =>
      obtain ⟨through, before⟩ := range
      by_cases hfloor : before < a.floor
      · have hpage : a.page owner params clock =
            .error (.historyGap (a.anchor before) (a.anchor a.floor) (a.anchor a.endIndex)) := by
          unfold HistoryArchive.page
          simp only [hparams, Except.mapError, ok_bind, hwindow, decide_eq_true hfloor, refuse_true, error_bind]
        rw [hpage]
        exact ⟨fun _ heq => (by cases heq), fun _ heq => (by cases heq)⟩
      · by_cases hrange : before ≤ through ∧ through ≤ a.endIndex
        · rcases page_cases h hpageable hclock hparams hthread hwindow (Nat.le_of_not_lt hfloor) hrange.1
            hrange.2 with ⟨page, hpage⟩ | ⟨actual, index, hpage⟩
          · rw [hpage]
            exact ⟨fun _ heq => (by cases heq), fun _ heq => (by cases heq)⟩
          · rw [hpage]
            exact ⟨fun _ heq => (by cases heq), fun _ heq => (by cases heq)⟩
        · have hrefused : (decide (through < before) || decide (a.endIndex < through)) = true := by
            simp only [Bool.or_eq_true, decide_eq_true_eq]
            omega
          have hpage : a.page owner params clock = .error .historyCursorInvalid := by
            unfold HistoryArchive.page
            simp only [hparams, Except.mapError, ok_bind, hwindow, decide_eq_false hfloor, refuse_false, hrefused,
              refuse_true, error_bind]
          rw [hpage]
          refine ⟨fun _ heq => (by cases heq), fun hnone => absurd ?_ hrange⟩
          -- a first request asks for what is there
          obtain ⟨rfl, hexpected, -⟩ := window_first hwindow hnone
          refine ⟨Nat.le_refl _, ?_⟩
          rw [hexpected]
          cases params.before with
          | none => exact Nat.le_refl _
          | some b => exact Nat.min_le_right _ _

/-! ## Walks -/

/-- The items that pages show, the last page's first. -/
def readItems (pages : List (GetSessionHistoryParams × GetSessionHistoryResult)) : List CanonicalItem :=
  pages.reverse.flatMap fun p => p.2.items

/-- The cursor of the last page. -/
def followed (pages : List (GetSessionHistoryParams × GetSessionHistoryResult)) : Option String :=
  pages.getLast?.bind fun p => p.2.nextCursor

omit [CursorCodec HistoryCursorClaims] [HistorySerde] [EventSerde] in
@[simp] theorem readItems_snoc (pages : List (GetSessionHistoryParams × GetSessionHistoryResult))
    (p : GetSessionHistoryParams × GetSessionHistoryResult) :
    readItems (pages ++ [p]) = p.2.items ++ readItems pages := by
  simp [readItems]

omit [CursorCodec HistoryCursorClaims] [HistorySerde] [EventSerde] in
@[simp] theorem followed_snoc (pages : List (GetSessionHistoryParams × GetSessionHistoryResult))
    (p : GetSessionHistoryParams × GetSessionHistoryResult) : followed (pages ++ [p]) = p.2.nextCursor := by
  simp [followed]

/-- The calls of a client that follows one cursor after another, with appends between them: the pages, what was
appended since the first of them, and the archive of the last. -/
inductive HistoryWalk (owner : String) (a₀ : HistoryArchive) :
    List (GetSessionHistoryParams × GetSessionHistoryResult) → List CanonicalItem → HistoryArchive → Prop
  | first {page : GetSessionHistoryResult} (params : GetSessionHistoryParams) (clock : PageClock)
      (start : params.cursor = none) (answered : a₀.page owner params clock = .ok page) :
      HistoryWalk owner a₀ [(params, page)] [] a₀
  | next {a a' : HistoryArchive} {pages : List (GetSessionHistoryParams × GetSessionHistoryResult)}
      {more : List CanonicalItem} {appended : List (List CanonicalItem)} {page : GetSessionHistoryResult}
      {cursor : String} (walk : HistoryWalk owner a₀ pages more a) (between : Lts.Run ArchiveStep a appended a')
      (params : GetSessionHistoryParams) (clock : PageClock) (last : followed pages = some cursor)
      (follows : params.cursor = some cursor) (answered : a'.page owner params clock = .ok page) :
      HistoryWalk owner a₀ (pages ++ [(params, page)]) (more ++ appended.flatten) a'

/-- How far a walk has come: its pages are the history from an index up to the position that was frozen, and there
is a cursor while the index is above the floor. -/
structure Reached (owner threadId streamId : String) (history : List CanonicalItem) (floor through start : Nat)
    (pages : List (GetSessionHistoryParams × GetSessionHistoryResult)) : Prop where
  range : start ≤ through ∧ through ≤ history.length
  shown : readItems pages = piece history start through
  next : start = floor ∧ followed pages = none ∨ floor < start ∧ ∃ cursor expiresAtMs,
    followed pages = some cursor ∧ (CursorCodec.decode owner cursor : Option HistoryCursorClaims) =
      some ⟨1, "session_history", threadId, streamId, through, start, expiresAtMs⟩
  window : ∀ p ∈ pages, p.2.through = ⟨threadId, streamId, through⟩
  fits : ∀ p ∈ pages, p.2.items.length ≤ p.1.limit ∧
    ∃ n, HistorySerde.pageBytes p.2 = .ok n ∧ n ≤ maxSessionManagementPageBytes
  progress : ∀ p ∈ pages, p.2.items = [] → p.2.nextCursor = none

omit [EventSerde] in
/-- The cursor determines how far it is. -/
theorem Reached.unique {threadId streamId cursor : String} {floor start through' start' : Nat}
    {pages : List (GetSessionHistoryParams × GetSessionHistoryResult)}
    (h : Reached owner threadId streamId history floor through start pages)
    (h' : Reached owner threadId streamId history floor through' start' pages) (last : followed pages = some cursor) :
    through = through' ∧ start = start' := by
  rcases h.next with ⟨-, hnone⟩ | ⟨-, _, _, hsome, hdecode⟩
  · rw [last] at hnone
    cases hnone
  rcases h'.next with ⟨-, hnone⟩ | ⟨-, _, _, hsome', hdecode'⟩
  · rw [last] at hnone
    cases hnone
  rw [last] at hsome hsome'
  obtain rfl := Option.some.inj hsome
  obtain rfl := Option.some.inj hsome'
  rw [hdecode] at hdecode'
  have hclaims := Option.some.inj hdecode'
  exact ⟨congrArg HistoryCursorClaims.through hclaims, congrArg HistoryCursorClaims.before hclaims⟩

omit [EventSerde] in
/-- The claims of a cursor that was returned. -/
theorem decode_pageCursor [LawfulPaging] {start now : Nat} {cursor : String} (hstart : start ≤ through)
    (hthread : AdmittedId a.threadId) (hstream : AdmittedId a.streamId)
    (h : a.pageCursor owner start through now = .ok (some cursor)) :
    ∃ expiresAtMs, (CursorCodec.decode owner cursor : Option HistoryCursorClaims) =
      some ⟨1, "session_history", a.threadId, a.streamId, through, start, expiresAtMs⟩ := by
  unfold pageCursor at h
  split at h
  · obtain ⟨expiresAtMs, -, h⟩ := bind_ok h
    obtain ⟨token, htoken, h⟩ := bind_ok h
    obtain ⟨_, -, h⟩ := bind_ok h
    obtain rfl := Option.some.inj (Except.ok.inj h)
    unfold CursorCodec.encode at htoken
    obtain ⟨hshort, htoken⟩ := refuse_bind_ok htoken
    obtain rfl := Except.ok.inj htoken
    refine ⟨expiresAtMs, ?_⟩
    unfold CursorCodec.decode
    rw [if_neg (of_decide_eq_false hshort)]
    exact LawfulPaging.decoded owner _
      (by simp [HistoryCursorClaims.validShape, hstart, hthread.not_blank, hstream.not_blank])
  · cases Except.ok.inj h

omit [EventSerde] in
/-- A page takes a walk further. -/
theorem Paged.reached [LawfulPaging] {more : List CanonicalItem}
    {pages : List (GetSessionHistoryParams × GetSessionHistoryResult)} {params : GetSessionHistoryParams}
    {page : GetSessionHistoryResult} (hpaged : Paged a owner (history ++ more) params.limit through before page)
    (hfits : ∃ n, HistorySerde.pageBytes page = .ok n ∧ n ≤ maxSessionManagementPageBytes)
    (hthread : AdmittedId a.threadId) (hstream : AdmittedId a.streamId) (hrange : through ≤ history.length)
    (hshown : readItems pages = piece history before through)
    (hwindow : ∀ p ∈ pages, p.2.through = ⟨a.threadId, a.streamId, through⟩)
    (hpages : ∀ p ∈ pages, p.2.items.length ≤ p.1.limit ∧
      ∃ n, HistorySerde.pageBytes p.2 = .ok n ∧ n ≤ maxSessionManagementPageBytes)
    (hprogress : ∀ p ∈ pages, p.2.items = [] → p.2.nextCursor = none) :
    Reached owner a.threadId a.streamId history a.floor through page.startIndex (pages ++ [(params, page)]) := by
  obtain ⟨hfloor, hstart⟩ := hpaged.start
  have hbefore := hpaged.le.1
  have hitems : page.items = piece history page.startIndex before := by
    rw [hpaged.shown, piece_more more (hbefore.trans hrange)]
  refine ⟨⟨hstart.trans hbefore, hrange⟩, ?_, ?_, fun p hp => ?_, fun p hp => ?_, fun p hp => ?_⟩
  · rw [readItems_snoc, hshown, hitems, piece_append hstart hbefore hrange]
  · rw [followed_snoc]
    rcases hpaged.next with ⟨hend, hnone⟩ | ⟨hmore, hlt, cursor, now, hsome, hcursor⟩
    · exact .inl ⟨hend, hnone⟩
    · obtain ⟨expiresAtMs, hdecode⟩ := decode_pageCursor (hstart.trans hbefore) hthread hstream hcursor
      exact .inr ⟨hmore, cursor, expiresAtMs, hsome, hdecode⟩
  · rcases List.mem_append.1 hp with hp | hp
    · exact hwindow p hp
    · obtain rfl := List.mem_singleton.1 hp
      exact hpaged.indexes.2.1
  · rcases List.mem_append.1 hp with hp | hp
    · exact hpages p hp
    · obtain rfl := List.mem_singleton.1 hp
      exact ⟨hpaged.limit, hfits⟩
  · rcases List.mem_append.1 hp with hp | hp
    · exact hprogress p hp
    · obtain rfl := List.mem_singleton.1 hp
      intro hnil
      rcases hpaged.next with ⟨-, hnone⟩ | ⟨-, hlt, -⟩
      · exact hnone
      · -- above the floor a page has an item
        have hcount := congrArg List.length (hitems.symm.trans hnil)
        rw [length_piece (hbefore.trans hrange), List.length_nil] at hcount
        omega

/-- What holds behind every call of a walk. -/
structure WalkedTo (owner : String) (a₀ : HistoryArchive) (history : List CanonicalItem)
    (pages : List (GetSessionHistoryParams × GetSessionHistoryResult)) (more : List CanonicalItem)
    (a : HistoryArchive) : Prop where
  retains : a.Retains (history ++ more)
  same : SameArchive a₀ a
  reached : ∃ through start, Reached owner a₀.threadId a₀.streamId history a.floor through start pages

theorem WalkedTo.start [LawfulPaging] {params : GetSessionHistoryParams} {clock : PageClock}
    {page : GetSessionHistoryResult} (h : a.Retains history) (hthread : AdmittedId a.threadId)
    (hstream : AdmittedId a.streamId) (start : params.cursor = none)
    (answered : a.page owner params clock = .ok page) : WalkedTo owner a history [(params, page)] [] a := by
  obtain ⟨-, hfits, through, before, hwindow, hpaged⟩ := page_ok h answered
  obtain ⟨rfl, -, -⟩ := window_first hwindow start
  have hretains : a.Retains (history ++ []) := by rwa [List.append_nil]
  refine ⟨hretains, ⟨rfl, rfl, rfl, rfl⟩, before, page.startIndex, ?_⟩
  rw [← List.append_nil history] at hpaged
  rw [← List.nil_append [(params, page)]]
  exact hpaged.reached hfits hthread hstream (h.index ▸ hpaged.le.2)
    (piece_self history before).symm nofun nofun nofun

/-- The cursor of the last page in a later archive. -/
theorem WalkedTo.window {a₀ : HistoryArchive} {more : List CanonicalItem}
    {pages : List (GetSessionHistoryParams × GetSessionHistoryResult)} (h : WalkedTo owner a₀ history pages more a)
    (hthread : AdmittedId a₀.threadId) (hstream : AdmittedId a₀.streamId) {cursor : String}
    (last : followed pages = some cursor) {a' : HistoryArchive} {appended : List (List CanonicalItem)}
    (between : Lts.Run ArchiveStep a appended a') {params : GetSessionHistoryParams}
    (follows : params.cursor = some cursor) :
    a'.Retains (history ++ (more ++ appended.flatten)) ∧ SameArchive a₀ a' ∧ ∃ through start,
      Reached owner a₀.threadId a₀.streamId history a.floor through start pages ∧ through ≤ a'.endIndex ∧
      ∃ expiresAtMs, (CursorCodec.decode owner cursor : Option HistoryCursorClaims) =
          some ⟨1, "session_history", a₀.threadId, a₀.streamId, through, start, expiresAtMs⟩ ∧
        ∀ now, a'.window owner params now =
          if expiresAtMs ≤ now then .error .historyCursorInvalid else .ok (through, start) := by
  obtain ⟨hretains, hsame⟩ := h.retains.run between
  have hsame := h.same.trans hsame
  rw [List.append_assoc] at hretains
  obtain ⟨through, start, hreached⟩ := h.reached
  have hindex := hretains.index
  rw [List.length_append] at hindex
  have hend : through ≤ a'.endIndex := by
    have := hreached.range.2
    omega
  refine ⟨hretains, hsame, through, start, hreached, hend, ?_⟩
  rcases hreached.next with ⟨-, hnone⟩ | ⟨-, token, expiresAtMs, hsome, hdecode⟩
  · rw [last] at hnone
    cases hnone
  rw [last] at hsome
  obtain rfl := Option.some.inj hsome
  refine ⟨expiresAtMs, hdecode, fun now => ?_⟩
  have hshape : (HistoryCursorClaims.mk 1 "session_history" a₀.threadId a₀.streamId through start
      expiresAtMs).validShape = true := by
    simp [HistoryCursorClaims.validShape, hreached.range.1, hthread.not_blank, hstream.not_blank]
  unfold HistoryArchive.window
  rw [follows]
  simp only [hdecode, orElse_some, ok_bind, hshape, Bool.not_true, Bool.false_or]
  split
  · rename_i hexpired
    rw [decide_eq_true hexpired]
    rfl
  · rename_i hexpired
    rw [decide_eq_false hexpired, refuse_false, ok_bind, hsame.1, bne_self_eq_false, refuse_false, ok_bind, hsame.2.1,
      bne_self_eq_false, refuse_false, ok_bind, decide_eq_false (Nat.not_lt.2 hend), refuse_false, ok_bind]

theorem WalkedTo.next [LawfulPaging] {a₀ a' : HistoryArchive} {more : List CanonicalItem}
    {pages : List (GetSessionHistoryParams × GetSessionHistoryResult)} {appended : List (List CanonicalItem)}
    {cursor : String} {params : GetSessionHistoryParams} {clock : PageClock} {page : GetSessionHistoryResult}
    (h : WalkedTo owner a₀ history pages more a) (hthread : AdmittedId a₀.threadId) (hstream : AdmittedId a₀.streamId)
    (between : Lts.Run ArchiveStep a appended a') (last : followed pages = some cursor)
    (follows : params.cursor = some cursor) (answered : a'.page owner params clock = .ok page) :
    WalkedTo owner a₀ history (pages ++ [(params, page)]) (more ++ appended.flatten) a' := by
  obtain ⟨hretains, hsame, through, start, hreached, -, expiresAtMs, -, hwindow⟩ :=
    h.window hthread hstream last between follows
  obtain ⟨-, hfits, through', before, hwindow', hpaged⟩ := page_ok hretains answered
  rw [hwindow] at hwindow'
  split at hwindow'
  · cases hwindow'
  obtain ⟨rfl, rfl⟩ := Prod.mk.inj (Except.ok.inj hwindow')
  refine ⟨hretains, hsame, through, page.startIndex, ?_⟩
  have hfurther := hpaged.reached hfits (hsame.1 ▸ hthread) (hsame.2.1 ▸ hstream) hreached.range.2 hreached.shown
    (by rw [hsame.1, hsame.2.1]; exact hreached.window) hreached.fits hreached.progress
  rw [hsame.1, hsame.2.1] at hfurther
  exact hfurther

/-- Every walk. -/
theorem HistoryWalk.walkedTo [LawfulPaging] {a₀ : HistoryArchive} {more : List CanonicalItem}
    {pages : List (GetSessionHistoryParams × GetSessionHistoryResult)} (h : a₀.Retains history)
    (hthread : AdmittedId a₀.threadId) (hstream : AdmittedId a₀.streamId)
    (hwalk : HistoryWalk owner a₀ pages more a) : WalkedTo owner a₀ history pages more a := by
  induction hwalk with
  | first params clock start answered => exact .start h hthread hstream start answered
  | next _ between params clock last follows answered ih =>
    exact ih.next hthread hstream between last follows answered

/-- The last page of a walk, and its cursor in a later archive: a gap if the floor has passed it, else a page. -/
theorem WalkedTo.more [LawfulPaging] {a₀ : HistoryArchive} {more : List CanonicalItem}
    {pages : List (GetSessionHistoryParams × GetSessionHistoryResult)} (h : WalkedTo owner a₀ history pages more a)
    (hthread : AdmittedId a₀.threadId) (hstream : AdmittedId a₀.streamId) :
    ∃ through start, Reached owner a₀.threadId a₀.streamId history a.floor through start pages ∧
      ∀ cursor appended a' params clock, followed pages = some cursor → Lts.Run ArchiveStep a appended a' →
        params.cursor = some cursor → params.validate = .ok () → params.threadId = a₀.threadId →
        (∀ claims : HistoryCursorClaims, CursorCodec.decode owner cursor = some claims →
          clock.checked < claims.expiresAtMs) →
        (start < a'.floor → a'.page owner params clock =
          .error (.historyGap (a'.anchor start) (a'.anchor a'.floor) (a'.anchor a'.endIndex))) ∧
        (a'.floor ≤ start → Pageable a' owner → clock.Bounded →
          (∃ page, a'.page owner params clock = .ok page) ∨ ∃ actual index, a'.page owner params clock =
            .error (.resourceLimit "session_history_page" actual maxSessionManagementPageBytes (some index))) := by
  obtain ⟨through, start, hreached⟩ := h.reached
  refine ⟨through, start, hreached, ?_⟩
  intro cursor appended a' params clock last between follows hparams hthread' hfresh
  obtain ⟨hretains, hsame, through', start', hreached', hend, expiresAtMs, hdecode, hwindow⟩ :=
    h.window hthread hstream last between follows
  obtain ⟨rfl, rfl⟩ := hreached.unique hreached' last
  have hlt := hfresh _ hdecode
  have hwindow := hwindow clock.checked
  rw [if_neg (Nat.not_le.2 hlt)] at hwindow
  refine ⟨fun hgone => ?_, fun hfloor hpageable hclock => ?_⟩
  · unfold HistoryArchive.page
    simp only [hparams, Except.mapError, ok_bind, hwindow, decide_eq_true hgone, refuse_true, error_bind]
  · exact page_cases hretains hpageable hclock hparams (hthread'.trans hsame.1.symm) hwindow hfloor
      hreached.range.1 hend

/-- A request for the last item. -/
def lastItem (threadId : String) : GetSessionHistoryParams := ⟨threadId, none, none, 1⟩

/-- A session whose cursors are too long has no page with more behind it. -/
theorem page_too_long (h : a.Retains history) {clock : PageClock} (hthread : AdmittedId a.threadId)
    (hmore : a.floor + 1 < a.endIndex) (hclock : clock.turn 0 + CursorCodec.ttlMs ≤ u64Max)
    (hlong : maxSessionCursorTokenBytes < (CursorCodec.token owner (HistoryCursorClaims.mk 1 "session_history"
      a.threadId a.streamId a.endIndex (a.endIndex - 1) (clock.turn 0 + CursorCodec.ttlMs))).utf8ByteSize) :
    a.page owner (lastItem a.threadId) clock =
      .error (.invalidProjection "Session cursor token exceeds the wire limit") := by
  have hparams : (lastItem a.threadId).validate = .ok () := by
    unfold GetSessionHistoryParams.validate
    rw [show (lastItem a.threadId).threadId = a.threadId from rfl, hthread, ok_bind]
    rfl
  have hwindow : a.window owner (lastItem a.threadId) clock.checked = .ok (a.endIndex, a.endIndex) := rfl
  have hfloor : ¬ a.endIndex < a.floor := by omega
  obtain ⟨start, hstart⟩ : ∃ start, a.endIndex = start + 1 := ⟨a.endIndex - 1, by omega⟩
  obtain ⟨i, hi, -⟩ := h.candidate (show a.floor < start + 1 by omega) (by omega)
  have hexpiry : CursorCodec.expiry (clock.turn 0) = .ok (clock.turn 0 + CursorCodec.ttlMs) := by
    unfold CursorCodec.expiry UsageMetrics.checkedAdd64
    rw [if_pos hclock]
    rfl
  have hencode : CursorCodec.encode owner (HistoryCursorClaims.mk 1 "session_history" a.threadId a.streamId a.endIndex
      start (clock.turn 0 + CursorCodec.ttlMs)) =
        .error (.invalidProjection "Session cursor token exceeds the wire limit") := by
    rw [show a.endIndex - 1 = start by omega] at hlong
    show (refuse _ _ >>= fun _ => _) = _
    rw [decide_eq_true hlong]
    rfl
  have hcursor : a.pageCursor owner start a.endIndex (clock.turn 0) =
      .error (.invalidProjection "Session cursor token exceeds the wire limit") := by
    unfold pageCursor
    rw [if_pos (by omega), hexpiry, ok_bind, hencode, error_bind]
  have hfill : a.fillPage owner a.endIndex a.endIndex 1 clock.turn a.endIndex [] none =
      .error (.invalidProjection "Session cursor token exceeds the wire limit") := by
    have hturn : a.fillPage owner a.endIndex a.endIndex 1 clock.turn (start + 1) [] none =
        .error (.invalidProjection "Session cursor token exceeds the wire limit") := by
      unfold fillPage
      rw [if_pos ⟨by omega, Nat.one_pos⟩, hi, orElse_some, ok_bind]
      unfold HistoryArchive.result
      rw [List.length_nil, hcursor, error_bind, error_bind]
    rw [← hstart] at hturn
    exact hturn
  unfold HistoryArchive.page
  simp only [hparams, Except.mapError, ok_bind, hwindow, decide_eq_false hfloor, refuse_false,
    decide_eq_false (Nat.lt_irrefl a.endIndex), Bool.or_false]
  rw [show (lastItem a.threadId).limit = 1 from rfl, hfill]
  rfl

end

end HistoryArchive

/-! ## The pages of a session -/

open HistoryArchive in
/-- **Paging backward through the history is exact.** -/
theorem history_paging_exact [EventSerde] [CursorCodec HistoryCursorClaims] [HistorySerde] [LawfulPaging]
    (threadId streamId : String) (hthread : AdmittedId threadId) (hstream : AdmittedId streamId)
    (initial : List CanonicalItem) (configuredMaxBytes : Option Nat) (a₀ : HistoryArchive)
    (hnew : HistoryArchive.new threadId streamId initial configuredMaxBytes = .ok a₀)
    (appended : List (List CanonicalItem)) (a : HistoryArchive) (hrun : Lts.Run ArchiveStep a₀ appended a) :
    -- the archive
    a.Retains (initial ++ appended.flatten) ∧ SameArchive (.empty threadId streamId configuredMaxBytes) a ∧
    -- a walk, and its next page
    (∀ owner pages more b, HistoryWalk owner a pages more b → ∃ through start,
      Reached owner threadId streamId (initial ++ appended.flatten) b.floor through start pages ∧
      ∀ cursor appended' b' params clock, followed pages = some cursor → Lts.Run ArchiveStep b appended' b' →
        params.cursor = some cursor → params.validate = .ok () → params.threadId = threadId →
        (∀ claims : HistoryCursorClaims, CursorCodec.decode owner cursor = some claims →
          clock.checked < claims.expiresAtMs) →
        (start < b'.floor → b'.page owner params clock =
          .error (.historyGap (b'.anchor start) (b'.anchor b'.floor) (b'.anchor b'.endIndex))) ∧
        (b'.floor ≤ start → Pageable b' owner → clock.Bounded →
          (∃ page, b'.page owner params clock = .ok page) ∨ ∃ actual index, b'.page owner params clock =
            .error (.resourceLimit "session_history_page" actual maxSessionManagementPageBytes (some index)))) ∧
    -- any request
    (∀ owner params clock, Pageable a owner → clock.Bounded → params.threadId = threadId →
      (∀ message, a.page owner params clock ≠ .error (.invalidProjection message)) ∧
      (params.cursor = none → a.page owner params clock ≠ .error .historyCursorInvalid)) ∧
    -- cursors that do not fit
    ∀ owner clock, a.floor + 1 < a.endIndex → clock.turn 0 + CursorCodec.ttlMs ≤ u64Max →
      maxSessionCursorTokenBytes < (CursorCodec.token owner (HistoryCursorClaims.mk 1 "session_history"
        threadId streamId a.endIndex (a.endIndex - 1) (clock.turn 0 + CursorCodec.ttlMs))).utf8ByteSize →
      a.page owner (lastItem threadId) clock =
        .error (.invalidProjection "Session cursor token exceeds the wire limit") := by
  obtain ⟨hinitial, hsame₀⟩ := retains_new hnew
  obtain ⟨hretains, hsame⟩ := hinitial.run hrun
  have hall := hsame₀.trans hsame
  obtain ⟨hthreadId, hstreamId, -⟩ := hsame₀.trans hsame
  obtain rfl : a.threadId = threadId := hthreadId
  obtain rfl : a.streamId = streamId := hstreamId
  refine ⟨hretains, hall, fun owner pages more b hwalk => ?_, fun owner params clock hpageable hclock hthread' => ?_,
    fun owner clock hmore hclock hlong => ?_⟩
  · exact (hwalk.walkedTo hretains hthread hstream).more hthread hstream
  · exact hpageable.page_answer hretains hclock hthread'
  · exact page_too_long hretains hthread hmore hclock hlong

/-! ## Two items, a page each -/

namespace Sample

/-- An id as a number, a digit for every character. -/
def idNumber (id : String) : Nat := Nat.ofDigits 2097152 (id.toList.map fun c => c.toNat + 1)

/-- The id of a number. -/
def idOf (n : Nat) : String := .ofList ((Nat.digits 2097152 n).map fun d => Char.ofNat (d - 1))

/-- The token of claims: their numbers as one. -/
def pageToken (c : HistoryCursorClaims) : String :=
  binary (Nat.pair (Nat.pair c.through c.before)
    (Nat.pair c.expiresAtMs (Nat.pair (idNumber c.threadId) (idNumber c.streamId))))

/-- The claims of a token. -/
def pageClaims (token : String) : Option HistoryCursorClaims :=
  (ofBinary token).map fun n =>
    ⟨1, "session_history", idOf n.unpair.2.unpair.2.unpair.1, idOf n.unpair.2.unpair.2.unpair.2,
      n.unpair.1.unpair.1, n.unpair.1.unpair.2, n.unpair.2.unpair.1⟩

theorem idOf_idNumber (id : String) : idOf (idNumber id) = id := by
  have hdigits : Nat.digits 2097152 (idNumber id) = id.toList.map fun c => c.toNat + 1 := by
    refine Nat.digits_ofDigits 2097152 (by decide) _ (fun d hd => ?_) fun hne => ?_
    · obtain ⟨c, -, rfl⟩ := List.mem_map.1 hd
      have hc : c.toNat < 0x110000 := by
        rcases c.valid with h | ⟨-, h⟩
        · exact lt_trans h (by decide)
        · exact h
      omega
    · have hlast := List.getLast_mem hne
      obtain ⟨c, -, hc⟩ := List.mem_map.1 hlast
      omega
  unfold idOf
  rw [hdigits, List.map_map]
  have hchars : id.toList.map ((fun d => Char.ofNat (d - 1)) ∘ fun c => c.toNat + 1) = id.toList :=
    List.map_id'' (fun c => Char.ofNat_toNat c) _
  rw [hchars, String.ofList_toList]

theorem decoded_page (c : HistoryCursorClaims) (h : c.validShape = true) : pageClaims (pageToken c) = some c := by
  unfold pageClaims pageToken
  simp only [ofBinary_binary, Option.map_some, Nat.unpair_pair, idOf_idNumber]
  unfold HistoryCursorClaims.validShape at h
  obtain ⟨version, kind, _⟩ := c
  simp at h
  simp [h]

@[reducible] def pageCodec : CursorCodec HistoryCursorClaims := ⟨fun _ => pageToken, fun _ => pageClaims⟩

/-- Every item is a hundred bytes long. -/
@[reducible] def pageSerde : HistorySerde where
  pageBytes result := .ok (180 + 100 * result.items.length +
    result.nextCursor.elim 0 fun cursor => 16 + cursor.utf8ByteSize)

theorem pageCodec_lawful : @LawfulPaging pageCodec pageSerde :=
  letI := pageCodec
  letI := pageSerde
  { decoded := fun _ c => decoded_page c
    printable := fun _ _ name _ => printable_binary _ name
    measured := fun _ => ⟨_, rfl⟩ }

/-- The archive of a session with two items. -/
def twoItems : HistoryArchive where
  threadId := "t"
  streamId := "s"
  endIndex := 2
  items := [⟨note "a", 2⟩, ⟨note "b", 2⟩]
  bytes := 4
  maxItems := maxSessionManagementHistoryItems
  maxBytes := maxSessionManagementHistoryBytes

/-- The answer to a request for one item. -/
def readOne (a : HistoryArchive) (cursor : Option String) : Except PageFailure GetSessionHistoryResult :=
  @HistoryArchive.page pageCodec pageSerde a "o" ⟨"t", none, cursor, 1⟩ ⟨10, fun _ => 10⟩

/-- The page of an answer. -/
def readPage (answer : Except PageFailure GetSessionHistoryResult) : GetSessionHistoryResult :=
  match answer with
  | .ok page => page
  | .error _ => ⟨[], 0, 0, ⟨"", "", 0⟩, ⟨"", "", 0⟩, none⟩

theorem readPage_eq {answer : Except PageFailure GetSessionHistoryResult} (h : answer.isOk = true) :
    answer = .ok (readPage answer) := by
  cases answer with
  | error e => cases h
  | ok page => rfl

def latestPage : GetSessionHistoryResult := readPage (readOne twoItems none)

def earlierPage : GetSessionHistoryResult := readPage (readOne twoItems latestPage.nextCursor)

/-- The two pages with their requests. -/
def bothPages : List (GetSessionHistoryParams × GetSessionHistoryResult) :=
  [(⟨"t", none, none, 1⟩, latestPage)] ++ [(⟨"t", none, latestPage.nextCursor, 1⟩, earlierPage)]

theorem admitted_of_ok {id : String} (h : (blank id || padded id || id.toList.any isControl) = false) :
    HistoryArchive.AdmittedId id := fun name => by
  unfold validateIdentityV2
  rw [h]
  rfl

end Sample

open HistoryArchive in
/-- Two items are read, a page each. -/
theorem history_paging_exact_two : ∃ through start,
    @HistoryWalk Sample.pageCodec Sample.pageSerde Sample.serde "o" Sample.twoItems Sample.bothPages [] Sample.twoItems ∧
    @Reached Sample.pageCodec Sample.pageSerde "o" "t" "s" [Sample.note "a", Sample.note "b"] 0 through start
      Sample.bothPages ∧
    readItems Sample.bothPages = [Sample.note "a", Sample.note "b"] := by
  have hnew : @HistoryArchive.new Sample.serde "t" "s" [Sample.note "a", Sample.note "b"] none =
      .ok Sample.twoItems := rfl
  obtain ⟨cursor, hcursor⟩ : ∃ cursor, Sample.latestPage.nextCursor = some cursor :=
    Option.isSome_iff_exists.1 (by decide +kernel)
  have hlast : @HistoryWalk Sample.pageCodec Sample.pageSerde Sample.serde "o" Sample.twoItems
      [(⟨"t", none, none, 1⟩, Sample.latestPage)] [] Sample.twoItems :=
    @HistoryWalk.first Sample.pageCodec Sample.pageSerde Sample.serde _ _ _ ⟨"t", none, none, 1⟩ ⟨10, fun _ => 10⟩ rfl
      (Sample.readPage_eq (by decide +kernel))
  have hwalk : @HistoryWalk Sample.pageCodec Sample.pageSerde Sample.serde "o" Sample.twoItems Sample.bothPages []
      Sample.twoItems :=
    @HistoryWalk.next Sample.pageCodec Sample.pageSerde Sample.serde _ _ _ _ _ _ _ _ cursor hlast (.nil _)
      ⟨"t", none, Sample.latestPage.nextCursor, 1⟩ ⟨10, fun _ => 10⟩ hcursor hcursor
      (Sample.readPage_eq (by decide +kernel))
  obtain ⟨through, start, hreached, -⟩ := (@history_paging_exact Sample.serde Sample.pageCodec Sample.pageSerde
    Sample.pageCodec_lawful "t" "s" (Sample.admitted_of_ok (by decide +kernel))
    (Sample.admitted_of_ok (by decide +kernel)) _ none _ hnew [] _ (.nil _)).2.2.1 "o" _ _ _ hwalk
  exact ⟨through, start, hwalk, hreached, by decide +kernel⟩

/-! ## A session with a long id -/

namespace Sample

/-- Three thousand and two hundred characters. -/
def longThread : String := .ofList (List.replicate 3200 'a')

/-- The length of a token: the claims as JSON in base64, a dot, and the tag of 32 bytes in base64. -/
def tokenLength (c : HistoryCursorClaims) : Nat :=
  let payload := 106 + c.threadId.utf8ByteSize + c.streamId.utf8ByteSize + (toString c.through).utf8ByteSize +
    (toString c.before).utf8ByteSize + (toString c.expiresAtMs).utf8ByteSize
  (4 * payload + 2) / 3 + 44

/-- A codec with tokens of this length. -/
@[reducible] def longCodec : CursorCodec HistoryCursorClaims where
  token _ c := .ofList (List.replicate (tokenLength c) 'A')
  claims _ _ := none

/-- The archive of the session with two items. -/
def longItems : HistoryArchive := { twoItems with threadId := longThread }

theorem longThread_admitted : HistoryArchive.AdmittedId longThread := by
  refine admitted_of_ok ?_
  unfold longThread blank padded
  rw [String.toList_ofList]
  decide +kernel

theorem longThread_size : longThread.utf8ByteSize = 3200 := by
  unfold longThread
  rw [size_ascii, List.length_replicate]
  intro c hc
  rw [List.eq_of_mem_replicate hc]
  rfl

theorem tokenLength_long {c : HistoryCursorClaims} (h : c.threadId = longThread) :
    maxSessionCursorTokenBytes < tokenLength c := by
  unfold tokenLength maxSessionCursorTokenBytes
  simp only [h, longThread_size]
  omega

end Sample

open HistoryArchive in
/-- A session is admitted under an id of any length. Its history has no page with more behind it when the id does not
fit into a cursor. -/
theorem history_paging_long :
    AdmittedId Sample.longThread ∧
    @HistoryArchive.new Sample.serde Sample.longThread "s" [Sample.note "a", Sample.note "b"] none =
      .ok Sample.longItems ∧
    @HistoryArchive.page Sample.longCodec Sample.pageSerde Sample.longItems "o" (lastItem Sample.longThread)
      ⟨10, fun _ => 10⟩ = .error (.invalidProjection "Session cursor token exceeds the wire limit") := by
  have hnew : @HistoryArchive.new Sample.serde Sample.longThread "s" [Sample.note "a", Sample.note "b"] none =
      .ok Sample.longItems := rfl
  refine ⟨Sample.longThread_admitted, hnew, ?_⟩
  have hretains := (@retains_new Sample.serde _ _ _ _ _ hnew).1
  refine @page_too_long Sample.longCodec Sample.pageSerde Sample.serde _ _ "o" hretains _ Sample.longThread_admitted
    (by decide) (by decide) ?_
  show maxSessionCursorTokenBytes < (String.ofList (List.replicate (Sample.tokenLength _) 'A')).utf8ByteSize
  rw [Sample.size_ascii, List.length_replicate]
  · exact Sample.tokenLength_long rfl
  · intro c hc
    rw [List.eq_of_mem_replicate hc]
    rfl

end Whale
