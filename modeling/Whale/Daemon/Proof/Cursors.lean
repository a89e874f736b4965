import Whale.Daemon.Cursors
import Whale.Daemon.Proof.Paging

/-!
# Cursors cannot be forged

Two authenticated messages are equal only if their domains, owners and payloads are (`frame_inj`), so a tag of the
key belongs to one of each. With an ideal HMAC-SHA256 (`LawfulCursorKey`) a token that verifies for an owner is a
token of that owner and domain, and its claims are those that were encoded. Every token that a request returns is one
that `encode` made (`issued_list`, `issued_history`), which is the invariant of a run.
-/

namespace Whale

open Check

/-- What the code relies on: HMAC-SHA256 has no collisions, its tags are not empty, and base64 without padding can be
read back and has no dot. -/
class LawfulCursorKey [CursorKey] : Prop where
  collisionFree : ∀ message message' : List UInt8, CursorKey.hmacSha256 CursorKey.key message =
    CursorKey.hmacSha256 CursorKey.key message' → message = message'
  tag_ne_nil : ∀ message, CursorKey.hmacSha256 CursorKey.key message ≠ []
  decoded : ∀ bytes, CursorKey.decode64 (CursorKey.encode64 bytes) = some bytes
  plain : ∀ bytes, '.' ∉ (CursorKey.encode64 bytes).toList
  written : ∀ bytes, bytes ≠ [] → (CursorKey.encode64 bytes).toList ≠ []

/-- What the code relies on: a JSON text is not empty and can be read back. -/
class LawfulClaims (κ : Type) [ClaimsSerde κ] : Prop where
  written : ∀ (claims : κ) payload, ClaimsSerde.toVec claims = .ok payload → payload ≠ []
  read : ∀ (claims : κ) payload, ClaimsSerde.toVec claims = .ok payload →
    ClaimsSerde.fromSlice payload = some claims

/-! ## Frames -/

/-- Up to the first separator there is one way to read a list. -/
theorem append_separator_inj {α : Type} {sep : α} {l l' r r' : List α} (hl : sep ∉ l) (hl' : sep ∉ l')
    (h : l ++ sep :: r = l' ++ sep :: r') : l = l' ∧ r = r' := by
  induction l generalizing l' with
  | nil =>
    cases l' with
    | nil => exact ⟨rfl, (List.cons.inj h).2⟩
    | cons a l' =>
      obtain ⟨rfl, -⟩ := List.cons.inj h
      exact absurd List.mem_cons_self hl'
  | cons a l ih =>
    cases l' with
    | nil =>
      obtain ⟨rfl, -⟩ := List.cons.inj h
      exact absurd List.mem_cons_self hl
    | cons a' l' =>
      obtain ⟨rfl, hrest⟩ := List.cons.inj h
      obtain ⟨rfl, rfl⟩ := ih (fun hmem => hl (List.mem_cons_of_mem _ hmem))
        (fun hmem => hl' (List.mem_cons_of_mem _ hmem)) hrest
      exact ⟨rfl, rfl⟩

theorem utf8_inj {a b : String} (h : utf8 a = utf8 b) : a = b := by
  unfold utf8 at h
  refine String.toByteArray_inj.mp ?_
  exact ByteArray.ext (Array.toList_inj.mp h)

/-- The two domains have no separator, and they are not the same. -/
theorem CursorKind.domains : 0 ∉ list.domain ∧ 0 ∉ history.domain ∧ list.domain ≠ history.domain := by
  decide +kernel

theorem CursorKind.clean (kind : CursorKind) : 0 ∉ kind.domain := by
  cases kind with
  | list => exact domains.1
  | history => exact domains.2.1

theorem CursorKind.domain_inj {kind kind' : CursorKind} (h : kind.domain = kind'.domain) : kind = kind' := by
  cases kind <;> cases kind'
  · rfl
  · exact absurd h domains.2.2
  · exact absurd h.symm domains.2.2
  · rfl

namespace CursorKey

/-- The authenticated bytes tell the domain, the owner and the payload. -/
theorem frame_inj {kind kind' : CursorKind} {owner owner' : String} {payload payload' : List UInt8}
    (hclean : 0 ∉ utf8 owner) (hclean' : 0 ∉ utf8 owner')
    (h : frame kind.domain owner payload = frame kind'.domain owner' payload') :
    kind = kind' ∧ owner = owner' ∧ payload = payload' := by
  obtain ⟨hdomain, hrest⟩ := append_separator_inj kind.clean kind'.clean h
  obtain ⟨howner, hpayload⟩ := append_separator_inj hclean hclean' hrest
  exact ⟨CursorKind.domain_inj hdomain, utf8_inj howner, hpayload⟩

/-! ## Tokens -/

variable [CursorKey]

/-- The parts of a token that was made. -/
theorem parts_sign [LawfulCursorKey] {domain payload : List UInt8} {owner : String} (hsome : payload ≠ []) :
    parts (sign domain owner payload) = some (payload, tag domain owner payload) := by
  have htag : tag domain owner payload ≠ [] := LawfulCursorKey.tag_ne_nil _
  have hsplit : (sign domain owner payload).toList.splitOn '.' =
      [(encode64 payload).toList, (encode64 (tag domain owner payload)).toList] := by
    have hlist : (sign domain owner payload).toList =
        (encode64 payload).toList ++ '.' :: (encode64 (tag domain owner payload)).toList := by
      unfold sign
      simp
    rw [hlist, List.splitOn_append_cons_self_of_not_mem (LawfulCursorKey.plain _),
      List.splitOn_eq_singleton (LawfulCursorKey.plain _)]
  unfold parts
  rw [hsplit]
  have h1 := LawfulCursorKey.written _ hsome
  have h2 := LawfulCursorKey.written _ htag
  simp [h1, h2, LawfulCursorKey.decoded]

section
variable {κ : Type} [ClaimsSerde κ]

theorem encode_ok_iff {domain : List UInt8} {owner token : String} {claims : κ} :
    encode domain owner claims = .ok token ↔ ∃ payload, ClaimsSerde.toVec claims = .ok payload ∧
      token = sign domain owner payload ∧ token.utf8ByteSize ≤ maxSessionCursorTokenBytes := by
  unfold encode
  cases hvec : ClaimsSerde.toVec claims with
  | error e => simp [Except.mapError, error_bind]
  | ok payload =>
    simp only [Except.mapError, ok_bind]
    constructor
    · intro h
      obtain ⟨hsize, h⟩ := refuse_bind_ok h
      cases h
      exact ⟨payload, rfl, rfl, by simpa using hsize⟩
    · rintro ⟨payload', hpayload, rfl, hsize⟩
      cases hpayload
      rw [refuse_bind_ok_iff]
      exact ⟨by simpa using hsize, rfl⟩

theorem verify_iff {domain : List UInt8} {owner token : String} {claims : κ} :
    verify domain owner token = some claims ↔ ∃ payload, parts token = some (payload, tag domain owner payload) ∧
      ClaimsSerde.fromSlice payload = some claims := by
  unfold verify
  constructor
  · intro h
    obtain ⟨⟨payload, presented⟩, hparts, h⟩ := Option.bind_eq_some_iff.mp h
    by_cases htag : tag domain owner payload = presented
    · refine ⟨payload, htag ▸ hparts, ?_⟩
      simpa [htag] using h
    · simp [htag] at h
  · rintro ⟨payload, hparts, hread⟩
    rw [hparts]
    simp [guard, hread]

/-- A token that was made can be read back. -/
theorem decode_encode [LawfulCursorKey] [LawfulClaims κ] {domain : List UInt8} {owner token : String} {claims : κ}
    (h : encode domain owner claims = .ok token) : decode domain owner token = some claims := by
  obtain ⟨payload, hvec, rfl, hsize⟩ := encode_ok_iff.mp h
  unfold decode
  rw [if_neg (Nat.not_lt.mpr hsize)]
  exact verify_iff.mpr ⟨payload, parts_sign (LawfulClaims.written _ _ hvec), LawfulClaims.read _ _ hvec⟩

end

end CursorKey

/-! ## What the requests return -/

/-- An empty token is not valid. -/
theorem validateToken_empty (name : String) : validateToken "" name ≠ .ok () := by
  intro h
  unfold validateToken at h
  obtain ⟨_, hidentity, -⟩ := bind_ok h
  unfold validateIdentityV2 at hidentity
  cases refuse_ok hidentity

section
variable [CursorCodec ListCursorClaims] [ListSerde] [External]

/-- The cursor of a page is one that `list_cursor` made. -/
theorem SessionManagementRegistry.listPage_made {r : SessionManagementRegistry} {owner token : String}
    {params : ListSessionsParams} {claims : Option ListCursorClaims} {clock : ListClock} {page : ListSessionsResult}
    (hpage : r.listPage owner params claims clock = .ok page) (hnext : page.nextCursor = some token) :
    ∃ generation after through now, listCursor owner generation after through now = .ok token := by
  unfold SessionManagementRegistry.listPage at hpage
  obtain ⟨-, hpage⟩ := refuse_bind_ok hpage
  obtain ⟨⟨generation, after, through⟩, -, hpage⟩ := bind_ok hpage
  obtain ⟨⟨result, last⟩, hfill, hpage⟩ := bind_ok hpage
  obtain ⟨page', hcursor, hpage⟩ := bind_ok hpage
  obtain ⟨_, -, hpage⟩ := bind_ok hpage
  cases hpage
  unfold finishListPage at hcursor
  split at hcursor
  · cases hcursor
    cases hnext
  · split at hcursor
    · rename_i hend
      cases hcursor
      obtain ⟨k, hfilled, -⟩ := fillListPage_ok hfill
      cases k with
      | zero =>
        obtain ⟨rfl, -⟩ := hfilled.none rfl
        cases hnext
      | succ j =>
        obtain ⟨entry, -, hmade, -⟩ := hfilled.some j rfl
        rw [hnext] at hmade
        unfold nextListCursor at hmade
        rw [if_pos hend] at hmade
        cases hmade
    · obtain ⟨cursor, hlist, hcursor⟩ := bind_ok hcursor
      cases hcursor
      cases hnext
      exact ⟨_, _, _, _, hlist⟩

end

namespace HistoryArchive

section
variable [CursorCodec HistoryCursorClaims]

/-- The cursor of a result is that of a position. -/
def Made (a : HistoryArchive) (owner : String) (result : GetSessionHistoryResult) : Prop :=
  ∃ start through now, a.pageCursor owner start through now = .ok result.nextCursor

theorem result_made {a : HistoryArchive} {owner : String} {start endIndex through now : Nat}
    {items : List CanonicalItem} {result : GetSessionHistoryResult}
    (h : a.result owner start endIndex through now items = .ok result) : a.Made owner result := by
  obtain ⟨cursor, hcursor, h⟩ := bind_ok h
  cases h
  exact ⟨_, _, _, hcursor⟩

variable [HistorySerde]

theorem fillPage_made {a : HistoryArchive} {owner : String} {before through limit : Nat} {turn : Nat → Nat} :
    ∀ {start : Nat} {items items' : List CanonicalItem} {accepted accepted' : Option GetSessionHistoryResult},
      (∀ result ∈ accepted, a.Made owner result) →
      a.fillPage owner before through limit turn start items accepted = .ok (items', accepted') →
      ∀ result ∈ accepted', a.Made owner result
  | 0, items, items', accepted, accepted', hmade, hpage => by
    cases hpage
    exact hmade
  | start + 1, items, items', accepted, accepted', hmade, hpage => by
    unfold fillPage at hpage
    split at hpage
    · obtain ⟨candidate, -, hpage⟩ := orElse_bind_ok hpage
      obtain ⟨result, hresult, hpage⟩ := bind_ok hpage
      obtain ⟨n, -, hpage⟩ := bind_ok hpage
      split at hpage
      · split at hpage
        · cases hpage
        · cases hpage
          exact hmade
      · refine fillPage_made (fun other hother => ?_) hpage
        cases hother
        exact result_made hresult
    · cases hpage
      exact hmade

/-- The cursor of a page is that of a position. -/
theorem page_made {a : HistoryArchive} {owner : String} {params : GetSessionHistoryParams} {clock : PageClock}
    {result : GetSessionHistoryResult} (hpage : a.page owner params clock = .ok result) : a.Made owner result := by
  obtain ⟨_, -, hpage⟩ := bind_ok hpage
  obtain ⟨⟨through, before⟩, -, hpage⟩ := bind_ok hpage
  obtain ⟨-, hpage⟩ := refuse_bind_ok hpage
  obtain ⟨-, hpage⟩ := refuse_bind_ok hpage
  obtain ⟨⟨items, accepted⟩, hfill, hpage⟩ := bind_ok hpage
  obtain ⟨last, hlast, hpage⟩ := bind_ok hpage
  obtain ⟨_, -, hpage⟩ := bind_ok hpage
  cases hpage
  cases accepted with
  | none => exact result_made hlast
  | some accepted =>
    cases hlast
    exact fillPage_made (fun _ h => by cases h) hfill _ rfl

end

end HistoryArchive

/-! ## Releases -/

section
variable [CursorKey]

/-- `encode` made the token, for an owner without a NUL. -/
def Release.Issued [ClaimsSerde ListCursorClaims] [ClaimsSerde HistoryCursorClaims] (r : Release) : Prop :=
  0 ∉ utf8 r.owner ∧ ∃ claims : r.kind.Claims, CursorKey.encode r.kind.domain r.owner claims = .ok r.token

/-- A codec's token that is valid is one that `encode` made. -/
theorem CursorKey.encode_codec {κ : Type} [ClaimsSerde κ] {domain : List UInt8} {owner token name : String}
    {claims : κ} (hencode : @CursorCodec.encode κ (CursorKey.codec domain) owner claims = .ok token)
    (hvalid : validateToken token name = .ok ()) : CursorKey.encode domain owner claims = .ok token := by
  obtain ⟨hsize, htoken⟩ := refuse_bind_ok hencode
  cases htoken
  cases hvec : ClaimsSerde.toVec claims with
  | error e =>
    simp only [CursorCodec.token, hvec] at hvalid
    exact absurd hvalid (validateToken_empty _)
  | ok payload =>
    refine CursorKey.encode_ok_iff.mpr ⟨payload, hvec, ?_, by simpa using hsize⟩
    simp only [CursorCodec.token, hvec]

theorem listCursor_issued [ClaimsSerde ListCursorClaims] {owner token : String} {generation after through now : Nat}
    (h : listCursor owner generation after through now = .ok token) :
    ∃ claims : ListCursorClaims, CursorKey.encode CursorKind.list.domain owner claims = .ok token := by
  obtain ⟨expiresAtMs, -, h⟩ := bind_ok h
  obtain ⟨token', hencode, h⟩ := bind_ok h
  obtain ⟨_, hvalid, h⟩ := bind_ok h
  cases h
  exact ⟨_, CursorKey.encode_codec hencode (mapError_ok_iff.mp hvalid)⟩

theorem pageCursor_issued [ClaimsSerde HistoryCursorClaims] {a : HistoryArchive} {owner token : String} {start through now : Nat}
    (h : a.pageCursor owner start through now = .ok (some token)) :
    ∃ claims : HistoryCursorClaims, CursorKey.encode CursorKind.history.domain owner claims = .ok token := by
  unfold HistoryArchive.pageCursor at h
  split at h
  · obtain ⟨expiresAtMs, -, h⟩ := bind_ok h
    obtain ⟨token', hencode, h⟩ := bind_ok h
    obtain ⟨_, hvalid, h⟩ := bind_ok h
    cases h
    exact ⟨_, CursorKey.encode_codec hencode (mapError_ok_iff.mp hvalid)⟩
  · cases h

/-! ## Runs -/

variable [ClaimsSerde ListCursorClaims] [ClaimsSerde HistoryCursorClaims]

theorem issued_list [External] [SnapshotSerde] [ListSerde] {r : SessionManagementRegistry}
    {limits : ManagementLimits} {owner : String} {params : ListSessionsParams} {clock : ListClock}
    (hclean : 0 ∉ utf8 owner) :
    ∀ release ∈ listReleases owner (r.listSessions limits owner params clock).2, release.Issued := by
  intro release hrelease
  generalize hanswer : r.listSessions limits owner params clock = answer at hrelease
  obtain ⟨r', result⟩ := answer
  cases result with
  | error e => cases hrelease
  | ok page =>
    obtain ⟨token, htoken, rfl⟩ := List.mem_map.mp hrelease
    obtain ⟨-, claims, -, hpage⟩ := SessionManagementRegistry.listSessions_ok hanswer
    obtain ⟨_, _, _, _, hmade⟩ := SessionManagementRegistry.listPage_made hpage (Option.mem_toList.mp htoken)
    exact ⟨hclean, listCursor_issued hmade⟩

theorem issued_history [HistorySerde] {a : HistoryArchive} {owner : String} {params : GetSessionHistoryParams}
    {clock : PageClock} (hclean : 0 ∉ utf8 owner) :
    ∀ release ∈ historyReleases owner (a.page owner params clock), release.Issued := by
  intro release hrelease
  generalize hanswer : a.page owner params clock = answer at hrelease
  cases answer with
  | error e => cases hrelease
  | ok page =>
    obtain ⟨token, htoken, rfl⟩ := List.mem_map.mp hrelease
    obtain ⟨_, _, _, hmade⟩ := HistoryArchive.page_made hanswer
    rw [Option.mem_toList.mp htoken] at hmade
    exact ⟨hclean, pageCursor_issued hmade⟩

/-- Every token that was released is one that `encode` made. -/
theorem CursorStep.issued [External] [SnapshotSerde] [ListSerde] [HistorySerde] {released released' : List Release}
    (hs : CursorStep released released') (h : ∀ r ∈ released, r.Issued) : ∀ r ∈ released', r.Issued := by
  cases hs with
  | list r limits owner params clock clean =>
    exact fun release hrelease => (List.mem_append.mp hrelease).elim (h release) (issued_list clean release)
  | history a owner params clock clean =>
    exact fun release hrelease => (List.mem_append.mp hrelease).elim (h release) (issued_history clean release)

variable [LawfulCursorKey] [LawfulClaims ListCursorClaims] [LawfulClaims HistoryCursorClaims]

instance (kind : CursorKind) : LawfulClaims kind.Claims :=
  match kind with
  | .list => inferInstanceAs (LawfulClaims ListCursorClaims)
  | .history => inferInstanceAs (LawfulClaims HistoryCursorClaims)

omit [ClaimsSerde ListCursorClaims] [ClaimsSerde HistoryCursorClaims] [LawfulClaims ListCursorClaims]
  [LawfulClaims HistoryCursorClaims] in
/-- A token that verifies, with the tag of one that was made, has its domain, owner and payload. -/
theorem CursorKey.sign_unique {kind kind' : CursorKind} {owner owner' : String} {payload payload' : List UInt8}
    (hclean : 0 ∉ utf8 owner) (hclean' : 0 ∉ utf8 owner')
    (h : tag kind.domain owner payload = tag kind'.domain owner' payload') :
    kind = kind' ∧ owner = owner' ∧ payload = payload' :=
  frame_inj hclean hclean' (LawfulCursorKey.collisionFree _ _ h)

/-- An unforged token that is accepted for an owner was released to that owner, for its claims. -/
theorem Unforged.issued {released : List Release} (h : ∀ r ∈ released, r.Issued) (kind : CursorKind)
    {owner token : String} (hclean : 0 ∉ utf8 owner) (hunforged : Unforged released token) {claims : kind.Claims}
    (hdecode : CursorKey.decode kind.domain owner token = some claims) :
    ∃ token', ⟨kind, owner, token'⟩ ∈ released ∧ CursorKey.encode kind.domain owner claims = .ok token' := by
  unfold CursorKey.decode at hdecode
  split at hdecode
  · cases hdecode
  obtain ⟨payload, hparts, hread⟩ := CursorKey.verify_iff.mp hdecode
  obtain ⟨⟨kind', owner', token'⟩, hr, payload', hparts'⟩ := hunforged _ _ hparts ⟨_, rfl⟩
  obtain ⟨hclean', claims', hencode⟩ := h _ hr
  dsimp only at hclean' hencode
  obtain ⟨made, hvec, rfl, -⟩ := CursorKey.encode_ok_iff.mp hencode
  rw [CursorKey.parts_sign (LawfulClaims.written _ _ hvec)] at hparts'
  obtain ⟨-, htag⟩ := Prod.mk.inj (Option.some.inj hparts')
  obtain ⟨rfl, rfl, rfl⟩ := CursorKey.sign_unique hclean' hclean htag
  rw [LawfulClaims.read _ _ hvec] at hread
  cases hread
  exact ⟨_, hr, hencode⟩

end

/-- **Cursors cannot be forged.** A token that was made is read back as its claims; the authenticated bytes tell the
domain, the owner and the payload, so a token that was made is accepted only for its domain and owner, and as its
claims; and whatever a client presents in a run, claims that `list_sessions` or a page of the history accepts are
those of a token that was released to this owner, with a position at most the end of their window. -/
theorem cursor_tokens_unforgeable [CursorKey] [LawfulCursorKey] [ClaimsSerde ListCursorClaims]
    [LawfulClaims ListCursorClaims] [ClaimsSerde HistoryCursorClaims] [LawfulClaims HistoryCursorClaims] [External]
    [SnapshotSerde] [ListSerde] [HistorySerde] {labels : List Unit} {released : List Release}
    (run : Lts.Run (fun released (_ : Unit) released' => CursorStep released released') [] labels released) :
    (∀ (κ : Type) [ClaimsSerde κ] [LawfulClaims κ] domain owner (claims : κ) token,
      CursorKey.encode domain owner claims = .ok token → CursorKey.decode domain owner token = some claims) ∧
    (∀ (kind kind' : CursorKind) owner owner' payload payload', 0 ∉ utf8 owner → 0 ∉ utf8 owner' →
      CursorKey.frame kind.domain owner payload = CursorKey.frame kind'.domain owner' payload' →
      kind = kind' ∧ owner = owner' ∧ payload = payload') ∧
    (∀ (kind kind' : CursorKind) owner owner' (claims : kind.Claims) (claims' : kind'.Claims) token,
      0 ∉ utf8 owner → 0 ∉ utf8 owner' → CursorKey.encode kind.domain owner claims = .ok token →
      CursorKey.decode kind'.domain owner' token = some claims' →
      kind = kind' ∧ owner = owner' ∧ HEq claims claims') ∧
    (∀ (kind : CursorKind) owner (claims : kind.Claims) token, 0 ∉ utf8 owner → Unforged released token →
      CursorKey.decode kind.domain owner token = some claims →
      ∃ token', ⟨kind, owner, token'⟩ ∈ released ∧ CursorKey.encode kind.domain owner claims = .ok token') ∧
    (∀ owner params now claims, 0 ∉ utf8 owner → (∀ cursor ∈ params.cursor, Unforged released cursor) →
      listClaims owner params now = .ok (some claims) → claims.afterOrdinal ≤ claims.throughOrdinal ∧
      ∃ token, ⟨.list, owner, token⟩ ∈ released ∧ CursorKey.encode CursorKind.list.domain owner claims = .ok token) ∧
    (∀ (a : HistoryArchive) owner params now cursor window, 0 ∉ utf8 owner → params.cursor = some cursor →
      Unforged released cursor → a.window owner params now = .ok window →
      ∃ claims : HistoryCursorClaims, window = (claims.through, claims.before) ∧ claims.before ≤ claims.through ∧
        ∃ token, ⟨.history, owner, token⟩ ∈ released ∧
          CursorKey.encode CursorKind.history.domain owner claims = .ok token) := by
  have hissued := run.invariant (fun released => ∀ r ∈ released, r.Issued) (fun _ _ _ h hs => hs.issued h)
    (fun r hr => by cases hr)
  refine ⟨fun κ _ _ domain owner claims token h => CursorKey.decode_encode h,
    fun kind kind' owner owner' payload payload' hclean hclean' h => CursorKey.frame_inj hclean hclean' h,
    fun kind kind' owner owner' claims claims' token hclean hclean' hencode hdecode => ?_,
    fun kind owner claims token hclean hunforged hdecode => hunforged.issued hissued kind hclean hdecode,
    fun owner params now claims hclean hunforged hclaims => ?_,
    fun a owner params now cursor window hclean hcursor hunforged hwindow => ?_⟩
  · unfold CursorKey.decode at hdecode
    split at hdecode
    · cases hdecode
    obtain ⟨payload, hparts, hread⟩ := CursorKey.verify_iff.mp hdecode
    obtain ⟨made, hvec, rfl, -⟩ := CursorKey.encode_ok_iff.mp hencode
    rw [CursorKey.parts_sign (LawfulClaims.written _ _ hvec)] at hparts
    obtain ⟨rfl, htag⟩ := Prod.mk.inj (Option.some.inj hparts)
    obtain ⟨rfl, rfl, -⟩ := CursorKey.sign_unique hclean hclean' htag
    rw [LawfulClaims.read _ _ hvec] at hread
    cases hread
    exact ⟨rfl, rfl, HEq.rfl⟩
  · unfold listClaims at hclaims
    split at hclaims
    · cases hclaims
    · rename_i cursor hcursor
      obtain ⟨claims', hdecode, hclaims⟩ := orElse_bind_ok hclaims
      obtain ⟨hshape, hclaims⟩ := refuse_bind_ok hclaims
      obtain ⟨-, hclaims⟩ := refuse_bind_ok hclaims
      cases hclaims
      refine ⟨?_, (hunforged cursor hcursor).issued hissued .list hclean hdecode⟩
      simp only [ListCursorClaims.validShape, Bool.not_eq_false', Bool.and_eq_true, decide_eq_true_eq] at hshape
      exact hshape.2
  · unfold HistoryArchive.window at hwindow
    rw [hcursor] at hwindow
    obtain ⟨claims, hdecode, hwindow⟩ := orElse_bind_ok hwindow
    obtain ⟨hshape, hwindow⟩ := refuse_bind_ok hwindow
    obtain ⟨-, hwindow⟩ := refuse_bind_ok hwindow
    obtain ⟨-, hwindow⟩ := refuse_bind_ok hwindow
    obtain ⟨-, hwindow⟩ := refuse_bind_ok hwindow
    cases hwindow
    refine ⟨claims, rfl, ?_, hunforged.issued hissued .history hclean hdecode⟩
    simp only [HistoryCursorClaims.validShape, Bool.or_eq_false_iff, Bool.not_eq_false', Bool.and_eq_true,
      decide_eq_true_eq] at hshape
    exact hshape.1.1.1.2

/-! ## A cursor behind the first of two sessions -/

open SessionManagementRegistry in
/-- A page of one entry with more behind it. -/
theorem listPage_one [CursorCodec ListCursorClaims] [ListSerde] [External] {r : SessionManagementRegistry}
    {owner token : String} {params : ListSessionsParams} {clock : ListClock} {ordinal through n : Nat}
    {entry : SessionListEntry} (hparams : params.validate = .ok ())
    (hexhausted : (r.ownerCatalog owner).generationExhausted = false)
    (hthrough : (r.ownerCatalog owner).entries.lastKey.getD 0 = through)
    (hcandidates : (r.listCandidates owner (r.ownerCatalog owner) 0 through).take params.limit = [(ordinal, entry)])
    (hlimit : 1 ≤ params.limit)
    (hvalid : entry.validate = .ok ()) (hmore : ((r.ownerCatalog owner).entries.between ordinal through).isEmpty = false)
    (hturn : listCursor owner (r.ownerCatalog owner).generation ordinal through (clock.turn 0) = .ok token)
    (hlast : listCursor owner (r.ownerCatalog owner).generation ordinal through clock.last = .ok token)
    (htoken : validateListCursor (some token) = .ok ()) (hbytes : ListSerde.listBytes ⟨[entry], some token⟩ = .ok n)
    (hfits : n ≤ maxSessionManagementPageBytes) :
    r.listPage owner params none clock = .ok ⟨[entry], some token⟩ := by
  have hnext : ∀ now, listCursor owner (r.ownerCatalog owner).generation ordinal through now = .ok token →
      nextListCursor owner (r.ownerCatalog owner) (r.ownerCatalog owner).generation ordinal through now =
        .ok (some token) := fun now h => by
    unfold nextListCursor
    rw [hmore, h]
    rfl
  have hfill : fillListPage owner (r.ownerCatalog owner) (r.ownerCatalog owner).generation through clock.turn 0
      [(ordinal, entry)] {} 0 = .ok (⟨[entry], some token⟩, ordinal) := by
    unfold fillListPage
    rw [hnext _ hturn, ok_bind]
    simp only [List.nil_append, hbytes, Except.mapError, ok_bind, if_neg (Nat.not_lt.2 hfits)]
    rfl
  have hfinish : finishListPage owner (r.ownerCatalog owner) (r.ownerCatalog owner).generation through clock.last
      ⟨[entry], some token⟩ ordinal = .ok ⟨[entry], some token⟩ :=
    finishListPage_eq (List.cons_ne_nil _ _) (fun h => absurd h (by rw [hmore]; exact Bool.false_ne_true))
      (hnext _ hlast)
  have hvalidated := validateFor_page hparams hbytes hfits hlimit (by simpa using hvalid) (List.nodup_singleton _)
    htoken
  unfold listPage
  simp only [hexhausted, refuse_false, ok_bind, listWindow, hthrough, hcandidates, hfill, hfinish, hvalidated,
    Except.mapError]

namespace Sample

/-- The alphabet of base64 for URLs. -/
def alphabet64 : List Char := "ABCDEFGHIJKLMNOPQRSTUVWXYZabcdefghijklmnopqrstuvwxyz0123456789-_".toList

def char64 (n : Nat) : Char := alphabet64.getD n 'A'

def value64 (c : Char) : Option Nat := alphabet64.idxOf? c

/-- Base64, without padding. -/
def chars64 : List UInt8 → List Char
  | a :: b :: c :: rest =>
    char64 (a.toNat / 4) :: char64 (a.toNat % 4 * 16 + b.toNat / 16) ::
      char64 (b.toNat % 16 * 4 + c.toNat / 64) :: char64 (c.toNat % 64) :: chars64 rest
  | [a, b] => [char64 (a.toNat / 4), char64 (a.toNat % 4 * 16 + b.toNat / 16), char64 (b.toNat % 16 * 4)]
  | [a] => [char64 (a.toNat / 4), char64 (a.toNat % 4 * 16)]
  | [] => []

/-- The bytes of a text in base64. The bits that are left over are zero. -/
def bytes64 : List Char → Option (List UInt8)
  | w :: x :: y :: z :: rest => do
    let w ← value64 w
    let x ← value64 x
    let y ← value64 y
    let z ← value64 z
    let rest ← bytes64 rest
    some (.ofNat (w * 4 + x / 16) :: .ofNat (x % 16 * 16 + y / 4) :: .ofNat (y % 4 * 64 + z) :: rest)
  | [w, x, y] => do
    let w ← value64 w
    let x ← value64 x
    let y ← value64 y
    if y % 4 = 0 then some [.ofNat (w * 4 + x / 16), .ofNat (x % 16 * 16 + y / 4)] else none
  | [w, x] => do
    let w ← value64 w
    let x ← value64 x
    if x % 16 = 0 then some [.ofNat (w * 4 + x / 16)] else none
  | [_] => none
  | [] => some []

theorem alphabet64_eq : alphabet64 = ['A', 'B', 'C', 'D', 'E', 'F', 'G', 'H', 'I', 'J', 'K', 'L', 'M', 'N', 'O', 'P',
    'Q', 'R', 'S', 'T', 'U', 'V', 'W', 'X', 'Y', 'Z', 'a', 'b', 'c', 'd', 'e', 'f', 'g', 'h', 'i', 'j', 'k', 'l', 'm',
    'n', 'o', 'p', 'q', 'r', 's', 't', 'u', 'v', 'w', 'x', 'y', 'z', '0', '1', '2', '3', '4', '5', '6', '7', '8', '9',
    '-', '_'] :=
  String.toList_ofList

/-- A character that may stand in a token, between two dots. -/
def Plain (c : Char) : Prop := c ≠ '.' ∧ isWhitespace c = false ∧ isControl c = false ∧ c.utf8Size = 1

instance (c : Char) : Decidable (Plain c) := inferInstanceAs (Decidable (_ ∧ _))

theorem char64_spec : ∀ n < 64, value64 (char64 n) = some n ∧ Plain (char64 n) := by
  unfold value64 char64
  rw [alphabet64_eq]
  decide +kernel

theorem value64_char64 (n : Nat) (h : n < 64) : value64 (char64 n) = some n := (char64_spec n h).1

theorem char64_plain (n : Nat) (h : n < 64) : Plain (char64 n) := (char64_spec n h).2

theorem ofNat_eq {n : Nat} {a : UInt8} (h : n = a.toNat) : UInt8.ofNat n = a := by
  rw [h, UInt8.ofNat_toNat]

theorem bytes64_chars64 : ∀ bytes, bytes64 (chars64 bytes) = some bytes
  | a :: b :: c :: rest => by
    have ha := a.toNat_lt
    have hb := b.toNat_lt
    have hc := c.toNat_lt
    unfold chars64 bytes64
    rw [value64_char64 _ (by omega), value64_char64 _ (by omega), value64_char64 _ (by omega),
      value64_char64 _ (by omega), bytes64_chars64 rest]
    simp only [Option.bind_eq_bind, Option.bind_some]
    rw [ofNat_eq (a := a) (by omega), ofNat_eq (a := b) (by omega), ofNat_eq (a := c) (by omega)]
  | [a, b] => by
    have ha := a.toNat_lt
    have hb := b.toNat_lt
    unfold chars64 bytes64
    rw [value64_char64 _ (by omega), value64_char64 _ (by omega), value64_char64 _ (by omega)]
    simp only [Option.bind_eq_bind, Option.bind_some]
    rw [if_pos (by omega), ofNat_eq (a := a) (by omega), ofNat_eq (a := b) (by omega)]
  | [a] => by
    have ha := a.toNat_lt
    unfold chars64 bytes64
    rw [value64_char64 _ (by omega), value64_char64 _ (by omega)]
    simp only [Option.bind_eq_bind, Option.bind_some]
    rw [if_pos (by omega), ofNat_eq (a := a) (by omega)]
  | [] => rfl

theorem chars64_plain : ∀ bytes, ∀ d ∈ chars64 bytes, Plain d
  | a :: b :: c :: rest => by
    have ha := a.toNat_lt
    have hb := b.toNat_lt
    have hc := c.toNat_lt
    unfold chars64
    intro d h
    simp only [List.mem_cons] at h
    rcases h with rfl | rfl | rfl | rfl | h
    · exact char64_plain _ (by omega)
    · exact char64_plain _ (by omega)
    · exact char64_plain _ (by omega)
    · exact char64_plain _ (by omega)
    · exact chars64_plain rest d h
  | [a, b] => by
    have ha := a.toNat_lt
    have hb := b.toNat_lt
    unfold chars64
    intro d h
    simp only [List.mem_cons, List.not_mem_nil, or_false] at h
    rcases h with rfl | rfl | rfl
    · exact char64_plain _ (by omega)
    · exact char64_plain _ (by omega)
    · exact char64_plain _ (by omega)
  | [a] => by
    have ha := a.toNat_lt
    unfold chars64
    intro d h
    simp only [List.mem_cons, List.not_mem_nil, or_false] at h
    rcases h with rfl | rfl
    · exact char64_plain _ (by omega)
    · exact char64_plain _ (by omega)
  | [] => by simp [chars64]

theorem chars64_length : ∀ bytes, (chars64 bytes).length ≤ 2 * bytes.length
  | a :: b :: c :: rest => by
    have := chars64_length rest
    unfold chars64
    simp only [List.length_cons]
    omega
  | [a, b] => by simp [chars64]
  | [a] => by simp [chars64]
  | [] => by simp [chars64]

/-- The claims of the cursor, as JSON. -/
def listedClaims : ListCursorClaims :=
  { generation := 0, afterOrdinal := 1, throughOrdinal := 2, expiresAtMs := 300010 }

def listedPayload : List UInt8 :=
  utf8 ("\x7b\"version\":1,\"kind\":\"session_list\",\"generation\":0,\"after_ordinal\":1," ++
    "\"through_ordinal\":2,\"expires_at_ms\":300010\x7d")

/-- The bytes of the payload and of the owner. -/
class ListedBytes : Prop where
  head : listedPayload.head? = some 123
  tail : listedPayload.tail.length ≤ 120
  clean : 0 ∉ utf8 "o"

instance listed_bytes : ListedBytes where
  head := by decide +kernel
  tail := by decide +kernel
  clean := by decide +kernel

/-- The payload starts with a brace. -/
theorem listedPayload_cons : ∃ rest, listedPayload = 123 :: rest ∧ rest.length ≤ 120 :=
  ⟨listedPayload.tail, (List.cons_head?_tail listed_bytes.head).symm, listed_bytes.tail⟩

/-- The HMAC-SHA256 of the cursor under a key of thirty-two sevens. -/
def listedTag : List UInt8 :=
  [116, 22, 225, 199, 242, 57, 152, 223, 228, 242, 198, 6, 237, 71, 73, 73, 30, 118, 11, 231, 158, 25, 26, 199, 105,
    30, 118, 189, 33, 90, 186, 9]

/-- A process with this key. Any other message is its own tag. -/
@[reducible] def sevens : CursorKey where
  key := List.replicate 32 7
  hmacSha256 _ message :=
    if message = CursorKey.frame CursorKind.list.domain "o" listedPayload then listedTag else 0 :: message
  encode64 bytes := .ofList (chars64 bytes)
  decode64 text := bytes64 text.toList

theorem sevens_lawful : @LawfulCursorKey sevens :=
  letI := sevens
  { collisionFree := fun message message' h => by
      simp only [CursorKey.hmacSha256] at h
      split at h
      · split at h
        · simp_all
        · cases h
      · split at h
        · cases h
        · exact (List.cons.inj h).2
    tag_ne_nil := fun message => by
      simp only [CursorKey.hmacSha256]
      split <;> rintro ⟨⟩
    decoded := fun bytes => by
      simp only [CursorKey.decode64, CursorKey.encode64, String.toList_ofList]
      exact bytes64_chars64 bytes
    plain := fun bytes => by
      simp only [CursorKey.encode64, String.toList_ofList]
      exact fun h => (chars64_plain bytes _ h).1 rfl
    written := fun bytes hsome => by
      simp only [CursorKey.encode64, String.toList_ofList]
      unfold chars64
      split <;> simp_all }

/-- A number as bytes. -/
def numberBytes (n : Nat) : List UInt8 := (Nat.digits 2 n).map UInt8.ofNat

def bytesNumber (bytes : List UInt8) : Nat := Nat.ofDigits 2 (bytes.map UInt8.toNat)

theorem bytesNumber_numberBytes (n : Nat) : bytesNumber (numberBytes n) = n := by
  unfold bytesNumber numberBytes
  have hdigits : ((Nat.digits 2 n).map UInt8.ofNat).map UInt8.toNat = Nat.digits 2 n := by
    rw [List.map_map]
    refine (List.map_congr_left fun d hd => ?_).trans (List.map_id _)
    have hlt := Nat.digits_lt_base (by decide) hd
    simp only [Function.comp_apply, id_eq, UInt8.toNat_ofNat']
    omega
  rw [hdigits, Nat.ofDigits_digits]

/-- The claims of the cursor are their JSON, any others their numbers as one. -/
@[reducible] def listClaimsSerde : ClaimsSerde ListCursorClaims where
  toVec c :=
    if c = listedClaims then .ok listedPayload
    else .ok (0 :: numberBytes (Nat.pair (Nat.pair c.version (idNumber c.kind))
      (Nat.pair (Nat.pair c.generation c.afterOrdinal) (Nat.pair c.throughOrdinal c.expiresAtMs))))
  fromSlice
    | 0 :: rest =>
      let n := bytesNumber rest
      some ⟨n.unpair.1.unpair.1, idOf n.unpair.1.unpair.2, n.unpair.2.unpair.1.unpair.1, n.unpair.2.unpair.1.unpair.2,
        n.unpair.2.unpair.2.unpair.1, n.unpair.2.unpair.2.unpair.2⟩
    | payload => if payload = listedPayload then some listedClaims else none

@[reducible] def historyClaimsSerde : ClaimsSerde HistoryCursorClaims where
  toVec c := .ok (0 :: numberBytes (Nat.pair (Nat.pair c.version (idNumber c.kind))
    (Nat.pair (Nat.pair (idNumber c.threadId) (idNumber c.streamId))
      (Nat.pair c.through (Nat.pair c.before c.expiresAtMs)))))
  fromSlice
    | 0 :: rest =>
      let n := bytesNumber rest
      some ⟨n.unpair.1.unpair.1, idOf n.unpair.1.unpair.2, idOf n.unpair.2.unpair.1.unpair.1,
        idOf n.unpair.2.unpair.1.unpair.2, n.unpair.2.unpair.2.unpair.1, n.unpair.2.unpair.2.unpair.2.unpair.1,
        n.unpair.2.unpair.2.unpair.2.unpair.2⟩
    | _ => none

theorem listClaimsSerde_lawful : @LawfulClaims ListCursorClaims listClaimsSerde :=
  letI := listClaimsSerde
  { written := fun c payload h => by
      simp only [ClaimsSerde.toVec] at h
      split at h
      · cases h
        obtain ⟨rest, hrest, -⟩ := listedPayload_cons
        exact hrest ▸ List.cons_ne_nil _ _
      · cases h
        rintro ⟨⟩
    read := fun c payload h => by
      simp only [ClaimsSerde.toVec] at h
      split at h
      · cases h
        subst_vars
        obtain ⟨rest, hrest, -⟩ := listedPayload_cons
        simp only [ClaimsSerde.fromSlice]
        split
        · rename_i hzero
          rw [hrest] at hzero
          exact absurd (List.cons.inj hzero).1 (by decide)
        · exact if_pos rfl
      · cases h
        simp only [ClaimsSerde.fromSlice, bytesNumber_numberBytes, Nat.unpair_pair, idOf_idNumber] }

theorem historyClaimsSerde_lawful : @LawfulClaims HistoryCursorClaims historyClaimsSerde :=
  letI := historyClaimsSerde
  { written := fun c payload h => by
      cases h
      rintro ⟨⟩
    read := fun c payload h => by
      cases h
      simp only [ClaimsSerde.fromSlice, bytesNumber_numberBytes, Nat.unpair_pair, idOf_idNumber] }

/-- What the first page of two sessions releases. -/
def listedReleases : List Release :=
  letI := sevens
  letI := listClaimsSerde
  listReleases "o" (@SessionManagementRegistry.listSessions signedList listSerde host snapshots twoSessions {} "o"
    ⟨none, 1⟩ (stillAt 10)).2

theorem listed_tag : @CursorKey.tag sevens CursorKind.list.domain "o" listedPayload = listedTag := by
  unfold CursorKey.tag
  simp only [CursorKey.hmacSha256, if_true]

/-- The token of the claims. -/
def listedToken : String := .ofList (chars64 listedPayload ++ '.' :: chars64 listedTag)

theorem listed_sign : @CursorKey.sign sevens CursorKind.list.domain "o" listedPayload = listedToken := by
  unfold CursorKey.sign listedToken
  rw [listed_tag]
  simp only [CursorKey.encode64]
  rw [String.append_assoc, show "." = String.ofList ['.'] from rfl, ← String.ofList_append,
    ← String.ofList_append, List.singleton_append]

theorem listed_plain {c : Char} (h : c ∈ chars64 listedPayload ++ '.' :: chars64 listedTag) :
    isWhitespace c = false ∧ isControl c = false ∧ c.utf8Size = 1 := by
  rw [List.mem_append, List.mem_cons] at h
  rcases h with h | rfl | h
  · exact (chars64_plain _ c h).2
  · exact ⟨rfl, rfl, rfl⟩
  · exact (chars64_plain _ c h).2

theorem listed_short : listedToken.utf8ByteSize ≤ 400 := by
  have hpayload := chars64_length listedPayload
  have htag := chars64_length listedTag
  obtain ⟨rest, hrest, hlength⟩ := listedPayload_cons
  have hlength' : listedTag.length = 32 := rfl
  unfold listedToken
  rw [size_ascii fun c h => (listed_plain h).2.2, List.length_append, List.length_cons]
  rw [hrest, List.length_cons] at hpayload
  rw [hrest]
  omega

theorem listed_printable (name : String) : validateIdentityV2 listedToken name = .ok () := by
  unfold validateIdentityV2 blank padded listedToken
  rw [String.toList_ofList, refuse_ok_iff, Bool.or_eq_false_iff, Bool.or_eq_false_iff, Bool.or_eq_false_iff,
    Option.any_eq_false, Option.any_eq_false, List.all_eq_false, List.any_eq_false]
  refine ⟨⟨⟨'.', List.mem_append_right _ List.mem_cons_self, by decide⟩, ?_, ?_⟩, ?_⟩
  · exact fun c h => by simpa using (listed_plain (List.mem_of_mem_head? h)).1
  · exact fun c h => by simpa using (listed_plain (List.mem_of_getLast? h)).1
  · exact fun c h => by simpa using (listed_plain h).2.1

theorem listed_valid (name : String) : validateToken listedToken name = .ok () := by
  unfold validateToken
  rw [listed_printable, ok_bind, decide_eq_false (Nat.not_lt.2 (listed_short.trans (by decide)))]
  rfl

theorem listed_cursor : @listCursor (@signedList sevens listClaimsSerde) "o" 0 1 2 10 = .ok listedToken := by
  let _ := sevens
  let _ := listClaimsSerde
  have htoken : CursorCodec.token "o" listedClaims = listedToken := listed_sign
  have hexpiry : CursorCodec.expiry 10 = .ok 300010 := rfl
  unfold listCursor
  rw [hexpiry, ok_bind]
  show CursorCodec.encode "o" listedClaims >>= _ = _
  rw [CursorCodec.encode_ok (htoken ▸ listed_short.trans (by decide)), ok_bind, htoken, listed_valid]
  rfl

/-- The sessions that the request finds. -/
def listedSessions : SessionManagementRegistry :=
  @SessionManagementRegistry.pruneOwner snapshots twoSessions {} 10 "o" none

/-- What the catalog of the two sessions holds. -/
class ListedCatalog : Prop where
  exhausted : (listedSessions.ownerCatalog "o").generationExhausted = false
  generation : (listedSessions.ownerCatalog "o").generation = 0
  through : (listedSessions.ownerCatalog "o").entries.lastKey.getD 0 = 2
  more : ((listedSessions.ownerCatalog "o").entries.between 1 2).isEmpty = false
  entries : ((listedSessions.listCandidates "o" (listedSessions.ownerCatalog "o") 0 2).take 1).map
    (fun c => (c.1, (@SessionListEntry.validate host c.2).isOk)) = [(1, true)]

instance listed_catalog : ListedCatalog where
  exhausted := by decide +kernel
  generation := by decide +kernel
  through := by decide +kernel
  more := by decide +kernel
  entries := by decide +kernel

theorem listed_candidates : ∃ entry, @SessionListEntry.validate host entry = .ok () ∧
    (listedSessions.listCandidates "o" (listedSessions.ownerCatalog "o") 0 2).take 1 = [(1, entry)] := by
  obtain ⟨⟨ordinal, entry⟩, htake, hc⟩ := List.map_eq_singleton_iff.1 listed_catalog.entries
  obtain ⟨rfl, hok⟩ := Prod.mk.inj hc
  refine ⟨entry, ?_, htake⟩
  cases hv : @SessionListEntry.validate host entry with
  | ok _ => rfl
  | error e =>
    rw [hv] at hok
    cases hok

theorem listBytes_one (entry : SessionListEntry) (token : String) :
    @ListSerde.listBytes listSerde ⟨[entry], some token⟩ = .ok (15 + 400 * 1 + (16 + token.utf8ByteSize)) := rfl

theorem listedReleases_eq : ∃ token, listedReleases = [⟨.list, "o", token⟩] := by
  let _ := sevens
  let _ := listClaimsSerde
  let _ := host
  let _ := snapshots
  let _ := listSerde
  obtain ⟨entry, hvalid, hcandidates⟩ := listed_candidates
  obtain ⟨hexhausted, hgeneration, hthrough, hmore, -⟩ := listed_catalog
  have hcursor : listCursor "o" (listedSessions.ownerCatalog "o").generation 1 2 10 = .ok listedToken :=
    hgeneration ▸ listed_cursor
  have hfits : 15 + 400 * 1 + (16 + listedToken.utf8ByteSize) ≤ maxSessionManagementPageBytes := by
    have := listed_short
    unfold maxSessionManagementPageBytes
    omega
  have hpage : listedSessions.listPage "o" ⟨none, 1⟩ none (stillAt 10) = .ok ⟨[entry], some listedToken⟩ :=
    listPage_one rfl hexhausted hthrough hcandidates (Nat.le_refl 1) hvalid hmore hcursor hcursor (listed_valid _)
      (listBytes_one entry listedToken) hfits
  have hanswer : twoSessions.listSessions {} "o" ⟨none, 1⟩ (stillAt 10) =
      (listedSessions, listedSessions.listPage "o" ⟨none, 1⟩ none (stillAt 10)) :=
    SessionManagementRegistry.listSessions_eq rfl rfl
  refine ⟨listedToken, ?_⟩
  unfold listedReleases
  rw [hanswer, hpage]
  rfl

end Sample

/-- A token that was released can be presented. -/
theorem unforged_of_released [CursorKey] {released : List Release} {r : Release} (h : r ∈ released) :
    Unforged released r.token :=
  fun payload _ hparts _ => ⟨r, h, payload, hparts⟩

/-- The cursor behind the first of two sessions is accepted as what it was made for. -/
theorem cursor_tokens_unforgeable_listed : ∃ claims token, ⟨.list, "o", token⟩ ∈ Sample.listedReleases ∧
    @CursorKey.encode Sample.sevens _ Sample.listClaimsSerde CursorKind.list.domain "o" claims = .ok token ∧
    @CursorKey.decode Sample.sevens _ Sample.listClaimsSerde CursorKind.list.domain "o" token = some claims := by
  let _ := Sample.sevens
  let _ := Sample.listClaimsSerde
  let _ := Sample.historyClaimsSerde
  have := Sample.sevens_lawful
  have := Sample.listClaimsSerde_lawful
  have := Sample.historyClaimsSerde_lawful
  let _ := Sample.host
  let _ := Sample.snapshots
  let _ := Sample.listSerde
  let _ := Sample.pageSerde
  have hclean : 0 ∉ utf8 "o" := Sample.listed_bytes.clean
  have hstep : CursorStep [] _ := CursorStep.list Sample.twoSessions {} "o" ⟨none, 1⟩ (Sample.stillAt 10) hclean
    (fun _ h => by cases h)
  rw [List.nil_append] at hstep
  have hrun : Lts.Run (fun released (_ : Unit) released' => CursorStep released released') [] [()]
      Sample.listedReleases := .single hstep
  obtain ⟨hread, -, -, hreleased, -⟩ := cursor_tokens_unforgeable hrun
  obtain ⟨token, hlisted⟩ := Sample.listedReleases_eq
  have hmem : (⟨.list, "o", token⟩ : Release) ∈ Sample.listedReleases := by
    rw [hlisted]
    exact List.mem_cons_self
  obtain ⟨-, claims, hencode⟩ := issued_list hclean _ hmem
  have hdecode := hread ListCursorClaims _ _ claims token hencode
  obtain ⟨token', hmem', hencode'⟩ := hreleased .list "o" claims token hclean (unforged_of_released hmem) hdecode
  rw [hencode] at hencode'
  cases hencode'
  exact ⟨claims, token, hmem', hencode, hdecode⟩

end Whale
