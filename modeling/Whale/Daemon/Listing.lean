import Whale.Daemon.Catalog
import Whale.Protocol.Paging

/-!
# Listing the sessions of an owner

`list_sessions` with its authenticated cursors (`session_catalog.rs`). The catalog's lock is held through a call,
so a call is one step. It reads the clock when it checks the cursor's expiry, again for every cursor it tries
while it fills the page, and once more for the cursor it returns (`ListClock`).
-/

namespace Whale

open Check

/-- The failures of `SessionManagementFailure` that the paged requests return. -/
inductive PageFailure where
  | management (error : SessionManagementFailure)
  | listCursorInvalid
  | listCursorExpired
  | historyCursorInvalid
  | historyStreamReset (requested current : SessionHistoryAnchor)
  | historyGap (requested floor current : SessionHistoryAnchor)
  | resourceLimit (resource : String) (actual limit : Nat) (itemIndex : Option Nat)
  deriving DecidableEq, Repr

/-- `SessionManagementFailure::InvalidProjection` of a paged request. -/
def PageFailure.invalidProjection (message : String) : PageFailure := .management (.invalidProjection message)

/-! ## Cursors -/

/-- The serialization of claims, their signature under the key of the process, and base64. -/
class CursorCodec (κ : Type) where
  /-- The token of claims for an owner: `base64(payload).base64(tag)`. -/
  token : String → κ → String
  /-- The claims of a token that was signed for the owner. -/
  claims : String → String → Option κ

namespace CursorCodec

/-- `SESSION_MANAGEMENT_CURSOR_TTL_MS`. -/
def ttlMs : Nat := 5 * 60 * 1000

/-- `CursorCodec::expiry`. -/
def expiry (now : Nat) : Except PageFailure Nat :=
  orElse (UsageMetrics.checkedAdd64 now ttlMs) (.invalidProjection "Session cursor expiry is exhausted")

variable {κ : Type} [CursorCodec κ]

/-- `CursorCodec::encode`. -/
def encode (owner : String) (claims : κ) : Except PageFailure String := do
  let token := token owner claims
  refuse (decide (maxSessionCursorTokenBytes < token.utf8ByteSize))
    (.invalidProjection "Session cursor token exceeds the wire limit")
  .ok token

/-- A short token is not refused. -/
theorem encode_ok {owner : String} {c : κ}
    (h : (token owner c).utf8ByteSize ≤ maxSessionCursorTokenBytes) :
    encode owner c = .ok (token owner c) := by
  show (refuse (decide (maxSessionCursorTokenBytes < (token owner c).utf8ByteSize)) _ >>= fun _ => _) = _
  rw [decide_eq_false (Nat.not_lt.2 h)]
  rfl

/-- `CursorCodec::decode`. -/
def decode (owner token : String) : Option κ :=
  if maxSessionCursorTokenBytes < token.utf8ByteSize then none else claims owner token

end CursorCodec

/-- `ListCursorClaims`. -/
structure ListCursorClaims where
  version : Nat := 1
  kind : String := "session_list"
  generation : Nat
  afterOrdinal : Nat
  throughOrdinal : Nat
  expiresAtMs : Nat
  deriving DecidableEq, Repr

/-- `ListCursorClaims::valid_shape`. -/
def ListCursorClaims.validShape (c : ListCursorClaims) : Bool :=
  c.version == 1 && c.kind == "session_list" && decide (c.afterOrdinal ≤ c.throughOrdinal)

/-! ## Entries -/

/-- `list_entry`. -/
def CatalogRecord.listEntry (r : CatalogRecord) : SessionListEntry where
  summary := r.projection.snapshot.summary
  lifecycle := r.projection.snapshot.lifecycle
  persistence := r.projection.snapshot.persistence
  cursor := r.projection.snapshot.cursor
  historyTotalItems := r.history.endIndex
  activeRun := r.projection.snapshot.activeRun.map fun run =>
    ⟨run.snapshot.turnId, run.snapshot.status, run.acceptedAtMs, run.updatedAtMs⟩
  lastRun := r.projection.snapshot.lastRun

/-! ## Pages -/

/-- What a call reads from the clocks: the time of the pruning, the time the cursor's expiry is compared with,
and the times of the cursors it makes. -/
structure ListClock where
  pruned : Nat
  checked : Nat
  turn : Nat → Nat
  last : Nat

section
variable [CursorCodec ListCursorClaims]

/-- `list_cursor`. -/
def listCursor (owner : String) (generation after through now : Nat) : Except PageFailure String := do
  let expiresAtMs ← CursorCodec.expiry now
  let token ← CursorCodec.encode owner
    ({ generation, afterOrdinal := after, throughOrdinal := through, expiresAtMs } : ListCursorClaims)
  (validateToken token "Session list cursor").mapError .invalidProjection
  .ok token

/-- The decoded claims of a request, as far as they can be checked without the catalog. -/
def listClaims (owner : String) (params : ListSessionsParams) (now : Nat) :
    Except PageFailure (Option ListCursorClaims) :=
  match params.cursor with
  | none => .ok none
  | some cursor => do
    let claims ← orElse (CursorCodec.decode owner cursor : Option ListCursorClaims) .listCursorInvalid
    refuse (!claims.validShape) .listCursorInvalid
    refuse (decide (claims.expiresAtMs ≤ now)) .listCursorExpired
    .ok (some claims)

/-- The generation and the window of a request: after one ordinal, through another. -/
def listWindow (state : OwnerCatalogState) : Option ListCursorClaims → Except PageFailure (Nat × Nat × Nat)
  | some claims => do
    refuse (claims.generation != state.generation) .listCursorExpired
    refuse (decide (state.nextOrdinal ≤ claims.throughOrdinal)) .listCursorInvalid
    .ok (claims.generation, claims.afterOrdinal, claims.throughOrdinal)
  | none => .ok (state.generation, 0, state.entries.lastKey.getD 0)

variable [ListSerde]

/-- The cursor behind an ordinal, if there is more in the window. -/
def nextListCursor (owner : String) (state : OwnerCatalogState) (generation ordinal through now : Nat) :
    Except PageFailure (Option String) :=
  if (state.entries.between ordinal through).isEmpty then .ok none
  else do
    let cursor ← listCursor owner generation ordinal through now
    .ok (some cursor)

/-- The loop that fills the page: from its turn on, the candidates, and the page with its last ordinal. -/
def fillListPage (owner : String) (state : OwnerCatalogState) (generation through : Nat) (turn : Nat → Nat) :
    Nat → List (Nat × SessionListEntry) → ListSessionsResult → Nat →
    Except PageFailure (ListSessionsResult × Nat)
  | _, [], result, last => .ok (result, last)
  | i, (ordinal, entry) :: rest, result, last => do
    let nextCursor ← nextListCursor owner state generation ordinal through (turn i)
    let candidate : ListSessionsResult := ⟨result.sessions ++ [entry], nextCursor⟩
    let actual ← (ListSerde.listBytes candidate).mapError .invalidProjection
    if maxSessionManagementPageBytes < actual then
      if result.sessions.isEmpty then
        .error (.resourceLimit "session_list_page" actual maxSessionManagementPageBytes none)
      else .ok (result, last)
    else fillListPage owner state generation through turn (i + 1) rest candidate ordinal

/-- Behind the loop: the cursor is made again when there is more. -/
def finishListPage (owner : String) (state : OwnerCatalogState) (generation through now : Nat)
    (result : ListSessionsResult) (last : Nat) : Except PageFailure ListSessionsResult :=
  if result.sessions.isEmpty then .ok {}
  else if (state.entries.between last through).isEmpty then .ok result
  else do
    let cursor ← listCursor owner generation last through now
    .ok { result with nextCursor := some cursor }

variable [External]

namespace SessionManagementRegistry

/-- The entries of the window whose record is the owner's. -/
def listCandidates (r : SessionManagementRegistry) (owner : String) (state : OwnerCatalogState)
    (after through : Nat) : List (Nat × SessionListEntry) :=
  (state.entries.between after through).filterMap fun e => do
    let record ← r.records.get? e.2
    if record.owner == owner then some (e.1, record.listEntry) else none

/-- `list_sessions`, behind the pruning. -/
def listPage (r : SessionManagementRegistry) (owner : String) (params : ListSessionsParams)
    (claims : Option ListCursorClaims) (clock : ListClock) : Except PageFailure ListSessionsResult := do
  let state := r.ownerCatalog owner
  refuse state.generationExhausted (.invalidProjection "Session catalog generation is exhausted")
  let (generation, after, through) ← listWindow state claims
  let (result, last) ← fillListPage owner state generation through clock.turn 0
    ((r.listCandidates owner state after through).take params.limit) {} after
  let result ← finishListPage owner state generation through clock.last result last
  (result.validateFor params).mapError .invalidProjection
  .ok result

variable [SnapshotSerde]

/-- `list_sessions`: a request whose cursor is refused does not prune. -/
def listSessions (r : SessionManagementRegistry) (limits : ManagementLimits) (owner : String)
    (params : ListSessionsParams) (clock : ListClock) :
    SessionManagementRegistry × Except PageFailure ListSessionsResult :=
  match (do
    (params.validate).mapError fun message => PageFailure.management (.invalidParams message)
    listClaims owner params clock.checked) with
  | .error e => (r, .error e)
  | .ok claims =>
    let r := r.pruneOwner limits clock.pruned owner none
    (r, r.listPage owner params claims clock)

end SessionManagementRegistry

end

end Whale
