import Mathlib.Data.List.Basic
import Whale.Daemon.Paging
import Whale.Lib.Run

/-!
# Authenticated cursors

`CursorCodec` of `session_catalog.rs`, at the level of its bytes: a token is the payload of the claims and a tag of it,
both in base64; the tag is an HMAC-SHA256 of the domain, the owner and the payload, with a NUL behind each of the
first two. The codec of a domain is the one that `list_sessions` and `HistoryArchive::page` use (`listCodec`,
`historyCodec`).

`hmac`, `sha2`, `base64` and `serde_json` are parameters. A string is its UTF-8 bytes where it is authenticated and
its characters where it is split.
-/

namespace Whale

open Check

/-- `serde_json::to_vec` and `serde_json::from_slice` for the claims of a cursor. -/
class ClaimsSerde (κ : Type) where
  toVec : κ → Except String (List UInt8)
  fromSlice : List UInt8 → Option κ

/-- The key of the process, with `Hmac::<Sha256>` and `URL_SAFE_NO_PAD`. -/
class CursorKey where
  key : List UInt8
  hmacSha256 : List UInt8 → List UInt8 → List UInt8
  encode64 : List UInt8 → String
  decode64 : String → Option (List UInt8)

/-- `as_bytes`. -/
def utf8 (text : String) : List UInt8 := text.toUTF8.data.toList

/-- The two kinds of cursors. -/
inductive CursorKind where
  | list
  | history
  deriving DecidableEq, Repr

/-- `LIST_CURSOR_DOMAIN` and `HISTORY_CURSOR_DOMAIN`. -/
def CursorKind.domain : CursorKind → List UInt8
  | list => utf8 "whale.session-list.v1"
  | history => utf8 "whale.session-history.v1"

namespace CursorKey

/-- What `update_mac` authenticates. -/
def frame (domain : List UInt8) (owner : String) (payload : List UInt8) : List UInt8 :=
  domain ++ 0 :: (utf8 owner ++ 0 :: payload)

/-- The two parts of a token, decoded. -/
def parts [CursorKey] (token : String) : Option (List UInt8 × List UInt8) :=
  match token.toList.splitOn '.' with
  | [payload, tag] => do
    guard (!payload.isEmpty && !tag.isEmpty)
    let payload ← decode64 (.ofList payload)
    let tag ← decode64 (.ofList tag)
    some (payload, tag)
  | _ => none

variable [CursorKey]

/-- The tag of a payload. -/
def tag (domain : List UInt8) (owner : String) (payload : List UInt8) : List UInt8 :=
  hmacSha256 key (frame domain owner payload)

/-- The token of a payload. -/
def sign (domain : List UInt8) (owner : String) (payload : List UInt8) : String :=
  encode64 payload ++ "." ++ encode64 (tag domain owner payload)

section
variable {κ : Type} [ClaimsSerde κ]

/-- `encode`. -/
def encode (domain : List UInt8) (owner : String) (claims : κ) : Except PageFailure String := do
  let payload ← (ClaimsSerde.toVec claims).mapError fun error =>
    .invalidProjection s!"Session cursor payload did not serialize: {error}"
  let token := sign domain owner payload
  refuse (decide (maxSessionCursorTokenBytes < token.utf8ByteSize))
    (.invalidProjection "Session cursor token exceeds the wire limit")
  .ok token

/-- `decode`, but for the length of the token. -/
def verify (domain : List UInt8) (owner token : String) : Option κ := do
  let (payload, presented) ← parts token
  guard (tag domain owner payload == presented)
  ClaimsSerde.fromSlice payload

/-- `decode`. -/
def decode (domain : List UInt8) (owner token : String) : Option κ :=
  if maxSessionCursorTokenBytes < token.utf8ByteSize then none else verify domain owner token

/-- The codec of a domain, for claims that serialize. -/
@[reducible]
def codec (domain : List UInt8) : CursorCodec κ where
  token owner claims := match ClaimsSerde.toVec claims with
    | .ok payload => sign domain owner payload
    | .error _ => ""
  claims owner token := verify domain owner token

end

end CursorKey

/-! ## The cursors of the two requests -/

/-- What a cursor of a kind claims. -/
abbrev CursorKind.Claims : CursorKind → Type
  | list => ListCursorClaims
  | history => HistoryCursorClaims

/-- The codec that `list_cursor` and `list_sessions` use. -/
instance signedList [CursorKey] [ClaimsSerde ListCursorClaims] : CursorCodec ListCursorClaims :=
  CursorKey.codec CursorKind.list.domain

/-- The codec that `HistoryArchive::page` uses. -/
instance signedHistory [CursorKey] [ClaimsSerde HistoryCursorClaims] : CursorCodec HistoryCursorClaims :=
  CursorKey.codec CursorKind.history.domain

section
variable [ClaimsSerde ListCursorClaims] [ClaimsSerde HistoryCursorClaims]

instance (priority := low) claimsSerde (kind : CursorKind) : ClaimsSerde kind.Claims :=
  match kind with
  | .list => inferInstanceAs (ClaimsSerde ListCursorClaims)
  | .history => inferInstanceAs (ClaimsSerde HistoryCursorClaims)

/-- A token that a request returned to an owner. -/
structure Release where
  kind : CursorKind
  owner : String
  token : String
  deriving DecidableEq, Repr

/-- What a client that does not hold the key can present: a tag of the key is one that some client was given. -/
def Unforged [CursorKey] (released : List Release) (token : String) : Prop :=
  ∀ payload tag, CursorKey.parts token = some (payload, tag) →
    (∃ message, CursorKey.hmacSha256 CursorKey.key message = tag) →
    ∃ r ∈ released, ∃ payload', CursorKey.parts r.token = some (payload', tag)

/-- The token that the answer of `list_sessions` holds. -/
def listReleases (owner : String) : Except PageFailure ListSessionsResult → List Release
  | .ok result => result.nextCursor.toList.map fun token => ⟨.list, owner, token⟩
  | .error _ => []

/-- The token that the answer of `HistoryArchive::page` holds. -/
def historyReleases (owner : String) : Except PageFailure GetSessionHistoryResult → List Release
  | .ok result => result.nextCursor.toList.map fun token => ⟨.history, owner, token⟩
  | .error _ => []

/-- The requests of all owners, on any catalog and any archive: the tokens released so far. An owner, the identity of
a connection, has no NUL, and what it presents as a cursor is not forged. -/
inductive CursorStep [CursorKey] [External] [SnapshotSerde] [ListSerde] [HistorySerde] :
    List Release → List Release → Prop
  | list {released : List Release} (r : SessionManagementRegistry) (limits : ManagementLimits) (owner : String)
      (params : ListSessionsParams) (clock : ListClock) (clean : 0 ∉ utf8 owner)
      (unforged : ∀ cursor ∈ params.cursor, Unforged released cursor) :
      CursorStep released (released ++ listReleases owner (r.listSessions limits owner params clock).2)
  | history {released : List Release} (a : HistoryArchive) (owner : String) (params : GetSessionHistoryParams)
      (clock : PageClock) (clean : 0 ∉ utf8 owner)
      (unforged : ∀ cursor ∈ params.cursor, Unforged released cursor) :
      CursorStep released (released ++ historyReleases owner (a.page owner params clock))

end

end Whale
