import Mathlib.Data.List.Basic
import Whale.Protocol.Rpc

/-!
# Messages on the wire

`JSONRPCMessage.fromValue_object` says what an object is read as, and `fromValue_array` an array. A message is read as
it was written, save that a `null` is not told from a missing member (`JSONRPCMessage.fromValue_toValue`); and what was
read is read again as the same.
-/

namespace Whale

open Rpc

/-! ## Members -/

namespace Rpc

theorem i64_toInt (n : Int64) : i64 (.number (.int n.toInt)) = some n := by
  rw [i64, if_pos ⟨Int64.le_toInt n, Int64.toInt_lt n⟩, Int64.ofInt_toInt]

theorem optional_idem (v : Option Value) : optional (optional v) = optional v := by
  cases v with
  | none => rfl
  | some v => cases v <;> rfl

@[simp] theorem lookup_member (key key' : String) (v : Option Value) :
    (member key v).lookup key' = if key' = key then v else none := by
  cases v with
  | none => simp [member]
  | some v =>
    by_cases h : key' = key
    · simp [member, h]
    · simp [member, List.lookup, beq_false_of_ne h, h]

@[simp] theorem lookup_member_append (key key' : String) (v : Option Value) (m : JsonMap) :
    (member key v ++ m).lookup key' = if key' = key then v.or (m.lookup key') else m.lookup key' := by
  cases v with
  | none => simp [member]
  | some v =>
    by_cases h : key' = key
    · simp [member, h]
    · simp [member, List.lookup, beq_false_of_ne h, h]

end Rpc

theorem RequestId.fromValue_toValue (id : RequestId) : RequestId.fromValue id.toValue = some id := by
  cases id with
  | number n => simp [fromValue, toValue, i64_toInt]
  | string s => rfl

theorem RequestId.toValue_ne_null (id : RequestId) : id.toValue ≠ .null := by
  cases id <;> simp [toValue]

/-! ## What is left of a message -/

/-- No `null`. -/
def Rpc.JSONRPCError.normal (e : Rpc.JSONRPCError) : Rpc.JSONRPCError := { e with data := optional e.data }

def JSONRPCMessage.normal : JSONRPCMessage → JSONRPCMessage
  | request r => request { r with params := optional r.params }
  | response r => response { r with result := optional r.result, error := r.error.map JSONRPCError.normal }
  | notification n => notification { n with params := optional n.params }

theorem Rpc.JSONRPCError.fromValue_toValue (e : Rpc.JSONRPCError) : fromValue e.toValue = some e.normal := by
  obtain ⟨code, message, data⟩ := e
  cases data <;> simp [fromValue, toValue, build, member, JsonMap.get, i64_toInt, string, normal, List.lookup]

theorem Rpc.JSONRPCError.optionFromValue_toValue (e : Option Rpc.JSONRPCError) :
    optionFromValue (e.map toValue) = some (e.map normal) := by
  cases e with
  | none => rfl
  | some e =>
    have h := fromValue_toValue e
    simp only [toValue] at h
    simp only [Option.map_some, toValue, optionFromValue, h]

/-! ## What is read -/

namespace JSONRPCMessage

/-- An object is a request if it has an id and a method, a response if it has only the id, and a notification if it has
only the method; an id that is none counts as no id. -/
def ofMembers (m : JsonMap) : Option JSONRPCMessage :=
  match (JsonMap.get m "jsonrpc").bind string, (JsonMap.get m "id").bind RequestId.fromValue,
    (JsonMap.get m "method").bind string with
  | some jsonrpc, some id, some method =>
    some (.request { jsonrpc, id, method, params := optional (JsonMap.get m "params") })
  | some jsonrpc, some id, none => (JSONRPCError.optionFromValue (JsonMap.get m "error")).map fun error =>
    .response { jsonrpc, id, result := optional (JsonMap.get m "result"), error }
  | some jsonrpc, none, some method =>
    some (.notification { jsonrpc, method, params := optional (JsonMap.get m "params") })
  | _, _, _ => none

theorem fromValue_object (m : JsonMap) : fromValue (.object m) = ofMembers m := by
  simp only [fromValue, JSONRPCRequest.fromValue, JSONRPCRequest.build, JSONRPCResponse.fromValue,
    JSONRPCResponse.build, JSONRPCNotification.fromValue, JSONRPCNotification.build, ofMembers]
  cases (JsonMap.get m "jsonrpc").bind string <;> cases (JsonMap.get m "id").bind RequestId.fromValue <;>
    cases (JsonMap.get m "method").bind string <;> try rfl
  cases JSONRPCError.optionFromValue (JsonMap.get m "error") <;> rfl

/-! ## The round trip -/

theorem fromValue_toValue (m : JSONRPCMessage) : fromValue m.toValue = some m.normal := by
  cases m with
  | request r =>
    obtain ⟨jsonrpc, id, method, params⟩ := r
    rw [toValue, JSONRPCRequest.toValue, fromValue_object]
    simp [ofMembers, JsonMap.get, string, RequestId.fromValue_toValue, normal, List.lookup]
  | response r =>
    obtain ⟨jsonrpc, id, result, error⟩ := r
    have herror := JSONRPCError.optionFromValue_toValue error
    rw [toValue, JSONRPCResponse.toValue, fromValue_object]
    cases hm : error.map JSONRPCError.toValue <;> rw [hm] at herror <;>
      simp [ofMembers, JsonMap.get, string, RequestId.fromValue_toValue, normal, List.lookup, herror]
  | notification n =>
    obtain ⟨jsonrpc, method, params⟩ := n
    rw [toValue, JSONRPCNotification.toValue, fromValue_object]
    simp [ofMembers, JsonMap.get, string, normal, List.lookup]

/-! ## Messages that were read -/

end JSONRPCMessage

theorem Rpc.JSONRPCError.normal_of_fromValue {v : Value} {e : Rpc.JSONRPCError} (h : fromValue v = some e) :
    e.normal = e := by
  have hbuild : ∀ {code message data : Option Value}, build code message data = some e → e.normal = e := by
    intro code message data h
    simp only [build, Option.bind_eq_bind, Option.bind_eq_some_iff, Option.some.injEq] at h
    obtain ⟨_, -, _, -, rfl⟩ := h
    simp [normal, optional_idem]
  unfold fromValue at h
  split at h
  · exact hbuild h
  · exact hbuild h
  · cases h

theorem Rpc.JSONRPCError.normal_of_optionFromValue {v : Option Value} {e : Option Rpc.JSONRPCError}
    (h : optionFromValue v = some e) : e.map normal = e := by
  unfold optionFromValue at h
  split at h
  · cases h; rfl
  · cases h; rfl
  · obtain ⟨e, he, rfl⟩ := Option.map_eq_some_iff.mp h
    simp [normal_of_fromValue he]

namespace JSONRPCMessage

/-- What was read has no `null`. -/
theorem normal_of_fromValue {v : Value} {m : JSONRPCMessage} (h : fromValue v = some m) : m.normal = m := by
  have hrequest : ∀ {jsonrpc id method params : Option Value} {r},
      JSONRPCRequest.build jsonrpc id method params = some r → normal (.request r) = .request r := by
    intro jsonrpc id method params r h
    simp only [JSONRPCRequest.build, Option.bind_eq_bind, Option.bind_eq_some_iff, Option.some.injEq] at h
    obtain ⟨_, -, _, -, _, -, rfl⟩ := h
    simp [normal, optional_idem]
  have hresponse : ∀ {jsonrpc id result error : Option Value} {r},
      JSONRPCResponse.build jsonrpc id result error = some r → normal (.response r) = .response r := by
    intro jsonrpc id result error r h
    simp only [JSONRPCResponse.build, Option.bind_eq_bind, Option.bind_eq_some_iff, Option.some.injEq] at h
    obtain ⟨_, -, _, -, _, he, rfl⟩ := h
    simp [normal, optional_idem, JSONRPCError.normal_of_optionFromValue he]
  have hnotification : ∀ {jsonrpc method params : Option Value} {n},
      JSONRPCNotification.build jsonrpc method params = some n → normal (.notification n) = .notification n := by
    intro jsonrpc method params n h
    simp only [JSONRPCNotification.build, Option.bind_eq_bind, Option.bind_eq_some_iff, Option.some.injEq] at h
    obtain ⟨_, -, _, -, rfl⟩ := h
    simp [normal, optional_idem]
  rw [fromValue, Option.or_eq_some_iff] at h
  obtain h | ⟨-, h⟩ := h
  · obtain ⟨r, hr, rfl⟩ := Option.map_eq_some_iff.mp h
    unfold JSONRPCRequest.fromValue at hr
    split at hr
    · exact hrequest hr
    · exact hrequest hr
    · cases hr
  rw [Option.or_eq_some_iff] at h
  obtain h | ⟨-, h⟩ := h
  · obtain ⟨r, hr, rfl⟩ := Option.map_eq_some_iff.mp h
    unfold JSONRPCResponse.fromValue at hr
    split at hr
    · exact hresponse hr
    · exact hresponse hr
    · cases hr
  · obtain ⟨n, hn, rfl⟩ := Option.map_eq_some_iff.mp h
    unfold JSONRPCNotification.fromValue at hn
    split at hn
    · exact hnotification hn
    · exact hnotification hn
    · cases hn

/-- A message is read as it was written, save that a `null` is not told from no member; what was read is read again as
the same; and which kind of message an object is read as is known by its members. -/
theorem message_codec :
    (∀ m : JSONRPCMessage, fromValue m.toValue = some m.normal) ∧
      (∀ v : Value, ((fromValue v).bind fun m => fromValue m.toValue) = fromValue v) ∧
      ∀ members : JsonMap, fromValue (.object members) = ofMembers members := by
  refine ⟨fromValue_toValue, fun v => ?_, fromValue_object⟩
  cases hm : fromValue v with
  | none => rfl
  | some m => exact (fromValue_toValue m).trans (congrArg some (normal_of_fromValue hm))

end JSONRPCMessage

end Whale
