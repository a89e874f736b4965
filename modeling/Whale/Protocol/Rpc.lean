import Mathlib
import Whale.Protocol.Json

/-!
# JSON-RPC messages

The first part of `whale-protocol/src/rpc.rs`: `RequestId`, `JSONRPCError`, the three kinds of messages and
`JSONRPCMessage`, which serde reads without a tag: the first of the kinds that fits. As serde derives them, the
structs are read by name from an object and by position from an array, and `null` is no value of an optional field.
-/

namespace Whale

/-- `RequestId`. -/
inductive RequestId where
  | number (n : Int64)
  | string (s : String)
  deriving DecidableEq

namespace Rpc

/-! ## Reading and writing -/

/-- Deserialization of an `i64`. -/
def i64 : Value → Option Int64
  | .number (.int i) => if -2 ^ 63 ≤ i ∧ i < 2 ^ 63 then some (.ofInt i) else none
  | _ => none

/-- Deserialization of a `String`. -/
def string : Value → Option String
  | .string s => some s
  | _ => none

/-- Deserialization of an `Option<Value>`; a missing member is none. -/
def optional : Option Value → Option Value
  | some .null => none
  | v => v

/-- A member that is skipped when it is none. -/
def member (key : String) : Option Value → JsonMap
  | some v => [(key, v)]
  | none => []

end Rpc

open Rpc

namespace RequestId

def fromValue : Value → Option RequestId
  | .string s => some (.string s)
  | v => (i64 v).map .number

def toValue : RequestId → Value
  | .number n => .number (.int n.toInt)
  | .string s => .string s

end RequestId

namespace Rpc

/-- `JSONRPCError`. -/
structure JSONRPCError where
  code : Int64
  message : String
  data : Option Value := none
  deriving DecidableEq

namespace JSONRPCError

def build (code message data : Option Value) : Option JSONRPCError := do
  some { code := ← code.bind i64, message := ← message.bind string, data := optional data }

def fromValue : Value → Option JSONRPCError
  | .object m => build (JsonMap.get m "code") (JsonMap.get m "message") (JsonMap.get m "data")
  | .array [code, message, data] => build (some code) (some message) (some data)
  | _ => none

def toValue (e : JSONRPCError) : Value :=
  .object ([("code", .number (.int e.code.toInt))] ++ member "data" e.data ++ [("message", .string e.message)])

/-- Deserialization of an `Option<JSONRPCError>`. -/
def optionFromValue : Option Value → Option (Option JSONRPCError)
  | none | some .null => some none
  | some v => (fromValue v).map some

end JSONRPCError

end Rpc

/-- `JSONRPCRequest`. -/
structure JSONRPCRequest where
  jsonrpc : String := "2.0"
  id : RequestId
  method : String
  params : Option Value := none
  deriving DecidableEq

namespace JSONRPCRequest

def build (jsonrpc id method params : Option Value) : Option JSONRPCRequest := do
  some { jsonrpc := ← jsonrpc.bind string, id := ← id.bind RequestId.fromValue, method := ← method.bind string,
         params := optional params }

def fromValue : Value → Option JSONRPCRequest
  | .object m => build (JsonMap.get m "jsonrpc") (JsonMap.get m "id") (JsonMap.get m "method") (JsonMap.get m "params")
  | .array [jsonrpc, id, method, params] => build (some jsonrpc) (some id) (some method) (some params)
  | _ => none

def toValue (r : JSONRPCRequest) : Value :=
  .object ([("id", r.id.toValue), ("jsonrpc", .string r.jsonrpc), ("method", .string r.method)] ++
    member "params" r.params)

end JSONRPCRequest

/-- `JSONRPCResponse`. -/
structure JSONRPCResponse where
  jsonrpc : String := "2.0"
  id : RequestId
  result : Option Value := none
  error : Option Rpc.JSONRPCError := none
  deriving DecidableEq

namespace JSONRPCResponse

def success (id : RequestId) (result : Value) : JSONRPCResponse := { id, result := some result }

def failure (id : RequestId) (error : Rpc.JSONRPCError) : JSONRPCResponse := { id, error := some error }

def build (jsonrpc id result error : Option Value) : Option JSONRPCResponse := do
  some { jsonrpc := ← jsonrpc.bind string, id := ← id.bind RequestId.fromValue, result := optional result,
         error := ← JSONRPCError.optionFromValue error }

def fromValue : Value → Option JSONRPCResponse
  | .object m => build (JsonMap.get m "jsonrpc") (JsonMap.get m "id") (JsonMap.get m "result") (JsonMap.get m "error")
  | .array [jsonrpc, id, result, error] => build (some jsonrpc) (some id) (some result) (some error)
  | _ => none

def toValue (r : JSONRPCResponse) : Value :=
  .object (member "error" (r.error.map JSONRPCError.toValue) ++
    [("id", r.id.toValue), ("jsonrpc", .string r.jsonrpc)] ++ member "result" r.result)

end JSONRPCResponse

/-- `JSONRPCNotification`. -/
structure JSONRPCNotification where
  jsonrpc : String := "2.0"
  method : String
  params : Option Value := none
  deriving DecidableEq

namespace JSONRPCNotification

def build (jsonrpc method params : Option Value) : Option JSONRPCNotification := do
  some { jsonrpc := ← jsonrpc.bind string, method := ← method.bind string, params := optional params }

def fromValue : Value → Option JSONRPCNotification
  | .object m => build (JsonMap.get m "jsonrpc") (JsonMap.get m "method") (JsonMap.get m "params")
  | .array [jsonrpc, method, params] => build (some jsonrpc) (some method) (some params)
  | _ => none

def toValue (n : JSONRPCNotification) : Value :=
  .object ([("jsonrpc", .string n.jsonrpc), ("method", .string n.method)] ++ member "params" n.params)

end JSONRPCNotification

/-- `JSONRPCMessage`. -/
inductive JSONRPCMessage where
  | request (request : JSONRPCRequest)
  | response (response : JSONRPCResponse)
  | notification (notification : JSONRPCNotification)
  deriving DecidableEq

namespace JSONRPCMessage

def fromValue (v : Value) : Option JSONRPCMessage :=
  ((JSONRPCRequest.fromValue v).map .request).or
    (((JSONRPCResponse.fromValue v).map .response).or ((JSONRPCNotification.fromValue v).map .notification))

def toValue : JSONRPCMessage → Value
  | .request r => r.toValue
  | .response r => r.toValue
  | .notification n => n.toValue

end JSONRPCMessage

end Whale
