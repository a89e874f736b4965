import Mathlib.Data.Rat.Defs

/-!
# JSON values

`Value` is `serde_json::Value`. A number is an integer or a finite float; floats are compared by
value, as `f64` equality does on finite numbers, so a float is its rational value. An object is its
member list in key order (`serde_json::Map` is a `BTreeMap`).
-/

namespace Whale

/-- `serde_json::Number`. -/
inductive Number where
  | int (i : Int)
  | float (q : Rat)
  deriving DecidableEq, Repr

/-- `serde_json::Value`. -/
inductive Value where
  | null
  | bool (b : Bool)
  | number (n : Number)
  | string (s : String)
  | array (vs : List Value)
  | object (fields : List (String × Value))
  deriving Repr

/-- `serde_json::Map<String, Value>`. -/
abbrev JsonMap := List (String × Value)

namespace Value

mutual

/-- Equality of values is decided member by member. -/
def decEq : (a b : Value) → Decidable (a = b)
  | .null, .null => isTrue rfl
  | .bool a, .bool b => decidable_of_iff (a = b) (by simp)
  | .number a, .number b => decidable_of_iff (a = b) (by simp)
  | .string a, .string b => decidable_of_iff (a = b) (by simp)
  | .array a, .array b =>
    have := decEqList a b
    decidable_of_iff (a = b) (by simp)
  | .object a, .object b =>
    have := decEqFields a b
    decidable_of_iff (a = b) (by simp)
  | .null, .bool _ | .null, .number _ | .null, .string _ | .null, .array _ | .null, .object _
  | .bool _, .null | .bool _, .number _ | .bool _, .string _ | .bool _, .array _
  | .bool _, .object _ | .number _, .null | .number _, .bool _ | .number _, .string _
  | .number _, .array _ | .number _, .object _ | .string _, .null | .string _, .bool _
  | .string _, .number _ | .string _, .array _ | .string _, .object _ | .array _, .null
  | .array _, .bool _ | .array _, .number _ | .array _, .string _ | .array _, .object _
  | .object _, .null | .object _, .bool _ | .object _, .number _ | .object _, .string _
  | .object _, .array _ => isFalse (by simp)

def decEqList : (a b : List Value) → Decidable (a = b)
  | [], [] => isTrue rfl
  | [], _ :: _ | _ :: _, [] => isFalse (by simp)
  | a :: as, b :: bs =>
    have := decEq a b
    have := decEqList as bs
    decidable_of_iff (a = b ∧ as = bs) (by simp)

def decEqFields : (a b : List (String × Value)) → Decidable (a = b)
  | [], [] => isTrue rfl
  | [], _ :: _ | _ :: _, [] => isFalse (by simp)
  | (k, a) :: as, (l, b) :: bs =>
    have := decEq a b
    have := decEqFields as bs
    decidable_of_iff (k = l ∧ a = b ∧ as = bs) (by simp [and_assoc])

end

instance : DecidableEq Value := decEq

/-- `Value::is_object`. -/
def isObject : Value → Bool
  | .object _ => true
  | _ => false

/-- `Value::as_u64` (a `PosInt`). -/
def asU64 : Value → Option Nat
  | .number (.int i) => if 0 ≤ i then some i.toNat else none
  | _ => none

/-- `Value::as_bool`. -/
def asBool : Value → Option Bool
  | .bool b => some b
  | _ => none

end Value

namespace JsonMap

/-- `Map::get`. -/
def get (m : JsonMap) (key : String) : Option Value := m.lookup key

/-- `Map::remove` leaves the other members. -/
def remove (m : JsonMap) (key : String) : JsonMap := m.filter (·.1 != key)

/-- `Map::contains_key`. -/
def containsKey (m : JsonMap) (key : String) : Bool := m.any (·.1 == key)

end JsonMap

/-- `Value::get` with a string index: a member of an object. -/
def Value.get : Value → String → Option Value
  | .object m, key => JsonMap.get m key
  | _, _ => none

/-! ## Strings -/

/-- `char::is_whitespace`: the Unicode `White_Space` property. -/
def isWhitespace (c : Char) : Bool :=
  let n := c.toNat
  (9 ≤ n && n ≤ 13) || n == 32 || n == 0x85 || n == 0xA0 || n == 0x1680 ||
    (0x2000 ≤ n && n ≤ 0x200A) || n == 0x2028 || n == 0x2029 || n == 0x202F || n == 0x205F ||
    n == 0x3000

/-- `s.trim().is_empty()`. -/
def blank (s : String) : Bool := s.toList.all isWhitespace

/-- `str::trim`. -/
def trim (s : String) : String :=
  String.ofList (((s.toList.dropWhile isWhitespace).reverse.dropWhile isWhitespace).reverse)

/-- `u8::is_ascii_hexdigit` of every byte. -/
def allHexDigits (s : String) : Bool :=
  s.toList.all fun c => ('0' ≤ c && c ≤ '9') || ('a' ≤ c && c ≤ 'f') || ('A' ≤ c && c ≤ 'F')

theorem blank_empty : blank "" = true := by decide

theorem ne_empty_of_not_blank {s : String} (h : blank s = false) : s ≠ "" := by
  intro he
  rw [he, blank_empty] at h
  cases h

end Whale
