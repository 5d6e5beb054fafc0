import Invocation.ValueType
import Invocation.FloatFormat

/-!
# Values

A value is null, an inline payload of one of the seven value types, or a handle to a shared object.
Each has a tag, the first byte of its slot. Equality of values (`Value.same`) compares payloads by
their meaning, so that floats follow IEEE 754, and objects by identity only.
-/

namespace Invocation

/-- A handle to an object on the heap: the address the object lives at, which is never null. -/
structure ObjectRef where
  address : Word
  address_ne_zero : address ≠ 0
  deriving DecidableEq, Repr

/-- What a caller passes to an invoker and gets back. -/
inductive Value where
  /-- No value. -/
  | null
  /-- A payload stored in the slot itself. -/
  | inline (type : ValueType) (payload : type.Payload)
  /-- A handle to shared storage. -/
  | object (ref : ObjectRef)

namespace ValueType

/-- Whether two payloads of one type are equal as values: floats as IEEE 754 compares them, all
else bit for bit. -/
def samePayload : (type : ValueType) → type.Payload → type.Payload → Bool
  | .f32, x, y => FloatFormat.binary32.same x y
  | .f64, x, y => FloatFormat.binary64.same x y
  | .bool, x, y => x == y
  | .i32, x, y | .u32, x, y => x == y
  | .i64, x, y | .u64, x, y => x == y

end ValueType

namespace Value

/-- Structural equality: payloads bit for bit, objects by handle. -/
instance : DecidableEq Value
  | .null, .null => isTrue rfl
  | .object r, .object s =>
    if h : r = s then isTrue (by rw [h]) else isFalse (fun e ↦ h (by injection e))
  | .inline type x, .inline other y =>
    if h : type = other then
      match other, h, y with
      | _, rfl, y =>
        if e : x = y then isTrue (by rw [e]) else isFalse (fun f ↦ e (by injection f))
    else isFalse (fun e ↦ h (by injection e))
  | .null, .inline .. | .null, .object _ | .inline .., .null | .inline .., .object _
  | .object _, .null | .object _, .inline .. => isFalse (by intro h; cases h)

/-- The tag byte of a slot that holds null. -/
def nullTag : BitVec 8 := 0

/-- The tag byte of a slot that holds an object handle. -/
def objectTag : BitVec 8 := 8

/-- The tag byte of the slot that holds this value. -/
def tag : Value → BitVec 8
  | .null => nullTag
  | .inline type _ => type.tag
  | .object _ => objectTag

/-- Whether this is null. -/
def isNull : Value → Bool
  | .null => true
  | _ => false

/-- Whether this is an object handle. -/
def isObject : Value → Bool
  | .object _ => true
  | _ => false

/-- The type of an inline value. -/
def type? : Value → Option ValueType
  | .inline type _ => some type
  | _ => none

/-- The payload, when the value is inline and of exactly this type: nothing is converted. -/
def payload? (type : ValueType) : Value → Option type.Payload
  | .inline other x => if h : other = type then some (h ▸ x) else none
  | _ => none

/-- The handle, when the value is one. -/
def object? : Value → Option ObjectRef
  | .object r => some r
  | _ => none

/-- The name of the value's type, given the names of the types of objects. -/
def typeName (objectTypeName : ObjectRef → String) : Value → String
  | .null => "null"
  | .inline type _ => type.name
  | .object r => objectTypeName r

/-- The word of a value of exactly this type. -/
def unbox (type : ValueType) (v : Value) : Option Word := (v.payload? type).map type.encode

/-- The value of this type that a word stands for. -/
def box (type : ValueType) (w : Word) : Value := .inline type (type.decode w)

/-- Equality of values: inline values of one type by their meaning, objects by identity. -/
def same : Value → Value → Bool
  | .null, .null => true
  | .inline type x, .inline other y =>
    if h : type = other then other.samePayload (h ▸ x) y else false
  | .object r, .object s => r == s
  | _, _ => false

/-- A payload is read back exactly at the type it was stored at. -/
theorem payload?_inline (type : ValueType) (x : type.Payload) :
    (Value.inline type x).payload? type = some x := by
  simp [payload?]

/-- No payload is read at another type. -/
theorem payload?_inline_of_ne {type other : ValueType} (x : other.Payload) (h : other ≠ type) :
    (Value.inline other x).payload? type = none := by
  simp [payload?, h]

/-- Boxing the word of an inline value gives the value back. -/
theorem box_encode (type : ValueType) (x : type.Payload) :
    box type (type.encode x) = .inline type x := by
  rw [box, ValueType.decode_encode]

end Value
end Invocation
