/-!
# Inline value types

The seven kinds of value that travel unboxed, the type of their payloads, and the machine word
that carries one payload. Floating-point payloads are their bit patterns, so every statement about
them is one about bits.
-/

namespace Invocation

/-- A machine word: what a thunk and a native function exchange. -/
abbrev Word := BitVec 64

/-- The kinds of value stored inline in a value slot. -/
inductive ValueType where
  | bool
  | i32
  | i64
  | u32
  | u64
  | f32
  | f64
  deriving DecidableEq, Repr

namespace ValueType

/-- The data a value of each type consists of; a float is its bit pattern. -/
abbrev Payload : ValueType → Type
  | .bool => Bool
  | .i32 => BitVec 32
  | .i64 => BitVec 64
  | .u32 => BitVec 32
  | .u64 => BitVec 64
  | .f32 => BitVec 32
  | .f64 => BitVec 64

/-- Payloads of one type are compared as data, floats bit for bit. -/
instance (type : ValueType) : DecidableEq type.Payload :=
  match type with
  | .bool => inferInstanceAs (DecidableEq Bool)
  | .i32 | .u32 | .f32 => inferInstanceAs (DecidableEq (BitVec 32))
  | .i64 | .u64 | .f64 => inferInstanceAs (DecidableEq (BitVec 64))

/-- The name used in signatures and diagnostics. -/
def name : ValueType → String
  | .bool => "bool"
  | .i32 => "i32"
  | .i64 => "i64"
  | .u32 => "u32"
  | .u64 => "u64"
  | .f32 => "f32"
  | .f64 => "f64"

/-- The capitalised name used in structured debug texts. -/
def constructorName : ValueType → String
  | .bool => "Bool"
  | .i32 => "I32"
  | .i64 => "I64"
  | .u32 => "U32"
  | .u64 => "U64"
  | .f32 => "F32"
  | .f64 => "F64"

/-- The tag byte of a slot that holds a value of this type. -/
def tag : ValueType → BitVec 8
  | .bool => 1
  | .i32 => 2
  | .i64 => 3
  | .f64 => 4
  | .u32 => 5
  | .u64 => 6
  | .f32 => 7

/-- Whether the payload is a floating-point bit pattern. -/
def isFloat : ValueType → Bool
  | .f32 | .f64 => true
  | _ => false

/-- All inline value types, in the order of their declaration. -/
def all : List ValueType := [.bool, .i32, .i64, .u32, .u64, .f32, .f64]

/-- The word of a payload: truth is 1, signed integers are sign-extended, and all else is
zero-extended. -/
def encode : (type : ValueType) → type.Payload → Word
  | .bool, b => if b then 1 else 0
  | .i32, x => x.signExtend 64
  | .i64, x => x
  | .u32, x => x.setWidth 64
  | .u64, x => x
  | .f32, x => x.setWidth 64
  | .f64, x => x

/-- The payload a word stands for: any word but 0 is true, and 32-bit types read the low half. -/
def decode : (type : ValueType) → Word → type.Payload
  | .bool, w => w != 0
  | .i32, w => w.setWidth 32
  | .i64, w => w
  | .u32, w => w.setWidth 32
  | .u64, w => w
  | .f32, w => w.setWidth 32
  | .f64, w => w

/-- The words that are the encoding of some payload: 0 or 1 for a truth value, a sign-extended
half for `i32`, a zero-extended half for `u32` and `f32`, and any word for the 64-bit types. -/
def Canonical : ValueType → Word → Prop
  | .bool, w => w = 0 ∨ w = 1
  | .i32, w => ∀ k : Nat, 32 ≤ k → k < 64 → w.getLsbD k = w.getLsbD 31
  | .u32, w | .f32, w => ∀ k : Nat, 32 ≤ k → k < 64 → w.getLsbD k = false
  | .i64, _ | .u64, _ | .f64, _ => True

/-- Decoding undoes encoding, bit for bit. -/
theorem decode_encode (type : ValueType) (x : type.Payload) : type.decode (type.encode x) = x := by
  cases type with
  | bool => cases x <;> rfl
  | i32 =>
    apply BitVec.eq_of_getLsbD_eq
    intro k hk
    have h : k < 64 := by omega
    simp [encode, decode, BitVec.getElem_signExtend, hk, h]
  | u32 | f32 => simp [encode, decode]
  | i64 | u64 | f64 => rfl

/-- Different payloads have different words. -/
theorem encode_inj {type : ValueType} {x y : type.Payload} :
    type.encode x = type.encode y ↔ x = y := by
  constructor
  · intro h
    rw [← type.decode_encode x, h, type.decode_encode]
  · intro h
    rw [h]

end ValueType
end Invocation
