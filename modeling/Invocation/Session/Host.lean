import Invocation.Heap

/-!
# The host program

The types of a small host program: what its objects hold, and the instances that its methods can be
bound to. Objects never change; a counter and a holder do.
-/

namespace Invocation.Session

/-- What an object holds, unless it is a value. -/
inductive HostObject where
  | string (s : String)
  | byte (n : BitVec 8)
  | integer (n : BitVec 64)
  | truth (b : Bool)
  | unit
  /-- A borrowed text, which is of another type than a string. -/
  | borrowed (s : String)
  | bytes (bs : List (BitVec 8))
  | point (x : BitVec 32)
  deriving DecidableEq, Repr

namespace HostObject

/-- The name of the type of an object. -/
def typeName : HostObject → String
  | .string _ => "alloc::string::String"
  | .byte _ => "u8"
  | .integer _ => "i64"
  | .truth _ => "bool"
  | .unit => "()"
  | .borrowed _ => "&str"
  | .bytes _ => "alloc::vec::Vec<u8>"
  | .point _ => "driver::Point"

end HostObject

/-- What an object holds. -/
inductive ObjectData where
  | host (o : HostObject)
  /-- A value, which may be a handle in turn. -/
  | value (v : Value)

namespace ObjectData

/-- The name of the type of an object. -/
def typeName : ObjectData → String
  | .host o => o.typeName
  | .value _ => "raya_thunk::value::Value"

/-- The text in an object that is a string. -/
def string? : ObjectData → Option String
  | .host (.string s) => some s
  | _ => none

/-- The number in an object that is a byte. -/
def byte? : ObjectData → Option (BitVec 8)
  | .host (.byte n) => some n
  | _ => none

/-- An object that is a value may hold a handle. -/
instance : HoldsHandles ObjectData where
  handles
    | .host _ => []
    | .value v => v.object?.toList

end ObjectData

/-- The types of the instances that methods can be bound to. -/
inductive ReceiverType where
  | point
  | scale
  | acc
  | counter
  | holder
  | unit
  | string
  | vector
  deriving DecidableEq, Repr

namespace ReceiverType

/-- The receiver types, in the order of their declaration. -/
def all : List ReceiverType := [.point, .scale, .acc, .counter, .holder, .unit, .string, .vector]

/-- The short name of a receiver type. -/
def shortName : ReceiverType → String
  | .point => "Point"
  | .scale => "Scale"
  | .acc => "Acc"
  | .counter => "Counter"
  | .holder => "Holder"
  | .unit => "Unit"
  | .string => "String"
  | .vector => "Vec"

/-- The receiver type of a short name. -/
def ofShortName? (name : String) : Option ReceiverType := all.find? fun t ↦ t.shortName == name

/-- The full name of a receiver type. -/
def typeName : ReceiverType → String
  | .point => "driver::Point"
  | .scale => "driver::Scale"
  | .acc => "driver::Acc"
  | .counter => "driver::Counter"
  | .holder => "driver::Holder"
  | .unit => "driver::Unit"
  | .string => "alloc::string::String"
  | .vector => "alloc::vec::Vec<i32>"

/-- The host type that a receiver type is. -/
def hostType (t : ReceiverType) : HostType := ⟨all.idxOf t, t.typeName⟩

end ReceiverType

/-- An instance that methods can be bound to; a holder holds an `α`. -/
inductive Instance (α : Type) where
  | point (x : BitVec 32)
  /-- A factor, as the bits of a 32-bit float. -/
  | scale (factor : BitVec 32)
  | acc (base : BitVec 64)
  | counter (count : BitVec 64)
  | holder (held : α)
  | unit
  | string (s : String)
  | vector (elements : List (BitVec 32))

namespace Instance

variable {α β : Type}

/-- The type of an instance. -/
def type : Instance α → ReceiverType
  | .point _ => .point
  | .scale _ => .scale
  | .acc _ => .acc
  | .counter _ => .counter
  | .holder _ => .holder
  | .unit => .unit
  | .string _ => .string
  | .vector _ => .vector

/-- The same instance with something else to hold. -/
def map (f : α → β) : Instance α → Instance β
  | .point x => .point x
  | .scale factor => .scale factor
  | .acc base => .acc base
  | .counter count => .counter count
  | .holder held => .holder (f held)
  | .unit => .unit
  | .string s => .string s
  | .vector elements => .vector elements

/-- What a holder holds. -/
def held? : Instance α → Option α
  | .holder held => some held
  | _ => none

end Instance
end Invocation.Session
