import Invocation.Session.Host
import Invocation.Text.Decimal
import Invocation.Thunk

/-!
# The state of the host program

The heap, the live instances, and what native methods have recorded of their calls. Values are
written out as literals, which name the contents of objects instead of their handles; a literal is
evaluated by making the objects it describes.
-/

namespace Invocation.Session

/-- A value written out in full. -/
inductive Literal where
  | null
  | inline (type : ValueType) (payload : type.Payload)
  /-- An object. -/
  | host (o : HostObject)
  /-- An object that is a value. -/
  | value (inner : Literal)
  /-- The value of a variable. -/
  | var (name : String)

/-- A recorded argument. -/
inductive RecordedArg where
  | value (v : Literal)
  /-- Only what was to be said about the argument. -/
  | text (s : String)

/-- A call that a native method recorded. -/
structure CallRecord where
  function : String
  args : List RecordedArg
  /-- What the receiver held, if that was recorded. -/
  receiver : Option (Instance Literal)

/-- The state of the host program. -/
structure World where
  heap : Heap ObjectData
  /-- The live instances by address. -/
  instances : List (Word × Instance (Option ObjectRef))
  /-- The recorded calls, the first call first. -/
  calls : List CallRecord

namespace World

/-- Nothing was made yet. -/
def empty : World := ⟨.empty, [], []⟩

/-- What an object holds. -/
def contents? (w : World) (r : ObjectRef) : Option ObjectData := w.heap.contents? r

/-- The name of the type of an object. -/
def objectTypeName (w : World) (r : ObjectRef) : String :=
  ((w.contents? r).map ObjectData.typeName).getD ""

/-- The names of the types of the objects on the heap. -/
instance : ObjectNames World where
  typeName := objectTypeName

/-- The name of a value's type. -/
def typeName (w : World) (v : Value) : String := v.typeName w.objectTypeName

/-- The text in a value that is a string. -/
def string? (w : World) (v : Value) : Option String :=
  v.object?.bind fun r ↦ (w.contents? r).bind ObjectData.string?

/-- Change the heap. -/
def onHeap (f : Heap ObjectData → Heap ObjectData) (w : World) : World :=
  { w with heap := f w.heap }

/-- Make an object; the result is its only handle. -/
def allocate (contents : ObjectData) (w : World) : ObjectRef × World :=
  (w.heap.vacant, w.onHeap (·.insert w.heap.vacant contents))

/-- Make a string. -/
def allocateString (s : String) (w : World) : ObjectRef × World := w.allocate (.host (.string s))

/-- Make one more handle if a value is one. -/
def retain (v : Value) (w : World) : World := w.onHeap (·.retainValue v)

/-- Release the handle if a value is one. -/
def release (v : Value) (w : World) : World := w.onHeap (·.releaseValue v)

/-- The number of handles to the object of a value. -/
def handleCount? (w : World) (v : Value) : Option Nat := v.object?.map w.heap.handleCount

/-- The instance at an address. -/
def instanceAt? (w : World) (address : Word) : Option (Instance (Option ObjectRef)) :=
  w.instances.lookup address

/-- Put an instance at an address, in place of the one there. -/
def setInstance (address : Word) (i : Instance (Option ObjectRef)) (w : World) : World :=
  { w with instances := w.instances.map fun (a, j) ↦ if a = address then (a, i) else (a, j) }

/-- Take the instance at an address away, and release what it held. -/
def removeInstance (address : Word) (w : World) : World :=
  let held := ((w.instanceAt? address).bind Instance.held?).join
  let rest := { w with instances := w.instances.filter fun (a, _) ↦ a != address }
  match held with
  | none => rest
  | some r => rest.onHeap (·.release r)

/-- Take note of a call. -/
def record (call : CallRecord) (w : World) : World := { w with calls := w.calls ++ [call] }

/-- A value written out, as far as the given objects go, newest first. -/
def describeAmong : List (HeapObject ObjectData) → Value → Literal
  | _, .null => .null
  | _, .inline type x => .inline type x
  | [], .object _ => .null
  | o :: older, .object r =>
    if o.ref = r then
      match o.contents with
      | .host h => .host h
      | .value v => .value (describeAmong older v)
    else describeAmong older (.object r)

/-- A value written out. -/
def describe (w : World) (v : Value) : Literal := describeAmong w.heap.objects v

/-- An instance written out. -/
def describeInstance (w : World) (i : Instance (Option ObjectRef)) : Instance Literal :=
  i.map fun held ↦ w.describe (RawObject.toValue held)

/-- The debug text of a value. -/
def debug (w : World) : Value → String
  | .null => "Value::Null"
  | .inline type x => "Value::" ++ type.constructorName ++ "(" ++ payloadText type x ++ ")"
  | .object r =>
    match (w.contents? r).bind ObjectData.string? with
    | some s => "Value::Object(" ++ Text.quoted s ++ ")"
    | none =>
      "Value::Object(Object(" ++ w.objectTypeName r ++ " @ " ++ Text.address true ++ "))"
where
  /-- The text of a payload: numbers in decimal, in full. -/
  payloadText : (type : ValueType) → type.Payload → String
    | .bool, b => if b then "true" else "false"
    | .i32, x => toString x.toInt
    | .i64, x => toString x.toInt
    | .u32, x => toString x.toNat
    | .u64, x => toString x.toNat
    | .f32, x => Text.Decimal.ofBits .binary32 x.toNat
    | .f64, x => Text.Decimal.ofBits .binary64 x.toNat

end World

namespace Literal

/-- Make the value of a literal: new objects where it describes objects, and one more handle for
each variable. Nothing is made of an unknown variable, whose name is the error. -/
def evaluate (named : String → Option Value) : Literal → StateT World (Except String) Value
  | .null => return .null
  | .inline type x => return .inline type x
  | .host o => do return .object (← modifyGet (World.allocate (.host o)))
  | .value inner => do
    let v ← inner.evaluate named
    return .object (← modifyGet (World.allocate (.value v)))
  | .var name =>
    match named name with
    | none => throw name
    | some v => do
      modify (World.retain v)
      return v

end Literal
end Invocation.Session
