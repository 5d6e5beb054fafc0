import Invocation.Cache.Request
import Invocation.Session.World

/-!
# Reports

What can be observed of values, methods, plans and signatures, put together for display.
-/

namespace Invocation.Session

open Text (Layout)

/-- What can be observed of a value. -/
structure ValueReport where
  value : Value
  typeName : String
  debug : String
  /-- The text, if the value is a string. -/
  string : Option String
  /-- For each type of contents that is asked for, whether an object has it. -/
  contents : Option (List (String × Bool))
  /-- The number, if the value is a byte object. -/
  byte : Option (BitVec 8)
  /-- The number of handles to the object. -/
  handles : Option Nat

namespace ValueReport

/-- The types of contents that a report tells about, with their short names. -/
def contentTypes : List (String × String) :=
  [("String", "alloc::string::String"), ("u8", "u8"), ("i64", "i64"), ("&str", "&str"),
    ("Point", "driver::Point"), ("Value", "raya_thunk::value::Value")]

/-- The report on a value. -/
def of (w : World) (v : Value) : ValueReport where
  value := v
  typeName := w.typeName v
  debug := w.debug v
  string := w.string? v
  contents := v.object?.map fun r ↦
    contentTypes.map fun (name, typeName) ↦ (name, w.objectTypeName r == typeName)
  byte := v.object?.bind fun r ↦ (w.contents? r).bind ObjectData.byte?
  handles := w.handleCount? v

end ValueReport

/-- The report on the value of a literal without variables. -/
def Literal.report (l : Literal) : Except String ValueReport := do
  let (v, w) ← (l.evaluate fun _ ↦ none).run .empty
  return .of w v

/-- How two values compare. -/
structure Comparison where
  equal : Bool
  /-- Whether each value equals itself. -/
  firstReflexive : Bool
  secondReflexive : Bool
  deriving DecidableEq, Repr

/-- How the values of two literals without variables compare. -/
def Literal.compare (a b : Literal) : Except String Comparison := do
  let (x, w) ← (a.evaluate fun _ ↦ none).run .empty
  let (y, _) ← (b.evaluate fun _ ↦ none).run w
  return ⟨x.same y, x.same x, y.same y⟩

/-- What can be observed of a plan. -/
structure PlanReport where
  args : List String
  ret : String
  arity : Nat
  debug : String
  deriving DecidableEq, Repr

/-- The report on a plan; its debug text is on one line. -/
def PlanReport.of (p : Plan) : PlanReport :=
  ⟨p.args.map ArgConversion.text, p.ret.text, p.arity, p.layout.render false⟩

/-- What can be observed of a method. -/
structure MethodReport where
  name : String
  arity : Nat
  isStatic : Bool
  signature : String
  /-- The name of the type of the receiver. -/
  receiver : Option String
  debug : String
  deriving DecidableEq, Repr

/-- The name of the type of the receiver, if there is one. -/
def receiverName? : MethodKind → Option String
  | .static => none
  | .instance receiver => some receiver.name

/-- The report on a method. -/
def MethodReport.of (m : Method World) (pretty : Bool) : MethodReport :=
  ⟨m.name, m.arity, m.isStatic, m.signature.text, receiverName? m.signature.kind,
    m.layout.render pretty⟩

/-- Call a native method directly on words, with an instance at hand that has the given number for
its coordinate. -/
def callDirectly (m : Method World) (x : BitVec 32) (words : List Word) : Except Fault Word :=
  let receiver : Word := 64
  let w : World := { World.empty with instances := [(receiver, .point x)] }
  ((m.callWords (fun _ ↦ none) receiver words).run w).1

end Invocation.Session
