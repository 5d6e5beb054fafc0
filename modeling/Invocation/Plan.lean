import Invocation.Error
import Invocation.Signature
import Invocation.Value

/-!
# Call plans

A signature lowered once into what is done with each argument and with the result, so that a call
does not look at the signature again.
-/

namespace Invocation

open Text (Layout)

/-- How one argument reaches the native method. -/
inductive ArgConversion where
  /-- Check the type, then pass the payload. -/
  | unbox (type : ValueType)
  /-- Pass the address of the argument slot. -/
  | passRef
  deriving DecidableEq, Repr

/-- How the native result becomes a value. -/
inductive ResultConversion where
  /-- There is no result: null. -/
  | null
  /-- Box the word as a value of this type. -/
  | box (type : ValueType)
  /-- Take over the object the word names, or null. -/
  | object
  deriving DecidableEq, Repr

/-- The conversions of one signature: arguments in declaration order, and the result. -/
structure Plan where
  args : List ArgConversion
  ret : ResultConversion
  deriving DecidableEq, Repr

namespace ParamType

/-- The conversion of an argument for a parameter of this type. -/
def conversion : ParamType → ArgConversion
  | .value type => .unbox type
  | .reference => .passRef

end ParamType

namespace ReturnType

/-- The conversion of a result of this type. -/
def conversion : ReturnType → ResultConversion
  | .void => .null
  | .value type => .box type
  | .reference => .object

end ReturnType

namespace Plan

/-- The plan of a signature. Whether there is a receiver makes no difference to it. -/
def lower (s : Signature) : Plan := ⟨s.params.map ParamType.conversion, s.ret.conversion⟩

/-- The number of arguments the plan expects. -/
def arity (p : Plan) : Nat := p.args.length

/-- The error for a number of arguments that differs from the plan's. -/
def checkCount (p : Plan) (method : String) (actual : Nat) : Except InvokeError Unit :=
  if actual = p.arity then .ok () else .error (.argumentCountMismatch method p.arity actual)

/-- The error for the argument at an index the plan has. -/
def typeMismatch? (p : Plan) (method : String) (index : Nat) (actual : String) :
    Option InvokeError :=
  p.args[index]?.map fun
    | .unbox type => .argumentTypeMismatch method index type.name actual
    | .passRef => .argumentTypeMismatch method index "ref" actual

/-- The plan of a signature has one conversion for each parameter. -/
theorem arity_lower (s : Signature) : (lower s).arity = s.arity := by
  simp [lower, arity, Signature.arity]

end Plan

namespace ArgConversion

/-- A short description. -/
def text : ArgConversion → String
  | .unbox type => "unbox " ++ type.name
  | .passRef => "pass"

/-- The structured text. -/
def layout : ArgConversion → Layout
  | .unbox type => .tuple "Unbox" [.leaf type.constructorName]
  | .passRef => .leaf "PassRef"

end ArgConversion

namespace ResultConversion

/-- A short description. -/
def text : ResultConversion → String
  | .null => "null"
  | .box type => "box " ++ type.name
  | .object => "object"

/-- The structured text. -/
def layout : ResultConversion → Layout
  | .null => .leaf "Null"
  | .box type => .tuple "Box" [.leaf type.constructorName]
  | .object => .leaf "Object"

end ResultConversion

/-- The structured text of a plan. -/
def Plan.layout (p : Plan) : Layout :=
  .record "ThunkPlan" [("args", .list (p.args.map ArgConversion.layout)), ("ret", p.ret.layout)]

/-- The structured text of a parameter type. -/
def ParamType.layout : ParamType → Layout
  | .value type => .tuple "Value" [.leaf type.constructorName]
  | .reference => .leaf "Reference"

/-- The structured text of a return type. -/
def ReturnType.layout : ReturnType → Layout
  | .void => .leaf "Void"
  | .value type => .tuple "Value" [.leaf type.constructorName]
  | .reference => .leaf "Reference"

end Invocation
