import Invocation.Machine.Operand
import Invocation.Plan

/-!
# Call signatures

What caller and callee of machine code agree on: the registers of parameters and results, and how
the unused high bits of small integers are filled. A thunk is called with the address of its
argument slots, their number, and the address of the result word, and it returns a status word.
-/

namespace Invocation.Machine

/-- How a small integer is widened on its way through the calling convention. -/
inductive Extension where
  | none
  | zero
  | sign
  deriving DecidableEq, Repr

/-- One parameter or result of a call. -/
structure CallParam where
  type : MachineType
  extension : Extension
  deriving DecidableEq, Repr

/-- The parameters and results of a call. -/
structure CallSignature where
  params : List CallParam
  returns : List CallParam
  deriving DecidableEq, Repr

/-- A parameter that is passed at its own width. -/
def CallParam.plain (type : MachineType) : CallParam := ⟨type, .none⟩

/-- How a payload is passed: truth values and unsigned integers of 32 bits are zero-extended, signed
ones sign-extended. -/
def CallParam.ofValueType (type : ValueType) : CallParam :=
  match type with
  | .bool | .u32 => ⟨type.machineType, .zero⟩
  | .i32 => ⟨type.machineType, .sign⟩
  | _ => .plain type.machineType

/-- How an argument is passed; references are pointers. -/
def CallParam.ofArg (pointer : MachineType) : ArgConversion → CallParam
  | .unbox type => .ofValueType type
  | .passRef => .plain pointer

/-- How a result is returned. -/
def CallParam.ofResult (pointer : MachineType) : ResultConversion → List CallParam
  | .null => []
  | .box type => [.ofValueType type]
  | .object => [.plain pointer]

/-- The signature of every thunk: argument slots, argument count, result word; a status. -/
def CallSignature.thunk (pointer : MachineType) : CallSignature :=
  ⟨[.plain pointer, .plain pointer, .plain pointer], [.plain .i64]⟩

/-- The signature of the native code a plan calls: the receiver comes first, if there is one. -/
def CallSignature.native (plan : Plan) (hasReceiver : Bool) (pointer : MachineType) :
    CallSignature :=
  ⟨(if hasReceiver then [.plain pointer] else []) ++ plan.args.map (.ofArg pointer),
    CallParam.ofResult pointer plan.ret⟩

/-- The text of one parameter or result. -/
def CallParam.text (p : CallParam) : String :=
  p.type.name ++
    match p.extension with
    | .none => ""
    | .zero => " uext"
    | .sign => " sext"

/-- The text of a signature, with the calling convention at its end. -/
def CallSignature.text (s : CallSignature) : String :=
  "(" ++ ", ".intercalate (s.params.map CallParam.text) ++ ")" ++
    (if s.returns.isEmpty then "" else " -> " ++ ", ".intercalate (s.returns.map CallParam.text)) ++
    " system_v"

end Invocation.Machine
