import Invocation.Native

/-!
# Machine operands

The types of registers, and how payloads, arguments and results of native methods are held in
registers: a truth value as a byte, integers and floats at their own width, references and
receivers as 64-bit addresses.
-/

namespace Invocation.Machine

/-- The type of a register. -/
inductive MachineType where
  | i8
  | i32
  | i64
  | f32
  | f64
  deriving DecidableEq, Repr

namespace MachineType

/-- The number of bytes of a register of this type in memory. -/
abbrev bytes : MachineType → Nat
  | .i8 => 1
  | .i32 | .f32 => 4
  | .i64 | .f64 => 8

/-- The number of bits of a register of this type. -/
abbrev width (t : MachineType) : Nat := 8 * t.bytes

/-- The name used in the texts of call signatures. -/
def name : MachineType → String
  | .i8 => "i8"
  | .i32 => "i32"
  | .i64 => "i64"
  | .f32 => "f32"
  | .f64 => "f64"

/-- Whether registers of this type hold integers. -/
def isInteger : MachineType → Bool
  | .i8 | .i32 | .i64 => true
  | .f32 | .f64 => false

end MachineType

/-- The contents of a register. -/
structure Operand where
  type : MachineType
  bits : BitVec type.width
  deriving DecidableEq, Repr

end Machine

open Machine (MachineType Operand)

namespace ValueType

/-- The type of the register that holds a payload of each type. -/
def machineType : ValueType → MachineType
  | .bool => .i8
  | .i32 | .u32 => .i32
  | .i64 | .u64 => .i64
  | .f32 => .f32
  | .f64 => .f64

/-- The register that holds a payload. -/
def toOperand : (type : ValueType) → type.Payload → Operand
  | .bool, b => ⟨.i8, if b then 1 else 0⟩
  | .i32, x => ⟨.i32, x⟩
  | .u32, x => ⟨.i32, x⟩
  | .i64, x => ⟨.i64, x⟩
  | .u64, x => ⟨.i64, x⟩
  | .f32, x => ⟨.f32, x⟩
  | .f64, x => ⟨.f64, x⟩

/-- The payload a register of the right type holds. -/
def ofOperand? : (type : ValueType) → Operand → Option type.Payload
  | .bool, ⟨.i8, x⟩ => some (x != 0)
  | .i32, ⟨.i32, x⟩ => some x
  | .u32, ⟨.i32, x⟩ => some x
  | .i64, ⟨.i64, x⟩ => some x
  | .u64, ⟨.i64, x⟩ => some x
  | .f32, ⟨.f32, x⟩ => some x
  | .f64, ⟨.f64, x⟩ => some x
  | _, _ => none

/-- A payload's register has the type of registers for its type. -/
theorem type_toOperand (type : ValueType) (x : type.Payload) :
    (type.toOperand x).type = type.machineType := by
  cases type <;> rfl

/-- A register gives back the payload it was made from. -/
theorem ofOperand?_toOperand (type : ValueType) (x : type.Payload) :
    type.ofOperand? (type.toOperand x) = some x := by
  cases type with
  | bool => cases x <;> rfl
  | _ => rfl

end ValueType

/-- The argument a register stands for; a reference must be the address of a live slot. -/
def ParamType.ofOperand (slots : Word → Option Value) :
    (p : ParamType) → Operand → Except Fault p.Arg
  | .value type, o =>
    match type.ofOperand? o with
    | some x => .ok x
    | none => .error .badOperand
  | .reference, ⟨.i64, w⟩ =>
    match slots w with
    | some v => .ok ⟨w, v⟩
    | none => .error (.noSuchSlot w)
  | .reference, _ => .error .badOperand

/-- The arguments for a list of parameters, from exactly one register each. -/
def Args.ofOperands (slots : Word → Option Value) :
    (ps : List ParamType) → List Operand → Except Fault (Args ps)
  | [], [] => .ok ()
  | p :: ps, o :: os =>
    match p.ofOperand slots o with
    | .error fault => .error fault
    | .ok a =>
      match Args.ofOperands slots ps os with
      | .error fault => .error fault
      | .ok rest => .ok (a, rest)
  | _, _ => .error .badOperand

/-- The registers in which a native result is returned: one, or none for no result. -/
def ReturnType.toOperands : (ret : ReturnType) → ret.Result → List Operand
  | .void, _ => []
  | .value type, x => [type.toOperand x]
  | .reference, r => [⟨.i64, r.toWord⟩]

end Invocation
