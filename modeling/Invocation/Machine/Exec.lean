import Invocation.Machine.Code
import Invocation.Machine.Memory

/-!
# Running machine code

Code runs on registers, on the argument slots (which it can only read), and on the one result word
(which it can only write). A call goes to native code by its address. Whatever the code does outside
of that is a fault. The number of blocks bounds how long code may run, so that running is total.
-/

namespace Invocation.Machine

/-- Native code as generated code sees it: its call signature, and what it does with registers. -/
structure NativeCode (σ : Type) where
  signature : CallSignature
  call : List Operand → CallM σ (List Operand)

/-- What code can reach: native code by address, memory to read, and the address of the result. -/
structure Environment (σ : Type) where
  native? : Word → Option (NativeCode σ)
  memory : Word → Option (BitVec 8)
  resultAddress : Word

/-- The registers written so far, and the result word. -/
structure Frame (Reg : Type) where
  registers : Reg → Option Operand
  result : Word

namespace Frame

variable {Reg : Type} [DecidableEq Reg]

/-- Write a register. -/
def set (f : Frame Reg) (r : Reg) (o : Operand) : Frame Reg :=
  { f with registers := fun s ↦ if s = r then some o else f.registers s }

/-- Write registers in order; there must be one operand for each. -/
def setAll (f : Frame Reg) : List Reg → List Operand → Except Fault (Frame Reg)
  | [], [] => .ok f
  | r :: rs, o :: os => (f.set r o).setAll rs os
  | _, _ => .error .badOperand

/-- Read a register. -/
def get (f : Frame Reg) (r : Reg) : Except Fault Operand :=
  match f.registers r with
  | some o => .ok o
  | none => .error .badOperand

/-- Read registers in order. -/
def getAll (f : Frame Reg) : List Reg → Except Fault (List Operand)
  | [] => .ok []
  | r :: rs =>
    match f.get r with
    | .error fault => .error fault
    | .ok o =>
      match f.getAll rs with
      | .error fault => .error fault
      | .ok os => .ok (o :: os)

/-- Read a register that holds an address. -/
def getAddress (f : Frame Reg) (r : Reg) : Except Fault Word :=
  match f.get r with
  | .ok ⟨.i64, w⟩ => .ok w
  | .ok _ => .error .badOperand
  | .error fault => .error fault

end Frame

variable {σ Label Reg : Type} [DecidableEq Label] [DecidableEq Reg]

/-- Widen an integer register; it must be narrower than the result. -/
def Operand.extend (signed : Bool) (type : MachineType) (o : Operand) : Except Fault Operand :=
  if o.type.isInteger && type.isInteger && o.type.width < type.width then
    .ok ⟨type, if signed then o.bits.signExtend _ else o.bits.setWidth _⟩
  else .error .badOperand

/-- Read the bits of a register as another type of the same width. -/
def Operand.cast (type : MachineType) (o : Operand) : Except Fault Operand :=
  if o.type.width = type.width then .ok ⟨type, o.bits.setWidth _⟩ else .error .badOperand

/-- What an instruction that calls nothing does to the frame. -/
def Instr.evaluate (env : Environment σ) (f : Frame Reg) : Instr Reg → Except Fault (Frame Reg)
  | .const r type imm =>
    if type.isInteger then .ok (f.set r ⟨type, imm.setWidth _⟩) else .error .badOperand
  | .equalImm r arg imm => do
    let o ← f.get arg
    if o.type.isInteger then
      return f.set r ⟨.i8, if o.bits = imm.setWidth _ then 1 else 0⟩
    else throw .badOperand
  | .addImm r arg imm => do
    let o ← f.get arg
    if o.type.isInteger then return f.set r ⟨o.type, o.bits + imm.setWidth _⟩
    else throw .badOperand
  | .load r type base offset => do
    let address ← f.getAddress base
    return f.set r (← readOperand env.memory type (address + BitVec.ofNat 64 offset))
  | .store value base offset => do
    let w ← f.getAddress value
    let address := (← f.getAddress base) + BitVec.ofNat 64 offset
    if address = env.resultAddress then return { f with result := w }
    else throw (.unmapped address)
  | .zeroExtend r type arg => do return f.set r (← (← f.get arg).extend false type)
  | .signExtend r type arg => do return f.set r (← (← f.get arg).extend true type)
  | .bitcast r type arg => do return f.set r (← (← f.get arg).cast type)
  | .call .. => .error .badOperand

/-- Carry out one instruction. A call needs native code of exactly the named signature, and operands
of exactly its types. -/
def Instr.run (env : Environment σ) (f : Frame Reg) : Instr Reg → CallM σ (Frame Reg)
  | .call results signature callee args =>
    match f.getAddress callee, f.getAll args with
    | .ok address, .ok operands =>
      match env.native? address with
      | none => throw (.badCallee address)
      | some code =>
        if code.signature ≠ signature then throw (.badCallee address)
        else if operands.map Operand.type ≠ signature.params.map CallParam.type then
          throw .badOperand
        else do
          match f.setAll results (← code.call operands) with
          | .ok f => return f
          | .error fault => throw fault
    | .error fault, _ | _, .error fault => throw fault
  | i =>
    match i.evaluate env f with
    | .ok f => return f
    | .error fault => throw fault

/-- Carry out instructions in order. -/
def runBody (env : Environment σ) : List (Instr Reg) → Frame Reg → CallM σ (Frame Reg)
  | [], f => return f
  | i :: is, f => do runBody env is (← i.run env f)

/-- Run code from a block on, through at most the given number of blocks. -/
def Code.runFrom (env : Environment σ) (code : Code Label Reg) :
    Nat → Label → Frame Reg → CallM σ (List Operand × Frame Reg)
  | 0, _, _ => throw .endless
  | n + 1, l, f => do
    match code.blocks.lookup l with
    | none => throw .noSuchBlock
    | some block =>
      let f ← runBody env block.body f
      match block.final with
      | .ret values =>
        match f.getAll values with
        | .ok operands => return (operands, f)
        | .error fault => throw fault
      | .branch condition nonzero zero =>
        match f.get condition with
        | .ok o => code.runFrom env n (if o.bits ≠ 0 then nonzero else zero) f
        | .error fault => throw fault

/-- Run code from its first block, whose parameters are bound to the given operands. -/
def Code.run (env : Environment σ) (code : Code Label Reg) (args : List Operand) :
    CallM σ (List Operand × Frame Reg) :=
  match code.blocks with
  | [] => throw .noSuchBlock
  | (l, block) :: _ =>
    if args.map Operand.type ≠ block.params.map Prod.snd then throw .badOperand
    else
      match (⟨fun _ ↦ none, 0⟩ : Frame Reg).setAll (block.params.map Prod.fst) args with
      | .ok f => code.runFrom env code.blocks.length l f
      | .error fault => throw fault

end Invocation.Machine
