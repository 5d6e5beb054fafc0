import Invocation.Machine.CallSignature

/-!
# Machine code

Code is a list of labelled blocks of typed instructions, each ending in one terminator. It is
assembled from directives: create a block, enter a block, emit an instruction, finish the block.
Assembly fails if a block is entered that was not created, is entered twice or never, or is left
without a terminator. Labels and registers are whatever the generator names them by.
-/

namespace Invocation.Machine

/-- One instruction; results are written to the registers named first. -/
inductive Instr (Reg : Type) where
  /-- A constant. -/
  | const (result : Reg) (type : MachineType) (imm : Word)
  /-- Whether a register equals a constant, as 1 or 0 in a byte. -/
  | equalImm (result arg : Reg) (imm : Word)
  /-- The sum of a register and a constant, without carry. -/
  | addImm (result arg : Reg) (imm : Word)
  /-- Read memory at an offset from an address. -/
  | load (result : Reg) (type : MachineType) (base : Reg) (offset : Nat)
  /-- Write a register to memory at an offset from an address. -/
  | store (value base : Reg) (offset : Nat)
  /-- Call the code at an address. -/
  | call (results : List Reg) (signature : CallSignature) (callee : Reg) (args : List Reg)
  /-- Widen an integer with zeros. -/
  | zeroExtend (result : Reg) (type : MachineType) (arg : Reg)
  /-- Widen an integer with copies of its sign. -/
  | signExtend (result : Reg) (type : MachineType) (arg : Reg)
  /-- The same bits as another type of the same width. -/
  | bitcast (result : Reg) (type : MachineType) (arg : Reg)
  deriving DecidableEq, Repr

/-- How a block ends. -/
inductive Terminator (Label Reg : Type) where
  /-- Go to the first block if a register is not zero, else to the second. -/
  | branch (condition : Reg) (nonzero zero : Label)
  /-- Return from the code. -/
  | ret (values : List Reg)
  deriving DecidableEq, Repr

/-- A block: the registers bound on entry, the instructions, and the terminator. -/
structure Block (Label Reg : Type) where
  params : List (Reg × MachineType)
  body : List (Instr Reg)
  final : Terminator Label Reg
  deriving Repr

/-- Assembled code: its blocks by label, the entry block first. -/
structure Code (Label Reg : Type) where
  blocks : List (Label × Block Label Reg)
  deriving Repr

/-- One step in writing code down. -/
inductive Directive (Label Reg : Type) where
  | create (label : Label) (params : List (Reg × MachineType))
  | enter (label : Label)
  | emit (instr : Instr Reg)
  | finish (final : Terminator Label Reg)
  deriving Repr

/-- Why directives do not make up code. -/
inductive AssemblyError where
  | createdTwice
  | notCreated
  | enteredTwice
  | noOpenBlock
  | unfinishedBlock
  | neverEntered
  deriving DecidableEq, Repr

/-- Code that is being assembled: blocks that were created but not entered, the block that is
open with its instructions so far in reverse, and the finished blocks in reverse. -/
structure Assembly (Label Reg : Type) where
  pending : List (Label × List (Reg × MachineType))
  current : Option (Label × List (Reg × MachineType) × List (Instr Reg))
  finished : List (Label × Block Label Reg)

namespace Assembly

variable {Label Reg : Type} [DecidableEq Label]

/-- Nothing written yet. -/
def empty : Assembly Label Reg := ⟨[], none, []⟩

/-- Whether a label has been created, whatever became of its block since. -/
def knows (a : Assembly Label Reg) (l : Label) : Bool :=
  a.pending.any (·.1 == l) || a.current.any (·.1 == l) || a.finished.any (·.1 == l)

/-- Follow one directive. -/
def follow (a : Assembly Label Reg) :
    Directive Label Reg → Except AssemblyError (Assembly Label Reg)
  | .create l params =>
    if a.knows l then .error .createdTwice
    else .ok { a with pending := a.pending ++ [(l, params)] }
  | .enter l =>
    match a.current with
    | some _ => .error .unfinishedBlock
    | none =>
      match a.pending.lookup l with
      | some params =>
        .ok { a with pending := a.pending.filter (·.1 != l), current := some (l, params, []) }
      | none => .error (if a.knows l then .enteredTwice else .notCreated)
  | .emit i =>
    match a.current with
    | some (l, params, body) => .ok { a with current := some (l, params, i :: body) }
    | none => .error .noOpenBlock
  | .finish t =>
    match a.current with
    | some (l, params, body) =>
      .ok { a with current := none, finished := (l, ⟨params, body.reverse, t⟩) :: a.finished }
    | none => .error .noOpenBlock

/-- Follow a list of directives. -/
def followAll (a : Assembly Label Reg) :
    List (Directive Label Reg) → Except AssemblyError (Assembly Label Reg)
  | [] => .ok a
  | d :: ds =>
    match a.follow d with
    | .error e => .error e
    | .ok b => b.followAll ds

end Assembly

/-- The code that a list of directives writes down. -/
def assemble {Label Reg : Type} [DecidableEq Label] (ds : List (Directive Label Reg)) :
    Except AssemblyError (Code Label Reg) :=
  match Assembly.empty.followAll ds with
  | .error e => .error e
  | .ok a =>
    match a.current, a.pending with
    | some _, _ => .error .unfinishedBlock
    | none, _ :: _ => .error .neverEntered
    | none, [] => .ok ⟨a.finished.reverse⟩

end Invocation.Machine
