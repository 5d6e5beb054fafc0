import Invocation.Machine.Code

/-!
# The types of registers

Which registers have been written when an instruction is reached, and with which types, follows from
the instructions before it. An instruction is well typed if the registers that it reads are written
by then, with the types that it works on (`Instr.WellTyped`). Which instructions are reached past
which branches is said by paths through the blocks of the code (`Code.Path`, `Code.Reaches`).
-/

namespace Invocation.Machine

variable {Label Reg : Type} [DecidableEq Reg]

/-- The types of the registers that have been written. -/
abbrev Context (Reg : Type) := Reg → Option MachineType

namespace Context

/-- The types after one more register is written. -/
def write (Γ : Context Reg) (r : Reg) (type : MachineType) : Context Reg :=
  fun s ↦ if s = r then some type else Γ s

/-- The types after registers are written, in order. -/
def writeAll (Γ : Context Reg) : List (Reg × MachineType) → Context Reg
  | [] => Γ
  | (r, type) :: rest => (Γ.write r type).writeAll rest

@[simp] theorem write_self (Γ : Context Reg) (r : Reg) (type : MachineType) :
    Γ.write r type r = some type := if_pos rfl

theorem write_of_ne (Γ : Context Reg) {r s : Reg} (type : MachineType) (h : s ≠ r) :
    Γ.write r type s = Γ s := if_neg h

/-- A register that is not among those written keeps its type. -/
theorem writeAll_of_notMem {Γ : Context Reg} {rs : List (Reg × MachineType)} {s : Reg}
    (h : s ∉ rs.map Prod.fst) : Γ.writeAll rs s = Γ s := by
  induction rs generalizing Γ with
  | nil => rfl
  | cons r rs ih =>
    rw [List.map_cons, List.mem_cons, not_or] at h
    exact (ih h.2).trans (Γ.write_of_ne r.2 h.1)

end Context

namespace Instr

/-- The registers that an instruction writes, with their types. -/
def results (Γ : Context Reg) : Instr Reg → List (Reg × MachineType)
  | .const r type _ | .load r type _ _ => [(r, type)]
  | .equalImm r _ _ => [(r, .i8)]
  | .addImm r arg _ => (Γ arg).toList.map (r, ·)
  | .store .. => []
  | .call rs signature _ _ => rs.zip (signature.returns.map CallParam.type)
  | .zeroExtend r type _ | .signExtend r type _ | .bitcast r type _ => [(r, type)]

/-- The registers that an instruction reads are written, with types that it works on. A call takes
an operand of the right type for each parameter of its signature, and has a register for each
result. -/
def WellTyped (Γ : Context Reg) : Instr Reg → Prop
  | .const _ type _ => type.isInteger
  | .equalImm _ arg _ | .addImm _ arg _ => ∃ type, Γ arg = some type ∧ type.isInteger
  | .load _ _ base _ => Γ base = some .i64
  | .store value base _ => Γ value = some .i64 ∧ Γ base = some .i64
  | .call rs signature callee args =>
    Γ callee = some .i64 ∧ args.map Γ = signature.params.map (some ·.type) ∧
      rs.length = signature.returns.length
  | .zeroExtend _ type arg | .signExtend _ type arg =>
    ∃ narrow, Γ arg = some narrow ∧ narrow.isInteger ∧ type.isInteger ∧ narrow.width < type.width
  | .bitcast _ type arg => ∃ other, Γ arg = some other ∧ other.width = type.width

/-- An instruction can write a register. -/
def Sets (i : Instr Reg) (r : Reg) : Prop :=
  ∃ Γ : Context Reg, r ∈ (i.results Γ).map Prod.fst

/-- Whether an instruction calls code. -/
def isCall : Instr Reg → Bool
  | .call .. => true
  | _ => false

/-- Whether an instruction writes memory. -/
def isStore : Instr Reg → Bool
  | .store .. => true
  | _ => false

end Instr

/-- A block can end this way with these registers written: a branch tests one of them, and what is
returned is of the given types. -/
def Terminator.WellTyped (Γ : Context Reg) (returns : List MachineType) :
    Terminator Label Reg → Prop
  | .branch condition _ _ => ∃ type, Γ condition = some type ∧ type.isInteger
  | .ret values => values.map Γ = returns.map some

namespace Context

/-- The types after instructions. -/
def after (Γ : Context Reg) : List (Instr Reg) → Context Reg
  | [] => Γ
  | i :: is => (Γ.writeAll (i.results Γ)).after is

/-- Instructions are well typed one after the other. -/
def Types (Γ : Context Reg) : List (Instr Reg) → Prop
  | [] => True
  | i :: is => i.WellTyped Γ ∧ (Γ.writeAll (i.results Γ)).Types is

theorem after_append (Γ : Context Reg) (is js : List (Instr Reg)) :
    Γ.after (is ++ js) = (Γ.after is).after js := by
  induction is generalizing Γ with
  | nil => rfl
  | cons i is ih => exact ih _

theorem types_append_iff {Γ : Context Reg} {is js : List (Instr Reg)} :
    Γ.Types (is ++ js) ↔ Γ.Types is ∧ (Γ.after is).Types js := by
  induction is generalizing Γ with
  | nil => simp [Types, after]
  | cons i is ih => simp only [List.cons_append, Types, after, ih, and_assoc]

/-- Each of a list of well-typed instructions is well typed where it is reached. -/
theorem Types.wellTyped {Γ : Context Reg} {is js : List (Instr Reg)} {i : Instr Reg}
    (h : Γ.Types (is ++ i :: js)) : i.WellTyped (Γ.after is) :=
  (types_append_iff.mp h).2.1

/-- The types past branches: those after the blocks that they end. -/
def along (Γ : Context Reg) : List (Block Label Reg × Bool) → Context Reg
  | [] => Γ
  | (block, _) :: rest => (Γ.after block.body).along rest

end Context

/-- All instructions of a block are well typed, and it ends in a well-typed way. -/
structure Block.WellTyped (Γ : Context Reg) (returns : List MachineType) (block : Block Label Reg) :
    Prop where
  body : Γ.Types block.body
  final : block.final.WellTyped (Γ.after block.body) returns

namespace Code

variable [DecidableEq Label]

/-- The ways through the blocks of code, from one block to another: for each branch on the way the
block that it ends, and whether its condition held. -/
inductive Path (code : Code Label Reg) : Label → List (Block Label Reg × Bool) → Label → Prop
  | here (l : Label) : Path code l [] l
  | branch {l m nonzero zero : Label} {block : Block Label Reg} {condition : Reg}
    {rest : List (Block Label Reg × Bool)} (holds : Bool) : code.blocks.lookup l = some block →
    block.final = .branch condition nonzero zero →
    Path code (if holds then nonzero else zero) rest m → Path code l ((block, holds) :: rest) m

/-- From a block, with the registers written by then, an instruction is reached past some branches,
with these registers written. -/
def Reaches (code : Code Label Reg) (l : Label) (Γ : Context Reg)
    (branches : List (Block Label Reg × Bool)) (i : Instr Reg) (Γ' : Context Reg) : Prop :=
  ∃ m block done rest, code.Path l branches m ∧ code.blocks.lookup m = some block ∧
    block.body = done ++ i :: rest ∧ Γ' = (Γ.along branches).after done

end Code

end Invocation.Machine
