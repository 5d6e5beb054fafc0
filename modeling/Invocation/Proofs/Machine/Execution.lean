import Invocation.Machine.Thunk
import Invocation.Proofs.Machine.Blocks
import Invocation.Proofs.Machine.Slots

/-!
# Running the tests of a thunk

Code that tests the tags of its arguments returns the status of the first argument that its
parameter refuses (`ThunkCode.runFrom_of_accept_eq_error`), and otherwise carries out what follows
the tests (`ThunkCode.runFrom_of_accept_eq_ok`). The tests touch nothing but registers of their own.
-/

namespace Invocation.Machine

namespace Frame

variable {Reg : Type}

/-- A register that holds an operand is read. -/
theorem get_eq_ok {f : Frame Reg} {r : Reg} {o : Operand} (h : f.registers r = some o) :
    f.get r = .ok o := by
  simp [get, h]

/-- A register that holds an address is read as one. -/
theorem getAddress_eq_ok {f : Frame Reg} {r : Reg} {w : Word}
    (h : f.registers r = some ⟨.i64, w⟩) : f.getAddress r = .ok w := by
  simp [getAddress, get_eq_ok h]

/-- Registers are read one list after the other. -/
theorem getAll_append {f : Frame Reg} {rs ss : List Reg} {os ps : List Operand}
    (hr : f.getAll rs = .ok os) (hs : f.getAll ss = .ok ps) :
    f.getAll (rs ++ ss) = .ok (os ++ ps) := by
  induction rs generalizing os with
  | nil =>
    obtain rfl : os = [] := by simpa [getAll] using hr.symm
    exact hs
  | cons r rs ih =>
    rw [List.cons_append, getAll]
    rw [getAll] at hr
    cases hg : f.get r with
    | error fault => simp [hg] at hr
    | ok o =>
      cases ha : f.getAll rs with
      | error fault => simp [hg, ha] at hr
      | ok rest =>
        obtain rfl : o :: rest = os := by simpa [hg, ha] using hr
        simp [ih ha]

/-- The values of registers do not change while the registers do not. -/
theorem getAll_congr {f g : Frame Reg} {rs : List Reg}
    (h : ∀ r ∈ rs, g.registers r = f.registers r) : g.getAll rs = f.getAll rs := by
  induction rs with
  | nil => rfl
  | cons r rs ih =>
    have hr : g.get r = f.get r := by simp only [get, h r (List.mem_cons_self ..)]
    simp only [getAll, hr, ih fun s hs ↦ h s (List.mem_cons_of_mem _ hs)]

variable [DecidableEq Reg]

/-- A register that was written is read back. -/
theorem get_set_self (f : Frame Reg) (r : Reg) (o : Operand) : (f.set r o).get r = .ok o := by
  simp [get, set]

/-- A register that was written holds what was written. -/
theorem registers_set_self (f : Frame Reg) (r : Reg) (o : Operand) :
    (f.set r o).registers r = some o := by
  simp [set]

/-- A write to another register is not seen. -/
theorem registers_set_of_ne (f : Frame Reg) {r s : Reg} (o : Operand) (h : s ≠ r) :
    (f.set r o).registers s = f.registers s := by
  simp [set, h]

end Frame

section Run

variable {σ Label Reg : Type} [DecidableEq Label] [DecidableEq Reg] {env : Environment σ}

/-- An instruction that calls nothing acts on the frame alone. -/
theorem Instr.run_of_evaluate {f g : Frame Reg} {i : Instr Reg} (h : i.evaluate env f = .ok g) :
    i.run env f = pure g := by
  cases i with
  | call => simp [Instr.evaluate] at h
  | _ => simp [Instr.run, h]

/-- A constant address goes into its register. -/
theorem Instr.evaluate_const (f : Frame Reg) (r : Reg) (w : Word) :
    (Instr.const r .i64 w).evaluate env f = .ok (f.set r ⟨.i64, w⟩) := by
  simp only [evaluate, MachineType.isInteger, if_true]
  exact congrArg (fun bits ↦ Except.ok (f.set r ⟨.i64, bits⟩)) (BitVec.setWidth_eq w)

/-- What memory holds at an offset from an address goes into a register. -/
theorem Instr.evaluate_load {f : Frame Reg} {r base : Reg} {type : MachineType} {offset : Nat}
    {w : Word} {o : Operand} (hb : f.registers base = some ⟨.i64, w⟩)
    (ho : readOperand env.memory type (w + BitVec.ofNat 64 offset) = .ok o) :
    (Instr.load r type base offset).evaluate env f = .ok (f.set r o) := by
  simp only [evaluate, Frame.getAddress_eq_ok hb]
  show (readOperand env.memory type (w + BitVec.ofNat 64 offset) >>= _) = _
  rw [ho]
  rfl

/-- The outcome of a comparison with a constant goes into a register. -/
theorem Instr.evaluate_equalImm {f : Frame Reg} {arg : Reg} {o : Operand} (r : Reg) (imm : Word)
    (ho : f.registers arg = some o) (hi : o.type.isInteger = true) :
    (Instr.equalImm r arg imm).evaluate env f =
      .ok (f.set r ⟨.i8, if o.bits = imm.setWidth _ then 1 else 0⟩) := by
  simp only [evaluate, Frame.get_eq_ok ho]
  show (if o.type.isInteger = true then _ else _) = _
  rw [if_pos hi]
  rfl

/-- An address with a constant offset goes into a register. -/
theorem Instr.evaluate_addImm {f : Frame Reg} {arg : Reg} {w : Word} (r : Reg) (imm : Word)
    (hw : f.registers arg = some ⟨.i64, w⟩) :
    (Instr.addImm r arg imm).evaluate env f = .ok (f.set r ⟨.i64, w + imm⟩) := by
  simp only [evaluate, Frame.get_eq_ok hw]
  exact congrArg (fun bits ↦ Except.ok (f.set r ⟨.i64, w + bits⟩)) (BitVec.setWidth_eq imm)

/-- A widened register goes into another. -/
theorem Instr.evaluate_zeroExtend {f : Frame Reg} {arg : Reg} {type : MachineType} {o o' : Operand}
    (r : Reg) (ho : f.registers arg = some o) (hw : o.extend false type = .ok o') :
    (Instr.zeroExtend r type arg).evaluate env f = .ok (f.set r o') := by
  simp only [evaluate, Frame.get_eq_ok ho]
  show (o.extend false type >>= _) = _
  rw [hw]
  rfl

/-- A register that was widened with its sign goes into another. -/
theorem Instr.evaluate_signExtend {f : Frame Reg} {arg : Reg} {type : MachineType} {o o' : Operand}
    (r : Reg) (ho : f.registers arg = some o) (hw : o.extend true type = .ok o') :
    (Instr.signExtend r type arg).evaluate env f = .ok (f.set r o') := by
  simp only [evaluate, Frame.get_eq_ok ho]
  show (o.extend true type >>= _) = _
  rw [hw]
  rfl

/-- The bits of a register go into one of another type. -/
theorem Instr.evaluate_bitcast {f : Frame Reg} {arg : Reg} {type : MachineType} {o o' : Operand}
    (r : Reg) (ho : f.registers arg = some o) (hc : o.cast type = .ok o') :
    (Instr.bitcast r type arg).evaluate env f = .ok (f.set r o') := by
  simp only [evaluate, Frame.get_eq_ok ho]
  show (o.cast type >>= _) = _
  rw [hc]
  rfl

/-- A register is written to the one address that can be written. -/
theorem Instr.evaluate_store {f : Frame Reg} {value base : Reg} {offset : Nat} {w a : Word}
    (hw : f.registers value = some ⟨.i64, w⟩) (ha : f.registers base = some ⟨.i64, a⟩)
    (address : a + BitVec.ofNat 64 offset = env.resultAddress) :
    (Instr.store value base offset).evaluate env f = .ok { f with result := w } := by
  simp only [evaluate, Frame.getAddress_eq_ok hw, Frame.getAddress_eq_ok ha]
  exact if_pos address

/-- A call of native code by its address, with operands of its signature, is made once. -/
theorem Instr.run_call {f : Frame Reg} (results : List Reg) {regs : List Reg}
    {signature : CallSignature} {callee : Reg} {address : Word} {operands : List Operand}
    {native : NativeCode σ}
    (hc : f.getAddress callee = .ok address) (ha : f.getAll regs = .ok operands)
    (hn : env.native? address = some native) (hs : native.signature = signature)
    (ht : operands.map Operand.type = signature.params.map CallParam.type) :
    (Instr.call results signature callee regs).run env f = (do
      match f.setAll results (← native.call operands) with
      | .ok g => return g
      | .error fault => throw fault) := by
  simp only [run, hc, ha, hn]
  exact (if_neg (not_not_intro hs)).trans (if_neg (not_not_intro ht))

/-- Instructions that call nothing are carried out one by one. -/
theorem runBody_cons {f g : Frame Reg} {i : Instr Reg} (is : List (Instr Reg))
    (h : i.evaluate env f = .ok g) : runBody env (i :: is) f = runBody env is g := by
  rw [runBody, Instr.run_of_evaluate h, pure_bind]

/-- Instructions are carried out one list after the other. -/
theorem runBody_append (is js : List (Instr Reg)) (f : Frame Reg) :
    runBody env (is ++ js) f = runBody env is f >>= runBody env js := by
  induction is generalizing f with
  | nil => simp [runBody]
  | cons i is ih => simp [runBody, ih]

/-- A block whose last register holds a status returns it. -/
theorem Code.runFrom_ret {code : Code Label Reg} {l : Label} {block : Block Label Reg} {r : Reg}
    (n : Nat) (f : Frame Reg) (found : code.blocks.lookup l = some block)
    (ends : block.final = .ret [r]) :
    code.runFrom env (n + 1) l f = (do
      let g ← runBody env block.body f
      match g.get r with
      | .ok o => return ([o], g)
      | .error fault => throw fault) := by
  rw [Code.runFrom, found]
  simp only [ends, Frame.getAll]
  congr
  funext g
  cases g.get r <;> rfl

/-- A block that branches goes on in the block that its condition names. -/
theorem Code.runFrom_branch {code : Code Label Reg} {l nonzero zero : Label}
    {block : Block Label Reg} {r : Reg} {o : Operand} {g : Frame Reg} (n : Nat) (f : Frame Reg)
    (found : code.blocks.lookup l = some block) (ends : block.final = .branch r nonzero zero)
    (body : runBody env block.body f = pure g) (condition : g.get r = .ok o) :
    code.runFrom env (n + 1) l f = code.runFrom env n (if o.bits ≠ 0 then nonzero else zero) g := by
  rw [Code.runFrom, found]
  simp only [ends, body, pure_bind, condition]

end Run

/-- The registers that every block of a thunk relies on hold what the thunk was called with. -/
structure Frame.Entered (f : Frame ThunkReg) (args : ArgSlice) : Prop where
  slots : f.registers .args = some ⟨.i64, args.base⟩
  out : f.registers .out = some ⟨.i64, resultAddress args⟩

/-- Other registers may be written. -/
theorem Frame.Entered.set {f : Frame ThunkReg} {args : ArgSlice} (h : f.Entered args) {r : ThunkReg}
    (o : Operand) (ha : .args ≠ r) (ho : .out ≠ r) : (f.set r o).Entered args :=
  ⟨(f.registers_set_of_ne o ha).trans h.slots, (f.registers_set_of_ne o ho).trans h.out⟩

namespace ThunkCode

variable {σ : Type} {env : Environment σ} {args : ArgSlice} {code : Code ThunkLabel ThunkReg}

/-- A status block returns its status. -/
theorem runFrom_statusBlock {block : ThunkLabel} {status : Word} (n : Nat) (f : Frame ThunkReg)
    (found : code.blocks.lookup block = some (statusBlock block status).2) :
    ∃ g, code.runFrom env (n + 1) block f = pure ([⟨.i64, status⟩], g) := by
  refine ⟨f.set (.status block) ⟨.i64, status⟩, ?_⟩
  rw [Code.runFrom_ret n f found rfl]
  simp only [statusBlock, runBody_cons [] (Instr.evaluate_const f (.status block) status), runBody,
    pure_bind, Frame.get_set_self]

/-- A block that tests a tag goes on with the next test if the argument is of the type, and else
with the block that returns the status. -/
theorem runFrom_tagBlock {block : ThunkLabel} {index : Nat} {type : ValueType} (n : Nat)
    {f : Frame ThunkReg} (memory : env.memory = args.byteAt?) (entered : f.Entered args)
    (hi : index < args.length)
    (found : code.blocks.lookup block = some (tagBlock block index type).2) :
    ∃ g : Frame ThunkReg, g.Entered args ∧
      code.runFrom env (n + 1) block f =
        code.runFrom env n
          (if (args.valueAt index).type? = some type then .tagOk index else .tagFail index) g := by
  let loaded := f.set (.tag index) ⟨.i8, (args.valueAt index).tag⟩
  let tested := loaded.set (.tagEqual index)
    ⟨.i8, if (args.valueAt index).type? = some type then 1 else 0⟩
  have hload : (Instr.load (.tag index) .i8 .args (index * slotSize + tagOffset)).evaluate env f =
      .ok loaded := by
    apply Instr.evaluate_load entered.slots
    rw [memory]
    exact readOperand_tag args hi
  have htest : (Instr.equalImm (.tagEqual index) (.tag index) (type.tag.setWidth 64)).evaluate env
      loaded = .ok tested := by
    have hw : (type.tag.setWidth 64).setWidth 8 = type.tag := by cases type <;> rfl
    rw [Instr.evaluate_equalImm _ _ (f.registers_set_self (.tag index) _) rfl]
    simp only [tested, ← Value.tag_eq_tag_iff]
    show Except.ok (loaded.set _ ⟨.i8, if _ = (type.tag.setWidth 64).setWidth 8 then 1 else 0⟩) = _
    rw [hw]
  have hbody : runBody env (tagBlock block index type).2.body f = pure tested := by
    rw [tagBlock, runBody_cons _ hload, runBody_cons _ htest, runBody]
  refine ⟨tested, (entered.set _ (by simp) (by simp)).set _ (by simp) (by simp), ?_⟩
  rw [Code.runFrom_branch n f found rfl hbody (loaded.get_set_self _ _)]
  by_cases ht : (args.valueAt index).type? = some type
  · simp [ht]
  · simp [ht]

/-- What follows the last test is found where the tests end. -/
theorem runFrom_lastBlock {body : List (Instr ThunkReg)} {block : ThunkLabel} {index : Nat}
    (n : Nat) (f : Frame ThunkReg)
    (found : ∀ p ∈ checkedBlocks body block index [], code.blocks.lookup p.1 = some p.2) :
    code.runFrom env (n + 1) block f = do
      let g ← runBody env body f
      return ([⟨.i64, statusOk⟩], g.set (.status block) ⟨.i64, statusOk⟩) := by
  rw [Code.runFrom_ret n f (found _ (List.mem_singleton_self _)) rfl]
  simp only [runBody_append, bind_assoc, runBody, pure_bind, Frame.get_set_self,
    Instr.run_of_evaluate (Instr.evaluate_const _ (ThunkReg.status block) statusOk)]

/-- The tests go past an argument that its parameter accepts. -/
theorem runFrom_checkedBlocks_cons {body : List (Instr ThunkReg)} {block : ThunkLabel} {index : Nat}
    {p : ParamType} {ps : List ParamType} {x : p.Arg} {n : Nat} {f : Frame ThunkReg}
    (memory : env.memory = args.byteAt?) (entered : f.Entered args) (hi : index < args.length)
    (found : ∀ b ∈ checkedBlocks body block index ((p :: ps).map ParamType.conversion),
      code.blocks.lookup b.1 = some b.2)
    (fuel : (checkedBlocks body block index ((p :: ps).map ParamType.conversion)).length ≤ n)
    (accepted : p.accept (args.slotAddress index) (args.valueAt index) = .ok x) :
    ∃ (next : ThunkLabel) (m : Nat) (g : Frame ThunkReg), g.Entered args ∧
      (∀ b ∈ checkedBlocks body next (index + 1) (ps.map ParamType.conversion),
        code.blocks.lookup b.1 = some b.2) ∧
      (checkedBlocks body next (index + 1) (ps.map ParamType.conversion)).length ≤ m ∧
      code.runFrom env n block f = code.runFrom env m next g := by
  cases p with
  | reference => exact ⟨block, n, f, entered, found, fuel, rfl⟩
  | value type =>
    simp only [List.map_cons, ParamType.conversion, checkedBlocks, List.mem_cons, List.length_cons]
      at found fuel
    obtain ⟨m, rfl⟩ : ∃ m, n = m + 1 := ⟨n - 1, by omega⟩
    have htag : code.blocks.lookup block = some (tagBlock block index type).2 := found _ (.inl rfl)
    obtain ⟨g, hg, hrun⟩ := runFrom_tagBlock m memory entered hi htag
    have hv : args.valueAt index = .inline type x :=
      (ParamType.accept_eq_ok_iff _ _ _ _).mp accepted
    rw [hv, Value.type?, if_pos rfl] at hrun
    exact ⟨.tagOk index, m, g, hg, fun b hb ↦ found b (.inr (.inr hb)), by omega, hrun⟩

/-- The tests end at the first argument that its parameter refuses, with its status. -/
theorem runFrom_of_accept_eq_error {body : List (Instr ThunkReg)} {block : ThunkLabel} {index : Nat}
    {ps : List ParamType} {r : Refusal} {n : Nat} {f : Frame ThunkReg}
    (memory : env.memory = args.byteAt?) (entered : f.Entered args)
    (fits : index + ps.length ≤ args.length)
    (found : ∀ b ∈ checkedBlocks body block index (ps.map ParamType.conversion),
      code.blocks.lookup b.1 = some b.2)
    (fuel : (checkedBlocks body block index (ps.map ParamType.conversion)).length ≤ n)
    (refused : Args.accept args index ps = .error r) :
    ∃ g, code.runFrom env n block f = pure ([⟨.i64, statusTypeMismatch r.index⟩], g) := by
  induction ps generalizing index block n f with
  | nil => simp [Args.accept] at refused
  | cons p ps ih =>
    rw [List.length_cons] at fits
    obtain ⟨type, hp, rfl⟩ | ⟨⟨x, hp⟩, hr⟩ :=
      (Args.accept_cons_eq_error_iff args index p ps r).mp refused
    · obtain ⟨rfl, hv⟩ := (ParamType.accept_eq_error_iff _ _ _ _).mp hp
      simp only [List.map_cons, ParamType.conversion, checkedBlocks, List.mem_cons,
        List.length_cons] at found fuel
      obtain ⟨m, rfl⟩ : ∃ m, n = m + 1 + 1 := ⟨n - 2, by omega⟩
      have htag : code.blocks.lookup block = some (tagBlock block index type).2 :=
        found _ (.inl rfl)
      obtain ⟨g, -, hrun⟩ :=
        runFrom_tagBlock (m + 1) memory entered (by omega : index < args.length) htag
      rw [if_neg hv] at hrun
      rw [hrun]
      exact runFrom_statusBlock m g (found (statusBlock (.tagFail index) _) (.inr (.inl rfl)))
    · obtain ⟨next, m, g, hg, hfound, hfuel, hrun⟩ :=
        runFrom_checkedBlocks_cons memory entered (by omega : index < args.length) found fuel hp
      rw [hrun]
      exact ih hg (by omega) hfound hfuel hr

/-- The tests go past arguments that are all accepted, to what follows them. -/
theorem runFrom_of_accept_eq_ok {body : List (Instr ThunkReg)} {block : ThunkLabel} {index : Nat}
    {ps : List ParamType} {xs : Args ps} {n : Nat} {f : Frame ThunkReg}
    (memory : env.memory = args.byteAt?) (entered : f.Entered args)
    (fits : index + ps.length ≤ args.length)
    (found : ∀ b ∈ checkedBlocks body block index (ps.map ParamType.conversion),
      code.blocks.lookup b.1 = some b.2)
    (fuel : (checkedBlocks body block index (ps.map ParamType.conversion)).length ≤ n)
    (accepted : Args.accept args index ps = .ok xs) :
    ∃ (last : ThunkLabel) (g : Frame ThunkReg), g.Entered args ∧
      code.runFrom env n block f = do
        let h ← runBody env body g
        return ([⟨.i64, statusOk⟩], h.set (.status last) ⟨.i64, statusOk⟩) := by
  induction ps generalizing index block n f with
  | nil =>
    obtain ⟨m, rfl⟩ : ∃ m, n = m + 1 := ⟨n - 1, by simp [checkedBlocks] at fuel; omega⟩
    exact ⟨block, f, entered, runFrom_lastBlock m f found⟩
  | cons p ps ih =>
    rw [List.length_cons] at fits
    obtain ⟨x, rest⟩ := xs
    obtain ⟨hp, hr⟩ := (Args.accept_cons_eq_ok_iff args index p ps x rest).mp accepted
    obtain ⟨next, m, g, hg, hfound, hfuel, hrun⟩ :=
      runFrom_checkedBlocks_cons memory entered (by omega : index < args.length) found fuel hp
    rw [hrun]
    exact ih hg (by omega) hfound hfuel hr

end ThunkCode
end Invocation.Machine
