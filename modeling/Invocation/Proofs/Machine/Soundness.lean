import Invocation.Proofs.Machine.Paths
import Invocation.Proofs.Machine.Refinement

/-!
# Well-typed code does not go wrong

Code is well typed from a block on if all ways from there lead to well-typed blocks and end
(`Code.WellTypedFrom`). When it is run it comes to results of the types that it returns, or to a
fault that is not its own: there is no memory at an address, there is no native code of the
signature at another, or that native code has faulted (`Code.runFrom_of_wellTyped`). So it neither
reads a register that is not written or is of another type, nor goes to a block that there is not,
nor runs without end. The code of a thunk is such code, whatever it is called with
(`ThunkCode.run_ends`). In particular this holds of the code that is generated for a binding, where
the native code faults only for a reference to no slot (`run_ends_of_generate`).
-/

namespace Invocation

/-- From every state a computation comes to a result of which something holds, or to a fault that is
expected. -/
def CallM.Ends {σ β : Type} (expected : Fault → Prop) (P : β → Prop) (x : CallM σ β) : Prop :=
  ∀ s, match (x.run s).1 with
    | .ok a => P a
    | .error fault => expected fault

namespace CallM.Ends

variable {σ β γ : Type} {expected expected' : Fault → Prop} {P : β → Prop} {Q : γ → Prop}

/-- What has come to a result is at its end. -/
theorem pure {a : β} (h : P a) : CallM.Ends expected P (pure a : CallM σ β) := fun _ ↦ h

/-- A fault that is expected may be raised. -/
theorem throw {fault : Fault} (h : expected fault) :
    CallM.Ends expected P (throw fault : CallM σ β) := fun _ ↦ h

/-- A computation goes on from what it has come to. -/
theorem bind {x : CallM σ β} {f : β → CallM σ γ} (hx : CallM.Ends expected P x)
    (hf : ∀ a, P a → CallM.Ends expected Q (f a)) : CallM.Ends expected Q (x >>= f) := by
  intro s
  have hs := hx s
  change match (ExceptT.bindCont f (x.run s).1 (x.run s).2).1 with
    | .ok a => Q a
    | .error fault => expected fault
  cases h : (x.run s).1 with
  | ok a =>
    rw [h] at hs
    exact hf a hs _
  | error fault =>
    rw [h] at hs
    exact hs

/-- More faults can be expected. -/
theorem mono {x : CallM σ β} (hx : CallM.Ends expected P x) (h : ∀ e, expected e → expected' e) :
    CallM.Ends expected' P x := by
  intro s
  have hs := hx s
  cases hr : (x.run s).1 with
  | ok a =>
    rw [hr] at hs
    exact hs
  | error fault =>
    rw [hr] at hs
    exact h fault hs

end CallM.Ends

end Invocation

namespace Invocation.Machine

variable {σ Label Reg : Type} [DecidableEq Reg]

/-- Native code gives results of its signature for operands of its signature, or a fault that is
expected. -/
def Environment.Keeps (env : Environment σ) (expected : Fault → Prop) : Prop :=
  ∀ address native, env.native? address = some native → ∀ operands,
    operands.map Operand.type = native.signature.params.map CallParam.type →
    CallM.Ends expected
      (fun results ↦ results.map Operand.type = native.signature.returns.map CallParam.type)
      (native.call operands)

/-- The faults that well-typed code can come to: those of what it reaches for. -/
inductive Foreign (expected : Fault → Prop) : Fault → Prop
  | unmapped (address : Word) : Foreign expected (.unmapped address)
  | badCallee (address : Word) : Foreign expected (.badCallee address)
  | native {fault : Fault} : expected fault → Foreign expected fault

/-- The registers of a frame hold operands of the types of a context. -/
def Frame.Has (f : Frame Reg) (Γ : Context Reg) : Prop :=
  ∀ r type, Γ r = some type → ∃ o, f.registers r = some o ∧ o.type = type

namespace Frame.Has

variable {f : Frame Reg} {Γ : Context Reg}

/-- A register that is written has the type of what is written to it. -/
theorem set (has : f.Has Γ) (r : Reg) (o : Operand) : (f.set r o).Has (Γ.write r o.type) := by
  intro s type hs
  by_cases h : s = r
  · subst h
    rw [Γ.write_self] at hs
    exact ⟨o, f.registers_set_self s o, Option.some.inj hs⟩
  · rw [Γ.write_of_ne _ h] at hs
    rw [f.registers_set_of_ne o h]
    exact has s type hs

omit [DecidableEq Reg] in
/-- A register of the type of addresses holds an address. -/
theorem address (has : f.Has Γ) {r : Reg} (hr : Γ r = some .i64) :
    ∃ w, f.registers r = some ⟨.i64, w⟩ := by
  obtain ⟨⟨type, bits⟩, ho, ht⟩ := has r .i64 hr
  cases ht
  exact ⟨bits, ho⟩

omit [DecidableEq Reg] in
/-- Registers of some types hold operands of these types. -/
theorem getAll (has : f.Has Γ) {rs : List Reg} {types : List MachineType}
    (h : rs.map Γ = types.map some) :
    ∃ os, f.getAll rs = .ok os ∧ os.map Operand.type = types := by
  induction rs generalizing types with
  | nil =>
    obtain rfl : types = [] := by simpa using h.symm
    exact ⟨[], rfl, rfl⟩
  | cons r rs ih =>
    cases types with
    | nil => cases h
    | cons type types =>
      rw [List.map_cons, List.map_cons, List.cons.injEq] at h
      obtain ⟨o, ho, rfl⟩ := has r type h.1
      obtain ⟨os, hos, rfl⟩ := ih h.2
      exact ⟨o :: os, by simp only [Frame.getAll, get_eq_ok ho, hos], rfl⟩

/-- Registers that are written, one for each operand, have the types of the operands. -/
theorem setAll (has : f.Has Γ) {rs : List Reg} {os : List Operand} (h : rs.length = os.length) :
    ∃ g, f.setAll rs os = .ok g ∧ g.Has (Γ.writeAll (rs.zip (os.map Operand.type))) := by
  induction rs generalizing f Γ os with
  | nil =>
    obtain rfl : os = [] := List.length_eq_zero_iff.mp h.symm
    exact ⟨f, rfl, has⟩
  | cons r rs ih =>
    cases os with
    | nil => cases h
    | cons o os => exact ih (has.set r o) (Nat.succ.inj h)

end Frame.Has

/-- Bytes can be read, unless there is no memory for one of them. -/
theorem readBytes_cases (memory : Word → Option (BitVec 8)) (n : Nat) (address : Word) :
    (∃ bs, readBytes memory n address = .ok bs) ∨
      ∃ a, readBytes memory n address = .error (.unmapped a) := by
  induction n generalizing address with
  | zero => exact .inl ⟨[], rfl⟩
  | succ n ih =>
    cases hm : memory address with
    | none => exact .inr ⟨address, by simp [readBytes, hm]⟩
    | some b =>
      rcases ih (address + 1) with ⟨bs, hbs⟩ | ⟨a, ha⟩
      · exact .inl ⟨b :: bs, by simp only [readBytes, hm, hbs]⟩
      · exact .inr ⟨a, by simp only [readBytes, hm, ha]⟩

/-- A register of a type can be read from memory, unless there is none. -/
theorem readOperand_cases (memory : Word → Option (BitVec 8)) (type : MachineType)
    (address : Word) :
    (∃ bits, readOperand memory type address = .ok ⟨type, bits⟩) ∨
      ∃ a, readOperand memory type address = .error (.unmapped a) := by
  rcases readBytes_cases memory type.bytes address with ⟨bs, hbs⟩ | ⟨a, ha⟩
  · exact .inl ⟨BitVec.ofNat _ (ofBytes bs), by simp only [readOperand, hbs]⟩
  · exact .inr ⟨a, by simp only [readOperand, ha]⟩

/-- A narrow integer can be widened. -/
theorem Operand.extend_eq_ok (signed : Bool) {type : MachineType} {o : Operand}
    (ho : o.type.isInteger = true) (ht : type.isInteger = true) (hw : o.type.width < type.width) :
    ∃ bits, o.extend signed type = .ok ⟨type, bits⟩ :=
  ⟨_, if_pos (by simp [ho, ht, hw])⟩

/-- A well-typed instruction that calls nothing leaves the registers with the expected types, or
accesses memory that there is not. -/
theorem Instr.evaluate_of_wellTyped (env : Environment σ) {f : Frame Reg} {Γ : Context Reg}
    {i : Instr Reg} (typed : i.WellTyped Γ) (has : f.Has Γ) (plain : i.isCall = false) :
    (∃ g, i.evaluate env f = .ok g ∧ g.Has (Γ.writeAll (i.results Γ))) ∨
      ∃ address, i.evaluate env f = .error (.unmapped address) := by
  cases i with
  | const r type imm => exact .inl ⟨_, if_pos typed, has.set r _⟩
  | equalImm r arg imm =>
    obtain ⟨type, ha, hi⟩ := typed
    obtain ⟨o, ho, rfl⟩ := has arg type ha
    exact .inl ⟨_, Instr.evaluate_equalImm r imm ho hi, has.set r _⟩
  | addImm r arg imm =>
    obtain ⟨type, ha, hi⟩ := typed
    obtain ⟨o, ho, rfl⟩ := has arg type ha
    refine .inl ⟨f.set r ⟨o.type, o.bits + imm.setWidth _⟩, ?_, ?_⟩
    · simp only [evaluate, Frame.get_eq_ok ho]
      exact if_pos hi
    · rw [results, ha]
      exact has.set r _
  | load r type base offset =>
    obtain ⟨w, hw⟩ := has.address typed
    rcases readOperand_cases env.memory type (w + BitVec.ofNat 64 offset) with ⟨bits, hr⟩ | ⟨a, hr⟩
    · exact .inl ⟨_, Instr.evaluate_load hw hr, has.set r ⟨type, bits⟩⟩
    · refine .inr ⟨a, ?_⟩
      simp only [evaluate, Frame.getAddress_eq_ok hw]
      show (readOperand env.memory type (w + BitVec.ofNat 64 offset) >>= _) = _
      rw [hr]
      rfl
  | store value base offset =>
    obtain ⟨w, hw⟩ := has.address typed.1
    obtain ⟨a, ha⟩ := has.address typed.2
    by_cases h : a + BitVec.ofNat 64 offset = env.resultAddress
    · exact .inl ⟨_, Instr.evaluate_store hw ha h, has⟩
    · refine .inr ⟨a + BitVec.ofNat 64 offset, ?_⟩
      simp only [evaluate, Frame.getAddress_eq_ok hw, Frame.getAddress_eq_ok ha]
      exact if_neg h
  | call => cases plain
  | zeroExtend r type arg =>
    obtain ⟨narrow, ha, hn, ht, hw⟩ := typed
    obtain ⟨o, ho, rfl⟩ := has arg narrow ha
    obtain ⟨bits, he⟩ := o.extend_eq_ok false hn ht hw
    exact .inl ⟨_, Instr.evaluate_zeroExtend r ho he, has.set r ⟨type, bits⟩⟩
  | signExtend r type arg =>
    obtain ⟨narrow, ha, hn, ht, hw⟩ := typed
    obtain ⟨o, ho, rfl⟩ := has arg narrow ha
    obtain ⟨bits, he⟩ := o.extend_eq_ok true hn ht hw
    exact .inl ⟨_, Instr.evaluate_signExtend r ho he, has.set r ⟨type, bits⟩⟩
  | bitcast r type arg =>
    obtain ⟨other, ha, hw⟩ := typed
    obtain ⟨o, ho, rfl⟩ := has arg other ha
    exact .inl ⟨_, Instr.evaluate_bitcast r ho (if_pos hw), has.set r ⟨type, _⟩⟩

section Run

variable {env : Environment σ} {expected : Fault → Prop} {f : Frame Reg} {Γ : Context Reg}

/-- An instruction that calls nothing is evaluated. -/
theorem Instr.run_eq_evaluate (env : Environment σ) (f : Frame Reg) {i : Instr Reg}
    (plain : i.isCall = false) : i.run env f =
      match i.evaluate env f with
      | .ok g => pure g
      | .error fault => throw fault := by
  cases i with
  | call => cases plain
  | _ => rfl

/-- A well-typed call leaves its results in their registers. -/
theorem Instr.run_call_of_wellTyped (keeps : env.Keeps expected) {rs args : List Reg}
    {signature : CallSignature} {callee : Reg}
    (typed : (Instr.call rs signature callee args).WellTyped Γ) (has : f.Has Γ) :
    CallM.Ends (Foreign expected)
      (fun g ↦ g.Has (Γ.writeAll (rs.zip (signature.returns.map CallParam.type))))
      ((Instr.call rs signature callee args).run env f) := by
  obtain ⟨hcallee, hargs, hresults⟩ := typed
  obtain ⟨address, ha⟩ := has.address hcallee
  have hparams : args.map Γ = (signature.params.map CallParam.type).map some := by
    rw [hargs, List.map_map]
    rfl
  obtain ⟨operands, ho, htypes⟩ := has.getAll hparams
  simp only [run, Frame.getAddress_eq_ok ha, ho]
  cases hn : env.native? address with
  | none => exact .throw (.badCallee address)
  | some native =>
    by_cases hs : native.signature = signature
    · subst hs
      simp only [htypes, ne_eq, not_true, if_false]
      have hcall := (keeps address native hn operands htypes).mono fun _ ↦ Foreign.native
      refine hcall.bind fun results hr ↦ ?_
      have hlength : rs.length = results.length := by
        rw [hresults, ← List.length_map CallParam.type, ← hr, List.length_map]
      obtain ⟨g, hg, hhas⟩ := has.setAll hlength
      rw [hr] at hhas
      rw [hg]
      exact .pure hhas
    · simp only [hs, ne_eq, not_false_eq_true, if_true]
      exact .throw (.badCallee address)

/-- A well-typed instruction leaves the registers with the expected types. -/
theorem Instr.run_of_wellTyped (keeps : env.Keeps expected) {i : Instr Reg} (typed : i.WellTyped Γ)
    (has : f.Has Γ) :
    CallM.Ends (Foreign expected) (fun g ↦ g.Has (Γ.writeAll (i.results Γ))) (i.run env f) := by
  cases plain : i.isCall with
  | true =>
    cases i with
    | call => exact Instr.run_call_of_wellTyped keeps typed has
    | _ => cases plain
  | false =>
    rw [Instr.run_eq_evaluate env f plain]
    rcases Instr.evaluate_of_wellTyped env typed has plain with ⟨g, hg, hhas⟩ | ⟨address, ha⟩
    · rw [hg]
      exact .pure hhas
    · rw [ha]
      exact .throw (.unmapped address)

/-- Well-typed instructions leave the registers with the expected types, one after the other. -/
theorem runBody_of_types (keeps : env.Keeps expected) {is : List (Instr Reg)} (typed : Γ.Types is)
    (has : f.Has Γ) :
    CallM.Ends (Foreign expected) (fun g ↦ g.Has (Γ.after is)) (runBody env is f) := by
  induction is generalizing Γ f with
  | nil => exact .pure has
  | cons i is ih =>
    obtain ⟨hi, his⟩ := typed
    exact (Instr.run_of_wellTyped keeps hi has).bind fun g hg ↦ ih his hg

variable [DecidableEq Label] {code : Code Label Reg} {l : Label} {returns : List MachineType}

/-- Whichever way leads from a block, it is one of less than so many branches, and the block that it
leads to is well typed with the registers that are written on the way. -/
def Code.WellTypedFrom (code : Code Label Reg) (n : Nat) (l : Label) (Γ : Context Reg)
    (returns : List MachineType) : Prop :=
  ∀ branches m, code.Path l branches m → branches.length < n ∧
    ∃ block, code.blocks.lookup m = some block ∧ block.WellTyped (Γ.along branches) returns

/-- Code that is well typed from a block on comes to results of the types that it returns. -/
theorem Code.runFrom_of_wellTyped (keeps : env.Keeps expected) {n : Nat}
    (typed : code.WellTypedFrom n l Γ returns) (has : f.Has Γ) :
    CallM.Ends (Foreign expected) (fun p ↦ p.1.map Operand.type = returns)
      (code.runFrom env n l f) := by
  induction n generalizing l Γ f with
  | zero => exact absurd (typed [] l (.here l)).1 (Nat.not_lt_zero 0)
  | succ n ih =>
    obtain ⟨-, block, hblock, hbody, hfinal⟩ := typed [] l (.here l)
    rw [Code.runFrom, hblock]
    refine (runBody_of_types keeps hbody has).bind fun g hg ↦ ?_
    cases hf : block.final with
    | ret values =>
      rw [hf] at hfinal
      obtain ⟨operands, ho, htypes⟩ := hg.getAll hfinal
      simp only [ho]
      exact .pure htypes
    | branch condition nonzero zero =>
      rw [hf] at hfinal
      obtain ⟨type, hcondition, -⟩ := hfinal
      obtain ⟨o, ho, -⟩ := hg condition type hcondition
      simp only [Frame.get_eq_ok ho]
      -- A way from the block that it goes on in is a way from this one, past one branch more.
      refine ih (fun branches m path ↦ ?_) hg
      have hpath : code.Path l ((block, decide (o.bits ≠ 0)) :: branches) m :=
        .branch _ hblock hf (by simpa using path)
      obtain ⟨hlength, hleads⟩ := typed _ m hpath
      exact ⟨Nat.lt_of_succ_lt_succ hlength, hleads⟩

/-- Code that is well typed from its first block on, with the parameters of that written, comes to
results of the types that it returns when it is run on operands of the types of its parameters. -/
theorem Code.run_of_wellTyped (keeps : env.Keeps expected) {block : Block Label Reg}
    {rest : List (Label × Block Label Reg)} (first : code.blocks = (l, block) :: rest)
    (typed : code.WellTypedFrom code.blocks.length l (Context.writeAll (fun _ ↦ none) block.params)
      returns) {operands : List Operand}
    (types : operands.map Operand.type = block.params.map Prod.snd) :
    CallM.Ends (Foreign expected) (fun p ↦ p.1.map Operand.type = returns)
      (code.run env operands) := by
  have hempty : (⟨fun _ ↦ none, 0⟩ : Frame Reg).Has fun _ ↦ none := fun r type h ↦ by cases h
  have hlength : (block.params.map Prod.fst).length = operands.length := by
    simpa using congrArg List.length types.symm
  obtain ⟨f, hf, has⟩ := hempty.setAll hlength
  rw [types, ← List.zip_of_prod rfl rfl] at has
  rw [first] at typed
  simp only [Code.run, first, types, ne_eq, not_true, if_false, hf]
  exact Code.runFrom_of_wellTyped keeps typed has

end Run

end Invocation.Machine

namespace Invocation

open Machine

/-- The fault of a reference argument that is in no live slot. -/
def Fault.IsNoSlot (fault : Fault) : Prop := ∃ address, fault = .noSuchSlot address

variable (slots : Word → Option Value)

/-- A register of the type for a parameter stands for an argument, or is the address of no slot. -/
theorem ParamType.ofOperand_cases (p : ParamType) {o : Operand}
    (h : o.type = (CallParam.ofArg .i64 p.conversion).type) :
    (∃ x, p.ofOperand slots o = .ok x) ∨
      ∃ address, p.ofOperand slots o = .error (.noSuchSlot address) := by
  obtain ⟨type, bits⟩ := o
  cases p with
  | value type => cases type <;> cases h <;> exact .inl ⟨_, rfl⟩
  | reference =>
    cases h
    cases hslot : slots bits with
    | some v => exact .inl ⟨⟨bits, v⟩, by simp only [ofOperand, hslot]⟩
    | none => exact .inr ⟨bits, by simp only [ofOperand, hslot]⟩

/-- Registers of the types for parameters stand for arguments, or one is the address of no slot. -/
theorem Args.ofOperands_cases (ps : List ParamType) {os : List Operand}
    (h : os.map Operand.type =
      ((ps.map ParamType.conversion).map (CallParam.ofArg .i64)).map CallParam.type) :
    (∃ xs, Args.ofOperands slots ps os = .ok xs) ∨
      ∃ address, Args.ofOperands slots ps os = .error (.noSuchSlot address) := by
  induction ps generalizing os with
  | nil =>
    obtain rfl : os = [] := by simpa using h
    exact .inl ⟨(), rfl⟩
  | cons p ps ih =>
    cases os with
    | nil => cases h
    | cons o os =>
      simp only [List.map_cons, List.cons.injEq] at h
      rcases p.ofOperand_cases slots h.1 with ⟨x, hx⟩ | ⟨address, hslot⟩
      · rcases ih h.2 with ⟨xs, hxs⟩ | ⟨address, hslot⟩
        · exact .inl ⟨(x, xs), by simp only [ofOperands, hx, hxs]⟩
        · exact .inr ⟨address, by simp only [ofOperands, hx, hslot]⟩
      · exact .inr ⟨address, by simp only [ofOperands, hslot]⟩

/-- A native result is returned in registers of the types that the call signature names. -/
theorem ReturnType.types_toOperands (ret : ReturnType) (x : ret.Result) :
    (ret.toOperands x).map Operand.type =
      (CallParam.ofResult .i64 ret.conversion).map CallParam.type := by
  cases ret with
  | void | reference => rfl
  | value type => cases type <;> rfl

/-- A method that is called on operands for its parameters returns results of the types that the
call signature names, unless one of the operands is the address of no slot. -/
theorem Method.ends_of_types {σ : Type} (m : Method σ) (receiver : Word) {os : List Operand}
    (h : os.map Operand.type =
      ((m.signature.params.map ParamType.conversion).map (CallParam.ofArg .i64)).map
        CallParam.type) :
    CallM.Ends Fault.IsNoSlot
      (fun results ↦ results.map Operand.type =
        (CallParam.ofResult .i64 m.signature.ret.conversion).map CallParam.type)
      (match Args.ofOperands slots m.signature.params os with
      | .error fault => throw fault
      | .ok args => do return m.signature.ret.toOperands (← m.native receiver args) :
        CallM σ (List Operand)) := by
  rcases Args.ofOperands_cases slots m.signature.params h with ⟨xs, hxs⟩ | ⟨address, hslot⟩
  · rw [hxs]
    exact fun s ↦ m.signature.ret.types_toOperands (m.native receiver xs s).1
  · rw [hslot]
    exact .throw ⟨address, rfl⟩

/-- The native code of a method keeps to its call signature. -/
theorem Method.nativeCode_ends {σ : Type} (m : Method σ) {operands : List Operand}
    (h : operands.map Operand.type =
      (m.nativeCode slots).signature.params.map CallParam.type) :
    CallM.Ends Fault.IsNoSlot
      (fun results ↦ results.map Operand.type =
        (m.nativeCode slots).signature.returns.map CallParam.type)
      ((m.nativeCode slots).call operands) := by
  simp only [nativeCode, isStatic, CallSignature.native, Plan.lower] at h ⊢
  cases hk : m.signature.kind with
  | static =>
    simp only [hk, beq_self_eq_true, Bool.not_true, Bool.false_eq_true, if_false, List.nil_append]
      at h
    simp only [pure_bind]
    exact m.ends_of_types slots 0 h
  | «instance» receiver =>
    cases operands with
    | nil => simp [hk] at h
    | cons o os =>
      obtain ⟨type, w⟩ := o
      have hinstance : (MethodKind.instance receiver == .static) = false := rfl
      simp only [hk, hinstance, Bool.not_false, if_true, List.cons_append, List.nil_append,
        List.map_cons, List.cons.injEq] at h
      obtain ⟨htype, hos⟩ := h
      cases htype
      simp only [pure_bind]
      exact m.ends_of_types slots w hos

end Invocation

namespace Invocation.Machine

namespace ThunkCode

variable {σ : Type}

/-- The code of a thunk is well typed from its entry block on. -/
theorem wellTypedFrom_entry (plan : Plan) (receiver : Option Word) (entry : Word) :
    (code plan receiver entry).WellTypedFrom (blocks plan receiver entry).length .entry
      (parameters plan) [.i64] := by
  intro branches m path
  obtain ⟨b, rfl, hb⟩ := Leads.of_path path
  exact ⟨hb.length_lt, b.2, lookup_blocks hb.mem, hb.wellTyped⟩

/-- The code of a thunk that is called with operands of the signature of thunks, whatever these are
and whatever there is in memory, returns one status, or comes to a fault of what it reaches for. -/
theorem run_ends {env : Environment σ} {expected : Fault → Prop} (keeps : env.Keeps expected)
    (plan : Plan) (receiver : Option Word) (entry : Word) {operands : List Operand}
    (types : operands.map Operand.type = (CallSignature.thunk .i64).params.map CallParam.type) :
    CallM.Ends (Foreign expected)
      (fun p ↦ p.1.map Operand.type = (CallSignature.thunk .i64).returns.map CallParam.type)
      ((code plan receiver entry).run env operands) :=
  Code.run_of_wellTyped keeps rfl (wellTypedFrom_entry plan receiver entry) types

end ThunkCode

variable {σ : Type}

/-- All that the code of a binding can call keeps to its signature. -/
theorem environment_keeps (b : Binding σ) (args : ArgSlice) :
    (environment b args).Keeps Fault.IsNoSlot := by
  intro address native hn operands types
  simp only [environment] at hn
  split at hn
  · cases hn
    exact Method.nativeCode_ends _ _ types
  · cases hn

/-- The code that is generated for a binding, run on any operands of the signature of thunks,
returns one status, unless there is no memory, no native code or no slot where it reaches for it.
-/
theorem run_ends_of_generate {b : Binding σ} {code : Code ThunkLabel ThunkReg}
    (generated : generate b = .ok code) (args : ArgSlice) {operands : List Operand}
    (types : operands.map Operand.type = (CallSignature.thunk .i64).params.map CallParam.type) :
    CallM.Ends (Foreign Fault.IsNoSlot)
      (fun p ↦ p.1.map Operand.type = (CallSignature.thunk .i64).returns.map CallParam.type)
      (code.run (environment b args) operands) := by
  obtain rfl := Except.ok.inj ((generate_eq_ok b).symm.trans generated)
  exact ThunkCode.run_ends (environment_keeps b args) _ _ _ types

end Invocation.Machine
