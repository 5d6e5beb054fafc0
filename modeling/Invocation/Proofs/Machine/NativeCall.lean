import Invocation.Proofs.Binding
import Invocation.Proofs.Machine.Execution

/-!
# Calling native code

What follows the tests of a thunk: the registers that are loaded from the slots hold exactly the
arguments that the parameters accept, the native code decodes them to those arguments, and the word
that is stored is the word of its result (`ThunkCode.runBody_callNative`).
-/

namespace Invocation

open Machine

namespace ParamType

/-- The register that an argument is passed in. -/
def toOperand : (p : ParamType) → p.Arg → Operand
  | .value type, x => type.toOperand x
  | .reference, r => ⟨.i64, r.slot⟩

/-- The register of an argument has the type that the call signature names. -/
theorem type_toOperand (p : ParamType) (x : p.Arg) :
    (p.toOperand x).type = (CallParam.ofArg .i64 p.conversion).type := by
  cases p with
  | reference => rfl
  | value type => cases type <;> rfl

/-- The register of what a parameter receives from a live slot stands for it. -/
theorem ofOperand_toOperand (slots : Word → Option Value) {slot : Word} {v : Value} (p : ParamType)
    {x : p.Arg} (h : p.Receives slot v x) (live : slots slot = some v) :
    p.ofOperand slots (p.toOperand x) = .ok x := by
  cases p with
  | value type => simp [ofOperand, toOperand, ValueType.ofOperand?_toOperand]
  | reference =>
    obtain rfl : x = ⟨slot, v⟩ := h
    simp [ofOperand, toOperand, live]

end ParamType

namespace Args

/-- The registers that arguments are passed in, in order. -/
def toOperands : (ps : List ParamType) → Args ps → List Operand
  | [], _ => []
  | p :: ps, (x, rest) => p.toOperand x :: toOperands ps rest

/-- The registers have the types that the call signature names. -/
theorem types_toOperands (ps : List ParamType) (xs : Args ps) :
    (toOperands ps xs).map Operand.type =
      ((ps.map ParamType.conversion).map (CallParam.ofArg .i64)).map CallParam.type := by
  induction ps with
  | nil => rfl
  | cons p ps ih =>
    obtain ⟨x, rest⟩ := xs
    simp only [toOperands, List.map_cons, p.type_toOperand x, ih rest]

/-- The registers of accepted arguments stand for them. -/
theorem ofOperands_toOperands (slice : ArgSlice) (index : Nat) (ps : List ParamType) {xs : Args ps}
    (h : accept slice index ps = .ok xs) (fits : index + ps.length ≤ slice.length) :
    ofOperands slice.valueAt? ps (toOperands ps xs) = .ok xs := by
  induction ps generalizing index with
  | nil => rfl
  | cons p ps ih =>
    obtain ⟨x, rest⟩ := xs
    rw [List.length_cons] at fits
    obtain ⟨hp, hs⟩ := (accept_cons_eq_ok_iff slice index p ps x rest).mp h
    have live := slice.valueAt?_slotAddress (by omega : index < slice.length)
    have hx : p.ofOperand slice.valueAt? (p.toOperand x) = .ok x :=
      p.ofOperand_toOperand _ ((ParamType.accept_eq_ok_iff _ _ _ _).mp hp) live
    simp [toOperands, ofOperands, hx, ih (index + 1) hs (by omega)]

end Args

/-- The register that a receiver is passed in, if there is one. -/
def Target.toOperands (target : Option Target) : List Operand :=
  (target.map fun t ↦ (⟨.i64, t.address⟩ : Operand)).toList

/-- Native code acts on the registers of accepted arguments as the method on the arguments. -/
theorem Method.call_nativeCode {σ : Type} (m : Method σ) (args : ArgSlice) {target : Option Target}
    {xs : Args m.signature.params} (takes : m.signature.kind.Takes target)
    (accepted : Args.accept args 0 m.signature.params = .ok xs)
    (fits : 0 + m.signature.params.length ≤ args.length) :
    (m.nativeCode args.valueAt?).call
        (Target.toOperands target ++ Args.toOperands m.signature.params xs) =
      do return m.signature.ret.toOperands (← m.native (Target.receiverWord target) xs) := by
  have hx := Args.ofOperands_toOperands args 0 m.signature.params accepted fits
  simp only [nativeCode]
  cases hk : m.signature.kind with
  | static =>
    cases target with
    | some t => simp [MethodKind.Takes, hk] at takes
    | none =>
      simp only [Target.toOperands, Option.map_none, Option.toList_none, List.nil_append, pure_bind,
        hx]
      rfl
  | «instance» receiver =>
    cases target with
    | none => simp [MethodKind.Takes, hk] at takes
    | some t =>
      simp only [Target.toOperands, Option.map_some, Option.toList_some, List.cons_append,
        List.nil_append, pure_bind, hx]
      rfl

namespace Machine.ThunkCode

variable {σ : Type} {env : Environment σ} {args : ArgSlice}

/-- An accepted argument is loaded into its register. -/
theorem evaluate_loadArgument {index : Nat} {p : ParamType} {x : p.Arg} {f : Frame ThunkReg}
    (memory : env.memory = args.byteAt?) (entered : f.Entered args) (hi : index < args.length)
    (accepted : p.accept (args.slotAddress index) (args.valueAt index) = .ok x) :
    (loadArgument index p.conversion).evaluate env f =
      .ok (f.set (.arg index) (p.toOperand x)) := by
  have hr := (ParamType.accept_eq_ok_iff _ _ _ _).mp accepted
  cases p with
  | value type =>
    apply Instr.evaluate_load entered.slots
    rw [memory]
    exact readOperand_payload args hi hr
  | reference =>
    obtain rfl : x = ⟨args.slotAddress index, args.valueAt index⟩ := hr
    rw [ParamType.conversion, loadArgument, Instr.evaluate_addImm _ _ entered.slots]
    rfl

/-- Accepted arguments are loaded into their registers, and no other register is written. -/
theorem runBody_loadArguments {index : Nat} {ps : List ParamType} {xs : Args ps}
    {f : Frame ThunkReg} (memory : env.memory = args.byteAt?) (entered : f.Entered args)
    (fits : index + ps.length ≤ args.length) (accepted : Args.accept args index ps = .ok xs) :
    ∃ g : Frame ThunkReg,
      runBody env (loadArguments index (ps.map ParamType.conversion)) f = pure g ∧
      g.getAll (argumentRegisters index (ps.map ParamType.conversion)) =
        .ok (Args.toOperands ps xs) ∧
      ∀ r, (∀ j, index ≤ j → r ≠ .arg j) → g.registers r = f.registers r := by
  induction ps generalizing index f with
  | nil => exact ⟨f, rfl, rfl, fun _ _ ↦ rfl⟩
  | cons p ps ih =>
    rw [List.length_cons] at fits
    obtain ⟨x, rest⟩ := xs
    obtain ⟨hp, hr⟩ := (Args.accept_cons_eq_ok_iff args index p ps x rest).mp accepted
    have hload := evaluate_loadArgument memory entered (by omega) hp
    have hentered := entered.set (r := .arg index) (p.toOperand x) (by simp) (by simp)
    obtain ⟨g, hrun, hget, hkeep⟩ := ih hentered (by omega) hr
    have hx : g.get (.arg index) = .ok (p.toOperand x) := by
      apply Frame.get_eq_ok
      rw [hkeep _ fun j hj ↦ by simp; omega]
      exact f.registers_set_self _ _
    refine ⟨g, ?_, ?_, fun r hr ↦ ?_⟩
    · rw [List.map_cons, loadArguments, runBody_cons _ hload, hrun]
    · simp only [List.map_cons, argumentRegisters, Frame.getAll, hx, hget, Args.toOperands]
    · rw [hkeep r fun j hj ↦ hr j (by omega), f.registers_set_of_ne _ (hr index (Nat.le_refl _))]

/-- A payload in the result register is widened to its word, which leaves the result's address. -/
theorem runBody_widen {type : ValueType} {x : type.Payload} {f : Frame ThunkReg}
    (result : f.registers .result = some (type.toOperand x)) :
    ∃ g : Frame ThunkReg, runBody env (widen type).1 f = pure g ∧
      g.registers (widen type).2 = some ⟨.i64, type.encode x⟩ ∧
      g.registers .out = f.registers .out := by
  have written (h : Frame ThunkReg) (w : Word) (ho : h.registers .out = f.registers .out) :
      (h.set .word ⟨.i64, w⟩).registers .word = some ⟨.i64, w⟩ ∧
        (h.set .word ⟨.i64, w⟩).registers .out = f.registers .out :=
    ⟨h.registers_set_self _ _, (h.registers_set_of_ne _ (by simp)).trans ho⟩
  cases type with
  | bool =>
    have hw : (ValueType.bool.toOperand x).extend false .i64 =
        .ok ⟨.i64, ValueType.bool.encode x⟩ := by cases x <;> rfl
    refine ⟨f.set .word ⟨.i64, ValueType.bool.encode x⟩, ?_, written f _ rfl⟩
    rw [widen, runBody_cons [] (Instr.evaluate_zeroExtend .word result hw), runBody]
  | u32 =>
    have hw : (ValueType.u32.toOperand x).extend false .i64 =
        .ok ⟨.i64, ValueType.u32.encode x⟩ := rfl
    refine ⟨f.set .word ⟨.i64, ValueType.u32.encode x⟩, ?_, written f _ rfl⟩
    rw [widen, runBody_cons [] (Instr.evaluate_zeroExtend .word result hw), runBody]
  | i32 =>
    have hw : (ValueType.i32.toOperand x).extend true .i64 =
        .ok ⟨.i64, ValueType.i32.encode x⟩ := rfl
    refine ⟨f.set .word ⟨.i64, ValueType.i32.encode x⟩, ?_, written f _ rfl⟩
    rw [widen, runBody_cons [] (Instr.evaluate_signExtend .word result hw), runBody]
  | i64 | u64 => exact ⟨f, rfl, result, rfl⟩
  | f32 =>
    have hb : (ValueType.f32.toOperand x).cast .i32 = .ok (ValueType.u32.toOperand x) :=
      congrArg (fun bits ↦ Except.ok (⟨.i32, bits⟩ : Operand)) (BitVec.setWidth_eq x)
    have hw : (ValueType.u32.toOperand x).extend false .i64 =
        .ok ⟨.i64, ValueType.f32.encode x⟩ := rfl
    let g := f.set .bits (ValueType.u32.toOperand x)
    refine ⟨g.set .word ⟨.i64, ValueType.f32.encode x⟩, ?_,
      written g _ (f.registers_set_of_ne _ (by simp))⟩
    rw [widen, runBody_cons _ (Instr.evaluate_bitcast .bits result hb),
      runBody_cons [] (Instr.evaluate_zeroExtend .word (f.registers_set_self _ _) hw), runBody]
  | f64 =>
    have hb : (ValueType.f64.toOperand x).cast .i64 = .ok ⟨.i64, ValueType.f64.encode x⟩ :=
      congrArg (fun bits ↦ Except.ok (⟨.i64, bits⟩ : Operand)) (BitVec.setWidth_eq x)
    refine ⟨f.set .word ⟨.i64, ValueType.f64.encode x⟩, ?_, written f _ rfl⟩
    rw [widen, runBody_cons [] (Instr.evaluate_bitcast .word result hb), runBody]

/-- A word in a register is stored as the result. -/
theorem runBody_store {r : ThunkReg} {w : Word} {f : Frame ThunkReg}
    (address : env.resultAddress = resultAddress args) (hw : f.registers r = some ⟨.i64, w⟩)
    (out : f.registers .out = some ⟨.i64, resultAddress args⟩) :
    runBody env [.store r .out 0] f = pure { f with result := w } := by
  have ha : resultAddress args + BitVec.ofNat 64 0 = env.resultAddress := by
    rw [address]
    exact BitVec.add_zero _
  rw [runBody_cons [] (Instr.evaluate_store hw out ha), runBody]

/-- The word of a native result is made and stored. -/
theorem runBody_storeResult {ret : ReturnType} (x : ret.Result) {f : Frame ThunkReg}
    (address : env.resultAddress = resultAddress args) (entered : f.Entered args) :
    ∃ g h : Frame ThunkReg, f.setAll (resultRegisters ret.conversion) (ret.toOperands x) = .ok g ∧
      runBody env ((resultWord ret.conversion).1 ++ [.store (resultWord ret.conversion).2 .out 0]) g
        = pure h ∧ h.result = ret.encode x := by
  cases ret with
  | void =>
    have hg := entered.set (r := .word) ⟨.i64, 0⟩ (by simp) (by simp)
    refine ⟨f, { f.set .word ⟨.i64, 0⟩ with result := 0 }, rfl, ?_, rfl⟩
    exact (runBody_cons _ (Instr.evaluate_const f .word 0)).trans
      (runBody_store address (f.registers_set_self _ _) hg.out)
  | value type =>
    have hg := entered.set (r := .result) (type.toOperand x) (by simp) (by simp)
    have hx := f.registers_set_self .result (type.toOperand x)
    obtain ⟨g, hrun, hw, hout⟩ := runBody_widen hx
    refine ⟨_, { g with result := type.encode x }, rfl, ?_, rfl⟩
    show runBody env ((widen type).1 ++ [.store (widen type).2 .out 0]) _ = _
    rw [runBody_append, hrun, pure_bind, runBody_store address hw (hout.trans hg.out)]
  | reference =>
    have hg := entered.set (r := .result) ⟨.i64, x.toWord⟩ (by simp) (by simp)
    exact ⟨_, _, rfl, runBody_store address (f.registers_set_self _ _) hg.out, rfl⟩

/-- The receiver, if there is one, is put into its register. -/
theorem runBody_loadReceiver (env : Environment σ) (target : Option Target) {f : Frame ThunkReg}
    (entered : f.Entered args) :
    ∃ g : Frame ThunkReg, g.Entered args ∧
      runBody env (loadReceiver (target.map Target.address)) f = pure g ∧
      g.getAll (if (target.map Target.address).isSome then [.receiver] else []) =
        .ok (Target.toOperands target) := by
  cases target with
  | none => exact ⟨f, entered, rfl, rfl⟩
  | some t =>
    refine ⟨f.set .receiver ⟨.i64, t.address⟩, entered.set _ (by simp) (by simp), ?_, ?_⟩
    · exact runBody_cons [] (Instr.evaluate_const f .receiver t.address)
    · simp [Frame.getAll, Frame.get_set_self, Target.toOperands]

/-- A method that takes the target is called through the signature of its own native code. -/
theorem signature_nativeCode (m : Method σ) {target : Option Target}
    (takes : m.signature.kind.Takes target) :
    (m.nativeCode args.valueAt?).signature =
      .native (.lower m.signature) (target.map Target.address).isSome .i64 := by
  have hs : (!m.isStatic) = (target.map Target.address).isSome := by
    cases hk : m.signature.kind <;> cases target <;>
      simp [MethodKind.Takes, hk] at takes <;> simp [Method.isStatic, hk]
  rw [← hs]
  rfl

/-- The operands of a call have the types that the signature names. -/
theorem types_callOperands (m : Method σ) (target : Option Target) (xs : Args m.signature.params) :
    (Target.toOperands target ++ Args.toOperands m.signature.params xs).map Operand.type =
      (CallSignature.native (.lower m.signature) (target.map Target.address).isSome .i64).params.map
        CallParam.type := by
  rw [List.map_append, Args.types_toOperands, CallSignature.native, List.map_append]
  cases target <;> rfl

/-- The registers of arguments are just that. -/
theorem mem_argumentRegisters {index : Nat} {conversions : List ArgConversion} {r : ThunkReg}
    (h : r ∈ argumentRegisters index conversions) : ∃ j, r = .arg j := by
  induction conversions generalizing index with
  | nil => simp [argumentRegisters] at h
  | cons conversion conversions ih =>
    rw [argumentRegisters, List.mem_cons] at h
    rcases h with rfl | h
    · exact ⟨index, rfl⟩
    · exact ih h

/-- The registers of a call hold the receiver and the arguments that were loaded one after the
other, also once the address of the native code is loaded. -/
theorem getAll_callRegisters {target : Option Target} {conversions : List ArgConversion}
    {g h : Frame ThunkReg} {operands : List Operand} (callee : Operand)
    (hr : g.getAll (if (target.map Target.address).isSome then [.receiver] else []) =
      .ok (Target.toOperands target))
    (ha : h.getAll (argumentRegisters 0 conversions) = .ok operands)
    (hkeep : h.registers .receiver = g.registers .receiver) :
    (h.set .callee callee).getAll (callRegisters (target.map Target.address) conversions) =
      .ok (Target.toOperands target ++ operands) := by
  apply Frame.getAll_append
  · rw [← hr]
    apply Frame.getAll_congr
    intro r hm
    obtain rfl : r = .receiver := by
      cases target <;> simp at hm
      exact hm
    rw [h.registers_set_of_ne _ (by simp), hkeep]
  · rw [← ha]
    apply Frame.getAll_congr
    intro r hm
    obtain ⟨j, rfl⟩ := mem_argumentRegisters hm
    exact h.registers_set_of_ne _ (by simp)

/-- What follows the tests calls the native method, once, on the accepted arguments, and stores the
word of its result. -/
theorem runBody_callNative {m : Method σ} {target : Option Target} {xs : Args m.signature.params}
    {f : Frame ThunkReg} (memory : env.memory = args.byteAt?)
    (address : env.resultAddress = resultAddress args)
    (callee : env.native? m.entry = some (m.nativeCode args.valueAt?)) (entered : f.Entered args)
    (takes : m.signature.kind.Takes target)
    (accepted : Args.accept args 0 m.signature.params = .ok xs)
    (fits : 0 + m.signature.params.length ≤ args.length) :
    (do return (← runBody env
        (callNative (.lower m.signature) (target.map Target.address) m.entry) f).result) =
      (do return m.signature.ret.encode (← m.native (Target.receiverWord target) xs) :
        CallM σ Word) := by
  obtain ⟨g, hg, hreceiver, hr⟩ := runBody_loadReceiver env target entered
  obtain ⟨h, hloads, ha, hkeep⟩ := runBody_loadArguments memory hg fits accepted
  let k := h.set .callee ⟨.i64, m.entry⟩
  have hkept (r : ThunkReg) (hc : r ≠ .callee) (hn : ∀ j, r ≠ .arg j) :
      k.registers r = g.registers r :=
    (h.registers_set_of_ne _ hc).trans (hkeep r fun j _ ↦ hn j)
  have hk : k.Entered args :=
    ⟨(hkept _ (by simp) (by simp)).trans hg.slots, (hkept _ (by simp) (by simp)).trans hg.out⟩
  have hregisters : k.getAll (callRegisters (target.map Target.address)
      (Plan.lower m.signature).args) =
        .ok (Target.toOperands target ++ Args.toOperands m.signature.params xs) :=
    getAll_callRegisters ⟨.i64, m.entry⟩ hr ha (hkeep _ fun j _ ↦ by simp)
  have hcall := Instr.run_call (resultRegisters (Plan.lower m.signature).ret)
    (k.getAddress_eq_ok (h.registers_set_self .callee _)) hregisters callee
    (signature_nativeCode m takes) (types_callOperands m target xs)
  have hcallee : (Instr.const .callee .i64 m.entry).evaluate env h = .ok k :=
    Instr.evaluate_const h .callee m.entry
  have hl : runBody env (loadArguments 0 (Plan.lower m.signature).args) g = pure h := hloads
  rw [callNative, List.append_assoc, runBody_append, runBody_append, runBody_append, hreceiver,
    pure_bind, hl, pure_bind, runBody_cons _ hcallee, runBody]
  simp only [runBody, bind_pure, bind_assoc]
  rw [hcall]
  simp only [m.call_nativeCode args takes accepted fits, bind_assoc, pure_bind]
  congr
  funext x
  obtain ⟨after, stored, hset, hrun, hres⟩ := runBody_storeResult x address hk
  have hs : k.setAll (resultRegisters (Plan.lower m.signature).ret) (m.signature.ret.toOperands x) =
      .ok after := hset
  have hr : runBody env ((resultWord (Plan.lower m.signature).ret).1 ++
      [.store (resultWord (Plan.lower m.signature).ret).2 .out 0]) after = pure stored := hrun
  simp only [hs, pure_bind, hr, hres]

end Machine.ThunkCode
end Invocation
