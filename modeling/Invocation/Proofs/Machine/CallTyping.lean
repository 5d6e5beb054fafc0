import Invocation.Proofs.Machine.NativeCall
import Invocation.Proofs.Machine.Typing

/-!
# The call of native code is well typed

What follows the tests of a thunk is well typed (`ThunkCode.types_callNative`): the operands of the
call are loaded one for each parameter of its signature, in its order and with its types, receiver
first, and the one result, if there is one, is of the type that the result word is made from. The
register lists and the signature are made by different functions that recur over the same plan, so
what they agree on is proved by induction over its conversions.
-/

namespace Invocation.Machine.ThunkCode

/-- The registers that every block of a thunk relies on have been written. -/
structure Entered (Γ : Context ThunkReg) : Prop where
  slots : Γ .args = some .i64
  count : Γ .argc = some .i64
  out : Γ .out = some .i64

/-- Registers other than those may be written. -/
theorem Entered.writeAll {Γ : Context ThunkReg} (h : Entered Γ) {rs : List (ThunkReg × MachineType)}
    (ha : .args ∉ rs.map Prod.fst) (hc : .argc ∉ rs.map Prod.fst) (ho : .out ∉ rs.map Prod.fst) :
    Entered (Γ.writeAll rs) :=
  ⟨(Context.writeAll_of_notMem ha).trans h.slots, (Context.writeAll_of_notMem hc).trans h.count,
    (Context.writeAll_of_notMem ho).trans h.out⟩

variable {Γ : Context ThunkReg}

/-- A load writes the register of its argument, with the type that the call signature names. -/
theorem results_loadArgument (h : Entered Γ) (index : Nat) (conversion : ArgConversion) :
    (loadArgument index conversion).results Γ =
      [(.arg index, (CallParam.ofArg .i64 conversion).type)] := by
  cases conversion with
  | unbox type => cases type <;> rfl
  | passRef => simp [loadArgument, Instr.results, h.slots, CallParam.ofArg, CallParam.plain]

theorem wellTyped_loadArgument (h : Entered Γ) (index : Nat) (conversion : ArgConversion) :
    (loadArgument index conversion).WellTyped Γ := by
  cases conversion with
  | unbox type => exact h.slots
  | passRef => exact ⟨.i64, h.slots, rfl⟩

/-- Loads write the registers of their arguments and no others. -/
theorem after_loadArguments (h : Entered Γ) (index : Nat) (conversions : List ArgConversion) :
    Γ.Types (loadArguments index conversions) ∧
      (∀ r : ThunkReg, (∀ j, index ≤ j → r ≠ .arg j) →
        Γ.after (loadArguments index conversions) r = Γ r) ∧
      (argumentRegisters index conversions).map (Γ.after (loadArguments index conversions)) =
        conversions.map fun c ↦ some (CallParam.ofArg .i64 c).type := by
  induction conversions generalizing Γ index with
  | nil => exact ⟨trivial, fun r _ ↦ rfl, rfl⟩
  | cons conversion conversions ih =>
    have hresults := results_loadArgument h index conversion
    have hwritten : Entered (Γ.writeAll ((loadArgument index conversion).results Γ)) := by
      rw [hresults]
      exact h.writeAll (by simp) (by simp) (by simp)
    obtain ⟨htypes, hkeep, hargs⟩ := ih hwritten (index + 1)
    refine ⟨⟨wellTyped_loadArgument h index conversion, htypes⟩, fun r hr ↦ ?_, ?_⟩
    · refine (hkeep r fun j hj ↦ hr j (by omega)).trans ?_
      rw [hresults]
      exact Γ.write_of_ne _ (hr index (Nat.le_refl _))
    · rw [argumentRegisters, loadArguments, List.map_cons, List.map_cons]
      congr 1
      refine (hkeep _ fun j hj ↦ by simp; omega).trans ?_
      rw [hresults]
      exact Γ.write_self _ _

/-- What is done before the native code is called: load the operands, and its address. -/
def operandLoads (plan : Plan) (receiver : Option Word) (entry : Word) : List (Instr ThunkReg) :=
  loadReceiver receiver ++ loadArguments 0 plan.args ++ [.const .callee .i64 entry]

/-- The call of the native code. -/
def nativeCall (plan : Plan) (receiver : Option Word) : Instr ThunkReg :=
  .call (resultRegisters plan.ret) (.native plan receiver.isSome .i64) .callee
    (callRegisters receiver plan.args)

/-- What is done with the result of the call: make a word of it, and store that. -/
def resultStore (ret : ResultConversion) : List (Instr ThunkReg) :=
  (resultWord ret).1 ++ [.store (resultWord ret).2 .out 0]

/-- The native code is called between the loads and the store. -/
theorem callNative_eq (plan : Plan) (receiver : Option Word) (entry : Word) :
    callNative plan receiver entry =
      operandLoads plan receiver entry ++ nativeCall plan receiver :: resultStore plan.ret := by
  simp [callNative, operandLoads, nativeCall, resultStore]

/-- The receiver is loaded, if there is one, and nothing else is written. -/
theorem after_loadReceiver (Γ : Context ThunkReg) (receiver : Option Word) :
    Γ.Types (loadReceiver receiver) ∧
      (∀ r : ThunkReg, r ≠ .receiver → Γ.after (loadReceiver receiver) r = Γ r) ∧
      (receiver.isSome → Γ.after (loadReceiver receiver) .receiver = some .i64) := by
  cases receiver with
  | none => exact ⟨trivial, fun r _ ↦ rfl, fun h ↦ by cases h⟩
  | some address =>
    exact ⟨⟨rfl, trivial⟩, fun r hr ↦ Γ.write_of_ne _ hr, fun _ ↦ Γ.write_self .receiver .i64⟩

/-- There is a register for each result that the call signature names. -/
theorem length_resultRegisters (ret : ResultConversion) :
    (resultRegisters ret).length = (CallParam.ofResult .i64 ret).length := by
  cases ret <;> rfl

/-- The operands of the call are loaded with the types that its signature names, in its order, and
the registers that the block relies on are still there. -/
theorem after_operandLoads (h : Entered Γ) (plan : Plan) (receiver : Option Word) (entry : Word) :
    Γ.Types (operandLoads plan receiver entry) ∧
      Entered (Γ.after (operandLoads plan receiver entry)) ∧
      (nativeCall plan receiver).WellTyped (Γ.after (operandLoads plan receiver entry)) := by
  obtain ⟨htypes, hkeep, hreceiver⟩ := after_loadReceiver Γ receiver
  have hentered : Entered (Γ.after (loadReceiver receiver)) :=
    ⟨(hkeep _ (by simp)).trans h.slots, (hkeep _ (by simp)).trans h.count,
      (hkeep _ (by simp)).trans h.out⟩
  obtain ⟨hargtypes, hargkeep, hargs⟩ := after_loadArguments hentered 0 plan.args
  have hafter (r : ThunkReg) (hr : r ≠ .callee) : Γ.after (operandLoads plan receiver entry) r =
      (Γ.after (loadReceiver receiver)).after (loadArguments 0 plan.args) r := by
    rw [operandLoads, Context.after_append, Context.after_append]
    exact Context.write_of_ne _ _ hr
  have hregister (r : ThunkReg) (hr : r ≠ .callee) (hn : ∀ j, r ≠ .arg j) :
      Γ.after (operandLoads plan receiver entry) r = Γ.after (loadReceiver receiver) r :=
    (hafter r hr).trans (hargkeep r fun j _ ↦ hn j)
  refine ⟨?_, ⟨?_, ?_, ?_⟩, ?_, ?_, ?_⟩
  · rw [operandLoads, Context.types_append_iff, Context.types_append_iff]
    exact ⟨⟨htypes, hargtypes⟩, rfl, trivial⟩
  · exact (hregister _ (by simp) (by simp)).trans hentered.slots
  · exact (hregister _ (by simp) (by simp)).trans hentered.count
  · exact (hregister _ (by simp) (by simp)).trans hentered.out
  · rw [operandLoads, Context.after_append]
    exact (Γ.after (loadReceiver receiver ++ loadArguments 0 plan.args)).write_self .callee .i64
  · rw [callRegisters, List.map_append, CallSignature.native, List.map_append, List.map_map]
    congr 1
    · cases receiver with
      | none => rfl
      | some address =>
        exact congrArg ([·]) ((hregister .receiver (by simp) (by simp)).trans (hreceiver rfl))
    · refine (List.map_congr_left fun r hr ↦ ?_).trans hargs
      obtain ⟨j, rfl⟩ := mem_argumentRegisters hr
      exact hafter _ (by simp)
  · exact length_resultRegisters plan.ret

/-- The type of the register that the result word is made from; no result is made from none. -/
def resultType? : ResultConversion → Option MachineType
  | .null => none
  | .box type => some type.machineType
  | .object => some .i64

/-- There is one register for a result, and none if there is none. -/
theorem resultRegisters_iff (ret : ResultConversion) :
    ((resultRegisters ret).length = 1 ↔ ret ≠ .null) ∧ (resultRegisters ret = [] ↔ ret = .null) := by
  cases ret <;> simp [resultRegisters]

/-- The call signature names the type that the result word is made from. -/
theorem types_ofResult (ret : ResultConversion) :
    (CallParam.ofResult .i64 ret).map CallParam.type = (resultType? ret).toList := by
  cases ret with
  | null => rfl
  | object => rfl
  | box type => cases type <;> rfl

/-- The results of the call are of the type that the result word is made from. -/
theorem results_nativeCall (plan : Plan) (receiver : Option Word) (Γ : Context ThunkReg) :
    (nativeCall plan receiver).results Γ =
      (resultType? plan.ret).toList.map (ThunkReg.result, ·) := by
  have htypes := types_ofResult plan.ret
  simp only [nativeCall, Instr.results, CallSignature.native, htypes]
  cases plan.ret <;> rfl

/-- A payload in the result register is widened to a word. -/
theorem types_widen (h : Entered Γ) {type : ValueType} (hr : Γ .result = some type.machineType) :
    Γ.Types (widen type).1 ∧ Γ.after (widen type).1 (widen type).2 = some .i64 ∧
      Γ.after (widen type).1 .out = some .i64 := by
  cases type with
  | bool | u32 | i32 =>
    exact ⟨⟨⟨_, hr, rfl, rfl, by decide⟩, trivial⟩, rfl, h.out⟩
  | i64 | u64 => exact ⟨trivial, hr, h.out⟩
  | f64 => exact ⟨⟨⟨_, hr, rfl⟩, trivial⟩, rfl, h.out⟩
  | f32 => exact ⟨⟨⟨_, hr, rfl⟩, ⟨.i32, rfl, rfl, rfl, by decide⟩, trivial⟩, rfl, h.out⟩

/-- The result word is made of what the call returns, and stored. -/
theorem types_resultStore (h : Entered Γ) (ret : ResultConversion) :
    (Γ.writeAll ((resultType? ret).toList.map (ThunkReg.result, ·))).Types (resultStore ret) := by
  have hstore {Δ : Context ThunkReg} {r : ThunkReg} (hr : Δ r = some .i64)
      (ho : Δ .out = some .i64) : Δ.Types [.store r .out 0] := ⟨⟨hr, ho⟩, trivial⟩
  rw [resultStore, Context.types_append_iff]
  cases ret with
  | null => exact ⟨⟨rfl, trivial⟩, hstore rfl h.out⟩
  | object => exact ⟨trivial, hstore rfl h.out⟩
  | box type =>
    have hentered : Entered (Γ.write .result type.machineType) := ⟨h.slots, h.count, h.out⟩
    obtain ⟨htypes, hword, hout⟩ := types_widen hentered (Γ.write_self .result type.machineType)
    exact ⟨htypes, hstore hword hout⟩

/-- What follows the tests is well typed. -/
theorem types_callNative (h : Entered Γ) (plan : Plan) (receiver : Option Word) (entry : Word) :
    Γ.Types (callNative plan receiver entry) := by
  obtain ⟨hloads, hentered, hcall⟩ := after_operandLoads h plan receiver entry
  rw [callNative_eq, Context.types_append_iff]
  refine ⟨hloads, hcall, ?_⟩
  rw [results_nativeCall]
  exact types_resultStore hentered plan.ret

end Invocation.Machine.ThunkCode
