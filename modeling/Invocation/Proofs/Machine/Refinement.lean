import Invocation.Proofs.Call.Portable
import Invocation.Proofs.Machine.NativeCall

/-!
# Machine code refines the portable thunk

For every valid binding code is generated, and the thunk that runs it is the response of the method
(`Machine.thunk_eq_respond`), as the portable thunk is: from every slice of arguments and every
state both give the same result or error, and leave the state as the same native call leaves it.
-/

namespace Invocation.Machine

variable {σ : Type}

/-- What the code of a thunk is called with. -/
def callOperands (args : ArgSlice) : List Operand :=
  [⟨.i64, args.base⟩, ⟨.i64, BitVec.ofNat 64 args.length⟩, ⟨.i64, resultAddress args⟩]

namespace ThunkCode

/-- The code of a thunk: its blocks, the entry block first. -/
def code (plan : Plan) (receiver : Option Word) (entry : Word) : Code ThunkLabel ThunkReg :=
  ⟨blocks plan receiver entry⟩

variable {env : Environment σ} {args : ArgSlice}

/-- Two numbers of arguments are the same as words only if they are the same. -/
theorem ofNat_length_inj {arity : Nat} (hmax : arity ≤ maxParams) :
    BitVec.ofNat 64 args.length = BitVec.ofNat 64 arity ↔ args.length = arity := by
  have hf := args.fits
  simp only [slotSize, maxSliceBytes, maxParams] at hf hmax
  have hl : args.length < 2 ^ 64 := by
    simp only [ArgSlice.length]
    omega
  have ha : arity < 2 ^ 64 := by omega
  rw [← BitVec.toNat_inj, BitVec.toNat_ofNat, BitVec.toNat_ofNat, Nat.mod_eq_of_lt hl,
    Nat.mod_eq_of_lt ha]

/-- The entry block goes on with the tests exactly if the number of arguments is right. -/
theorem run_code (env : Environment σ) (args : ArgSlice) (plan : Plan) (receiver : Option Word)
    (entry : Word) (hmax : plan.arity ≤ maxParams) :
    ∃ g : Frame ThunkReg, g.Entered args ∧
      (code plan receiver entry).run env (callOperands args) =
        (code plan receiver entry).runFrom env ((blocks plan receiver entry).length - 1)
          (if args.length = plan.arity then .countOk else .countFail) g := by
  let f := (((⟨fun _ ↦ none, 0⟩ : Frame ThunkReg).set .args ⟨.i64, args.base⟩).set .argc
    ⟨.i64, BitVec.ofNat 64 args.length⟩).set .out ⟨.i64, resultAddress args⟩
  let g := f.set .countEqual ⟨.i8, if args.length = plan.arity then 1 else 0⟩
  have hstart : (code plan receiver entry).run env (callOperands args) =
      (code plan receiver entry).runFrom env ((blocks plan receiver entry).length - 1 + 1) .entry
        f := rfl
  have htest : (Instr.equalImm .countEqual .argc (BitVec.ofNat 64 plan.arity)).evaluate env f =
      .ok g := by
    have hargc : f.registers .argc = some ⟨.i64, BitVec.ofNat 64 args.length⟩ := rfl
    rw [Instr.evaluate_equalImm _ _ hargc rfl]
    simp only [g, ← ofNat_length_inj hmax]
    show Except.ok (f.set _ ⟨.i8, if _ = (BitVec.ofNat 64 plan.arity).setWidth 64 then 1 else 0⟩) =
      _
    rw [BitVec.setWidth_eq]
  have hbody : runBody env (entryBlock plan.arity).2.body f = pure g :=
    runBody_cons [] htest
  have hentry : (code plan receiver entry).blocks.lookup .entry =
      some (entryBlock plan.arity).2 :=
    lookup_blocks (List.mem_cons_self ..)
  refine ⟨g, ⟨rfl, rfl⟩, ?_⟩
  rw [hstart, Code.runFrom_branch _ f hentry rfl hbody (f.get_set_self _ _)]
  by_cases h : args.length = plan.arity
  · simp [h]
  · simp [h]

/-- A wrong number of arguments makes the code return the status for it. -/
theorem run_code_of_length_ne (env : Environment σ) (plan : Plan) (receiver : Option Word)
    (entry : Word) (hmax : plan.arity ≤ maxParams) (h : args.length ≠ plan.arity) :
    ∃ g, (code plan receiver entry).run env (callOperands args) =
      pure ([⟨.i64, statusArgCount⟩], g) := by
  obtain ⟨g, -, hrun⟩ := run_code env args plan receiver entry hmax
  rw [if_neg h] at hrun
  rw [hrun]
  exact runFrom_statusBlock _ g (lookup_blocks (List.mem_cons_of_mem _ (List.mem_cons_self ..)))

variable (s : Signature) (receiver : Option Word) (entry : Word)

/-- The blocks from the first test on are those that are found, and there is fuel for them. -/
theorem checkedBlocks_code :
    (∀ b ∈ checkedBlocks (callNative (.lower s) receiver entry) .countOk 0
        (s.params.map ParamType.conversion),
      (code (.lower s) receiver entry).blocks.lookup b.1 = some b.2) ∧
    (checkedBlocks (callNative (.lower s) receiver entry) .countOk 0
        (s.params.map ParamType.conversion)).length ≤
      (blocks (.lower s) receiver entry).length - 1 := by
  constructor
  · intro b hb
    exact lookup_blocks (List.mem_cons_of_mem _ (List.mem_cons_of_mem _ hb))
  · exact Nat.le_succ _

/-- A refused argument makes the code return the status for it. -/
theorem run_code_of_accept_eq_error {r : Refusal} (memory : env.memory = args.byteAt?)
    (hmax : s.arity ≤ maxParams) (h : args.length = s.arity)
    (refused : Args.accept args 0 s.params = .error r) :
    ∃ g, (code (.lower s) receiver entry).run env (callOperands args) =
      pure ([⟨.i64, statusTypeMismatch r.index⟩], g) := by
  rw [← Plan.arity_lower] at hmax h
  obtain ⟨g, hg, hrun⟩ := run_code env args (.lower s) receiver entry hmax
  obtain ⟨found, fuel⟩ := checkedBlocks_code s receiver entry
  have fits : 0 + s.params.length ≤ args.length := by
    rw [h, Plan.arity_lower, Nat.zero_add]
    exact Nat.le_refl _
  rw [if_pos h] at hrun
  rw [hrun]
  exact runFrom_of_accept_eq_error memory hg fits found fuel refused

/-- Arguments that are all accepted make the code call the native code and return success. -/
theorem run_code_of_accept_eq_ok {xs : Args s.params} (memory : env.memory = args.byteAt?)
    (hmax : s.arity ≤ maxParams) (h : args.length = s.arity)
    (accepted : Args.accept args 0 s.params = .ok xs) :
    ∃ (last : ThunkLabel) (g : Frame ThunkReg), g.Entered args ∧
      (code (.lower s) receiver entry).run env (callOperands args) = do
        let h ← runBody env (callNative (.lower s) receiver entry) g
        return ([⟨.i64, statusOk⟩], h.set (.status last) ⟨.i64, statusOk⟩) := by
  rw [← Plan.arity_lower] at hmax h
  obtain ⟨g, hg, hrun⟩ := run_code env args (.lower s) receiver entry hmax
  obtain ⟨found, fuel⟩ := checkedBlocks_code s receiver entry
  have fits : 0 + s.params.length ≤ args.length := by
    rw [h, Plan.arity_lower, Nat.zero_add]
    exact Nat.le_refl _
  rw [if_pos h] at hrun
  rw [hrun]
  exact runFrom_of_accept_eq_ok memory hg fits found fuel accepted

end ThunkCode

/-- Code is generated for every binding. -/
theorem generate_eq_ok (b : Binding σ) :
    generate b =
      .ok (ThunkCode.code b.plan (b.target.map Target.address) b.method.method.entry) :=
  ThunkCode.assemble_directives _ _ _

variable [ObjectNames σ]

/-- The status of a completed call stands for the result. -/
theorem decodeStatus_statusOk (b : Binding σ) (args : ArgSlice) (result : Word) :
    decodeStatus b args statusOk result = pure (.ok (b.plan.ret.toValue result)) := by
  simp [decodeStatus]

/-- The status for a wrong number of arguments stands for that error. -/
theorem decodeStatus_statusArgCount (b : Binding σ) (args : ArgSlice) (result : Word) :
    decodeStatus b args statusArgCount result =
      pure (.error (.argumentCountMismatch b.name b.plan.arity args.length)) := by
  have h : statusArgCount ≠ statusOk := by decide
  simp [decodeStatus, h]

/-- The status for an argument of the wrong type stands for its refusal. -/
theorem decodeStatus_statusTypeMismatch (b : Binding σ) (args : ArgSlice) (result : Word)
    {index : Nat} (h : index < args.length) :
    decodeStatus b args (statusTypeMismatch index) result =
      do return .error (← b.plan.refuse b.name index (args.valueAt index)) := by
  have hf := args.fits
  simp only [slotSize, maxSliceBytes] at hf
  have hv := args.getElem?_values h
  simp only [ArgSlice.length] at h
  have hs : (statusTypeMismatch index - 1).toNat = index := by
    rw [statusTypeMismatch, BitVec.add_sub_cancel, BitVec.toNat_ofNat, Nat.mod_eq_of_lt (by omega)]
  have hok : statusTypeMismatch index ≠ statusOk := by
    intro he
    rw [he] at hs
    simp [statusOk] at hs
    omega
  have hcount : statusTypeMismatch index ≠ statusArgCount := by
    intro he
    rw [he] at hs
    simp [statusArgCount] at hs
    omega
  simp only [decodeStatus, hok, hcount, if_false, hs, hv]

/-- A thunk whose code only returns a status answers with what the status stands for. -/
theorem thunk_of_run_eq_pure {b : Binding σ} {args : ArgSlice} {code : Code ThunkLabel ThunkReg}
    {status : Word} {g : Frame ThunkReg}
    (hrun : code.run (environment b args) (callOperands args) = pure ([⟨.i64, status⟩], g)) :
    thunk b code args = decodeStatus b args status g.result := by
  show code.run (environment b args) (callOperands args) >>= _ = _
  rw [hrun, pure_bind]

/-- The thunk of generated code is the response of its method, for every number of arguments and
every state. -/
theorem thunk_eq_respond {m : MethodHandle σ} {target : Option Target} {b : Binding σ}
    {code : Code ThunkLabel ThunkReg} (bound : Binding.make m target = .ok b)
    (generated : generate b = .ok code) :
    thunk b code = m.method.respond (Target.receiverWord target) := by
  obtain ⟨⟨hmax, takes⟩, hb⟩ := (Binding.make_eq_ok_iff m target b).mp bound
  have hp : b.plan = .lower b.method.method.signature := by rw [hb]
  obtain rfl : b.method = m := by rw [hb]
  obtain rfl : b.target = target := by rw [hb]
  obtain rfl := Except.ok.inj ((generate_eq_ok b).symm.trans generated)
  have ha : b.plan.arity = b.method.method.arity := by rw [hp, Plan.arity_lower]; rfl
  have hr : b.plan.ret = b.method.method.signature.ret.conversion := by rw [hp]; rfl
  funext args
  by_cases hl : args.length = b.method.method.arity
  · simp only [Method.respond, hl, ne_eq, not_true, if_false]
    cases h : Args.accept args 0 b.method.method.signature.params with
    | error r =>
      obtain ⟨hparam, hactual⟩ := Args.of_accept_eq_error h
      obtain ⟨g, hrun⟩ : ∃ g, (ThunkCode.code b.plan (b.target.map Target.address)
          b.method.method.entry).run (environment b args) (callOperands args) =
            pure ([⟨.i64, statusTypeMismatch r.index⟩], g) := by
        rw [hp]
        exact ThunkCode.run_code_of_accept_eq_error _ _ _ rfl hmax hl h
      have hlt : r.index < args.length := by
        rw [hl]
        exact (List.getElem?_eq_some_iff.mp hparam).1
      rw [thunk_of_run_eq_pure hrun, decodeStatus_statusTypeMismatch b args _ hlt, hp,
        Binding.name, Plan.refuse_lower b.method.method hparam, hactual]
    | ok xs =>
      obtain ⟨last, g, hg, hrun⟩ : ∃ (last : ThunkLabel) (g : Frame ThunkReg), g.Entered args ∧
          (ThunkCode.code b.plan (b.target.map Target.address) b.method.method.entry).run
            (environment b args) (callOperands args) = do
              let h ← runBody (environment b args) (ThunkCode.callNative
                (.lower b.method.method.signature) (b.target.map Target.address)
                b.method.method.entry) g
              return ([⟨.i64, statusOk⟩], h.set (.status last) ⟨.i64, statusOk⟩) := by
        rw [hp]
        exact ThunkCode.run_code_of_accept_eq_ok _ _ _ rfl hmax hl h
      have hcallee : (environment b args).native? b.method.method.entry =
          some (b.method.method.nativeCode args.valueAt?) := if_pos rfl
      have fits : 0 + b.method.method.signature.params.length ≤ args.length := by
        rw [hl, Nat.zero_add]
        exact Nat.le_refl _
      let answer (w : Word) : CallM σ (Except InvokeError Value) :=
        pure (.ok (b.plan.ret.toValue w))
      have hcall := congrArg (· >>= answer)
        (ThunkCode.runBody_callNative rfl rfl hcallee hg takes h fits)
      simp only [bind_assoc, pure_bind, answer, hr, ReturnType.toValue_encode] at hcall
      show (ThunkCode.code b.plan (b.target.map Target.address) b.method.method.entry).run
        (environment b args) (callOperands args) >>= _ = _
      rw [hrun, bind_assoc]
      simp only [pure_bind, decodeStatus_statusOk, hr]
      exact hcall
  · obtain ⟨g, hrun⟩ := ThunkCode.run_code_of_length_ne (environment b args) b.plan
      (b.target.map Target.address) b.method.method.entry (by rw [ha]; exact hmax)
      (by rw [ha]; exact hl)
    rw [thunk_of_run_eq_pure hrun, decodeStatus_statusArgCount]
    simp [Method.respond, hl, ha, Binding.name]

/-- For every valid pair the machine backend emits a thunk of generated code, which gives the same
result and leaves the same state as the portable thunk, whatever the arguments and the state; and
like the portable one it answers for the method, so that the native method is called once, with the
same receiver and arguments, or not at all. -/
theorem emit_refines {τ : Type} {m : MethodHandle σ} {target : Option Target} {b : Binding σ}
    (bound : Binding.make m target = .ok b) :
    ∃ code, generate b = .ok code ∧
      (∀ x : τ, (Backend.machine.emit b).run x = some (.ok (thunk b code), x)) ∧
      (∀ args s, (thunk b code args).run s = (Portable.thunk b args).run s) ∧
      (thunk b code).Answers m.method (Target.receiverWord target) := by
  have generated := generate_eq_ok b
  have hm := thunk_eq_respond bound generated
  refine ⟨_, generated, fun x ↦ ?_, fun args s ↦ ?_, ?_⟩
  · simp only [Backend.machine, generated]
    rfl
  · rw [hm, Portable.thunk_eq_respond bound]
  · rw [hm]
    exact m.method.respond_answers _

/-- A method with a receiver, a float parameter and a reference is compiled to code that answers. -/
theorem emit_refines_notedScale :
    ∃ code, generate ⟨Portable.notedScale, some Portable.boundScale,
        ⟨[.unbox .f32, .passRef], .box .f32⟩⟩ = .ok code ∧
      (thunk ⟨Portable.notedScale, some Portable.boundScale,
        ⟨[.unbox .f32, .passRef], .box .f32⟩⟩ code).Answers Portable.notedScale.method 128 := by
  obtain ⟨code, generated, -, -, answers⟩ :=
    @emit_refines _ _ Unit Portable.notedScale (some Portable.boundScale) _ rfl
  exact ⟨code, generated, answers⟩

end Invocation.Machine
