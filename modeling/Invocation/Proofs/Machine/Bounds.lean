import Invocation.Proofs.Call.Bounds
import Invocation.Proofs.Machine.Refinement

/-!
# No thunk goes out of bounds

The places where a thunk indexes something do not test the index. That it is within bounds is due to
what has been done before: the pair was validated, the plan has one conversion for each parameter,
the arguments were counted, and the native method reads one word for each parameter.
`Binding.within_bounds` puts these together, for the portable thunk and for generated code, whatever
the arguments.
-/

namespace Invocation

open Machine

namespace Machine

/-- The status for an argument of the wrong type is its index plus one. -/
theorem toNat_statusTypeMismatch {index : Nat} (h : index < maxParams) :
    (statusTypeMismatch index).toNat = index + 1 := by
  simp only [maxParams] at h
  have hw : index + 1 < 2 ^ 64 := by omega
  show (BitVec.ofNat 64 index + BitVec.ofNat 64 1).toNat = _
  rw [← BitVec.ofNat_add, BitVec.toNat_ofNat, Nat.mod_eq_of_lt hw]

/-- The status for an argument of the wrong type is neither of the other two. -/
theorem statusTypeMismatch_ne {index : Nat} (h : index < maxParams) :
    statusTypeMismatch index ≠ statusOk ∧ statusTypeMismatch index ≠ statusArgCount := by
  have hi := toNat_statusTypeMismatch h
  simp only [maxParams] at h
  constructor
  · intro he
    rw [he] at hi
    simp [statusOk] at hi
  · intro he
    rw [he] at hi
    simp [statusArgCount] at hi
    omega

/-- A status that a thunk can tell apart: it stands for success, for a wrong number of arguments, or
for an argument that there is and that the plan unboxes. -/
inductive Names (plan : Plan) (args : ArgSlice) : Word → Prop
  | success : Names plan args statusOk
  | count : Names plan args statusArgCount
  | argument {index : Nat} {type : ValueType} : index < args.length → index < maxParams →
    plan.args[index]? = some (.unbox type) → Names plan args (statusTypeMismatch index)

variable {σ : Type}

/-- If a computation that goes on comes to a result, so does what it goes on from. -/
theorem exists_of_run_bind {α β : Type} {x : CallM σ α} {f : α → CallM σ β} {s : σ} {y : β}
    (h : ((x >>= f).run s).1 = .ok y) : ∃ a, (x.run s).1 = .ok a := by
  cases hx : (x.run s).1 with
  | ok a => exact ⟨a, rfl⟩
  | error fault =>
    change (ExceptT.bindCont f (x.run s).1 (x.run s).2).1 = .ok y at h
    rw [hx] at h
    cases h

/-- A computation that comes to a result can go on to another. -/
theorem run_bind_pure {α β : Type} {x : CallM σ α} (f : α → β) {s : σ} {a : α}
    (h : (x.run s).1 = .ok a) : ((x >>= fun a ↦ pure (f a) : CallM σ β).run s).1 = .ok (f a) := by
  change ((ExceptT.bindCont (fun a ↦ pure (f a)) (x.run s).1 : StateM σ (Except Fault β))
    (x.run s).2).1 = _
  rw [h]
  rfl

variable {m : MethodHandle σ} {target : Option Target} {b : Binding σ}

/-- The code of a valid pair comes to a status that can be told apart, whatever the arguments. -/
theorem run_code_names (bound : Binding.make m target = .ok b) (args : ArgSlice) (s : σ) :
    ∃ status frame,
      (((ThunkCode.code b.plan (b.target.map Target.address) b.method.method.entry).run
        (environment b args) (callOperands args)).run s).1 = .ok ([⟨.i64, status⟩], frame) ∧
      Names b.plan args status := by
  obtain ⟨⟨hmax, takes⟩, rfl⟩ := (Binding.make_eq_ok_iff m target b).mp bound
  let env := environment (⟨m, target, .lower m.method.signature⟩ : Binding σ) args
  have memory : env.memory = args.byteAt? := rfl
  by_cases hl : args.length = m.method.arity
  · cases ha : Args.accept args 0 m.method.signature.params with
    | error r =>
      obtain ⟨hparam, -⟩ := Args.of_accept_eq_error ha
      have hlt : r.index < args.length := by
        rw [hl]
        exact (List.getElem?_eq_some_iff.mp hparam).1
      have hplan : (Plan.lower m.method.signature).args[r.index]? = some (.unbox r.expected) := by
        rw [Plan.lower, List.getElem?_map, hparam]
        rfl
      obtain ⟨g, hrun⟩ := ThunkCode.run_code_of_accept_eq_error m.method.signature
        (target.map Target.address) m.method.entry memory hmax hl ha
      exact ⟨_, g, congrArg (fun x : CallM σ _ ↦ (x.run s).1) hrun,
        .argument hlt (Nat.lt_of_lt_of_le hlt (hl ▸ hmax)) hplan⟩
    | ok xs =>
      obtain ⟨last, g, hg, hrun⟩ := ThunkCode.run_code_of_accept_eq_ok m.method.signature
        (target.map Target.address) m.method.entry memory hmax hl ha
      have callee : env.native? m.method.entry = some (m.method.nativeCode args.valueAt?) :=
        if_pos rfl
      have fits : 0 + m.method.signature.params.length ≤ args.length := by
        rw [hl, Nat.zero_add]
        exact Nat.le_refl _
      have hcall := congrArg (fun x : CallM σ Word ↦ (x.run s).1)
        (ThunkCode.runBody_callNative memory rfl callee hg takes ha fits)
      obtain ⟨h, hbody⟩ := exists_of_run_bind hcall
      let succeed (h : Frame ThunkReg) : List Operand × Frame ThunkReg :=
        ([⟨.i64, statusOk⟩], h.set (.status last) ⟨.i64, statusOk⟩)
      exact ⟨statusOk, (succeed h).2, (congrArg (fun x : CallM σ _ ↦ (x.run s).1) hrun).trans
        (run_bind_pure succeed hbody), .success⟩
  · obtain ⟨g, hrun⟩ := ThunkCode.run_code_of_length_ne env (.lower m.method.signature)
      (target.map Target.address) m.method.entry (by rw [Plan.arity_lower]; exact hmax)
      (by rw [Plan.arity_lower]; exact hl)
    exact ⟨_, g, congrArg (fun x : CallM σ _ ↦ (x.run s).1) hrun, .count⟩

/-- A status that is neither of the two constants is the index of an argument plus one. -/
theorem Names.argument_of_ne {plan : Plan} {args : ArgSlice} {status : Word}
    (h : Names plan args status) (hok : status ≠ statusOk) (hcount : status ≠ statusArgCount) :
    1 ≤ status.toNat ∧ status.toNat ≤ args.length ∧
      (∃ v, args.values[(status - 1).toNat]? = some v) ∧
      ∃ type, plan.args[(status - 1).toNat]? = some (.unbox type) := by
  cases h with
  | success => exact absurd rfl hok
  | count => exact absurd rfl hcount
  | @argument index type hlt hmax hplan =>
    have hs := toNat_statusTypeMismatch hmax
    have hindex : (statusTypeMismatch index - 1).toNat = index := by
      simp only [maxParams] at hmax
      rw [statusTypeMismatch, BitVec.add_sub_cancel, BitVec.toNat_ofNat, Nat.mod_eq_of_lt (by omega)]
    rw [hs, hindex]
    exact ⟨Nat.succ_pos index, hlt, ⟨_, args.getElem?_values hlt⟩, type, hplan⟩

end Machine

variable {σ : Type} [ObjectNames σ]

/-- Calls through a binding stay within the buffer, within the words, and within the arguments,
whatever the arguments are and however many. -/
structure Binding.WithinBounds (b : Binding σ) : Prop where
  /-- Wherever the portable thunk has got to, it goes on as from the start. -/
  fill (args : ArgSlice) (index : Nat) (rest : List (ArgConversion × Value)) (words : WordBuffer) :
    Portable.Reaches b args index rest words →
    Portable.fill b args 0 (b.plan.args.zip args.values) (Vector.replicate maxParams 0) =
      Portable.fill b args index rest words
  /-- There is room for each word that it writes. -/
  write (args : ArgSlice) (index : Nat) (next : ArgConversion × Value)
    (rest : List (ArgConversion × Value)) (words : WordBuffer) :
    Portable.Reaches b args index (next :: rest) words → index < maxParams
  /-- What it refuses is an argument that there is, and that the plan unboxes. -/
  refuse (args : ArgSlice) (index : Nat) (conversion : ArgConversion) (v : Value)
    (rest : List (ArgConversion × Value)) (words : WordBuffer) :
    Portable.Reaches b args index ((conversion, v) :: rest) words →
    Portable.argumentWord args index v conversion = none →
    args.values[index]? = some v ∧ ∃ type, b.plan.args[index]? = some (.unbox type)
  /-- The words it passes on are words of the buffer, and each one that is read is among them. -/
  read (args : ArgSlice) (index : Nat) (words : WordBuffer) :
    Portable.Reaches b args index [] words → args.length ≤ maxParams ∧
    ∃ passed : List Word, (Portable.used words args.length : CallM σ (List Word)) = pure passed ∧
      passed.length = args.length ∧ ∀ slots i,
        Args.decode slots b.method.method.signature.params 0 passed ≠ .error (.missingWord i)
  /-- No call of it faults. -/
  portable : Thunk.Sound (Portable.thunk b) b.plan
  /-- The status that generated code returns stands for success, for a wrong number of arguments, or
  for an argument that there is, and that the plan unboxes. -/
  status (code : Code ThunkLabel ThunkReg) (args : ArgSlice) (s : σ) : generate b = .ok code →
    ∃ status frame,
      ((code.run (environment b args) (callOperands args)).run s).1 =
        .ok ([⟨.i64, status⟩], frame) ∧
      (status ≠ statusOk → status ≠ statusArgCount →
        1 ≤ status.toNat ∧ status.toNat ≤ args.length ∧
        (∃ v, args.values[(status - 1).toNat]? = some v) ∧
        ∃ type, b.plan.args[(status - 1).toNat]? = some (.unbox type))
  /-- No status for an argument is one of the other two. -/
  distinct (index : Nat) : index < b.plan.arity →
    statusTypeMismatch index ≠ statusOk ∧ statusTypeMismatch index ≠ statusArgCount
  /-- No call of generated code faults. -/
  machine (code : Code ThunkLabel ThunkReg) : generate b = .ok code →
    Thunk.Sound (Machine.thunk b code) b.plan

variable {m : MethodHandle σ} {target : Option Target} {b : Binding σ}

/-- No thunk of a valid pair goes out of bounds. -/
theorem Binding.within_bounds (bound : Binding.make m target = .ok b) : b.WithinBounds := by
  obtain ⟨⟨hmax, -⟩, hb⟩ := (Binding.make_eq_ok_iff m target b).mp bound
  have hp : b.plan = .lower b.method.method.signature := by rw [hb]
  obtain rfl : b.method = m := by rw [hb]
  have harity : b.plan.arity = b.method.method.signature.params.length := by
    rw [hp, Plan.arity_lower]
    rfl
  have hplan : b.plan.arity ≤ maxParams := harity ▸ hmax
  have hsound := b.method.method.respond_sound (Target.receiverWord target)
  rw [← hp] at hsound
  exact {
    fill := fun args index rest words h ↦ h.fill_eq
    write := fun args index next rest words h ↦ h.lt_maxParams hplan
    refuse := fun args index conversion v rest words h none_eq ↦
      ⟨h.getElem?_values, h.unbox_of_argumentWord none_eq⟩
    read := fun args index words h ↦ by
      obtain ⟨hused, hlength⟩ := h.used_eq hplan
      refine ⟨h.length_eq ▸ hplan, _, hused, hlength.trans h.length_eq.symm, fun slots i ↦ ?_⟩
      exact Args.decode_ne_missingWord 0 (Nat.le_of_eq (harity.symm.trans hlength.symm)) i
    portable := by
      rw [Portable.thunk_eq_respond bound]
      exact hsound
    status := fun code args s generated ↦ by
      obtain rfl := Except.ok.inj ((generate_eq_ok b).symm.trans generated)
      obtain ⟨status, frame, hrun, names⟩ := run_code_names bound args s
      exact ⟨status, frame, hrun, names.argument_of_ne⟩
    distinct := fun index h ↦ statusTypeMismatch_ne (Nat.lt_of_lt_of_le h hplan)
    machine := fun code generated ↦ by
      rw [Machine.thunk_eq_respond bound generated]
      exact hsound }

/-- The thunks of a method with a receiver, a float parameter and a reference stay within bounds. -/
theorem Binding.within_bounds_notedScale :
    Binding.make Portable.notedScale (some Portable.boundScale) =
        .ok ⟨Portable.notedScale, some Portable.boundScale, ⟨[.unbox .f32, .passRef], .box .f32⟩⟩ ∧
      Binding.WithinBounds ⟨Portable.notedScale, some Portable.boundScale,
        ⟨[.unbox .f32, .passRef], .box .f32⟩⟩ :=
  ⟨rfl, @Binding.within_bounds _ _ Portable.notedScale (some Portable.boundScale) _ rfl⟩

end Invocation
