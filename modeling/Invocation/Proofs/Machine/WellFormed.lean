import Invocation.Proofs.Machine.Assembly
import Invocation.Proofs.Machine.Paths

/-!
# The code of a thunk is well formed

For every plan, with or without a receiver, what is written down is code, and it is well formed
(`ThunkCode.directives_wellFormed`): each block is entered once and ends in one terminator, every
path from the entry block ends in the return of one status, every instruction finds its registers
written with the right types, and the one call is behind the test of the number of arguments and the
test of every tag.
-/

namespace Invocation.Machine.ThunkCode

/-- An instruction that belongs to a test: it reads what is tested, compares, or sets a status. -/
inductive IsTest : Instr ThunkReg → Prop
  | count (imm : Word) : IsTest (.equalImm .countEqual .argc imm)
  | tag (index offset : Nat) : IsTest (.load (.tag index) .i8 .args offset)
  | tagEqual (index : Nat) (imm : Word) : IsTest (.equalImm (.tagEqual index) (.tag index) imm)
  | status (block : ThunkLabel) (status : Word) : IsTest (.const (.status block) .i64 status)

/-- Tests neither call nor store anything. -/
theorem IsTest.quiet {i : Instr ThunkReg} (h : IsTest i) : i.isCall = false ∧ i.isStore = false := by
  cases h <;> exact ⟨rfl, rfl⟩

/-- Tests have registers of their own. -/
theorem IsTest.not_sets {i : Instr ThunkReg} (h : IsTest i) {r : ThunkReg}
    (hr : r = .receiver ∨ ∃ index, r = .arg index) : ¬ i.Sets r := by
  rintro ⟨Γ, hs⟩
  cases h <;> simp only [Instr.results, List.map_cons, List.map_nil, List.mem_singleton] at hs <;>
    subst hs <;> simp at hr

variable {body : List (Instr ThunkReg)} {p : Instr ThunkReg → Bool}

/-- Apart from the last body, the blocks consist of tests. -/
theorem filter_checkedBlocks (hp : ∀ i, IsTest i → p i = false) (block : ThunkLabel) (index : Nat)
    (args : List ArgConversion) :
    ((checkedBlocks body block index args).flatMap (·.2.body)).filter p = body.filter p := by
  induction args generalizing block index with
  | nil => simp [checkedBlocks, hp _ (.status block statusOk)]
  | cons conversion args ih =>
    cases conversion with
    | passRef => exact ih block (index + 1)
    | unbox type =>
      simp [checkedBlocks, tagBlock, statusBlock, hp _ (.tag ..), hp _ (.tagEqual ..),
        hp _ (.status ..), ih]

/-- Apart from what follows the tests, all blocks consist of tests. -/
theorem filter_blocks (hp : ∀ i, IsTest i → p i = false) (plan : Plan) (receiver : Option Word)
    (entry : Word) : ((blocks plan receiver entry).flatMap (·.2.body)).filter p =
      (callNative plan receiver entry).filter p := by
  simp [blocks, entryBlock, statusBlock, hp _ (.count _), hp _ (.status ..),
    filter_checkedBlocks hp]

/-- An argument is loaded into its own register. -/
theorem mem_loadArguments {i : Instr ThunkReg} {index : Nat} {conversions : List ArgConversion}
    (h : i ∈ loadArguments index conversions) :
    ∃ k conversion, conversions[k]? = some conversion ∧ i = loadArgument (index + k) conversion := by
  induction conversions generalizing index with
  | nil => cases h
  | cons conversion conversions ih =>
    rcases List.mem_cons.mp h with rfl | h
    · exact ⟨0, conversion, rfl, rfl⟩
    · obtain ⟨k, c, hk, rfl⟩ := ih h
      exact ⟨k + 1, c, hk, by rw [Nat.add_right_comm, Nat.add_assoc]⟩

/-- The loads before the call: of the receiver, of an argument, and of the address that is called. -/
theorem mem_operandLoads {i : Instr ThunkReg} {plan : Plan} {receiver : Option Word} {entry : Word}
    (h : i ∈ operandLoads plan receiver entry) :
    (∃ address, receiver = some address ∧ i = .const .receiver .i64 address) ∨
      (∃ k conversion, plan.args[k]? = some conversion ∧ i = loadArgument k conversion) ∨
      i = .const .callee .i64 entry := by
  simp only [operandLoads, List.mem_append, List.mem_singleton] at h
  rcases h with (h | h) | rfl
  · cases receiver with
    | none => cases h
    | some address => exact .inl ⟨address, rfl, List.mem_singleton.mp h⟩
  · obtain ⟨k, conversion, hk, rfl⟩ := mem_loadArguments h
    exact .inr (.inl ⟨k, conversion, hk, by rw [Nat.zero_add]⟩)
  · exact .inr (.inr rfl)

/-- Loads neither call nor store anything. -/
theorem quiet_operandLoads {i : Instr ThunkReg} {plan : Plan} {receiver : Option Word} {entry : Word}
    (h : i ∈ operandLoads plan receiver entry) : i.isCall = false ∧ i.isStore = false := by
  rcases mem_operandLoads h with ⟨address, -, rfl⟩ | ⟨k, conversion, -, rfl⟩ | rfl
  · exact ⟨rfl, rfl⟩
  · cases conversion <;> exact ⟨rfl, rfl⟩
  · exact ⟨rfl, rfl⟩

/-- Apart from the call and what is done with its result, all blocks consist of tests and loads. -/
theorem filter_blocks_of_quiet (hp : ∀ i, i.isCall = false ∧ i.isStore = false → p i = false)
    (plan : Plan) (receiver : Option Word) (entry : Word) :
    ((blocks plan receiver entry).flatMap (·.2.body)).filter p =
      (nativeCall plan receiver :: resultStore plan.ret).filter p := by
  have hloads : (operandLoads plan receiver entry).filter p = [] := by
    rw [List.filter_eq_nil_iff]
    intro i hi
    simp [hp i (quiet_operandLoads hi)]
  rw [filter_blocks fun i h ↦ hp i h.quiet, callNative_eq, List.filter_append, hloads,
    List.nil_append]

/-- There is one call in a thunk. -/
theorem filter_isCall (plan : Plan) (receiver : Option Word) (entry : Word) :
    ((blocks plan receiver entry).flatMap (·.2.body)).filter Instr.isCall =
      [nativeCall plan receiver] := by
  have hstore : (resultStore plan.ret).filter Instr.isCall = [] := by
    cases plan.ret with
    | null => rfl
    | object => rfl
    | box type => cases type <;> rfl
  rw [filter_blocks_of_quiet fun i h ↦ h.1, List.filter_cons_of_pos rfl, hstore]

/-- There is one store in a thunk. -/
theorem filter_isStore (plan : Plan) (receiver : Option Word) (entry : Word) :
    ((blocks plan receiver entry).flatMap (·.2.body)).filter Instr.isStore =
      [.store (resultWord plan.ret).2 .out 0] := by
  rw [filter_blocks_of_quiet fun i h ↦ h.2, List.filter_cons_of_neg Bool.false_ne_true]
  cases plan.ret with
  | null => rfl
  | object => rfl
  | box type => cases type <;> rfl

/-- What is in the blocks belongs to a test, or to what follows the tests. -/
theorem mem_blocks {i : Instr ThunkReg} {plan : Plan} {receiver : Option Word} {entry : Word}
    (h : i ∈ (blocks plan receiver entry).flatMap (·.2.body)) :
    IsTest i ∨ i ∈ callNative plan receiver entry := by
  classical
  by_cases ht : IsTest i
  · exact .inl ht
  · let p (i : Instr ThunkReg) : Bool := decide (¬ IsTest i)
    have hp (i : Instr ThunkReg) (hi : IsTest i) : p i = false := decide_eq_false (not_not_intro hi)
    have hi : i ∈ ((blocks plan receiver entry).flatMap (·.2.body)).filter p :=
      List.mem_filter.mpr ⟨h, decide_eq_true ht⟩
    rw [filter_blocks hp] at hi
    exact .inr (List.mem_filter.mp hi).1

/-- The load of an argument sets the register of that argument. -/
theorem sets_loadArgument {index : Nat} {conversion : ArgConversion} {r : ThunkReg}
    (h : (loadArgument index conversion).Sets r) : r = .arg index := by
  obtain ⟨Γ, h⟩ := h
  cases conversion with
  | unbox type => simpa [loadArgument, Instr.results] using h
  | passRef =>
    simp only [loadArgument, Instr.results, List.map_map, List.mem_map] at h
    obtain ⟨type, -, rfl⟩ := h
    rfl

/-- The call sets no register but that of its result. -/
theorem sets_nativeCall {plan : Plan} {receiver : Option Word} {r : ThunkReg}
    (h : (nativeCall plan receiver).Sets r) : r = .result := by
  obtain ⟨Γ, h⟩ := h
  rw [results_nativeCall, List.map_map, List.mem_map] at h
  obtain ⟨type, -, rfl⟩ := h
  rfl

/-- The result word has registers of its own. -/
theorem sets_resultStore {ret : ResultConversion} {i : Instr ThunkReg} (hi : i ∈ resultStore ret)
    {r : ThunkReg} (h : i.Sets r) : r = .word ∨ r = .bits := by
  obtain ⟨Γ, h⟩ := h
  cases ret with
  | null | object =>
    simp only [resultStore, resultWord, List.cons_append, List.nil_append, List.mem_cons,
      List.not_mem_nil, or_false] at hi
    rcases hi with rfl | rfl <;> simp_all [Instr.results]
  | box type =>
    simp only [resultStore, resultWord] at hi
    cases type <;> simp only [widen, List.cons_append, List.nil_append, List.mem_cons,
      List.not_mem_nil, or_false] at hi <;> rcases hi with rfl | rfl | rfl <;>
        simp_all [Instr.results]

/-- The registers of the arguments are set by the loads of those arguments alone, that of the receiver
by its load alone. -/
theorem eq_load_of_sets {i : Instr ThunkReg} {plan : Plan} {receiver : Option Word} {entry : Word}
    (h : i ∈ (blocks plan receiver entry).flatMap (·.2.body)) :
    (∀ index, i.Sets (.arg index) →
      ∃ conversion, plan.args[index]? = some conversion ∧ i = loadArgument index conversion) ∧
    (i.Sets .receiver → ∃ address, receiver = some address ∧ i = .const .receiver .i64 address) := by
  rcases mem_blocks h with ht | hi
  · exact ⟨fun index hs ↦ absurd hs (ht.not_sets (.inr ⟨index, rfl⟩)),
      fun hs ↦ absurd hs (ht.not_sets (.inl rfl))⟩
  rw [callNative_eq, List.mem_append, List.mem_cons] at hi
  rcases hi with hi | rfl | hi
  · rcases mem_operandLoads hi with ⟨address, hr, rfl⟩ | ⟨k, conversion, hk, rfl⟩ | rfl
    · exact ⟨fun index ⟨Γ, hs⟩ ↦ by simp [Instr.results] at hs, fun _ ↦ ⟨address, hr, rfl⟩⟩
    · constructor
      · intro index hs
        cases sets_loadArgument hs
        exact ⟨conversion, hk, rfl⟩
      · intro hs
        cases sets_loadArgument hs
    · constructor
      · rintro index ⟨Γ, hs⟩
        simp [Instr.results] at hs
      · rintro ⟨Γ, hs⟩
        simp [Instr.results] at hs
  · constructor
    · intro index hs
      cases sets_nativeCall hs
    · intro hs
      cases sets_nativeCall hs
  · constructor
    · intro index hs
      rcases sets_resultStore hi hs with h | h <;> cases h
    · intro hs
      rcases sets_resultStore hi hs with h | h <;> cases h

/-- The registers of the arguments from an index on are those of consecutive indexes. -/
theorem argumentRegisters_eq (index : Nat) (conversions : List ArgConversion) :
    argumentRegisters index conversions =
      (List.range conversions.length).map fun k ↦ .arg (index + k) := by
  induction conversions generalizing index with
  | nil => rfl
  | cons conversion conversions ih =>
    rw [argumentRegisters, ih, List.length_cons, List.range_succ_eq_map, List.map_cons, List.map_map]
    simp [Nat.add_right_comm, Nat.add_assoc]

/-- What makes the code of a thunk well formed. -/
structure WellFormed (plan : Plan) (receiver : Option Word) (entry : Word)
    (code : Code ThunkLabel ThunkReg) : Prop where
  /-- What is written down is this code, in an orderly way. -/
  written : Writes (directives plan receiver entry) code
  /-- Each block that is created is entered once, and no other. -/
  entered : (directives plan receiver entry).filterMap Directive.entered? =
    code.blocks.map Prod.fst
  /-- The code is called as every thunk is. -/
  called : code.blocks.head? = some (entryBlock plan.arity) ∧
    (entryBlock plan.arity).2.params.map Prod.snd =
      (CallSignature.thunk .i64).params.map CallParam.type
  /-- Every path from the entry block is shorter than there are blocks, so that it ends, and it leads
  to a block; if the path ends there, it is in the return of one status. -/
  returns (branches : List (Block ThunkLabel ThunkReg × Bool)) (l : ThunkLabel) :
    code.Path .entry branches l → branches.length < code.blocks.length ∧
      ∃ block, code.blocks.lookup l = some block ∧
        block.final.WellTyped (((parameters plan).along branches).after block.body) [.i64]
  /-- Every instruction that is reached finds the registers that it reads written, with types that it
  works on. -/
  typed (branches : List (Block ThunkLabel ThunkReg × Bool)) (i : Instr ThunkReg)
    (Γ : Context ThunkReg) :
    code.Reaches .entry (parameters plan) branches i Γ → i.WellTyped Γ
  /-- There is one call, of the registers of the receiver, if there is one, and of the arguments, in
  their order. -/
  call : (code.blocks.flatMap (·.2.body)).filter Instr.isCall =
    [.call (resultRegisters plan.ret) (.native plan receiver.isSome .i64) .callee
      ((if receiver.isSome then [.receiver] else []) ++ (List.range plan.arity).map .arg)]
  /-- The register of an argument is written by the load of that argument alone, and that of the
  receiver by its load alone. -/
  loaded (i : Instr ThunkReg) : i ∈ code.blocks.flatMap (·.2.body) →
    (∀ index, i.Sets (.arg index) →
      ∃ conversion, plan.args[index]? = some conversion ∧ i = loadArgument index conversion) ∧
    (i.Sets .receiver → ∃ address, receiver = some address ∧ i = .const .receiver .i64 address)
  /-- A call is reached only once the number of arguments has been tested, and the tag of every
  argument that is unboxed, and found right. -/
  tested (branches : List (Block ThunkLabel ThunkReg × Bool)) (i : Instr ThunkReg)
    (Γ : Context ThunkReg) :
    code.Reaches .entry (parameters plan) branches i Γ → i.isCall = true →
    ((entryBlock plan.arity).2, true) ∈ branches ∧ ∀ (index : Nat) (type : ValueType),
      plan.args[index]? = some (.unbox type) →
      ∃ block, ((tagBlock block index type).2, true) ∈ branches
  /-- The call can be reached. -/
  reached : ∃ branches i Γ, code.Reaches .entry (parameters plan) branches i Γ ∧ i.isCall = true
  /-- Where a call is reached, its operands agree with its signature, position by position. -/
  operands (branches : List (Block ThunkLabel ThunkReg × Bool)) (rs args : List ThunkReg)
    (signature : CallSignature) (address : ThunkReg) (Γ : Context ThunkReg) :
    code.Reaches .entry (parameters plan) branches (.call rs signature address args) Γ →
    signature = .native plan receiver.isSome .i64 ∧
      args.map Γ = signature.params.map (some ·.type)
  /-- A call has one result exactly if there is a result to convert, and it is of the type that the
  word is made from. -/
  result (rs args : List ThunkReg) (signature : CallSignature) (address : ThunkReg) :
    .call rs signature address args ∈ code.blocks.flatMap (·.2.body) →
    (rs.length = 1 ↔ plan.ret ≠ .null) ∧ (rs = [] ↔ plan.ret = .null) ∧
      rs.length = signature.returns.length ∧
      signature.returns.map CallParam.type = (resultType? plan.ret).toList
  /-- What is stored is a word, and it goes to the result word. -/
  stored (branches : List (Block ThunkLabel ThunkReg × Bool)) (value base : ThunkReg) (offset : Nat)
    (Γ : Context ThunkReg) :
    code.Reaches .entry (parameters plan) branches (.store value base offset) Γ →
    base = .out ∧ offset = 0 ∧ Γ value = some .i64

/-- A thunk calls with the registers of the receiver and of the arguments, in their order. -/
theorem callRegisters_eq (plan : Plan) (receiver : Option Word) :
    callRegisters receiver plan.args =
      (if receiver.isSome then [.receiver] else []) ++ (List.range plan.arity).map .arg := by
  simp only [callRegisters, argumentRegisters_eq, Nat.zero_add, Plan.arity]

/-- The only call there can be is that of the native code. -/
theorem eq_nativeCall {i : Instr ThunkReg} {plan : Plan} {receiver : Option Word} {entry : Word}
    (h : i ∈ (blocks plan receiver entry).flatMap (·.2.body)) (call : i.isCall = true) :
    i = nativeCall plan receiver := by
  have hi := List.mem_filter.mpr ⟨h, call⟩
  rw [filter_isCall] at hi
  exact List.mem_singleton.mp hi

/-- The only store there can be is that of the result word. -/
theorem eq_resultStore {i : Instr ThunkReg} {plan : Plan} {receiver : Option Word} {entry : Word}
    (h : i ∈ (blocks plan receiver entry).flatMap (·.2.body)) (store : i.isStore = true) :
    i = .store (resultWord plan.ret).2 .out 0 := by
  have hi := List.mem_filter.mpr ⟨h, store⟩
  rw [filter_isStore] at hi
  exact List.mem_singleton.mp hi

/-- What is written down for a plan is code, and it is well formed. -/
theorem directives_wellFormed (plan : Plan) (receiver : Option Word) (entry : Word) :
    ∃ code, assemble (directives plan receiver entry) = .ok code ∧
      WellFormed plan receiver entry code := by
  have assembled := assemble_directives plan receiver entry
  have writes := writes_of_assemble assembled
  have inBlocks {branches : List (Block ThunkLabel ThunkReg × Bool)} {b : ThunkBlock}
      {i : Instr ThunkReg} (hb : Leads plan receiver entry branches b) (hi : i ∈ b.2.body) :
      i ∈ (blocks plan receiver entry).flatMap (·.2.body) :=
    List.mem_flatMap.mpr ⟨b, hb.mem, hi⟩
  refine ⟨_, assembled, ?_⟩
  constructor
  case written => exact writes
  case entered => exact writes.entered
  case called => exact ⟨rfl, rfl⟩
  case returns =>
    intro branches l path
    obtain ⟨b, rfl, hb⟩ := Leads.of_path path
    exact ⟨hb.length_lt, b.2, lookup_blocks hb.mem, hb.wellTyped.final⟩
  case typed =>
    intro branches i Γ reached
    obtain ⟨b, -, -, typed⟩ := Leads.of_reaches reached
    exact typed
  case call => rw [filter_isCall, nativeCall, callRegisters_eq]
  case loaded => exact fun i hi ↦ eq_load_of_sets hi
  case tested =>
    intro branches i Γ reached call
    obtain ⟨b, hb, hi, -⟩ := Leads.of_reaches reached
    exact hb.passed hi call
  case reached =>
    obtain ⟨branches, Γ, reached⟩ := reaches_nativeCall plan receiver entry
    exact ⟨branches, _, Γ, reached, rfl⟩
  case operands =>
    intro branches rs args signature address Γ reached
    obtain ⟨b, hb, hi, typed⟩ := Leads.of_reaches reached
    have hcall := eq_nativeCall (inBlocks hb hi) rfl
    cases hcall
    exact ⟨rfl, typed.2.1⟩
  case result =>
    intro rs args signature address hi
    cases eq_nativeCall hi rfl
    exact ⟨(resultRegisters_iff plan.ret).1, (resultRegisters_iff plan.ret).2,
      length_resultRegisters plan.ret, types_ofResult plan.ret⟩
  case stored =>
    intro branches value base offset Γ reached
    obtain ⟨b, hb, hi, typed⟩ := Leads.of_reaches reached
    cases eq_resultStore (inBlocks hb hi) rfl
    exact ⟨rfl, rfl, typed.1⟩

end Invocation.Machine.ThunkCode
