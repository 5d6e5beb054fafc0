import Invocation.Proofs.Machine.Blocks
import Invocation.Proofs.Machine.CallTyping

/-!
# Paths through the code of a thunk

Past which branches a path leads to which block is told by the tests that it has passed: those from
an index on (`ThunkCode.Stands`), or all of them, that of the number of arguments first
(`ThunkCode.Leads`). Every path from the entry block is one of these (`ThunkCode.Leads.of_path`), the
block that it leads to is well typed (`ThunkCode.Leads.wellTyped`), and there is no call in it unless
all tests have been passed (`ThunkCode.Leads.passed`).
-/

namespace Invocation.Machine.ThunkCode

/-- Past which branches a path through the tests from an index on leads to which block. -/
inductive Stands (body : List (Instr ThunkReg)) : ThunkLabel → Nat → List ArgConversion →
    List (Block ThunkLabel ThunkReg × Bool) → ThunkBlock → Prop
  /-- All tests have been passed. -/
  | last (block : ThunkLabel) (index : Nat) : Stands body block index [] []
    (block, ⟨[], body ++ [.const (.status block) .i64 statusOk], .ret [.status block]⟩)
  /-- The next test has not been made. -/
  | test (block : ThunkLabel) (index : Nat) (type : ValueType) (rest : List ArgConversion) :
    Stands body block index (.unbox type :: rest) [] (tagBlock block index type)
  /-- The next test has failed. -/
  | fail (block : ThunkLabel) (index : Nat) (type : ValueType) (rest : List ArgConversion) :
    Stands body block index (.unbox type :: rest) [((tagBlock block index type).2, false)]
      (statusBlock (.tagFail index) (statusTypeMismatch index))
  /-- The next test has been passed. -/
  | pass {block : ThunkLabel} {index : Nat} {type : ValueType} {rest : List ArgConversion}
    {branches : List (Block ThunkLabel ThunkReg × Bool)} {b : ThunkBlock} :
    Stands body (.tagOk index) (index + 1) rest branches b →
    Stands body block index (.unbox type :: rest)
      (((tagBlock block index type).2, true) :: branches) b
  /-- There is no test for a reference. -/
  | skip {block : ThunkLabel} {index : Nat} {rest : List ArgConversion}
    {branches : List (Block ThunkLabel ThunkReg × Bool)} {b : ThunkBlock} :
    Stands body block (index + 1) rest branches b →
    Stands body block index (.passRef :: rest) branches b

namespace Stands

variable {body : List (Instr ThunkReg)} {block l : ThunkLabel} {index : Nat}
  {args : List ArgConversion} {branches : List (Block ThunkLabel ThunkReg × Bool)} {b : ThunkBlock}

/-- A path leads to one of the blocks. -/
theorem mem (h : Stands body block index args branches b) :
    b ∈ checkedBlocks body block index args := by
  induction h with
  | last => exact List.mem_singleton_self _
  | test => exact List.mem_cons_self ..
  | fail => exact List.mem_cons_of_mem _ (List.mem_cons_self ..)
  | pass _ ih => exact List.mem_cons_of_mem _ (List.mem_cons_of_mem _ ih)
  | skip _ ih => exact ih

/-- A path is shorter than there are blocks. -/
theorem length_lt (h : Stands body block index args branches b) :
    branches.length < (checkedBlocks body block index args).length := by
  induction h with
  | last => exact Nat.one_pos
  | test => exact Nat.succ_pos _
  | fail =>
    simp only [checkedBlocks, List.length_cons, List.length_nil]
    omega
  | pass _ ih =>
    simp only [checkedBlocks, List.length_cons]
    omega
  | skip _ ih => exact ih

/-- Every path is one of these. -/
theorem of_path {code : Code ThunkLabel ThunkReg}
    (found : ∀ b ∈ checkedBlocks body block index args, code.blocks.lookup b.1 = some b.2)
    (path : code.Path block branches l) :
    ∃ b, b.1 = l ∧ Stands body block index args branches b := by
  induction args generalizing block index branches with
  | nil =>
    have hblock := found _ (List.mem_singleton_self _)
    cases path with
    | here => exact ⟨_, rfl, .last ..⟩
    | branch holds hlookup hfinal _ =>
      rw [hblock] at hlookup
      cases hlookup
      cases hfinal
  | cons conversion args ih =>
    cases conversion with
    | passRef =>
      obtain ⟨b, hb, hs⟩ := ih found path
      exact ⟨b, hb, .skip hs⟩
    | unbox type =>
      have htest := found _ (List.mem_cons_self ..)
      have hfail := found _ (List.mem_cons_of_mem _ (List.mem_cons_self ..))
      simp only [tagBlock, statusBlock] at htest hfail
      cases path with
      | here => exact ⟨_, rfl, .test ..⟩
      | branch holds hlookup hfinal hpath =>
        rw [htest] at hlookup
        cases hlookup
        cases hfinal
        cases holds with
        | true =>
          obtain ⟨b, hb, hs⟩ :=
            ih (fun b hb ↦ found b (List.mem_cons_of_mem _ (List.mem_cons_of_mem _ hb))) hpath
          exact ⟨b, hb, .pass hs⟩
        | false =>
          cases hpath with
          | here => exact ⟨_, rfl, .fail ..⟩
          | branch holds hlookup hfinal _ =>
            simp only [Bool.false_eq_true, if_false, hfail] at hlookup
            cases hlookup
            cases hfinal

/-- A block with a call in it is only reached once the tag of every unboxed argument has been tested,
and found right. -/
theorem passed (h : Stands body block index args branches b) {i : Instr ThunkReg}
    (hi : i ∈ b.2.body) (call : i.isCall = true) {k : Nat} {type : ValueType}
    (hk : args[k]? = some (.unbox type)) :
    ∃ l, ((tagBlock l (index + k) type).2, true) ∈ branches := by
  induction h generalizing k with
  | last => cases hk
  | test =>
    simp only [tagBlock, List.mem_cons, List.not_mem_nil, or_false] at hi
    rcases hi with rfl | rfl <;> cases call
  | fail =>
    simp only [statusBlock, List.mem_cons, List.not_mem_nil, or_false] at hi
    subst hi
    cases call
  | @pass block index declared rest branches b _ ih =>
    cases k with
    | zero =>
      cases hk
      exact ⟨block, List.mem_cons_self ..⟩
    | succ k =>
      obtain ⟨l, hl⟩ := ih hi hk
      rw [Nat.add_right_comm] at hl
      exact ⟨l, List.mem_cons_of_mem _ hl⟩
  | skip _ ih =>
    cases k with
    | zero => cases hk
    | succ k =>
      obtain ⟨l, hl⟩ := ih hi hk
      rw [Nat.add_right_comm] at hl
      exact ⟨l, hl⟩

end Stands

/-- A status block is well typed whatever has been written. -/
theorem wellTyped_statusBlock (Γ : Context ThunkReg) (block : ThunkLabel) (status : Word) :
    (statusBlock block status).2.WellTyped Γ [.i64] :=
  ⟨⟨rfl, trivial⟩, congrArg ([·]) (Γ.write_self (.status block) .i64)⟩

/-- A test of a tag is well typed. -/
theorem wellTyped_tagBlock {Γ : Context ThunkReg} (h : Entered Γ) (block : ThunkLabel) (index : Nat)
    (type : ValueType) : (tagBlock block index type).2.WellTyped Γ [.i64] := by
  have htag := Γ.write_self (.tag index) .i8
  exact ⟨⟨h.slots, ⟨.i8, htag, rfl⟩, trivial⟩,
    .i8, (Γ.write (.tag index) .i8).write_self (.tagEqual index) .i8, rfl⟩

/-- A test of a tag leaves the registers that the next blocks rely on. -/
theorem entered_tagBlock {Γ : Context ThunkReg} (h : Entered Γ) (block : ThunkLabel) (index : Nat)
    (type : ValueType) : Entered (Γ.after (tagBlock block index type).2.body) :=
  ⟨h.slots, h.count, h.out⟩

/-- Wherever a path through the tests leads, the block is well typed. -/
theorem Stands.wellTyped {plan : Plan} {receiver : Option Word} {entry : Word} {block : ThunkLabel}
    {index : Nat} {args : List ArgConversion} {branches : List (Block ThunkLabel ThunkReg × Bool)}
    {b : ThunkBlock} {Γ : Context ThunkReg}
    (h : Stands (callNative plan receiver entry) block index args branches b) (entered : Entered Γ) :
    b.2.WellTyped (Γ.along branches) [.i64] := by
  induction h generalizing Γ with
  | last block =>
    refine ⟨Context.types_append_iff.mpr ⟨types_callNative entered plan receiver entry, rfl, trivial⟩,
      ?_⟩
    rw [Context.after_append]
    exact congrArg ([·]) ((Γ.after (callNative plan receiver entry)).write_self (.status block) .i64)
  | test block index type => exact wellTyped_tagBlock entered block index type
  | fail => exact wellTyped_statusBlock _ _ _
  | pass _ ih => exact ih (entered_tagBlock entered _ _ _)
  | skip _ ih => exact ih entered

/-- Past which branches a path from the entry block leads to which block. -/
inductive Leads (plan : Plan) (receiver : Option Word) (entry : Word) :
    List (Block ThunkLabel ThunkReg × Bool) → ThunkBlock → Prop
  | entry : Leads plan receiver entry [] (entryBlock plan.arity)
  /-- The number of arguments is wrong. -/
  | countFail : Leads plan receiver entry [((entryBlock plan.arity).2, false)]
    (statusBlock .countFail statusArgCount)
  /-- The number of arguments is right. -/
  | counted {branches : List (Block ThunkLabel ThunkReg × Bool)} {b : ThunkBlock} :
    Stands (callNative plan receiver entry) .countOk 0 plan.args branches b →
    Leads plan receiver entry (((entryBlock plan.arity).2, true) :: branches) b

/-- The registers that are written when the code is entered: those of its parameters. -/
def parameters (plan : Plan) : Context ThunkReg :=
  Context.writeAll (fun _ ↦ none) (entryBlock plan.arity).2.params

namespace Leads

variable {plan : Plan} {receiver : Option Word} {entry : Word}
  {branches : List (Block ThunkLabel ThunkReg × Bool)} {b : ThunkBlock}

/-- A path leads to one of the blocks. -/
theorem mem (h : Leads plan receiver entry branches b) : b ∈ blocks plan receiver entry := by
  cases h with
  | entry => exact List.mem_cons_self ..
  | countFail => exact List.mem_cons_of_mem _ (List.mem_cons_self ..)
  | counted h => exact List.mem_cons_of_mem _ (List.mem_cons_of_mem _ h.mem)

/-- A path is shorter than there are blocks. -/
theorem length_lt (h : Leads plan receiver entry branches b) :
    branches.length < (blocks plan receiver entry).length := by
  cases h with
  | entry => exact Nat.succ_pos _
  | countFail =>
    simp only [blocks, List.length_cons, List.length_nil]
    omega
  | counted h =>
    have hl := h.length_lt
    simp only [blocks, List.length_cons]
    omega

/-- Every path from the entry block is one of these. -/
theorem of_path {l : ThunkLabel}
    (path : Code.Path ⟨blocks plan receiver entry⟩ .entry branches l) :
    ∃ b, b.1 = l ∧ Leads plan receiver entry branches b := by
  have found {b : ThunkBlock} (hb : b ∈ blocks plan receiver entry) :
      (blocks plan receiver entry).lookup b.1 = some b.2 := lookup_blocks hb
  have hentry := found (List.mem_cons_self ..)
  have hfail := found (List.mem_cons_of_mem _ (List.mem_cons_self ..))
  simp only [entryBlock, statusBlock] at hentry hfail
  cases path with
  | here => exact ⟨_, rfl, .entry⟩
  | branch holds hlookup hfinal hpath =>
    simp only [hentry] at hlookup
    cases hlookup
    cases hfinal
    cases holds with
    | true =>
      obtain ⟨b, hb, hs⟩ := Stands.of_path
        (fun b hb ↦ found (List.mem_cons_of_mem _ (List.mem_cons_of_mem _ hb))) hpath
      exact ⟨b, hb, .counted hs⟩
    | false =>
      cases hpath with
      | here => exact ⟨_, rfl, .countFail⟩
      | branch holds hlookup hfinal _ =>
        simp only [Bool.false_eq_true, if_false, hfail] at hlookup
        cases hlookup
        cases hfinal

/-- Wherever a path leads, the block is well typed. -/
theorem wellTyped (h : Leads plan receiver entry branches b) :
    b.2.WellTyped ((parameters plan).along branches) [.i64] := by
  cases h with
  | entry => exact ⟨⟨⟨.i64, rfl, rfl⟩, trivial⟩, .i8, rfl, rfl⟩
  | countFail => exact wellTyped_statusBlock _ _ _
  | counted h => exact h.wellTyped ⟨rfl, rfl, rfl⟩

/-- A block with a call in it is only reached once the number of arguments and the tag of every
unboxed argument have been tested, and found right. -/
theorem passed (h : Leads plan receiver entry branches b) {i : Instr ThunkReg} (hi : i ∈ b.2.body)
    (call : i.isCall = true) :
    ((entryBlock plan.arity).2, true) ∈ branches ∧ ∀ (k : Nat) (type : ValueType),
      plan.args[k]? = some (.unbox type) → ∃ l, ((tagBlock l k type).2, true) ∈ branches := by
  cases h with
  | entry =>
    simp only [entryBlock, List.mem_cons, List.not_mem_nil, or_false] at hi
    subst hi
    cases call
  | countFail =>
    simp only [statusBlock, List.mem_cons, List.not_mem_nil, or_false] at hi
    subst hi
    cases call
  | counted h =>
    refine ⟨List.mem_cons_self .., fun k type hk ↦ ?_⟩
    obtain ⟨l, hl⟩ := h.passed hi call hk
    rw [Nat.zero_add] at hl
    exact ⟨l, List.mem_cons_of_mem _ hl⟩

end Leads

/-- A path leads past all tests. -/
theorem path_lastBlock {body : List (Instr ThunkReg)} {block : ThunkLabel} {index : Nat}
    {args : List ArgConversion} (code : Code ThunkLabel ThunkReg)
    (found : ∀ b ∈ checkedBlocks body block index args, code.blocks.lookup b.1 = some b.2) :
    ∃ branches rest, code.Path block branches (lastBlock block index args) ∧
      (code.blocks.lookup (lastBlock block index args)).map Block.body = some (body ++ rest) := by
  induction args generalizing block index with
  | nil =>
    have hblock := found _ (List.mem_singleton_self _)
    simp only at hblock
    exact ⟨[], _, .here block, by rw [lastBlock, hblock]; rfl⟩
  | cons conversion args ih =>
    cases conversion with
    | passRef => exact ih found
    | unbox type =>
      have htest := found _ (List.mem_cons_self ..)
      obtain ⟨branches, rest, path, hbody⟩ :=
        ih fun b hb ↦ found b (List.mem_cons_of_mem _ (List.mem_cons_of_mem _ hb))
      exact ⟨_, rest, .branch true htest rfl path, hbody⟩

/-- The call of the native code can be reached. -/
theorem reaches_nativeCall (plan : Plan) (receiver : Option Word) (entry : Word) :
    ∃ branches Γ, Code.Reaches ⟨blocks plan receiver entry⟩ .entry (parameters plan) branches
      (nativeCall plan receiver) Γ := by
  have found {b : ThunkBlock} (hb : b ∈ blocks plan receiver entry) :
      (blocks plan receiver entry).lookup b.1 = some b.2 := lookup_blocks hb
  have hentry := found (List.mem_cons_self ..)
  obtain ⟨branches, rest, path, hbody⟩ := path_lastBlock ⟨blocks plan receiver entry⟩
    fun b hb ↦ found (List.mem_cons_of_mem _ (List.mem_cons_of_mem _ hb))
  obtain ⟨block, hblock, hbody⟩ := Option.map_eq_some_iff.mp hbody
  rw [callNative_eq, List.append_assoc] at hbody
  exact ⟨_, _, _, block, _, _, .branch true hentry rfl path, hblock, hbody, rfl⟩

/-- An instruction that is reached is in a block to which a path leads. -/
theorem Leads.of_reaches {plan : Plan} {receiver : Option Word} {entry : Word}
    {branches : List (Block ThunkLabel ThunkReg × Bool)} {i : Instr ThunkReg} {Γ : Context ThunkReg}
    (h : Code.Reaches ⟨blocks plan receiver entry⟩ .entry (parameters plan) branches i Γ) :
    ∃ b, Leads plan receiver entry branches b ∧ i ∈ b.2.body ∧ i.WellTyped Γ := by
  obtain ⟨m, block, done, rest, hpath, hlookup, hbody, rfl⟩ := h
  obtain ⟨b, rfl, hb⟩ := Leads.of_path hpath
  have hfound : (blocks plan receiver entry).lookup b.1 = some b.2 := lookup_blocks hb.mem
  obtain rfl : b.2 = block := Option.some.inj (hfound.symm.trans hlookup)
  have htypes := hb.wellTyped.body
  rw [hbody] at htypes
  exact ⟨b, hb, by simp [hbody], htypes.wellTyped⟩

end Invocation.Machine.ThunkCode
