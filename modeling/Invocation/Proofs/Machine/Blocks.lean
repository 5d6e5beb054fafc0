import Invocation.Machine.ThunkCode
import Invocation.Proofs.Association

/-!
# The blocks of a thunk

What the directives of a thunk assemble to, block by block: the entry block tests the number of
arguments, each unboxed argument has a block that tests its tag, every failed test has a block that
returns its status, and the last block calls the native code. Assembly never fails, whatever the
plan (`assemble_directives`), and no two blocks have the same label (`nodup_labels_blocks`).
-/

namespace Invocation.Machine

/-- A labelled block of a thunk. -/
abbrev ThunkBlock := ThunkLabel × Block ThunkLabel ThunkReg

namespace Assembly

variable {Label Reg : Type} [DecidableEq Label]

/-- Directives are followed one list after the other. -/
theorem followAll_append (a b : Assembly Label Reg) (ds es : List (Directive Label Reg))
    (h : a.followAll ds = .ok b) : a.followAll (ds ++ es) = b.followAll es := by
  induction ds generalizing a with
  | nil =>
    cases h
    rfl
  | cons d ds ih =>
    rw [List.cons_append, followAll]
    rw [followAll] at h
    cases hd : a.follow d with
    | error e => simp [hd] at h
    | ok c =>
      rw [hd] at h
      exact ih c h

/-- Emitted instructions go into the open block, in order. -/
theorem followAll_emit (finished : List (Label × Block Label Reg)) (l : Label)
    (params : List (Reg × MachineType)) (done body : List (Instr Reg)) :
    (⟨[], some (l, params, done), finished⟩ : Assembly Label Reg).followAll (body.map .emit) =
      .ok ⟨[], some (l, params, body.reverse ++ done), finished⟩ := by
  induction body generalizing done with
  | nil => rfl
  | cons i body ih =>
    rw [List.map_cons, followAll, follow]
    simp only [ih, List.reverse_cons, List.append_assoc, List.cons_append, List.nil_append]

end Assembly

namespace ThunkCode

/-- A block that does nothing but return a status. -/
def statusBlock (block : ThunkLabel) (status : Word) : ThunkBlock :=
  (block, ⟨[], [.const (.status block) .i64 status], .ret [.status block]⟩)

/-- A block that tests the tag of the argument at an index. -/
def tagBlock (block : ThunkLabel) (index : Nat) (type : ValueType) : ThunkBlock :=
  (block, ⟨[], [.load (.tag index) .i8 .args (index * slotSize + tagOffset),
    .equalImm (.tagEqual index) (.tag index) (type.tag.setWidth 64)],
    .branch (.tagEqual index) (.tagOk index) (.tagFail index)⟩)

/-- The blocks from the one on that tests the tags from an index on. The last block has a body of
its own and returns success. -/
def checkedBlocks (body : List (Instr ThunkReg)) (block : ThunkLabel) (index : Nat) :
    List ArgConversion → List ThunkBlock
  | [] => [(block, ⟨[], body ++ [.const (.status block) .i64 statusOk], .ret [.status block]⟩)]
  | .unbox type :: rest =>
    tagBlock block index type :: statusBlock (.tagFail index) (statusTypeMismatch index) ::
      checkedBlocks body (.tagOk index) (index + 1) rest
  | .passRef :: rest => checkedBlocks body block (index + 1) rest

/-- The entry block: bind the parameters and test the number of arguments. -/
def entryBlock (arity : Nat) : ThunkBlock :=
  (.entry, ⟨[(.args, .i64), (.argc, .i64), (.out, .i64)],
    [.equalImm .countEqual .argc (BitVec.ofNat 64 arity)],
    .branch .countEqual .countOk .countFail⟩)

/-- All blocks of a thunk, the entry block first. -/
def blocks (plan : Plan) (receiver : Option Word) (entry : Word) : List ThunkBlock :=
  entryBlock plan.arity :: statusBlock .countFail statusArgCount ::
    checkedBlocks (callNative plan receiver entry) .countOk 0 plan.args

/-- No block for a tag test from an index on is among the finished ones, or open. -/
def Fresh (finished : List ThunkBlock) (block : ThunkLabel) (index : Nat) : Prop :=
  ∀ l ∈ block :: finished.map Prod.fst, ∀ j, index ≤ j → l ≠ .tagOk j ∧ l ≠ .tagFail j

/-- Once a tag has been tested, the blocks of later tests are still fresh. -/
theorem fresh_tagBlock {finished : List ThunkBlock} {block : ThunkLabel} {index : Nat}
    (type : ValueType) (h : Fresh finished block index) :
    Fresh (statusBlock (.tagFail index) (statusTypeMismatch index) ::
      tagBlock block index type :: finished) (.tagOk index) (index + 1) := by
  intro l hl j hj
  have hne : index ≠ j := by omega
  simp only [List.map_cons, List.mem_cons, statusBlock, tagBlock] at hl
  rcases hl with rfl | rfl | rfl | hl
  · simp [hne]
  · simp [hne]
  · exact h _ (List.mem_cons_self ..) j (by omega)
  · exact h l (List.mem_cons_of_mem _ hl) j (by omega)

/-- A label is unknown if it is that of no pending, open or finished block. -/
theorem knows_eq_false {pending : List (ThunkLabel × List (ThunkReg × MachineType))}
    {finished : List ThunkBlock} {block l : ThunkLabel} {done : List (Instr ThunkReg)}
    (hp : ∀ k ∈ pending.map Prod.fst, k ≠ l) (hf : ∀ k ∈ block :: finished.map Prod.fst, k ≠ l) :
    (⟨pending, some (block, [], done), finished⟩ : Assembly ThunkLabel ThunkReg).knows l =
      false := by
  simp only [List.mem_map, List.mem_cons, forall_exists_index, and_imp] at hp hf
  simp only [Assembly.knows, Bool.or_eq_false_iff, List.any_eq_false, beq_iff_eq, Option.any_some,
    beq_eq_false_iff_ne]
  exact ⟨⟨fun x hx ↦ hp x.1 x hx rfl, hf block (.inl rfl)⟩,
    fun x hx ↦ hf x.1 (.inr ⟨x, hx, rfl⟩)⟩

/-- The test of a tag closes the open block, and opens the one for the next test. -/
theorem followAll_tagCheck {finished : List ThunkBlock} {block : ThunkLabel} {index : Nat}
    (type : ValueType) (h : Fresh finished block index) :
    (⟨[], some (block, [], []), finished⟩ : Assembly ThunkLabel ThunkReg).followAll
        (tagCheck index type) =
      .ok ⟨[], some (.tagOk index, [], []),
        statusBlock (.tagFail index) (statusTypeMismatch index) ::
          tagBlock block index type :: finished⟩ := by
  have hok (done : List (Instr ThunkReg)) :
      (⟨[], some (block, [], done), finished⟩ : Assembly ThunkLabel ThunkReg).knows
        (.tagOk index) = false :=
    knows_eq_false (by simp) fun k hk ↦ (h k hk index (Nat.le_refl _)).1
  have hfail (done : List (Instr ThunkReg)) :
      (⟨[(.tagOk index, [])], some (block, [], done), finished⟩ :
        Assembly ThunkLabel ThunkReg).knows (.tagFail index) = false :=
    knows_eq_false (by simp) fun k hk ↦ (h k hk index (Nat.le_refl _)).2
  have hne : (ThunkLabel.tagFail index == ThunkLabel.tagOk index) = false := by simp
  simp [tagCheck, returnStatus, Assembly.followAll, Assembly.follow, hok, hfail, hne,
    List.lookup_cons, statusBlock, tagBlock]

/-- The tag tests, the body and the final return make up the blocks from the open one on. -/
theorem followAll_tagChecks {finished : List ThunkBlock} {block : ThunkLabel} {index : Nat}
    (body : List (Instr ThunkReg)) (args : List ArgConversion) (h : Fresh finished block index) :
    (⟨[], some (block, [], []), finished⟩ : Assembly ThunkLabel ThunkReg).followAll
        (tagChecks index args ++ body.map .emit ++
          returnStatus (lastBlock block index args) statusOk) =
      .ok ⟨[], none, (checkedBlocks body block index args).reverse ++ finished⟩ := by
  induction args generalizing finished block index with
  | nil =>
    rw [tagChecks, List.nil_append,
      Assembly.followAll_append _ _ _ _ (Assembly.followAll_emit finished block [] [] body)]
    simp [returnStatus, lastBlock, Assembly.followAll, Assembly.follow, checkedBlocks]
  | cons conversion args ih =>
    cases conversion with
    | passRef =>
      have hf : Fresh finished block (index + 1) := fun l hl j hj ↦ h l hl j (by omega)
      exact ih hf
    | unbox type =>
      rw [tagChecks, List.append_assoc, List.append_assoc,
        Assembly.followAll_append _ _ _ _ (followAll_tagCheck type h), ← List.append_assoc,
        lastBlock, ih (fresh_tagBlock type h)]
      simp [checkedBlocks]

/-- The directives of a thunk assemble to its blocks, whatever the plan, receiver and entry. -/
theorem assemble_directives (plan : Plan) (receiver : Option Word) (entry : Word) :
    assemble (directives plan receiver entry) = .ok ⟨blocks plan receiver entry⟩ := by
  have hfresh :
      Fresh [statusBlock .countFail statusArgCount, entryBlock plan.arity] .countOk 0 := by
    intro l hl j _
    simp only [List.map_cons, List.map_nil, List.mem_cons, List.not_mem_nil, or_false, statusBlock,
      entryBlock] at hl
    rcases hl with rfl | rfl | rfl <;> simp
  have hcount : (Assembly.empty : Assembly ThunkLabel ThunkReg).followAll
      ([.create .entry [(.args, .i64), (.argc, .i64), (.out, .i64)], .enter .entry] ++
        countCheck plan.arity) =
      .ok ⟨[], some (.countOk, [], []),
        [statusBlock .countFail statusArgCount, entryBlock plan.arity]⟩ := by
    have hne : (ThunkLabel.countFail == ThunkLabel.countOk) = false := by simp
    simp [countCheck, returnStatus, Assembly.followAll, Assembly.follow, Assembly.empty,
      Assembly.knows, hne, List.lookup_cons, statusBlock, entryBlock]
  have hall : (Assembly.empty : Assembly ThunkLabel ThunkReg).followAll
      (directives plan receiver entry) =
      .ok ⟨[], none, (blocks plan receiver entry).reverse⟩ := by
    rw [directives, List.append_assoc, List.append_assoc, Assembly.followAll_append _ _ _ _ hcount,
      ← List.append_assoc, followAll_tagChecks _ _ hfresh]
    simp [blocks]
  simp [assemble, hall]

/-- The labels of the blocks from one on: its own, and those of the tests from an index on. -/
theorem mem_labels_checkedBlocks {body : List (Instr ThunkReg)} {block l : ThunkLabel} {index : Nat}
    {args : List ArgConversion} (h : l ∈ (checkedBlocks body block index args).map Prod.fst) :
    l = block ∨ ∃ j, index ≤ j ∧ (l = .tagOk j ∨ l = .tagFail j) := by
  induction args generalizing block index with
  | nil => exact .inl (by simpa [checkedBlocks] using h)
  | cons conversion args ih =>
    cases conversion with
    | passRef =>
      rcases ih h with hl | ⟨j, hj, hl⟩
      · exact .inl hl
      · exact .inr ⟨j, by omega, hl⟩
    | unbox type =>
      simp only [checkedBlocks, List.map_cons, List.mem_cons, tagBlock, statusBlock] at h
      rcases h with hl | hl | h
      · exact .inl hl
      · exact .inr ⟨index, Nat.le_refl _, .inr hl⟩
      · rcases ih h with hl | ⟨j, hj, hl⟩
        · exact .inr ⟨index, Nat.le_refl _, .inl hl⟩
        · exact .inr ⟨j, by omega, hl⟩

/-- The blocks from a fresh one on have different labels. -/
theorem nodup_labels_checkedBlocks {body : List (Instr ThunkReg)} {block : ThunkLabel}
    {index : Nat} (args : List ArgConversion) (h : Fresh [] block index) :
    ((checkedBlocks body block index args).map Prod.fst).Nodup := by
  induction args generalizing block index with
  | nil => simp [checkedBlocks]
  | cons conversion args ih =>
    cases conversion with
    | passRef => exact ih fun l hl j hj ↦ h l hl j (by omega)
    | unbox type =>
      have hb (j : Nat) (hj : index ≤ j) := h block (List.mem_cons_self ..) j hj
      simp only [checkedBlocks, List.map_cons, List.nodup_cons, tagBlock, statusBlock]
      refine ⟨fun hm ↦ ?_, fun hm ↦ ?_, ih ?_⟩
      · rcases List.mem_cons.mp hm with hl | hm
        · exact (hb index (Nat.le_refl _)).2 hl
        · rcases mem_labels_checkedBlocks hm with hl | ⟨j, hj, hl | hl⟩
          · exact (hb index (Nat.le_refl _)).1 hl
          · exact (hb j (by omega)).1 hl
          · exact (hb j (by omega)).2 hl
      · rcases mem_labels_checkedBlocks hm with hl | ⟨j, hj, hl | hl⟩
        · cases hl
        · cases hl
        · cases hl
          omega
      · intro l hl j hj
        have hne : index ≠ j := by omega
        obtain rfl : l = .tagOk index := by simpa using hl
        simp [hne]

/-- No two blocks of a thunk have the same label. -/
theorem nodup_labels_blocks (plan : Plan) (receiver : Option Word) (entry : Word) :
    ((blocks plan receiver entry).map Prod.fst).Nodup := by
  have hfresh : Fresh [] .countOk 0 := by
    intro l hl j _
    obtain rfl : l = .countOk := by simpa using hl
    simp
  have hn (l : ThunkLabel) (hl : l = .entry ∨ l = .countFail) :
      l ∉ (checkedBlocks (callNative plan receiver entry) .countOk 0 plan.args).map Prod.fst := by
    intro hm
    rcases mem_labels_checkedBlocks hm with rfl | ⟨j, -, rfl | rfl⟩ <;> simp at hl
  simp only [blocks, List.map_cons, List.nodup_cons, entryBlock, statusBlock, List.mem_cons]
  exact ⟨fun h ↦ h.elim (fun he ↦ by cases he) (hn _ (.inl rfl)), hn _ (.inr rfl),
    nodup_labels_checkedBlocks _ hfresh⟩

/-- Every block of a thunk is found by its label. -/
theorem lookup_blocks {plan : Plan} {receiver : Option Word} {entry : Word} {b : ThunkBlock}
    (h : b ∈ blocks plan receiver entry) : (blocks plan receiver entry).lookup b.1 = some b.2 :=
  (lookup_eq_some_iff_mem (nodup_labels_blocks plan receiver entry) b.1 b.2).mpr h

end ThunkCode
end Invocation.Machine
