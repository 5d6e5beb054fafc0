import Invocation.Machine.Code
import Invocation.Proofs.Association

/-!
# What directives write down

Directives that assemble to code write it down in an orderly way (`writes_of_assemble`): apart from
the creations of blocks, they enter one block after the other, emit its instructions, and finish it.
Every block that they create is one block of the code, which they enter once, after its creation, and
finish once.
-/

namespace Invocation.Machine

variable {Label Reg : Type}

namespace Directive

/-- The block that a directive creates, with its parameters. -/
def created? : Directive Label Reg → Option (Label × List (Reg × MachineType))
  | .create l params => some (l, params)
  | _ => none

/-- The block that a directive enters. -/
def entered? : Directive Label Reg → Option Label
  | .enter l => some l
  | _ => none

/-- Whether a directive does not create a block, but writes one. -/
def isWritten : Directive Label Reg → Bool
  | .create .. => false
  | _ => true

/-- What writes a block that has been created: enter it, emit its instructions, finish it. -/
def ofBlock (b : Label × Block Label Reg) : List (Directive Label Reg) :=
  .enter b.1 :: (b.2.body.map .emit ++ [.finish b.2.final])

end Directive

/-- Directives enter no block that they have not created before. -/
def CreatesFirst (ds : List (Directive Label Reg)) : Prop :=
  ∀ (done : List (Directive Label Reg)) (l : Label) (rest : List (Directive Label Reg)),
    ds = done ++ .enter l :: rest → ∃ params, .create l params ∈ done

/-- Directives write code down. -/
structure Writes (ds : List (Directive Label Reg)) (code : Code Label Reg) : Prop where
  /-- Apart from creations, the blocks are written one after the other, each with its terminator at
  its end and nowhere else. -/
  written : ds.filter Directive.isWritten = code.blocks.flatMap Directive.ofBlock
  /-- The blocks that are created are the blocks of the code. -/
  created : (ds.filterMap Directive.created?).Perm (code.blocks.map fun b ↦ (b.1, b.2.params))
  /-- No two blocks have the same label. -/
  nodup : (code.blocks.map Prod.fst).Nodup
  /-- A block is entered after it was created. -/
  createsFirst : CreatesFirst ds

/-- A directive creates a block exactly if it says so. -/
theorem mem_created_iff {ds : List (Directive Label Reg)} {l : Label}
    {params : List (Reg × MachineType)} :
    (l, params) ∈ ds.filterMap Directive.created? ↔ .create l params ∈ ds := by
  rw [List.mem_filterMap]
  constructor
  · rintro ⟨d, hd, hc⟩
    cases d with
    | create k ps =>
      cases hc
      exact hd
    | enter | emit | finish => cases hc
  · intro h
    exact ⟨_, h, rfl⟩

/-- One more directive can only enter a block that has been created. -/
theorem CreatesFirst.concat {ds : List (Directive Label Reg)} (h : CreatesFirst ds)
    (d : Directive Label Reg) (hd : ∀ l, d = .enter l → ∃ params, .create l params ∈ ds) :
    CreatesFirst (ds ++ [d]) := by
  intro done l rest he
  rcases List.eq_nil_or_concat rest with rfl | ⟨rest, e, rfl⟩
  · obtain ⟨rfl, hl⟩ := List.append_inj' he rfl
    exact hd l (List.singleton_inj.mp hl)
  · rw [List.concat_eq_append, ← List.cons_append, ← List.append_assoc] at he
    obtain ⟨hds, -⟩ := List.append_inj' he rfl
    exact h done l rest hds

/-- A block is entered once. -/
theorem entered_ofBlock (b : Label × Block Label Reg) :
    (Directive.ofBlock b).filterMap Directive.entered? = [b.1] := by
  have hemit : (b.2.body.map .emit : List (Directive Label Reg)).filterMap Directive.entered? =
      [] := by
    rw [List.filterMap_map, List.filterMap_eq_nil_iff]
    intro i _
    rfl
  simp only [Directive.ofBlock, List.filterMap_cons, Directive.entered?, List.filterMap_append, hemit,
    List.filterMap_nil, List.nil_append]

/-- The blocks of written code are entered in order, and none but these. -/
theorem Writes.entered {ds : List (Directive Label Reg)} {code : Code Label Reg}
    (h : Writes ds code) : ds.filterMap Directive.entered? = code.blocks.map Prod.fst := by
  have hfilter : ds.filterMap Directive.entered? =
      (ds.filter Directive.isWritten).filterMap Directive.entered? := by
    rw [List.filterMap_filter]
    congr
    funext d
    cases d <;> rfl
  rw [hfilter, h.written, List.filterMap_flatMap, List.map_eq_flatMap]
  simp only [entered_ofBlock]

namespace Assembly

variable {a b : Assembly Label Reg} {ds : List (Directive Label Reg)}

/-- The blocks that have been created, whatever became of them since. -/
def declared (a : Assembly Label Reg) : List (Label × List (Reg × MachineType)) :=
  a.pending ++ (a.current.toList.map fun c ↦ (c.1, c.2.1)) ++
    a.finished.map fun b ↦ (b.1, b.2.params)

/-- What has been written of the open block. -/
def unfinished (a : Assembly Label Reg) : List (Directive Label Reg) :=
  match a.current with
  | none => []
  | some (l, _, body) => .enter l :: body.reverse.map .emit

/-- What has been followed so far to come to an assembly. -/
structure Follows (ds : List (Directive Label Reg)) (a : Assembly Label Reg) : Prop where
  written :
    ds.filter Directive.isWritten = a.finished.reverse.flatMap Directive.ofBlock ++ a.unfinished
  created : (ds.filterMap Directive.created?).Perm a.declared
  nodup : (a.declared.map Prod.fst).Nodup
  createsFirst : CreatesFirst ds

/-- Nothing has been followed at first. -/
theorem follows_empty : Follows [] (empty : Assembly Label Reg) where
  written := rfl
  created := List.Perm.refl _
  nodup := List.nodup_nil
  createsFirst done l rest h := by
    have hl := congrArg List.length h
    simp at hl

/-- An instruction is emitted into the open block. -/
theorem Follows.emit (h : Follows ds a) {l : Label} {params : List (Reg × MachineType)}
    {body : List (Instr Reg)} (current : a.current = some (l, params, body)) (i : Instr Reg) :
    Follows (ds ++ [.emit i]) { a with current := some (l, params, i :: body) } := by
  have hsame : { a with current := some (l, params, i :: body) }.declared = a.declared := by
    simp only [declared, current, Option.toList_some, List.map_cons]
  constructor
  · rw [List.filter_append, h.written, unfinished, current]
    simp [unfinished, Directive.isWritten]
  · rw [List.filterMap_append, hsame]
    exact (List.append_nil _).symm ▸ h.created
  · rw [hsame]
    exact h.nodup
  · exact h.createsFirst.concat _ fun k hk ↦ by cases hk

/-- The open block is finished, and none is open then. -/
theorem Follows.finish (h : Follows ds a) {l : Label} {params : List (Reg × MachineType)}
    {body : List (Instr Reg)} (current : a.current = some (l, params, body))
    (t : Terminator Label Reg) :
    Follows (ds ++ [.finish t])
      { a with current := none, finished := (l, ⟨params, body.reverse, t⟩) :: a.finished } := by
  have hsame : { a with
      current := none, finished := (l, ⟨params, body.reverse, t⟩) :: a.finished }.declared =
        a.declared := by
    simp [declared, current]
  constructor
  · rw [List.filter_append, h.written, unfinished, current]
    simp [unfinished, Directive.isWritten, Directive.ofBlock]
  · rw [List.filterMap_append, hsame]
    exact (List.append_nil _).symm ▸ h.created
  · rw [hsame]
    exact h.nodup
  · exact h.createsFirst.concat _ fun k hk ↦ by cases hk

variable [DecidableEq Label]

/-- A label is known if a block has been created by it. -/
theorem knows_iff (a : Assembly Label Reg) (l : Label) :
    a.knows l = true ↔ l ∈ a.declared.map Prod.fst := by
  simp only [knows, declared, Bool.or_eq_true, List.any_eq_true, beq_iff_eq, List.map_append,
    List.map_map, List.mem_append, List.mem_map, Function.comp_apply]
  cases a.current <;> simp

/-- A block that is created was unknown. -/
theorem Follows.create (h : Follows ds a) {l : Label} (unknown : a.knows l = false)
    (params : List (Reg × MachineType)) :
    Follows (ds ++ [.create l params]) { a with pending := a.pending ++ [(l, params)] } := by
  have hnew : (a.declared ++ [(l, params)]).Perm
      { a with pending := a.pending ++ [(l, params)] }.declared := by
    simp only [declared, List.append_assoc]
    refine List.Perm.append_left a.pending ?_
    rw [← List.append_assoc]
    exact List.perm_append_comm
  have hfresh : l ∉ a.declared.map Prod.fst := by
    rw [← a.knows_iff, unknown]
    exact Bool.false_ne_true
  constructor
  · rw [List.filter_append, h.written]
    exact List.append_nil _
  · rw [List.filterMap_append]
    exact (h.created.append_right [(l, params)]).trans hnew
  · rw [← (hnew.map Prod.fst).nodup_iff, List.map_append, List.nodup_append]
    refine ⟨h.nodup, by simp, ?_⟩
    rintro k hk _ hl rfl
    obtain rfl : k = l := List.mem_singleton.mp hl
    exact hfresh hk
  · exact h.createsFirst.concat _ fun k hk ↦ by cases hk

/-- A block that is entered was pending. -/
theorem Follows.enter (h : Follows ds a) {l : Label} {params : List (Reg × MachineType)}
    (closed : a.current = none) (found : a.pending.lookup l = some params) :
    Follows (ds ++ [.enter l])
      { a with pending := a.pending.filter (·.1 != l), current := some (l, params, []) } := by
  have hmem : (l, params) ∈ a.declared := by
    simp only [declared, List.mem_append]
    exact .inl (.inl (mem_of_lookup_eq_some found))
  have hpending : (a.pending.map Prod.fst).Nodup := by
    have hn := h.nodup
    rw [declared, List.append_assoc, List.map_append, List.nodup_append] at hn
    exact hn.1
  have hsame : a.declared.Perm { a with
      pending := a.pending.filter (·.1 != l), current := some (l, params, []) }.declared := by
    simp only [declared, closed, Option.toList_none, Option.toList_some, List.map_nil, List.map_cons,
      List.append_nil]
    refine List.Perm.append_right _ ?_
    exact (perm_cons_filter hpending (mem_of_lookup_eq_some found)).trans
      (List.perm_append_singleton ..).symm
  constructor
  · rw [List.filter_append, h.written, unfinished, closed]
    exact congrArg (· ++ _) (List.append_nil _)
  · rw [List.filterMap_append]
    exact (List.append_nil _).symm ▸ h.created.trans hsame
  · exact (hsame.map Prod.fst).nodup_iff.mp h.nodup
  · refine h.createsFirst.concat _ fun k hk ↦ ?_
    cases hk
    exact ⟨params, mem_created_iff.mp (h.created.mem_iff.mpr hmem)⟩

/-- One directive that can be followed is one more that has been. -/
theorem Follows.follow (h : Follows ds a) {d : Directive Label Reg} (hd : a.follow d = .ok b) :
    Follows (ds ++ [d]) b := by
  cases d with
  | create l params =>
    cases hk : a.knows l with
    | true => simp [Assembly.follow, hk] at hd
    | false =>
      simp only [Assembly.follow, hk, Bool.false_eq_true, if_false] at hd
      cases hd
      exact h.create hk params
  | enter l =>
    simp only [Assembly.follow] at hd
    split at hd
    · cases hd
    · next hc =>
      split at hd
      · next hl =>
        cases hd
        exact h.enter hc hl
      · cases hd
  | emit i =>
    simp only [Assembly.follow] at hd
    split at hd
    · next hc =>
      cases hd
      exact h.emit hc i
    · cases hd
  | finish t =>
    simp only [Assembly.follow] at hd
    split at hd
    · next hc =>
      cases hd
      exact h.finish hc t
    · cases hd

/-- A list of directives that can be followed is followed one by one. -/
theorem Follows.followAll (h : Follows ds a) {es : List (Directive Label Reg)}
    (he : a.followAll es = .ok b) : Follows (ds ++ es) b := by
  induction es generalizing ds a with
  | nil =>
    cases he
    rw [List.append_nil]
    exact h
  | cons d es ih =>
    rw [Assembly.followAll] at he
    cases hd : a.follow d with
    | error e => simp [hd] at he
    | ok c =>
      rw [hd] at he
      have hds := ih (h.follow hd) he
      rw [List.append_assoc] at hds
      exact hds

end Assembly

/-- Directives that assemble to code write it down. -/
theorem writes_of_assemble [DecidableEq Label] {ds : List (Directive Label Reg)}
    {code : Code Label Reg} (h : assemble ds = .ok code) : Writes ds code := by
  unfold assemble at h
  split at h
  · cases h
  · next a ha =>
    have hf : Assembly.Follows ds a := Assembly.follows_empty.followAll ha
    split at h
    · cases h
    · cases h
    · next hcurrent hpending =>
      cases h
      have hdeclared : a.declared = a.finished.map fun b ↦ (b.1, b.2.params) := by
        simp only [Assembly.declared, hcurrent, hpending, Option.toList_none, List.map_nil,
          List.nil_append]
      have hlabels : a.declared.map Prod.fst = a.finished.map Prod.fst := by
        rw [hdeclared, List.map_map]
        rfl
      have hwritten := hf.written
      rw [Assembly.unfinished, hcurrent, List.append_nil] at hwritten
      constructor
      · exact hwritten
      · rw [List.map_reverse, ← hdeclared]
        exact hf.created.trans (List.reverse_perm _).symm
      · rw [List.map_reverse, (List.reverse_perm _).nodup_iff, ← hlabels]
        exact hf.nodup
      · exact hf.createsFirst

end Invocation.Machine
