import Invocation.Proofs.Cache.Retry

/-!
# The life of a cell

A cell enters the table empty, for a key that had none, and only one that failed leaves it again:
the request that compiled for it takes it out before it answers, and takes out nothing else. A cell
that a request holds is therefore that of its key, or one that failed (`Held`), and an entry with a
success stays for good (`State.ready_entry_run`). `State.cell_lifecycle` has all of this for every
state that some run leads to.
-/

namespace Invocation.Cache.Interleaving

variable {κ ι ε : Type}

/-- Every cell that a request holds, or has its answer from, is that of its key in the table, or it
failed. -/
def Held (c : Cache κ ι ε) (fs : List (Frame κ ι ε)) : Prop :=
  ∀ f ∈ fs, ∀ slot, f.phase.source? = some slot → Current c f.key slot

/-- A caller began a compilation for a cell of a key, and it ended with this outcome. -/
def Compiled (history : List (Occurrence κ ι ε)) (caller : Nat) (key : κ) (slot : Nat)
    (outcome : Except ε ι) : Prop :=
  .began caller key slot ∈ history ∧ .ended caller key slot outcome ∈ history

/-- What the record has to tell of a request that compiles or has compiled. -/
def Frame.Recorded (history : List (Occurrence κ ι ε)) (caller : Nat) (f : Frame κ ι ε) : Prop :=
  match f.phase with
  | .compile slot => .began caller f.key slot ∈ history
  | .count slot outcome => Compiled history caller f.key slot outcome
  | .remove slot e => Compiled history caller f.key slot (.error e)
  | _ => True

/-- What was recorded of a request stays on record. -/
theorem Frame.Recorded.mono {earlier later : List (Occurrence κ ι ε)} {caller : Nat}
    {f : Frame κ ι ε} (h : f.Recorded earlier caller) (hsub : earlier ⊆ later) :
    f.Recorded later caller := by
  unfold Recorded Compiled at *
  cases hp : f.phase with
  | compile slot =>
    simp only [hp] at h ⊢
    exact hsub h
  | count slot outcome | remove slot e =>
    simp only [hp] at h ⊢
    exact ⟨hsub h.1, hsub h.2⟩
  | _ => trivial

/-- The order of the requests does not matter. -/
theorem Held.perm {c : Cache κ ι ε} {fs gs : List (Frame κ ι ε)} (h : Held c fs)
    (hp : fs.Perm gs) : Held c gs :=
  fun g hg ↦ h g (hp.mem_iff.mpr hg)

/-- A request that has just been made holds no cell. -/
theorem Held.new {c : Cache κ ι ε} {fs : List (Frame κ ι ε)} (h : Held c fs) (goal : Goal)
    (key : κ) : Held c (.new goal key :: fs) := by
  intro g hg slot hs
  rcases List.mem_cons.mp hg with rfl | hg
  · cases hs
  · exact h g hg slot hs

variable [DecidableEq κ] {caller : Nat} {free : Bool} {c c' : Cache κ ι ε} {f : Frame κ ι ε}
  {next : Option (Frame κ ι ε)} {record : List (Occurrence κ ι ε)} {entry : κ × Nat}

/-- A request that holds a cell after it has moved on held it before, or has just claimed it. -/
theorem Frame.Moves.source?_next {n : Frame κ ι ε} {slot : Nat}
    (h : f.Moves caller free c c' (some n) record) (hs : n.phase.source? = some slot) :
    f.phase.source? = some slot ∨ (f.key, slot) ∈ c'.table := by
  cases h with
  | lock => exact .inl hs
  | find | miss | countHit | countMiss => cases hs
  | claim =>
    cases hs
    exact .inr (c.mem_table_claim f.key)
  | start other hp | share other outcome hp | settle other outcome hp | countSuccess other i hp
  | countFailure other e hp | remove other e hp =>
    refine .inl ?_
    rw [hp]
    exact hs

/-- A request that moves on leaves every held cell that of its key, or failed. -/
theorem Held.moves {others : List (Frame κ ι ε)} (h : Held c (f :: others))
    (hm : f.Moves caller free c c' next record) (hf : f.Sound c) :
    Held c' (next.toList ++ others) := by
  have hchange := hm.change hf
  intro g hg slot hs
  rcases List.mem_append.mp hg with hn | hg
  · obtain rfl : next = some g := by simpa using hn
    rw [hm.key_next]
    rcases hm.source?_next hs with hold | hclaimed
    · exact hchange.current (h f (List.mem_cons_self ..) slot hold)
    · exact .inl hclaimed
  · exact hchange.current (h g (List.mem_cons_of_mem _ hg) slot hs)

/-- The record tells of a request that has moved on what it has to. -/
theorem Frame.Recorded.advance {n : Frame κ ι ε} {history : List (Occurrence κ ι ε)}
    (h : f.Recorded history caller) (hm : f.Moves caller free c c' (some n) record) :
    n.Recorded (record ++ history) caller := by
  unfold Recorded at h
  cases hm with
  | lock => exact h
  | start slot hp => exact List.mem_cons_self ..
  | settle slot outcome hp =>
    simp only [hp] at h
    exact ⟨List.mem_cons_of_mem _ h, List.mem_cons_self ..⟩
  | countFailure slot e hp =>
    simp only [hp] at h
    exact h
  | find | miss | countHit | countMiss | claim | share | countSuccess | remove => trivial

/-- A move leaves the table as it is, puts a cell into it that was never given out before, or takes
one out that the request has failed to compile for and has not answered for. -/
theorem Frame.Moves.table_cases (h : f.Moves caller free c c' next record) :
    c'.table = c.table ∨
      (c'.table = (f.key, c.cells.length) :: c.table ∧ c'.cellAt c.cells.length = .empty) ∨
      ∃ slot e, f.phase = .remove slot e ∧ f.locked = true ∧
        c'.table = c.table.erase (f.key, slot) ∧
        next = some (f.goTo (.answer (.error e) (some slot))) := by
  cases h with
  | claim =>
    cases hs : c.slotOf? f.key with
    | some slot => exact .inl (by rw [claim_of_slotOf? hs])
    | none =>
      refine .inr (.inl ⟨by simp [Cache.claim, hs], ?_⟩)
      rw [cellAt_claim, c.cellAt_of_le (Nat.le_refl _)]
  | remove slot e hp hl => exact .inr (.inr ⟨slot, e, hp, hl, rfl, rfl⟩)
  | countSuccess | countFailure => exact .inl rfl
  | _ => exact .inl rfl

/-- An entry with a success stays as it is while a request moves on. -/
theorem Change.ready_entry (h : Change c f c') {i : ι} (hm : entry ∈ c.table)
    (hi : c.cellAt entry.2 = .done (.ok i)) :
    entry ∈ c'.table ∧ c'.cellAt entry.2 = .done (.ok i) := by
  have hi' := h.cellAt_done hi
  refine ⟨(h.current (.inl hm : Current c entry.1 entry.2)).mem_table fun e he ↦ ?_, hi'⟩
  rw [hi'] at he
  cases he

namespace State

variable {shard : κ → Nat} {s t : State κ ι ε}

/-- The record tells of every request what it has to. -/
def RequestsRecorded (s : State κ ι ε) : Prop :=
  ∀ n (stack : List (Frame κ ι ε)), s.callers[n]? = some stack →
    ∀ f ∈ stack, f.Recorded s.history n

/-- A step leaves every request on record. -/
theorem requestsRecorded_step {move : Move κ ι ε} (hs : s.RequestsRecorded)
    (h : s.step shard caller move = some t) : t.RequestsRecorded := by
  -- The stack of another caller is as it was, and the record has only grown.
  have hother (stack' : List (Frame κ ι ε)) (ht : t.callers = s.callers.set caller stack')
      (hsub : s.history ⊆ t.history) (hstack' : ∀ f ∈ stack', f.Recorded t.history caller) :
      t.RequestsRecorded := by
    intro n stack hn f hf
    rw [ht, List.getElem?_set] at hn
    split at hn
    · next hcaller =>
      subst hcaller
      split at hn
      · cases hn
        exact hstack' f hf
      · cases hn
    · exact (hs n stack hn f hf).mono hsub
  rcases step_stack_cases h with ⟨goal, key, stack, -, hstack, -, -, ht, hh⟩ |
    ⟨f, rest, next, record, hstack, hm, ht, hh⟩
  · have hsub : s.history ⊆ t.history := by simp [hh]
    refine hother _ ht hsub fun g hg ↦ ?_
    rcases List.mem_cons.mp hg with rfl | hg
    · trivial
    · exact (hs caller stack hstack g hg).mono hsub
  · have hsub : s.history ⊆ t.history := by simp [hh]
    refine hother _ ht hsub fun g hg ↦ ?_
    rcases List.mem_append.mp hg with hn | hg
    · obtain rfl : next = some g := by simpa using hn
      rw [hh]
      exact (hs caller _ hstack f (List.mem_cons_self ..)).advance hm
    · exact (hs caller _ hstack g (List.mem_cons_of_mem _ hg)).mono hsub

/-- After every run from an empty cache, held cells are those of their keys or failed, and every
request is on record. -/
theorem held_run {callers : Nat} {moves : List (Nat × Move κ ι ε)}
    (h : (start .empty callers).run shard moves = some t) :
    Consistent t.cache t.frames ∧ Held t.cache t.frames ∧ t.RequestsRecorded := by
  apply run_induction _ _ h
  · rintro s t caller move ⟨hs, hheld, hrecorded⟩ hstep
    refine ⟨consistent_step hs hstep, ?_, requestsRecorded_step hrecorded hstep⟩
    rcases step_cases hstep with ⟨goal, key, hc, hp, -⟩ |
      ⟨f, others, next, record, hm, hp, hp', -⟩
    · rw [hc]
      exact (hheld.new goal key).perm hp.symm
    · exact ((hheld.perm hp).moves hm (hs.sound f (hp.mem_iff.mpr (List.mem_cons_self ..)))).perm
        hp'.symm
  · have hframes : (start .empty callers : State κ ι ε).frames = [] := by simp [start, frames]
    refine ⟨consistent_start wf_empty callers, fun f hf ↦ ?_, fun n stack hn f hf ↦ ?_⟩
    · rw [hframes] at hf
      cases hf
    · obtain rfl : stack = [] := List.eq_of_mem_replicate (List.mem_of_getElem? hn)
      cases hf

/-- What has become of the entries of the table when a caller has made a step. -/
structure Renewed (s t : State κ ι ε) (caller : Nat) : Prop where
  /-- A cell enters the table empty, and was never given out before. -/
  enters : ∀ entry ∈ t.cache.table, entry ∉ s.cache.table →
    t.cache.cellAt entry.2 = .empty ∧ s.cache.cells.length ≤ entry.2
  /-- A cell that leaves the table failed; the caller that compiled for it takes it out, and has
  still to answer. -/
  leaves : ∀ entry ∈ s.cache.table, entry ∉ t.cache.table → ∃ f rest e,
    s.callers[caller]? = some (f :: rest) ∧ f.key = entry.1 ∧ f.phase = .remove entry.2 e ∧
    s.cache.cellAt entry.2 = .done (.error e) ∧
    Compiled s.history caller entry.1 entry.2 (.error e) ∧
    t.callers[caller]? = some (f.goTo (.answer (.error e) (some entry.2)) :: rest)

/-- What is the case when the newest request of a caller takes a failure out of the table. -/
structure Removal (shard : κ → Nat) (s : State κ ι ε) (caller : Nat) (f : Frame κ ι ε)
    (slot : Nat) (e : ε) : Prop where
  /-- The key has this very cell. -/
  found : s.cache.slotOf? f.key = some slot
  failed : s.cache.cellAt slot = .done (.error e)
  compiled : Compiled s.history caller f.key slot (.error e)
  /-- The entry of the cell is taken out, and no other. -/
  removes : f.locked = true → ∃ t, s.step shard caller .proceed = some t ∧
    ∀ entry, entry ∈ t.cache.table ↔ entry ∈ s.cache.table ∧ entry ≠ (f.key, slot)

/-- The cell that a request is about to take out of the table is there, failed, and is the one that
its caller compiled for. -/
theorem failed_of_phase (hs : Consistent s.cache s.frames) (hr : s.RequestsRecorded)
    {rest : List (Frame κ ι ε)} {slot : Nat} {e : ε}
    (hstack : s.callers[caller]? = some (f :: rest)) (hp : f.phase = .remove slot e) :
    (f.key, slot) ∈ s.cache.table ∧ s.cache.cellAt slot = .done (.error e) ∧
      Compiled s.history caller f.key slot (.error e) := by
  have hsound := hs.sound f (mem_frames hstack (List.mem_cons_self ..))
  have hrecorded := hr caller _ hstack f (List.mem_cons_self ..)
  simp only [Frame.Sound, hp] at hsound
  simp only [Frame.Recorded, hp] at hrecorded
  exact ⟨hsound.1, hsound.2, hrecorded⟩

/-- A step brings only empty cells into the table, and only the caller that has compiled for a cell
and failed takes it out. -/
theorem renewed_step {move : Move κ ι ε} (hs : Consistent s.cache s.frames)
    (hr : s.RequestsRecorded) (h : s.step shard caller move = some t) : s.Renewed t caller := by
  have hsame (ht : t.cache.table = s.cache.table) : s.Renewed t caller := by
    constructor
    · intro entry he hne
      exact absurd (ht ▸ he) hne
    · intro entry he hne
      exact absurd (ht ▸ he) hne
  rcases step_stack_cases h with ⟨goal, key, stack, -, -, -, hc, -, -⟩ |
    ⟨f, rest, next, record, hstack, hm, hcallers, -⟩
  · exact hsame (congrArg Cache.table hc)
  · rcases hm.table_cases with ht | ⟨ht, hempty⟩ | ⟨slot, e, hp, -, ht, rfl⟩
    · exact hsame ht
    · constructor
      · intro entry he hne
        obtain rfl : entry = (f.key, s.cache.cells.length) := by
          simpa [ht, hne] using he
        exact ⟨hempty, Nat.le_refl _⟩
      · intro entry he hne
        exact absurd (ht ▸ List.mem_cons_of_mem _ he) hne
    · constructor
      · intro entry he hne
        rw [ht] at he
        exact absurd (List.mem_of_mem_erase he) hne
      · intro entry he hne
        have hentry : entry = (f.key, slot) := by
          by_contra hother
          exact hne (ht ▸ (List.mem_erase_of_ne hother).mpr he)
        subst hentry
        obtain ⟨-, hfailed, hcompiled⟩ := failed_of_phase hs hr hstack hp
        refine ⟨f, rest, e, hstack, rfl, hp, hfailed, hcompiled, ?_⟩
        rw [hcallers]
        exact List.getElem?_set_self (List.getElem?_eq_some_iff.mp hstack).1

/-- A request that takes a failure out of the table finds the cell that it compiled for, and removes
this entry only. -/
theorem removal_of_phase (hs : Consistent s.cache s.frames) (hr : s.RequestsRecorded)
    {rest : List (Frame κ ι ε)} {slot : Nat} {e : ε}
    (hstack : s.callers[caller]? = some (f :: rest)) (hp : f.phase = .remove slot e) :
    s.Removal shard caller f slot e := by
  obtain ⟨hmem, hfailed, hcompiled⟩ := failed_of_phase hs hr hstack hp
  refine ⟨(lookup_eq_some_iff_mem hs.wf.keys _ _).mpr hmem, hfailed, hcompiled, fun hl ↦ ?_⟩
  refine ⟨_, by simp only [step, hstack, Frame.proceed, hp, Frame.withLock, hl, if_true]; rfl,
    fun entry ↦ ?_⟩
  have hnodup : s.cache.table.Nodup := List.Nodup.of_map Prod.fst hs.wf.keys
  exact (hnodup.mem_erase_iff).trans and_comm

/-- An entry with a success stays as it is in every run. -/
theorem ready_entry_run (hs : Consistent s.cache s.frames) {i : ι} (hm : entry ∈ s.cache.table)
    (hi : s.cache.cellAt entry.2 = .done (.ok i)) {moves : List (Nat × Move κ ι ε)}
    (h : s.run shard moves = some t) :
    entry ∈ t.cache.table ∧ t.cache.cellAt entry.2 = .done (.ok i) := by
  have hall : Consistent t.cache t.frames ∧
      entry ∈ t.cache.table ∧ t.cache.cellAt entry.2 = .done (.ok i) := by
    apply run_induction _ _ h
    · rintro s t caller move ⟨hs, hm, hi⟩ hstep
      refine ⟨consistent_step hs hstep, ?_⟩
      rcases step_cases hstep with ⟨goal, key, hc, -, -⟩ | ⟨f, others, next, record, hmoves, hp, -⟩
      · rw [hc]
        exact ⟨hm, hi⟩
      · have hf := hs.sound f (hp.mem_iff.mpr (List.mem_cons_self ..))
        exact (hmoves.change hf).ready_entry hm hi
    · exact ⟨hs, hm, hi⟩
  exact hall.2

/-- The life of the cells in every state that a run leads to. A cell that a request holds is that of
its key, or failed. A step brings only new empty cells into the table, and takes out only a failed
one, by the caller that compiled for it and has still to answer; a request that takes a failure out
finds its own cell and removes no other. Once it has answered the cell is gone, and a cell with a
success stays with it for good. -/
theorem cell_lifecycle {callers : Nat} {moves : List (Nat × Move κ ι ε)}
    (h : (start .empty callers).run shard moves = some s) :
    (∀ f ∈ s.frames, ∀ slot, f.phase.source? = some slot →
      s.cache.slotOf? f.key = some slot ∨ ∃ e, s.cache.cellAt slot = .done (.error e)) ∧
    (∀ caller move t, s.step shard caller move = some t → s.Renewed t caller) ∧
    (∀ caller f rest slot e, s.callers[caller]? = some (f :: rest) → f.phase = .remove slot e →
      s.Removal shard caller f slot e) ∧
    (∀ a ∈ s.register.answers, ∀ e, a.outcome = .error e → ∀ slot, a.visit.compiled = some slot →
      s.cache.Retired slot) ∧
    ∀ entry ∈ s.cache.table, ∀ i, s.cache.cellAt entry.2 = .done (.ok i) →
      ∀ later t, s.run shard later = some t →
        entry ∈ t.cache.table ∧ t.cache.cellAt entry.2 = .done (.ok i) := by
  obtain ⟨hs, hheld, hr⟩ := held_run h
  obtain ⟨tracked, -, hretires⟩ := retires_run h
  refine ⟨fun f hf slot hslot ↦ ?_, fun caller move t ht ↦ renewed_step hs hr ht,
    fun caller f rest slot e hstack hp ↦ removal_of_phase hs hr hstack hp, hretires.given,
    fun entry hm i hi later t ht ↦ ready_entry_run hs hm hi ht⟩
  exact (hheld f hf slot hslot).imp_left (lookup_eq_some_iff_mem hs.wf.keys _ _).mpr

/-- Two callers request the same key, and the first fails to compile it. The second, which waited,
is answered, requests the key again and holds the failed cell once more, when the first is about to
take it out of the table. -/
def overlappingMoves : List (Nat × Move Nat Nat String) :=
  (0, .request .obtain 7) :: List.replicate 6 (0, Move.proceed) ++
    (1, .request .obtain 7) :: List.replicate 5 (1, Move.proceed) ++
    (0, .finish (.error "failed")) :: List.replicate 2 (1, Move.proceed) ++
    (1, .request .obtain 7) :: List.replicate 5 (1, Move.proceed) ++
    List.replicate 2 (0, Move.proceed)

/-- The second caller holds the cell of the key, which the first takes out of the table with its
next step, before it answers. -/
theorem cell_lifecycle_overlappingMoves :
    ∃ s t f g, (start (.empty : Cache Nat Nat String) 2).run id overlappingMoves = some s ∧
      s.callers = [[f], [g]] ∧ f.phase = .remove 0 "failed" ∧ g.phase = .enter 0 ∧
      (s.cache.slotOf? g.key = some 0 ∨ ∃ e, s.cache.cellAt 0 = .done (.error e)) ∧
      s.Removal id 0 f 0 "failed" ∧ s.step id 0 .proceed = some t ∧ s.Renewed t 0 ∧
      t.cache.table = [] := by
  have h : ∃ s t f g, (start (.empty : Cache Nat Nat String) 2).run id overlappingMoves = some s ∧
      s.callers = [[f], [g]] ∧ f.phase = .remove 0 "failed" ∧ g.phase = .enter 0 ∧
      s.step id 0 .proceed = some t ∧ t.cache.table = [] :=
    ⟨_, _, _, _, rfl, rfl, rfl, rfl, rfl, by decide⟩
  obtain ⟨s, t, f, g, hrun, hcallers, hf, hg, hstep, htable⟩ := h
  obtain ⟨hheld, hrenewed, hremoval, -⟩ := cell_lifecycle hrun
  have hmem : g ∈ s.frames := by simp [frames, hcallers]
  have hstack : s.callers[0]? = some [f] := by simp [hcallers]
  exact ⟨s, t, f, g, hrun, hcallers, hf, hg, hheld g hmem 0 (by rw [hg]; rfl),
    hremoval 0 f [] 0 "failed" hstack hf, hstep, hrenewed 0 .proceed t hstep, htable⟩

end State
end Invocation.Cache.Interleaving
