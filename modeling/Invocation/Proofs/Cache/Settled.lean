import Invocation.Proofs.Cache.Attendance

/-!
# Settled caches

A cache that only one caller uses holds nothing but successes and cells that are being compiled for
(`Cache.Settled`). A request for a key without a cell takes it from there to `Cache.began`; when
the compilation has ended, `Cache.conclude` takes it from whatever it is then to a settled cache
again, with all entries that there were (`Cache.Extends`). A cache that callers have used at the same
time is settled once all of them have been answered (`State.settled_of_frames_eq_nil`).
-/

namespace Invocation

namespace Cache

variable {κ ι ε : Type}

/-- Every cell of the table holds a success or is being compiled for. -/
structure Settled (c : Cache κ ι ε) : Prop where
  wf : c.WF
  held : ∀ entry ∈ c.table, c.cellAt entry.2 = .running ∨ ∃ i, c.cellAt entry.2 = .done (.ok i)

/-- Every entry of the table is there later, and its cell holds the same. -/
def Extends (c d : Cache κ ι ε) : Prop :=
  ∀ entry ∈ c.table, entry ∈ d.table ∧ d.cellAt entry.2 = c.cellAt entry.2

theorem Extends.refl (c : Cache κ ι ε) : c.Extends c := fun _ hm ↦ ⟨hm, rfl⟩

/-- What was there at first is there at last. -/
theorem Extends.trans {b c d : Cache κ ι ε} (h : b.Extends c) (h' : c.Extends d) :
    b.Extends d := by
  intro entry hm
  obtain ⟨hc, hcell⟩ := h entry hm
  obtain ⟨hd, hcell'⟩ := h' entry hc
  exact ⟨hd, hcell'.trans hcell⟩

/-- Counting a hit leaves a settled cache settled. -/
theorem Settled.countHit {c : Cache κ ι ε} (hc : c.Settled) : c.countHit.Settled :=
  ⟨⟨hc.wf.keys, hc.wf.slots, hc.wf.exist⟩, hc.held⟩

/-- Counting a miss leaves a cache well-formed. -/
theorem wf_countMiss {c : Cache κ ι ε} (hc : c.WF) : c.countMiss.WF :=
  ⟨hc.keys, hc.slots, hc.exist⟩

/-- Counting a miss leaves a settled cache settled. -/
theorem Settled.countMiss {c : Cache κ ι ε} (hc : c.Settled) : c.countMiss.Settled :=
  ⟨wf_countMiss hc.wf, hc.held⟩

/-- A cache without keys is settled. -/
theorem settled_empty : (empty : Cache κ ι ε).Settled := by
  refine ⟨wf_empty, fun entry hm ↦ ?_⟩
  cases hm

variable [DecidableEq κ]

/-- The cache while a key without a cell is being compiled for the first time: the miss is counted,
and a new cell is in the table. -/
def began (c : Cache κ ι ε) (key : κ) : Cache κ ι ε :=
  (c.countMiss.claim key).2.start c.cells.length

/-- The cache after a compilation: the outcome is in the cell and counted, and a failure is no
longer in the table. -/
def conclude (c : Cache κ ι ε) (key : κ) (slot : Nat) (outcome : Except ε ι) : Cache κ ι ε :=
  match outcome with
  | .ok _ => (c.settle slot outcome).countOutcome outcome
  | .error _ => ((c.settle slot outcome).countOutcome outcome).removeIfSame key slot

section Began

variable {c : Cache κ ι ε} {key : κ}

/-- The new entry comes before all others. -/
theorem table_began (h : c.slotOf? key = none) :
    (c.began key).table = (key, c.cells.length) :: c.table := by
  have h' : c.countMiss.slotOf? key = none := h
  rw [began, start, setCell, claim, h']
  rfl

/-- The new entry is there. -/
theorem mem_table_began (h : c.slotOf? key = none) :
    (key, c.cells.length) ∈ (c.began key).table := by
  rw [table_began h]
  exact List.mem_cons_self ..

/-- The new cell comes after all others. -/
theorem cells_began (h : c.slotOf? key = none) : (c.began key).cells = c.cells ++ [.running] := by
  have h' : c.countMiss.slotOf? key = none := h
  rw [began, start, setCell, claim, h']
  simp [countMiss]

/-- The new cell is being compiled for. -/
theorem cellAt_began_self (h : c.slotOf? key = none) :
    (c.began key).cellAt c.cells.length = .running := by
  rw [cellAt, cells_began h, List.getElem?_append_right (Nat.le_refl _), Nat.sub_self]
  rfl

/-- The other cells are as they were. -/
theorem cellAt_began_of_ne {slot : Nat} (h : slot ≠ c.cells.length) :
    (c.began key).cellAt slot = c.cellAt slot := by
  rw [began, start, cellAt_setCell_of_ne _ _ (Ne.symm h), cellAt_claim]
  rfl

/-- A key without a cell is not ready. -/
theorem lookup_of_slotOf? (h : c.slotOf? key = none) : c.lookup key = none := by
  rw [lookup, cellOf?, h]
  rfl

/-- Nothing becomes ready by being compiled for. -/
theorem lookup_began (hc : c.WF) (h : c.slotOf? key = none) (other : κ) :
    (c.began key).lookup other = c.lookup other := by
  have hc' := wf_countMiss hc
  rw [began, start, lookup_setCell (wf_claim hc' key) _ (mem_table_began h), lookup_claim hc']
  by_cases ho : other = key
  · rw [if_pos ho, ho, lookup_of_slotOf? h]
    rfl
  · rw [if_neg ho]
    rfl

/-- A settled cache is settled while a key is compiled for. -/
theorem Settled.began (hc : c.Settled) (h : c.slotOf? key = none) : (c.began key).Settled := by
  refine ⟨wf_setCell (wf_claim (wf_countMiss hc.wf) key) _ _, fun entry hm ↦ ?_⟩
  rw [table_began h] at hm
  rcases List.mem_cons.mp hm with rfl | hm
  · exact .inl (cellAt_began_self h)
  · rw [cellAt_began_of_ne (Nat.ne_of_lt (hc.wf.exist entry hm))]
    exact hc.held entry hm

/-- The entries that there were stay while a key is compiled for. -/
theorem extends_began (hc : c.WF) (h : c.slotOf? key = none) : c.Extends (c.began key) := by
  intro entry hm
  refine ⟨?_, cellAt_began_of_ne (Nat.ne_of_lt (hc.exist entry hm))⟩
  rw [table_began h]
  exact List.mem_cons_of_mem _ hm

end Began

section Conclude

variable {d : Cache κ ι ε} {key : κ} {slot : Nat}

/-- A success is in the table afterwards, and a failure is not. -/
theorem mem_table_conclude_iff (hd : d.WF) (outcome : Except ε ι) (entry : κ × Nat) :
    entry ∈ (d.conclude key slot outcome).table ↔
      entry ∈ d.table ∧ (entry = (key, slot) → ∃ i, outcome = .ok i) := by
  cases outcome with
  | ok i => simp [conclude, countOutcome, settle, setCell]
  | error e =>
    have hnodup : d.table.Nodup := hd.keys.of_map
    have htable : (d.conclude key slot (.error e)).table = d.table.erase (key, slot) := rfl
    rw [htable, hnodup.mem_erase_iff]
    simp [and_comm]

/-- The outcome is in the cell, and the other cells are as they were. -/
theorem cellAt_conclude (hslot : slot < d.cells.length) (outcome : Except ε ι) (other : Nat) :
    (d.conclude key slot outcome).cellAt other =
      if other = slot then .done outcome else d.cellAt other := by
  have hcell : (d.conclude key slot outcome).cellAt other =
      (d.settle slot outcome).cellAt other := by
    cases outcome <;> rfl
  rw [hcell, settle]
  by_cases ho : other = slot
  · rw [if_pos ho, ho, d.cellAt_setCell _ hslot]
  · rw [if_neg ho, d.cellAt_setCell_of_ne _ (Ne.symm ho)]

/-- No cell is made or goes away. -/
theorem length_conclude (outcome : Except ε ι) :
    (d.conclude key slot outcome).cells.length = d.cells.length := by
  cases outcome <;> exact List.length_set

/-- The outcome is counted. -/
theorem stats_conclude (outcome : Except ε ι) :
    (d.conclude key slot outcome).stats =
      match outcome with
      | .ok _ => { d.stats with compilations := d.stats.compilations + 1 }
      | .error _ => { d.stats with failures := d.stats.failures + 1 } := by
  cases outcome <;> rfl

/-- A settled cache is settled after a compilation. -/
theorem Settled.conclude (hd : d.Settled) (hm : (key, slot) ∈ d.table) (outcome : Except ε ι) :
    (d.conclude key slot outcome).Settled := by
  have hwf : (d.conclude key slot outcome).WF := by
    have hset := wf_setCell hd.wf slot (.done outcome)
    cases outcome with
    | ok i => exact ⟨hset.keys, hset.slots, hset.exist⟩
    | error e =>
      have hremove := wf_removeIfSame hset key slot
      exact ⟨hremove.keys, hremove.slots, hremove.exist⟩
  refine ⟨hwf, fun entry he ↦ ?_⟩
  obtain ⟨hold, hok⟩ := (mem_table_conclude_iff hd.wf outcome entry).mp he
  rw [cellAt_conclude (hd.wf.exist _ hm)]
  by_cases hs : entry.2 = slot
  · have hentry : entry = (key, slot) := by
      subst hs
      exact Prod.ext (hd.wf.key_unique hold hm) rfl
    obtain ⟨i, rfl⟩ := hok hentry
    rw [if_pos hs]
    exact .inr ⟨i, rfl⟩
  · rw [if_neg hs]
    exact hd.held entry hold

/-- What is ready after a compilation: what was, and what it succeeded with. -/
theorem lookup_conclude (hd : d.Settled) (hm : (key, slot) ∈ d.table)
    (hrunning : d.cellAt slot = .running) (outcome : Except ε ι) (other : κ) (i : ι) :
    (d.conclude key slot outcome).lookup other = some i ↔
      d.lookup other = some i ∨ other = key ∧ outcome = .ok i := by
  rw [lookup_eq_some_iff (hd.conclude hm outcome).wf, lookup_eq_some_iff hd.wf]
  constructor
  · rintro ⟨s, hs, hcell⟩
    obtain ⟨hs, -⟩ := (mem_table_conclude_iff hd.wf outcome _).mp hs
    rw [cellAt_conclude (hd.wf.exist _ hm)] at hcell
    by_cases he : s = slot
    · rw [if_pos he] at hcell
      cases hcell
      exact .inr ⟨hd.wf.key_unique (he ▸ hs) hm, rfl⟩
    · rw [if_neg he] at hcell
      exact .inl ⟨s, hs, hcell⟩
  · rintro (⟨s, hs, hcell⟩ | ⟨rfl, rfl⟩)
    · have hne : s ≠ slot := by
        rintro rfl
        rw [hrunning] at hcell
        cases hcell
      refine ⟨s, (mem_table_conclude_iff hd.wf outcome _).mpr ⟨hs, fun he ↦ ?_⟩, ?_⟩
      · exact absurd (congrArg Prod.snd he) hne
      · rw [cellAt_conclude (hd.wf.exist _ hm), if_neg hne, hcell]
    · refine ⟨slot, (mem_table_conclude_iff hd.wf _ _).mpr ⟨hm, fun _ ↦ ⟨i, rfl⟩⟩, ?_⟩
      rw [cellAt_conclude (hd.wf.exist _ hm), if_pos rfl]

/-- The entries that there were before a compilation are there after it. -/
theorem extends_conclude {c : Cache κ ι ε} (hc : c.WF) (hkey : c.slotOf? key = none)
    (h : (c.began key).Extends d) (hd : d.WF) (outcome : Except ε ι) :
    c.Extends (d.conclude key c.cells.length outcome) := by
  obtain ⟨hm, -⟩ := h _ (mem_table_began hkey)
  intro entry he
  have hne : entry.2 ≠ c.cells.length := Nat.ne_of_lt (hc.exist entry he)
  obtain ⟨hd', hcell⟩ := ((extends_began hc hkey).trans h) entry he
  constructor
  · apply (mem_table_conclude_iff hd outcome entry).mpr
    refine ⟨hd', fun hentry ↦ ?_⟩
    exact absurd (congrArg Prod.snd hentry) hne
  · rw [cellAt_conclude (hd.exist _ hm), if_neg hne, hcell]

end Conclude

/-- Once no request is in flight a cache is settled. -/
theorem Interleaving.State.settled_of_frames_eq_nil {shard : κ → Nat} {callers : Nat}
    {moves : List (Nat × Interleaving.Move κ ι ε)} {t : Interleaving.State κ ι ε}
    (h : (start .empty callers).run shard moves = some t) (hidle : t.frames = []) :
    t.cache.Settled := by
  refine ⟨?_, fun entry hm ↦ .inr (ready_of_frames_eq_nil h hidle entry hm)⟩
  have hall : Interleaving.Consistent t.cache t.frames := by
    apply run_induction _ _ h
    · intro s t caller move hs hstep
      exact consistent_step hs hstep
    · exact consistent_start wf_empty callers
  exact hall.wf

end Cache
end Invocation
