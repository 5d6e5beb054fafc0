import Invocation.Proofs.Cache.Client

/-!
# A failed request leaves no trace

While a key is being compiled for, the cache is the one that would be there without that request,
beside one more entry whose cell is running (`Cache.Beside`). No client can tell the two apart unless
it requests this very key, and then nothing comes of it; so everything that is requested meanwhile
does the same to both (`Cache.Beside.transfers_getOrCompile`). When the compilation has failed, the
entry is gone, and what is left is what the emission would have left on its own
(`InvokerCache.getOrCompile_restores`). Only the numbers of the cells that were made meanwhile tell
that there was one more.
-/

namespace Invocation

namespace Cache

/-- The number that a cell has with one more cell in a place. -/
def shift (place slot : Nat) : Nat := if slot < place then slot else slot + 1

theorem shift_of_lt {place slot : Nat} (h : slot < place) : shift place slot = slot := if_pos h

theorem shift_of_le {place slot : Nat} (h : place ≤ slot) : shift place slot = slot + 1 :=
  if_neg (Nat.not_lt.mpr h)

/-- No other cell gets the number of the one in the place. -/
theorem shift_ne (place slot : Nat) : shift place slot ≠ place := by
  unfold shift
  split <;> omega

theorem shift_injective (place : Nat) : Function.Injective (shift place) := by
  intro a b h
  unfold shift at h
  split at h <;> split at h <;> omega

variable {κ ι ε : Type}

/-- The entry of a key with one more cell in a place. -/
def shiftEntry (place : Nat) (entry : κ × Nat) : κ × Nat := (entry.1, shift place entry.2)

theorem shiftEntry_injective (place : Nat) :
    Function.Injective (shiftEntry place : κ × Nat → κ × Nat) := by
  intro a b h
  obtain ⟨hkey, hslot⟩ := Prod.mk.inj h
  exact Prod.ext hkey (shift_injective place hslot)

variable [DecidableEq κ]

/-- One cache is another one beside an entry whose cell is running. -/
structure Beside (key : κ) (place : Nat) (c d : Cache κ ι ε) : Prop where
  settled : c.Settled
  settled_without : d.Settled
  mem_table : (key, place) ∈ c.table
  running : c.cellAt place = .running
  table : c.table.erase (key, place) = d.table.map (shiftEntry place)
  cells (slot : Nat) : c.cellAt (shift place slot) = d.cellAt slot
  length : c.cells.length = d.cells.length + 1
  le_length : place ≤ d.cells.length
  stats : c.stats = d.stats

/-- A key that begins to be compiled for is beside what was there, where the miss is counted. -/
theorem beside_began {c : Cache κ ι ε} {key : κ} (hc : c.Settled) (h : c.slotOf? key = none) :
    Beside key c.cells.length (c.began key) c.countMiss := by
  have hcells : (c.began key).cells = c.cells ++ [.running] := cells_began h
  refine ⟨hc.began h, hc.countMiss, mem_table_began h, cellAt_began_self h, ?_, fun slot ↦ ?_, ?_,
    Nat.le_refl _, ?_⟩
  · rw [table_began h, List.erase_cons_head]
    have hid : ∀ entry ∈ c.table, shiftEntry c.cells.length entry = entry := by
      intro entry hm
      exact Prod.ext rfl (shift_of_lt (hc.wf.exist entry hm))
    have hmap : c.table.map (shiftEntry c.cells.length) = c.table.map id := List.map_congr_left hid
    exact (hmap.trans (List.map_id _)).symm
  · by_cases hs : slot < c.cells.length
    · rw [shift_of_lt hs, cellAt_began_of_ne (Nat.ne_of_lt hs)]
      rfl
    · have hle := Nat.le_of_not_lt hs
      rw [shift_of_le hle, cellAt_began_of_ne (by omega), c.cellAt_of_le (by omega)]
      exact (c.cellAt_of_le hle).symm
  · rw [hcells, List.length_append]
    rfl
  · rw [began, stats_start, stats_claim]

namespace Beside

variable {key : κ} {place : Nat} {c d : Cache κ ι ε}

/-- An entry is there on one side as it is on the other. -/
theorem mem_table_iff (h : Beside key place c d) (other : κ) (slot : Nat) :
    (other, shift place slot) ∈ c.table ↔ (other, slot) ∈ d.table := by
  have hne : (other, shift place slot) ≠ (key, place) := by
    intro he
    exact shift_ne place slot (congrArg Prod.snd he)
  rw [← List.mem_erase_of_ne hne, h.table]
  exact List.mem_map_of_injective (shiftEntry_injective place) (a := (other, slot))

/-- Every other entry is there on both sides. -/
theorem exists_of_mem (h : Beside key place c d) {entry : κ × Nat} (hm : entry ∈ c.table)
    (hne : entry ≠ (key, place)) : ∃ slot, entry.2 = shift place slot ∧ (entry.1, slot) ∈ d.table := by
  have hm' : entry ∈ c.table.erase (key, place) := (List.mem_erase_of_ne hne).mpr hm
  rw [h.table] at hm'
  obtain ⟨⟨k, slot⟩, hd, rfl⟩ := List.mem_map.mp hm'
  exact ⟨slot, rfl, hd⟩

/-- A key without a cell has none on the other side. -/
theorem slotOf?_of_slotOf? (h : Beside key place c d) {other : κ} (hc : c.slotOf? other = none) :
    d.slotOf? other = none := by
  cases hs : d.slotOf? other with
  | none => rfl
  | some slot =>
    have hm := (h.mem_table_iff other slot).mpr (mem_of_lookup_eq_some hs)
    rw [slotOf?, (lookup_eq_some_iff_mem h.settled.wf.keys _ _).mpr hm] at hc
    cases hc

/-- The same is ready on both sides. -/
theorem lookup_eq (h : Beside key place c d) (other : κ) : c.lookup other = d.lookup other := by
  ext i
  rw [lookup_eq_some_iff h.settled.wf, lookup_eq_some_iff h.settled_without.wf]
  constructor
  · rintro ⟨slot, hm, hcell⟩
    have hne : (other, slot) ≠ (key, place) := by
      intro he
      obtain ⟨-, rfl⟩ := Prod.mk.inj he
      rw [h.running] at hcell
      cases hcell
    obtain ⟨slot', rfl, hm'⟩ := h.exists_of_mem hm hne
    exact ⟨slot', hm', (h.cells slot').symm.trans hcell⟩
  · rintro ⟨slot, hm, hcell⟩
    exact ⟨shift place slot, (h.mem_table_iff other slot).mpr hm, (h.cells slot).trans hcell⟩

/-- As many keys are ready on both sides. -/
theorem size_eq (h : Beside key place c d) : c.size = d.size := by
  have hkeys (k : κ) : k ∈ d.ready.map Prod.fst ↔ (c.lookup k).isSome = true := by
    rw [mem_keys_ready_iff h.settled_without.wf, h.lookup_eq]
  rw [size_eq_length h.settled.wf (nodup_keys_ready h.settled_without.wf) hkeys, List.length_map]
  rfl

/-- A hit is counted on both sides. -/
theorem countHit (h : Beside key place c d) : Beside key place c.countHit d.countHit :=
  ⟨h.settled.countHit, h.settled_without.countHit, h.mem_table, h.running, h.table, h.cells, h.length,
    h.le_length, by rw [Cache.countHit, Cache.countHit, h.stats]⟩

/-- Another key begins to be compiled for on both sides. -/
theorem began (h : Beside key place c d) {other : κ} (hc : c.slotOf? other = none) :
    Beside key place (c.began other) (d.began other) := by
  have hd := h.slotOf?_of_slotOf? hc
  have hlength := h.length
  have hle := h.le_length
  have hnew : shift place d.cells.length = c.cells.length := by
    rw [shift_of_le hle, hlength]
  have hplace : place ≠ c.cells.length := by omega
  refine ⟨h.settled.began hc, h.settled_without.began hd, ?_, ?_, ?_, fun slot ↦ ?_, ?_, ?_, ?_⟩
  · rw [table_began hc]
    exact List.mem_cons_of_mem _ h.mem_table
  · rw [cellAt_began_of_ne hplace, h.running]
  · have hne : (other, c.cells.length) ≠ (key, place) := by
      intro he
      exact hplace (congrArg Prod.snd he).symm
    rw [table_began hc, table_began hd, List.erase_cons_tail (by simpa using hne), h.table,
      List.map_cons, shiftEntry, hnew]
  · by_cases hs : slot = d.cells.length
    · rw [hs, hnew, cellAt_began_self hc, cellAt_began_self hd]
    · have hne : shift place slot ≠ c.cells.length := by
        rw [← hnew]
        exact fun he ↦ hs (shift_injective place he)
      rw [cellAt_began_of_ne hne, cellAt_began_of_ne hs, h.cells]
  · rw [cells_began hc, cells_began hd, List.length_append, List.length_append, hlength]
    rfl
  · rw [cells_began hd, List.length_append]
    omega
  · rw [Cache.began, Cache.began, stats_start, stats_start, stats_claim, stats_claim, countMiss,
      countMiss, h.stats]

/-- The compilation for another key ends on both sides. -/
theorem conclude (h : Beside key place c d) {other : κ} {slot : Nat} (hm : (other, slot) ∈ d.table)
    (outcome : Except ε ι) :
    Beside key place (c.conclude other (shift place slot) outcome)
      (d.conclude other slot outcome) := by
  have hm' := (h.mem_table_iff other slot).mpr hm
  have hslot := h.settled_without.wf.exist _ hm
  have hslot' := h.settled.wf.exist _ hm'
  have hne : (key, place) ≠ (other, shift place slot) := by
    intro he
    exact shift_ne place slot (congrArg Prod.snd he).symm
  refine ⟨h.settled.conclude hm' outcome, h.settled_without.conclude hm outcome, ?_, ?_, ?_,
    fun s ↦ ?_, ?_, ?_, ?_⟩
  · exact (mem_table_conclude_iff h.settled.wf outcome _).mpr ⟨h.mem_table, fun he ↦ absurd he hne⟩
  · rw [cellAt_conclude hslot', if_neg (Ne.symm (shift_ne place slot)), h.running]
  · cases outcome with
    | ok i => exact h.table
    | error e =>
      show (c.table.erase (other, shift place slot)).erase (key, place) =
        (d.table.erase (other, slot)).map (shiftEntry place)
      rw [List.erase_comm, h.table, List.map_erase (shiftEntry_injective place)]
      rfl
  · rw [cellAt_conclude hslot', cellAt_conclude hslot, h.cells]
    by_cases hs : s = slot
    · rw [if_pos hs, hs, if_pos rfl]
    · rw [if_neg hs, if_neg fun he ↦ hs (shift_injective place he)]
  · rw [length_conclude, length_conclude, h.length]
  · rw [length_conclude]
    exact h.le_length
  · rw [stats_conclude, stats_conclude, h.stats]

/-- When the compilation for the key fails, the table on one side is that on the other. -/
theorem table_conclude (h : Beside key place c d) (e : ε) :
    (c.conclude key place (.error e)).table = d.table.map (shiftEntry place) := h.table

/-- When the compilation for the key fails, each cell on one side holds what it holds on the other,
and there is one more, which holds the failure. -/
theorem cells_conclude (h : Beside key place c d) (e : ε) (slot : Nat) :
    (c.conclude key place (.error e)).cellAt (shift place slot) = d.cellAt slot ∧
      (c.conclude key place (.error e)).cellAt place = .done (.error e) := by
  have hplace := h.settled.wf.exist _ h.mem_table
  rw [cellAt_conclude hplace, cellAt_conclude hplace, if_neg (shift_ne place slot), if_pos rfl]
  exact ⟨h.cells slot, rfl⟩

/-- When the compilation for the key fails, the same is ready on both sides. -/
theorem ready_conclude (h : Beside key place c d) (e : ε) :
    (c.conclude key place (.error e)).ready = d.ready := by
  rw [ready, h.table_conclude e, List.filterMap_map, ready]
  apply List.filterMap_congr
  intro entry _
  show ((c.conclude key place (.error e)).cellAt (shift place entry.2)).ready?.map _ = _
  rw [(h.cells_conclude e entry.2).1]

/-- When the compilation for the key fails, the key has no cell. -/
theorem slotOf?_conclude (h : Beside key place c d) (e : ε) :
    (c.conclude key place (.error e)).slotOf? key = none := by
  cases hs : (c.conclude key place (.error e)).slotOf? key with
  | none => rfl
  | some slot =>
    have hm := mem_of_lookup_eq_some hs
    obtain ⟨hc, hok⟩ := (mem_table_conclude_iff h.settled.wf _ _).mp hm
    obtain ⟨i, hi⟩ := hok (by rw [h.settled.wf.slot_unique hc h.mem_table])
    cases hi

/-- All queries are answered alike on both sides. -/
theorem answer_eq {σ : Type} {key : CacheKey} {c d : InvokerCache σ} (h : Beside key place c d)
    (q : Query σ) : q.answer c = q.answer d := by
  cases q with
  | get m target => exact h.lookup_eq _
  | contains m target => exact congrArg Option.isSome (h.lookup_eq _)
  | size => exact h.size_eq
  | isEmpty => exact congrArg (· == 0) h.size_eq
  | stats => exact h.stats

end Beside

end Cache

namespace Emitter

open Cache Client

variable {σ τ : Type} [Surroundings τ] {key : CacheKey} {place : Nat}

/-- What comes of a request beside the key comes of it without the key, if so it is with every
compilation. -/
theorem transfers_getOrCompile {backend : Backend σ (InvokerCache σ × τ)}
    (hsettles : ∀ m target, Keeps Settles (backend.compile m target))
    (hcompile : ∀ m target, Transfers (Both (Beside key place) Eq) (backend.compile m target)
      (backend.compile m target)) (m : MethodHandle σ) (target : Option Target) :
    Transfers (Both (Beside key place) Eq) (InvokerCache.getOrCompile backend m target)
      (InvokerCache.getOrCompile backend m target) := by
  rintro ⟨c, x⟩ ⟨d, y⟩ outcome ⟨c', x'⟩ ⟨h, hx⟩ hrun
  have h : Beside key place c d := h
  obtain rfl : x = y := hx
  rcases InvokerCache.getOrCompile_cases h.settled hrun with ⟨i, hi, rfl, rfl, rfl⟩ |
    ⟨hslot, c₁, hcompiled, rfl⟩
  · have hi' : InvokerCache.get d m target = some i := (h.lookup_eq _).symm.trans hi
    exact ⟨_, InvokerCache.getOrCompile_of_get hi', h.countHit, rfl⟩
  · have hslot' := h.slotOf?_of_slotOf? hslot
    obtain ⟨⟨d₁, y₁⟩, hcompiled', h₁, hx₁⟩ := hcompile m target (c.began (.of m target), _)
      (d.began (.of m target), _) outcome (c₁, x') ⟨h.began hslot, rfl⟩ hcompiled
    have h₁ : Beside key place c₁ d₁ := h₁
    obtain rfl : x' = y₁ := hx₁
    obtain ⟨-, hextends⟩ : d₁.Settled ∧ (d.began (.of m target)).Extends d₁ :=
      hsettles m target _ _ _ hcompiled' (h.settled_without.began hslot')
    have hplace : c.cells.length = shift place d.cells.length := by
      rw [shift_of_le h.le_length, h.length]
    refine ⟨(d₁.conclude (.of m target) d.cells.length outcome, x'), ?_, ?_, rfl⟩
    · rw [InvokerCache.getOrCompile_of_slotOf? hslot', hcompiled']
      rfl
    · rw [hplace]
      exact h₁.conclude (hextends _ (mem_table_began hslot')).1 outcome

/-- What comes of a compilation beside a key comes of it without the key, to any depth. -/
theorem transfers_compile (p : Emitter σ τ) (depth : Nat) (m : MethodHandle σ)
    (target : Option Target) :
    Transfers (Both (Beside key place) Eq) ((p.backend Note.ignore depth).compile m target)
      ((p.backend Note.ignore depth).compile m target) := by
  induction depth generalizing m target with
  | zero =>
    apply Backend.transfers_compile_same rfl
    intro b s t a s' h hrun
    cases hrun
  | succ depth ih =>
    apply Backend.transfers_compile_same rfl
    intro b
    apply transfers_run (fun c d h ↦ h.answer_eq) (fun c d h x ↦ rfl)
    exact transfers_getOrCompile (settles_compile _ p depth) ih

/-- When a request to a settled cache fails, to whatever depth its emission makes requests of its
own, what is left is what the emission leaves on its own, where the miss has been counted: the same
entries with the same in their cells, the same ready, and the counters with one failure more. Besides
there is a cell of no key that holds the failure. The key has no cell, every entry that there was
before is there, and the next request for the pair compiles, whatever the backend. -/
theorem getOrCompile_restores (p : Emitter σ τ) (depth : Nat) {c c' : InvokerCache σ} {x x' : τ}
    {m : MethodHandle σ} {target : Option Target} {e : CompileError} (hc : c.Settled)
    (h : InvokerCache.getOrCompile (p.backend Note.ignore depth) m target (c, x) =
      some (.error e, c', x')) :
    (∃ d, (p.backend Note.ignore depth).compile m target
          (c.countMiss, Surroundings.record (.miss m.method.name) x) = some (.error e, d, x') ∧
        c'.table = d.table.map (shiftEntry c.cells.length) ∧
        (∀ slot, c'.cellAt (shift c.cells.length slot) = d.cellAt slot) ∧
        c'.cellAt c.cells.length = .done (.error e) ∧ c'.ready = d.ready ∧
        c'.stats = { d.stats with failures := d.stats.failures + 1 }) ∧
      c'.slotOf? (.of m target) = none ∧
      (∀ entry ∈ c.table, entry ∈ c'.table ∧ c'.cellAt entry.2 = c.cellAt entry.2) ∧
      ∀ (backend : Backend σ (InvokerCache σ × τ)) (y : τ),
        InvokerCache.getOrCompile backend m target (c', y) =
          (backend.compile m target (c'.began (.of m target),
            Surroundings.record (.miss m.method.name) y)).map fun r ↦
              (r.1, r.2.1.conclude (.of m target) c'.cells.length r.1, r.2.2) := by
  have hsettles := settles_compile Note.ignore p depth
  obtain ⟨-, hextends⟩ : c'.Settled ∧ c.Extends c' :=
    settles_getOrCompile hsettles m target _ _ _ h hc
  rcases InvokerCache.getOrCompile_cases hc h with ⟨i, -, hi, -⟩ | ⟨hslot, d, hrun, rfl⟩
  · cases hi
  · obtain ⟨⟨d', y⟩, hrun', hbeside, hy⟩ := transfers_compile p depth m target
      (c.began (.of m target), Surroundings.record (.miss m.method.name) x)
      (c.countMiss, Surroundings.record (.miss m.method.name) x) _ _
      ⟨beside_began hc hslot, rfl⟩ hrun
    have hbeside : Beside (.of m target) c.cells.length d d' := hbeside
    obtain rfl : x' = y := hy
    refine ⟨⟨d', hrun', hbeside.table_conclude e, fun slot ↦ (hbeside.cells_conclude e slot).1,
      (hbeside.cells_conclude e 0).2, hbeside.ready_conclude e, ?_⟩, hbeside.slotOf?_conclude e,
      hextends, fun backend y ↦ ?_⟩
    · rw [stats_conclude, hbeside.stats]
    · exact InvokerCache.getOrCompile_of_slotOf? (hbeside.slotOf?_conclude e)

/-- The first bell is not hung, after the second was and the third was not: the second is ready, and
the table has no cell for the first. -/
theorem getOrCompile_restores_belfry :
    ∃ c' x', InvokerCache.getOrCompile (belfry.backend Note.ignore 2) (bell 1) none
          (.empty, ⟨0, [], .start⟩) = some (.error (.codegen "bell 1"), c', x') ∧
      c'.stats = ⟨0, 3, 1, 2⟩ ∧ c'.table = [(.of (bell 2) none, 1)] ∧
      c'.slotOf? (.of (bell 1) none) = none := by
  have h : ∃ c' x', InvokerCache.getOrCompile (belfry.backend Note.ignore 2) (bell 1) none
          (.empty, ⟨0, [], .start⟩) = some (.error (.codegen "bell 1"), c', x') ∧
      c'.stats = ⟨0, 3, 1, 2⟩ ∧ c'.table = [(.of (bell 2) none, 1)] := ⟨_, _, rfl, rfl, rfl⟩
  obtain ⟨c', x', hrun, hstats, htable⟩ := h
  obtain ⟨-, hslot, -⟩ := getOrCompile_restores belfry 2 settled_empty hrun
  exact ⟨c', x', hrun, hstats, htable, hslot⟩

end Emitter
end Invocation
