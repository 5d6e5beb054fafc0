import Invocation.Cache.Basic
import Invocation.Proofs.Association
import Mathlib.Data.List.Nodup

/-!
# The table of a cache

What each operation of a cache does to the table, to the cells and to what is ready for a key. In a
well-formed cache (`Cache.WF`) every key has one cell of its own. Claiming a cell, beginning to
initialise one, settling one with a failure, and taking a failed one out of the table change nothing
that is ready; settling a cell with a success makes it ready for its key, and for no other.
-/

namespace Invocation

/-- What is ready in a cell is a success that it holds. -/
theorem Cell.ready?_eq_some_iff {ι ε : Type} {cell : Cell ι ε} {i : ι} :
    cell.ready? = some i ↔ cell = .done (.ok i) := by
  rcases cell with _ | _ | ⟨_ | j⟩ <;> simp [ready?]

namespace Cache

variable {κ ι ε : Type}

/-- No two entries of the table have the same key or the same cell, and every cell is there. -/
structure WF (c : Cache κ ι ε) : Prop where
  keys : (c.table.map Prod.fst).Nodup
  slots : (c.table.map Prod.snd).Nodup
  exist : ∀ entry ∈ c.table, entry.2 < c.cells.length

/-- A cell that was not given out yet counts as empty. -/
theorem cellAt_of_le (c : Cache κ ι ε) {slot : Nat} (h : c.cells.length ≤ slot) :
    c.cellAt slot = .empty := by
  simp [cellAt, h]

/-- A cell that is not empty was given out. -/
theorem lt_of_cellAt_ne {c : Cache κ ι ε} {slot : Nat} (h : c.cellAt slot ≠ .empty) :
    slot < c.cells.length := by
  by_cases hl : slot < c.cells.length
  · exact hl
  · exact absurd (c.cellAt_of_le (Nat.le_of_not_lt hl)) h

/-- A cache without keys is well-formed. -/
theorem wf_empty : (empty : Cache κ ι ε).WF := by
  constructor <;> simp [empty]

/-- Writing a cell keeps a cache well-formed. -/
theorem wf_setCell {c : Cache κ ι ε} (h : c.WF) (slot : Nat) (cell : Cell ι ε) :
    (c.setCell slot cell).WF := by
  constructor
  · exact h.keys
  · exact h.slots
  · intro entry hm
    rw [setCell, List.length_set]
    exact h.exist entry hm

/-- An entry is determined by its key. -/
theorem WF.slot_unique {c : Cache κ ι ε} (h : c.WF) {key : κ} {a b : Nat}
    (ha : (key, a) ∈ c.table) (hb : (key, b) ∈ c.table) : a = b :=
  congrArg Prod.snd (List.inj_on_of_nodup_map h.keys ha hb rfl)

/-- An entry is determined by its cell. -/
theorem WF.key_unique {c : Cache κ ι ε} (h : c.WF) {a b : κ} {slot : Nat}
    (ha : (a, slot) ∈ c.table) (hb : (b, slot) ∈ c.table) : a = b :=
  congrArg Prod.fst (List.inj_on_of_nodup_map h.slots ha hb rfl)

/-- Nothing is counted when a cell is begun. -/
@[simp] theorem stats_start (c : Cache κ ι ε) (slot : Nat) : (c.start slot).stats = c.stats := rfl

/-- Nothing is counted when an outcome is put into a cell. -/
@[simp] theorem stats_settle (c : Cache κ ι ε) (slot : Nat) (outcome : Except ε ι) :
    (c.settle slot outcome).stats = c.stats := rfl

variable [DecidableEq κ]

/-- Taking a key out of the table keeps a cache well-formed. -/
theorem wf_removeIfSame {c : Cache κ ι ε} (h : c.WF) (key : κ) (slot : Nat) :
    (c.removeIfSame key slot).WF := by
  have hs : (c.table.erase (key, slot)).Sublist c.table := List.erase_sublist
  constructor
  · exact h.keys.sublist (hs.map Prod.fst)
  · exact h.slots.sublist (hs.map Prod.snd)
  · intro entry hm
    exact h.exist entry (hs.subset hm)

/-- The entries after a claim: those there were, and one for the key if it had none. -/
theorem mem_table_claim_iff (c : Cache κ ι ε) (key : κ) (entry : κ × Nat) :
    entry ∈ (c.claim key).2.table ↔
      entry ∈ c.table ∨ c.slotOf? key = none ∧ entry = (key, c.cells.length) := by
  cases hs : c.slotOf? key with
  | some slot => simp [claim, hs]
  | none => simp [claim, hs, or_comm]

/-- A claimed cell is that of the key in the table. -/
theorem mem_table_claim (c : Cache κ ι ε) (key : κ) :
    (key, (c.claim key).1) ∈ (c.claim key).2.table :=
  mem_of_lookup_eq_some (c.slotOf?_claim key)

/-- A claim gives out at most one more cell. -/
theorem length_le_claim (c : Cache κ ι ε) (key : κ) :
    c.cells.length ≤ (c.claim key).2.cells.length := by
  cases hs : c.slotOf? key <;> simp [claim, hs]

/-- A claim writes no cell. -/
theorem cellAt_claim (c : Cache κ ι ε) (key : κ) (slot : Nat) :
    (c.claim key).2.cellAt slot = c.cellAt slot := by
  cases hs : c.slotOf? key with
  | some other => simp [claim, hs]
  | none =>
    simp only [claim, hs, cellAt]
    by_cases hl : slot < c.cells.length
    · rw [List.getElem?_append_left hl]
    · rw [List.getElem?_append_right (Nat.le_of_not_lt hl), List.getElem?_eq_none
        (Nat.le_of_not_lt hl)]
      cases slot - c.cells.length <;> rfl

/-- A claim keeps a cache well-formed. -/
theorem wf_claim {c : Cache κ ι ε} (h : c.WF) (key : κ) : (c.claim key).2.WF := by
  cases hs : c.slotOf? key with
  | some slot => simpa [claim, hs] using h
  | none =>
    have hk : key ∉ c.table.map Prod.fst := by
      intro hm
      obtain ⟨entry, he, rfl⟩ := List.mem_map.mp hm
      have hf := (lookup_eq_some_iff_mem h.keys entry.1 entry.2).mpr he
      rw [slotOf?, hf] at hs
      cases hs
    have hn : c.cells.length ∉ c.table.map Prod.snd := by
      intro hm
      obtain ⟨entry, he, hl⟩ := List.mem_map.mp hm
      have := h.exist entry he
      omega
    simp only [claim, hs]
    constructor
    · exact List.nodup_cons.mpr ⟨hk, h.keys⟩
    · exact List.nodup_cons.mpr ⟨hn, h.slots⟩
    · intro entry hm
      rw [List.length_append, List.length_singleton]
      rcases List.mem_cons.mp hm with rfl | hm
      · exact Nat.lt_succ_self _
      · exact Nat.lt_succ_of_lt (h.exist entry hm)

/-- What is ready for a key is what the cell of its entry holds. -/
theorem lookup_eq_some_iff {c : Cache κ ι ε} (h : c.WF) (key : κ) (i : ι) :
    c.lookup key = some i ↔ ∃ slot, (key, slot) ∈ c.table ∧ c.cellAt slot = .done (.ok i) := by
  simp only [lookup, cellOf?, slotOf?, Option.bind_map, Option.bind_eq_some_iff,
    Function.comp_apply, Cell.ready?_eq_some_iff, lookup_eq_some_iff_mem h.keys]

/-- Nothing is ready for a key whose cell holds no success. -/
theorem lookup_eq_none {c : Cache κ ι ε} (h : c.WF) {key : κ} {slot : Nat}
    (hm : (key, slot) ∈ c.table) (hc : ∀ i, c.cellAt slot ≠ .done (.ok i)) :
    c.lookup key = none := by
  cases hl : c.lookup key with
  | none => rfl
  | some i =>
    obtain ⟨other, ho, hi⟩ := (lookup_eq_some_iff h key i).mp hl
    rw [h.slot_unique ho hm] at hi
    exact absurd hi (hc i)

/-- A claim counts nothing. -/
@[simp] theorem stats_claim (c : Cache κ ι ε) (key : κ) : (c.claim key).2.stats = c.stats := by
  cases hs : c.slotOf? key <;> simp [claim, hs]

/-- Nothing is counted when a key is taken out of the table. -/
@[simp] theorem stats_removeIfSame (c : Cache κ ι ε) (key : κ) (slot : Nat) :
    (c.removeIfSame key slot).stats = c.stats := rfl

/-- Two well-formed caches with the same entries of success have the same ready for every key. -/
theorem lookup_congr {c d : Cache κ ι ε} (hc : c.WF) (hd : d.WF) {key : κ}
    (h : ∀ slot i, (key, slot) ∈ d.table ∧ d.cellAt slot = .done (.ok i) ↔
      (key, slot) ∈ c.table ∧ c.cellAt slot = .done (.ok i)) : d.lookup key = c.lookup key := by
  ext i
  simp only [lookup_eq_some_iff hc, lookup_eq_some_iff hd, h]

/-- Claiming a cell makes nothing ready. -/
theorem lookup_claim {c : Cache κ ι ε} (h : c.WF) (key other : κ) :
    (c.claim key).2.lookup other = c.lookup other := by
  apply lookup_congr h (wf_claim h key)
  intro slot i
  rw [cellAt_claim, mem_table_claim_iff]
  constructor
  · rintro ⟨hm | ⟨-, he⟩, hi⟩
    · exact ⟨hm, hi⟩
    · cases he
      rw [c.cellAt_of_le (Nat.le_refl _)] at hi
      cases hi
  · rintro ⟨hm, hi⟩
    exact ⟨.inl hm, hi⟩

/-- Writing the cell of a key decides what is ready for it, and for no other key. -/
theorem lookup_setCell {c : Cache κ ι ε} (h : c.WF) {slot : Nat} (cell : Cell ι ε) {key : κ}
    (hm : (key, slot) ∈ c.table) (other : κ) :
    (c.setCell slot cell).lookup other = if other = key then cell.ready? else c.lookup other := by
  have hw := wf_setCell h slot cell
  have hs := c.cellAt_setCell cell (h.exist _ hm)
  by_cases ho : other = key
  · subst other
    rw [if_pos rfl]
    ext i
    rw [lookup_eq_some_iff hw]
    constructor
    · rintro ⟨s, hm', hi⟩
      rw [h.slot_unique hm' hm, hs] at hi
      rw [hi]
      rfl
    · intro hi
      refine ⟨slot, hm, ?_⟩
      rw [hs]
      exact Cell.ready?_eq_some_iff.mp hi
  · rw [if_neg ho]
    apply lookup_congr h hw
    intro s i
    refine and_congr_right fun hm' ↦ ?_
    have hne : slot ≠ s := by
      rintro rfl
      exact ho (h.key_unique hm' hm)
    rw [c.cellAt_setCell_of_ne cell hne]

/-- Taking a cell without success out of the table changes nothing that is ready. -/
theorem lookup_removeIfSame {c : Cache κ ι ε} (h : c.WF) {key : κ} {slot : Nat}
    (hc : ∀ i, c.cellAt slot ≠ .done (.ok i)) (other : κ) :
    (c.removeIfSame key slot).lookup other = c.lookup other := by
  apply lookup_congr h (wf_removeIfSame h key slot)
  intro s i
  constructor
  · rintro ⟨hm, hi⟩
    exact ⟨List.mem_of_mem_erase hm, hi⟩
  · rintro ⟨hm, hi⟩
    have hne : (other, s) ≠ (key, slot) := by
      intro he
      obtain ⟨-, rfl⟩ := Prod.mk.inj he
      exact hc i hi
    exact ⟨(List.mem_erase_of_ne hne).mpr hm, hi⟩

omit [DecidableEq κ] in
/-- The keys that something is ready for are those in the table whose cells are ready. -/
theorem keys_ready (c : Cache κ ι ε) :
    c.ready.map Prod.fst =
      (c.table.filter fun entry ↦ (c.cellAt entry.2).ready?.isSome).map Prod.fst := by
  rw [ready]
  generalize c.table = table
  induction table with
  | nil => rfl
  | cons entry table ih =>
    cases hr : (c.cellAt entry.2).ready? with
    | none => simpa [hr] using ih
    | some i => simpa [hr] using ih

omit [DecidableEq κ] in
/-- No key is ready twice. -/
theorem nodup_keys_ready {c : Cache κ ι ε} (h : c.WF) : (c.ready.map Prod.fst).Nodup := by
  rw [keys_ready]
  exact h.keys.sublist (List.filter_sublist.map Prod.fst)

/-- The keys that something is ready for are those that a lookup finds something for. -/
theorem mem_keys_ready_iff {c : Cache κ ι ε} (h : c.WF) (key : κ) :
    key ∈ c.ready.map Prod.fst ↔ (c.lookup key).isSome = true := by
  rw [keys_ready, Option.isSome_iff_exists]
  constructor
  · intro hm
    obtain ⟨⟨k, slot⟩, hf, rfl⟩ := List.mem_map.mp hm
    obtain ⟨ht, hr⟩ := List.mem_filter.mp hf
    obtain ⟨i, hi⟩ := Option.isSome_iff_exists.mp hr
    exact ⟨i, (lookup_eq_some_iff h k i).mpr ⟨slot, ht, Cell.ready?_eq_some_iff.mp hi⟩⟩
  · rintro ⟨i, hi⟩
    obtain ⟨slot, ht, hc⟩ := (lookup_eq_some_iff h key i).mp hi
    have hf : (key, slot) ∈ c.table.filter fun entry ↦ (c.cellAt entry.2).ready?.isSome := by
      apply List.mem_filter.mpr
      exact ⟨ht, by rw [hc]; rfl⟩
    exact List.mem_map_of_mem hf

/-- A cache has as many ready keys as there are keys that a lookup finds something for. -/
theorem size_eq_length {c : Cache κ ι ε} (h : c.WF) {keys : List κ} (hk : keys.Nodup)
    (hm : ∀ key, key ∈ keys ↔ (c.lookup key).isSome = true) : c.size = keys.length := by
  have hperm : (c.ready.map Prod.fst).Perm keys := by
    apply (List.perm_ext_iff_of_nodup (nodup_keys_ready h) hk).mpr
    intro key
    rw [mem_keys_ready_iff h, hm]
  rw [size, ← hperm.length_eq, List.length_map]

end Cache
end Invocation
