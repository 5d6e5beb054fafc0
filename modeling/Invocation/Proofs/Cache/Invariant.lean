import Invocation.Proofs.Cache.Table
import Invocation.Proofs.Cache.Transition

/-!
# What holds of a cache in use

The invariant of a cache and the requests that use it (`Consistent`): the cell that a request holds
is that of its key in the table, or one that failed (`Frame.Sound`); a request that compiles, or
that has failed to and has not said so yet, has its cell in the table and to itself (`Frame.Apart`).
Every way a request can move on keeps it (`Consistent.moves`), and every step
(`State.consistent_step`).
-/

namespace Invocation.Cache.Interleaving

variable {κ ι ε : Type}

/-- The cell that a request is at work on: it compiles for it, or has still to take the failure out
of the table. -/
def Phase.workSlot? : Phase ι ε → Option Nat
  | .compile slot | .count slot (.error _) | .remove slot _ => some slot
  | _ => none

/-- Two requests are not at work on the same cell. -/
def Frame.Apart (f g : Frame κ ι ε) : Prop :=
  ∀ slot, f.phase.workSlot? = some slot → g.phase.workSlot? ≠ some slot

/-- What a cell holds as far as it is known to a key that uses it: it is the cell of the key, or it
holds a failure. -/
def Current (c : Cache κ ι ε) (key : κ) (slot : Nat) : Prop :=
  (key, slot) ∈ c.table ∨ ∃ e, c.cellAt slot = .done (.error e)

/-- The cell of a key that holds no failure is that in the table. -/
theorem Current.mem_table {c : Cache κ ι ε} {key : κ} {slot : Nat} (h : Current c key slot)
    (hc : ∀ e, c.cellAt slot ≠ .done (.error e)) : (key, slot) ∈ c.table := by
  rcases h with hm | ⟨e, he⟩
  · exact hm
  · exact absurd he (hc e)

/-- What a request knows about the cache, by its phase. -/
def Frame.Sound [DecidableEq κ] (c : Cache κ ι ε) (f : Frame κ ι ε) : Prop :=
  match f.phase with
  | .lookup | .countMiss | .claim => True
  | .countHit i => c.lookup f.key = some i
  | .enter slot => slot < c.cells.length ∧ Current c f.key slot
  | .compile slot => (f.key, slot) ∈ c.table ∧ c.cellAt slot = .running
  | .count slot (.ok i) => c.cellAt slot = .done (.ok i) ∧ c.lookup f.key = some i
  | .count slot (.error e) | .remove slot e =>
    (f.key, slot) ∈ c.table ∧ c.cellAt slot = .done (.error e)
  | .answer outcome source =>
    (∀ i, outcome = .ok i → c.lookup f.key = some i) ∧
      ∀ slot, source = some slot → c.cellAt slot = .done outcome

/-- A cache and the requests that use it are consistent. -/
structure Consistent [DecidableEq κ] (c : Cache κ ι ε) (fs : List (Frame κ ι ε)) : Prop where
  wf : c.WF
  sound : ∀ f ∈ fs, f.Sound c
  apart : fs.Pairwise Frame.Apart

section Change

variable [DecidableEq κ]

/-- What a request can do to the cache: count something, claim the cell of its key, write that cell
while it holds no outcome, or take a cell that failed out of the table. A cell that is being
initialised is only written, and a failed one only taken out, by the request at work on it. -/
inductive Change (c : Cache κ ι ε) (f : Frame κ ι ε) : Cache κ ι ε → Prop
  | count (stats : CacheStats) : Change c f { c with stats := stats }
  | claim : Change c f (c.claim f.key).2
  | write (slot : Nat) (cell : Cell ι ε) : (f.key, slot) ∈ c.table →
    (∀ outcome, c.cellAt slot ≠ .done outcome) →
    (c.cellAt slot = .running → f.phase.workSlot? = some slot) → Change c f (c.setCell slot cell)
  | remove (slot : Nat) (e : ε) : c.cellAt slot = .done (.error e) →
    f.phase.workSlot? = some slot → Change c f (c.removeIfSame f.key slot)

variable {caller : Nat} {free : Bool} {c c' : Cache κ ι ε} {f g : Frame κ ι ε}
  {next : Option (Frame κ ι ε)} {record : List (Occurrence κ ι ε)}

/-- However a request moves on, it changes the cache in one of these ways. -/
theorem Frame.Moves.change (h : f.Moves caller free c c' next record) (hf : f.Sound c) :
    Change c f c' := by
  unfold Sound at hf
  cases h with
  | claim => exact .claim
  | start slot hp hc =>
    simp only [hp] at hf
    refine .write slot .running (hf.2.mem_table ?_) ?_ ?_ <;> simp [hc]
  | settle slot outcome hp =>
    simp only [hp] at hf
    refine .write slot (.done outcome) hf.1 ?_ ?_ <;> simp [hf.2, hp, Phase.workSlot?]
  | remove slot e hp =>
    simp only [hp] at hf
    exact .remove slot e hf.2 (by simp [hp, Phase.workSlot?])
  | lock | peek | find | miss | share | answer => exact .count c.stats
  | countHit | countMiss => exact .count _
  | countSuccess | countFailure => exact .count _

namespace Change

/-- The cache stays well-formed. -/
theorem wf (h : Change c f c') (hc : c.WF) : c'.WF := by
  cases h with
  | count stats => exact ⟨hc.keys, hc.slots, hc.exist⟩
  | claim => exact wf_claim hc f.key
  | write slot cell => exact wf_setCell hc slot cell
  | remove slot => exact wf_removeIfSame hc f.key slot

/-- No cell goes away. -/
theorem length_le (h : Change c f c') : c.cells.length ≤ c'.cells.length := by
  cases h with
  | claim => exact c.length_le_claim f.key
  | write slot cell => exact Nat.le_of_eq List.length_set.symm
  | count | remove => exact Nat.le_refl _

/-- An outcome stays in its cell for good. -/
theorem cellAt_done (h : Change c f c') {slot : Nat} {outcome : Except ε ι}
    (hs : c.cellAt slot = .done outcome) : c'.cellAt slot = .done outcome := by
  cases h with
  | count | remove => exact hs
  | claim => rw [cellAt_claim, hs]
  | write other cell hm hc =>
    have hne : other ≠ slot := by
      rintro rfl
      exact hc outcome hs
    rw [c.cellAt_setCell_of_ne cell hne, hs]

/-- The cell of a key stays that, unless it failed. -/
theorem current (h : Change c f c') {key : κ} {slot : Nat} (hs : Current c key slot) :
    Current c' key slot := by
  rcases hs with hm | ⟨e, he⟩
  · cases h with
    | count | write => exact .inl hm
    | claim => exact .inl ((c.mem_table_claim_iff _ _).mpr (.inl hm))
    | remove other e he =>
      by_cases hne : slot = other
      · exact .inr ⟨e, hne ▸ he⟩
      · refine .inl ((List.mem_erase_of_ne ?_).mpr hm)
        simp [hne]
  · exact .inr ⟨e, h.cellAt_done he⟩

/-- What is ready for a key stays ready. -/
theorem lookup_eq_some (h : Change c f c') (hc : c.WF) {key : κ} {i : ι}
    (hi : c.lookup key = some i) : c'.lookup key = some i := by
  cases h with
  | count => exact hi
  | claim => rw [lookup_claim hc, hi]
  | write slot cell hm hd =>
    have hne : key ≠ f.key := by
      rintro rfl
      rw [lookup_eq_none hc hm fun j ↦ hd (.ok j)] at hi
      cases hi
    rw [lookup_setCell hc cell hm, if_neg hne, hi]
  | remove slot e he => rw [lookup_removeIfSame hc (by simp [he]), hi]

/-- The entry and the cell of a request at work stay as they are while another one moves on. -/
theorem work (h : Change c f c') (ha : f.Apart g) {slot : Nat} (hw : g.phase.workSlot? = some slot)
    {key : κ} (hm : (key, slot) ∈ c.table) :
    (key, slot) ∈ c'.table ∧ (c.cellAt slot = .running → c'.cellAt slot = .running) := by
  cases h with
  | count => exact ⟨hm, id⟩
  | claim =>
    rw [cellAt_claim]
    exact ⟨(c.mem_table_claim_iff _ _).mpr (.inl hm), id⟩
  | write other cell hm' hd hr =>
    refine ⟨hm, fun hc ↦ ?_⟩
    have hne : other ≠ slot := by
      rintro rfl
      exact ha other (hr hc) hw
    rw [c.cellAt_setCell_of_ne cell hne, hc]
  | remove other e he hf =>
    have hne : slot ≠ other := by
      rintro rfl
      exact ha slot hf hw
    exact ⟨(List.mem_erase_of_ne (by simp [hne])).mpr hm, id⟩

/-- What one request knows about the cache stays true while another one moves on. -/
theorem sound (h : Change c f c') (hc : c.WF) (ha : f.Apart g) (hg : g.Sound c) : g.Sound c' := by
  unfold Frame.Sound at hg ⊢
  cases hp : g.phase with
  | lookup | countMiss | claim => trivial
  | countHit i =>
    simp only [hp] at hg
    exact h.lookup_eq_some hc hg
  | enter slot =>
    simp only [hp] at hg
    exact ⟨Nat.lt_of_lt_of_le hg.1 h.length_le, h.current hg.2⟩
  | compile slot =>
    simp only [hp] at hg
    obtain ⟨hm, hr⟩ := h.work ha (by simp [hp, Phase.workSlot?]) hg.1
    exact ⟨hm, hr hg.2⟩
  | count slot outcome =>
    cases outcome with
    | ok i =>
      simp only [hp] at hg
      exact ⟨h.cellAt_done hg.1, h.lookup_eq_some hc hg.2⟩
    | error e =>
      simp only [hp] at hg
      exact ⟨(h.work ha (by simp [hp, Phase.workSlot?]) hg.1).1, h.cellAt_done hg.2⟩
  | remove slot e =>
    simp only [hp] at hg
    exact ⟨(h.work ha (by simp [hp, Phase.workSlot?]) hg.1).1, h.cellAt_done hg.2⟩
  | answer outcome source =>
    simp only [hp] at hg
    exact ⟨fun i hi ↦ h.lookup_eq_some hc (hg.1 i hi),
      fun slot hs ↦ h.cellAt_done (hg.2 slot hs)⟩

end Change

/-- A request that has moved on is right about the cache that it leaves. -/
theorem Frame.Moves.sound_next {n : Frame κ ι ε} (h : f.Moves caller free c c' (some n) record)
    (hc : c.WF) (hf : f.Sound c) : n.Sound c' := by
  have hw := (h.change hf).wf hc
  unfold Sound at hf
  cases h with
  | lock => exact hf
  | miss | countMiss => trivial
  | find i hp hl hg hi => exact hi
  | countHit i hp =>
    simp only [hp] at hf
    refine ⟨fun j hj ↦ ?_, fun slot hs ↦ (by cases hs)⟩
    cases hj
    exact hf
  | claim =>
    have hm := c.mem_table_claim f.key
    exact ⟨hw.exist _ hm, .inl hm⟩
  | start slot hp hs =>
    simp only [hp] at hf
    exact ⟨hf.2.mem_table (by simp [hs]), c.cellAt_setCell .running hf.1⟩
  | share slot outcome hp hs =>
    simp only [hp] at hf
    refine ⟨fun i hi ↦ ?_, fun other ho ↦ ?_⟩
    · subst hi
      exact (lookup_eq_some_iff hc _ i).mpr ⟨slot, hf.2.mem_table (by simp [hs]), hs⟩
    · cases ho
      exact hs
  | settle slot outcome hp =>
    simp only [hp] at hf
    have hs := c.cellAt_setCell (.done outcome) (hc.exist _ hf.1)
    cases outcome with
    | ok i => exact ⟨hs, (lookup_eq_some_iff hw _ i).mpr ⟨slot, hf.1, hs⟩⟩
    | error e => exact ⟨hf.1, hs⟩
  | countSuccess slot i hp =>
    simp only [hp] at hf
    refine ⟨fun j hj ↦ ?_, fun other ho ↦ ?_⟩
    · cases hj
      exact hf.2
    · cases ho
      exact hf.1
  | countFailure slot e hp =>
    simp only [hp] at hf
    exact hf
  | remove slot e hp =>
    simp only [hp] at hf
    refine ⟨fun j hj ↦ (by cases hj), fun other ho ↦ ?_⟩
    cases ho
    exact hf.2

/-- A request that has moved on is at work on the cell that it was at work on before, or on one that
was empty. -/
theorem Frame.Moves.workSlot_next {n : Frame κ ι ε} {slot : Nat}
    (h : f.Moves caller free c c' (some n) record) (hn : n.phase.workSlot? = some slot) :
    f.phase.workSlot? = some slot ∨ c.cellAt slot = .empty := by
  cases h with
  | lock => exact .inl hn
  | start other hp hs =>
    cases hn
    exact .inr hs
  | settle other outcome hp =>
    cases outcome with
    | ok i => cases hn
    | error e =>
      cases hn
      exact .inl (by rw [hp]; rfl)
  | countFailure other e hp =>
    cases hn
    exact .inl (by rw [hp]; rfl)
  | find | miss | countHit | countMiss | claim | share | countSuccess | remove => cases hn

/-- A cell that a request is at work on is not empty. -/
theorem Frame.Sound.cellAt_ne_empty (hg : g.Sound c) {slot : Nat}
    (hw : g.phase.workSlot? = some slot) : c.cellAt slot ≠ .empty := by
  unfold Sound at hg
  cases hp : g.phase with
  | compile other =>
    simp only [hp] at hg
    obtain rfl : other = slot := by simpa [hp, Phase.workSlot?] using hw
    simp [hg.2]
  | count other outcome =>
    cases outcome with
    | ok i => simp [hp, Phase.workSlot?] at hw
    | error e =>
      simp only [hp] at hg
      obtain rfl : other = slot := by simpa [hp, Phase.workSlot?] using hw
      simp [hg.2]
  | remove other e =>
    simp only [hp] at hg
    obtain rfl : other = slot := by simpa [hp, Phase.workSlot?] using hw
    simp [hg.2]
  | lookup | countHit | countMiss | claim | enter | answer => simp [hp, Phase.workSlot?] at hw

/-- A request that moves on leaves the cache and all requests consistent. -/
theorem Consistent.moves {others : List (Frame κ ι ε)} (h : Consistent c (f :: others))
    (hm : f.Moves caller free c c' next record) : Consistent c' (next.toList ++ others) := by
  have hf : f.Sound c := h.sound f (List.mem_cons_self ..)
  have hchange := hm.change hf
  obtain ⟨hfirst, hrest⟩ := List.pairwise_cons.mp h.apart
  refine ⟨hchange.wf h.wf, fun g hg ↦ ?_, ?_⟩
  · rcases List.mem_append.mp hg with hn | hg
    · obtain rfl : next = some g := by simpa using hn
      exact hm.sound_next h.wf hf
    · exact hchange.sound h.wf (hfirst g hg) (h.sound g (List.mem_cons_of_mem _ hg))
  · cases next with
    | none => exact hrest
    | some n =>
      refine List.pairwise_cons.mpr ⟨fun g hg slot hn hw ↦ ?_, hrest⟩
      rcases hm.workSlot_next hn with hs | he
      · exact hfirst g hg slot hs hw
      · exact (h.sound g (List.mem_cons_of_mem _ hg)).cellAt_ne_empty hw he

/-- The order of the requests does not matter. -/
theorem Consistent.perm {fs gs : List (Frame κ ι ε)} (h : Consistent c fs) (hp : fs.Perm gs) :
    Consistent c gs :=
  ⟨h.wf, fun g hg ↦ h.sound g (hp.mem_iff.mpr hg),
    hp.pairwise h.apart fun ha slot hg hf ↦ ha slot hf hg⟩

/-- A request that has just been made knows nothing about the cache. -/
theorem Consistent.new {fs : List (Frame κ ι ε)} (h : Consistent c fs) (goal : Goal) (key : κ) :
    Consistent c (.new goal key :: fs) := by
  refine ⟨h.wf, fun g hg ↦ ?_, List.pairwise_cons.mpr ⟨fun g hg slot hn ↦ ?_, h.apart⟩⟩
  · rcases List.mem_cons.mp hg with rfl | hg
    · trivial
    · exact h.sound g hg
  · cases hn

end Change

namespace State

variable [DecidableEq κ] {shard : κ → Nat} {s t : State κ ι ε}

/-- Every step keeps the cache and the requests consistent. -/
theorem consistent_step {caller : Nat} {move : Move κ ι ε} (hs : Consistent s.cache s.frames)
    (h : s.step shard caller move = some t) : Consistent t.cache t.frames := by
  rcases step_cases h with ⟨goal, key, hc, hp, -⟩ | ⟨f, others, next, record, hm, hp, hp', -⟩
  · rw [hc]
    exact (hs.new goal key).perm hp.symm
  · exact ((hs.perm hp).moves hm).perm hp'.symm

/-- Before the first request a well-formed cache is consistent. -/
theorem consistent_start {cache : Cache κ ι ε} (hc : cache.WF) (callers : Nat) :
    Consistent cache (start cache callers).frames := by
  have hf : (start cache callers).frames = [] := by simp [start, frames]
  rw [hf]
  exact ⟨hc, fun f hf ↦ (by cases hf), List.Pairwise.nil⟩

end State
end Invocation.Cache.Interleaving
