import Invocation.Proofs.Cache.Invariant

/-!
# Every cell is attended to

A cell in the table that holds no success is on its way: an empty one is entered by a request, a
running one is compiled for, and a failed one is about to be taken out of the table (`Attended`).
So the table never keeps a cell that nobody cares for, and every key in it is that of a ready cell
or of a request that has not been answered (`Attended.exists_request`).
-/

namespace Invocation.Cache.Interleaving

variable {κ ι ε : Type}

/-- What the phase of a request has to do with a cell of a number: it will initialise the cell while
it is empty, is about to settle it, or is about to take its failure out of the table. -/
def Phase.Attends (phase : Phase ι ε) (slot : Nat) : Cell ι ε → Prop
  | .empty => phase = .enter slot
  | .running => phase = .compile slot
  | .done _ => phase.workSlot? = some slot

/-- The cell that a request holds before it is about to answer. -/
def Phase.slot? : Phase ι ε → Option Nat
  | .enter slot | .compile slot | .count slot _ | .remove slot _ => some slot
  | _ => none

/-- Every cell in the table holds a success, or a request attends to it. -/
def Attended (c : Cache κ ι ε) (fs : List (Frame κ ι ε)) : Prop :=
  ∀ entry ∈ c.table, (∃ i, c.cellAt entry.2 = .done (.ok i)) ∨
    ∃ f ∈ fs, f.phase.Attends entry.2 (c.cellAt entry.2)

/-- The order of the requests does not matter. -/
theorem Attended.perm {c : Cache κ ι ε} {fs gs : List (Frame κ ι ε)} (h : Attended c fs)
    (hp : fs.Perm gs) : Attended c gs := by
  intro entry he
  rcases h entry he with hi | ⟨f, hf, ha⟩
  · exact .inl hi
  · exact .inr ⟨f, hp.mem_iff.mp hf, ha⟩

/-- A new request takes no attention away. -/
theorem Attended.new {c : Cache κ ι ε} {fs : List (Frame κ ι ε)} (h : Attended c fs)
    (n : Frame κ ι ε) : Attended c (n :: fs) := by
  intro entry he
  rcases h entry he with hi | ⟨f, hf, ha⟩
  · exact .inl hi
  · exact .inr ⟨f, List.mem_cons_of_mem _ hf, ha⟩

/-- A request that attends to a cell holds it. -/
theorem Phase.Attends.slot?_eq {phase : Phase ι ε} {slot : Nat} {cell : Cell ι ε}
    (h : phase.Attends slot cell) : phase.slot? = some slot := by
  cases cell with
  | empty =>
    obtain rfl : phase = .enter slot := h
    rfl
  | running =>
    obtain rfl : phase = .compile slot := h
    rfl
  | done outcome =>
    have hw : phase.workSlot? = some slot := h
    rcases phase with _ | _ | _ | _ | _ | _ | ⟨_, _ | _⟩ | _ | _ <;>
      simp_all [workSlot?, slot?]

variable [DecidableEq κ] {caller : Nat} {free : Bool} {c c' : Cache κ ι ε} {f g : Frame κ ι ε}
  {next : Option (Frame κ ι ε)} {record : List (Occurrence κ ι ε)}

/-- A request that attends to the cell of a key is a request for that key. -/
theorem Frame.Sound.key_eq {key : κ} {slot : Nat} (hf : f.Sound c) (hc : c.WF)
    (hm : (key, slot) ∈ c.table) (ha : f.phase.Attends slot (c.cellAt slot)) : f.key = key := by
  have hslot := ha.slot?_eq
  unfold Sound at hf
  cases hp : f.phase with
  | enter other =>
    simp only [hp] at hf ha hslot
    cases hslot
    refine hc.key_unique (hf.2.mem_table fun e he ↦ ?_) hm
    rw [he] at ha
    cases ha
  | compile other =>
    simp only [hp] at hf hslot
    cases hslot
    exact hc.key_unique hf.1 hm
  | count other outcome =>
    simp only [hp] at hf ha hslot
    cases hslot
    cases outcome with
    | ok i =>
      rw [hf.1] at ha
      cases ha
    | error e => exact hc.key_unique hf.1 hm
  | remove other e =>
    simp only [hp] at hf hslot
    cases hslot
    exact hc.key_unique hf.1 hm
  | lookup | countHit | countMiss | claim | answer => simp [hp, Phase.slot?] at hslot

/-- An entry after a move was there before, and its cell was only written by a request that attends
to it; or the request that moves has just claimed it. -/
theorem Frame.Moves.entry_cases (h : f.Moves caller free c c' next record) (hf : f.Sound c)
    {entry : κ × Nat} (he : entry ∈ c'.table) :
    entry ∈ c.table ∧ (c'.cellAt entry.2 = c.cellAt entry.2 ∨
        f.phase.Attends entry.2 (c.cellAt entry.2)) ∨
      ∃ n, next = some n ∧ n.phase = .enter entry.2 ∧ c'.cellAt entry.2 = .empty := by
  unfold Sound at hf
  cases h with
  | claim hp =>
    rw [cellAt_claim]
    rcases (c.mem_table_claim_iff _ _).mp he with hm | ⟨hs, rfl⟩
    · exact .inl ⟨hm, .inl rfl⟩
    · refine .inr ⟨_, rfl, ?_, c.cellAt_of_le (Nat.le_refl _)⟩
      simp [goTo, Cache.claim, hs]
  | start slot hp hs =>
    refine .inl ⟨he, ?_⟩
    by_cases hslot : slot = entry.2
    · subst hslot
      exact .inr (by rw [hs]; exact hp)
    · exact .inl (c.cellAt_setCell_of_ne _ hslot)
  | settle slot outcome hp =>
    simp only [hp] at hf
    refine .inl ⟨he, ?_⟩
    by_cases hslot : slot = entry.2
    · subst hslot
      exact .inr (by rw [hf.2]; exact hp)
    · exact .inl (c.cellAt_setCell_of_ne _ hslot)
  | remove slot e => exact .inl ⟨List.mem_of_mem_erase he, .inl rfl⟩
  | _ => exact .inl ⟨he, .inl rfl⟩

/-- A request that attended to the cell of an entry still does after it has moved on, unless the
cell holds a success then, or the entry is gone. -/
theorem Frame.Moves.attends_next (h : f.Moves caller free c c' next record) (hc : c.WF)
    (hf : f.Sound c) {entry : κ × Nat} (he : entry ∈ c'.table)
    (ha : f.phase.Attends entry.2 (c.cellAt entry.2)) :
    (∃ i, c'.cellAt entry.2 = .done (.ok i)) ∨
      ∃ n, next = some n ∧ n.phase.Attends entry.2 (c'.cellAt entry.2) := by
  have hslot := ha.slot?_eq
  unfold Sound at hf
  cases h with
  | lock => exact .inr ⟨_, rfl, ha⟩
  | start slot hp hs =>
    simp only [hp] at hf hslot
    cases hslot
    refine .inr ⟨_, rfl, ?_⟩
    rw [Cache.start, c.cellAt_setCell .running hf.1]
    rfl
  | settle slot outcome hp =>
    simp only [hp] at hf hslot
    cases hslot
    rw [Cache.settle, c.cellAt_setCell (.done outcome) (hc.exist _ hf.1)]
    cases outcome with
    | ok i => exact .inl ⟨i, rfl⟩
    | error e => exact .inr ⟨_, rfl, rfl⟩
  | share slot outcome hp hs =>
    simp only [hp] at ha hslot
    cases hslot
    rw [hs] at ha
    cases ha
  | countSuccess slot i hp =>
    simp only [hp] at hf hslot
    cases hslot
    exact .inl ⟨i, hf.1⟩
  | countFailure slot e hp =>
    simp only [hp] at hf hslot
    cases hslot
    refine .inr ⟨_, rfl, ?_⟩
    show Phase.Attends _ entry.2 (c.cellAt entry.2)
    rw [hf.2]
    rfl
  | remove slot e hp =>
    simp only [hp] at hf hslot
    cases hslot
    have hm : entry ∈ c.table := List.mem_of_mem_erase he
    have hk : entry = (f.key, entry.2) := Prod.ext (hc.key_unique hm hf.1) rfl
    rw [removeIfSame, hk] at he
    exact absurd he (List.Nodup.of_map Prod.fst hc.keys).not_mem_erase
  | peek hp | find i hp | miss hp | countHit i hp | countMiss hp | claim hp | answer o s hp =>
    simp [hp, Phase.slot?] at hslot

/-- A request that moves on leaves every cell attended to. -/
theorem Attended.moves {others : List (Frame κ ι ε)} (h : Attended c (f :: others))
    (hs : Consistent c (f :: others)) (hm : f.Moves caller free c c' next record) :
    Attended c' (next.toList ++ others) := by
  have hf : f.Sound c := hs.sound f (List.mem_cons_self ..)
  intro entry he
  have hself (ha : f.phase.Attends entry.2 (c.cellAt entry.2)) :
      (∃ i, c'.cellAt entry.2 = .done (.ok i)) ∨
        ∃ g ∈ next.toList ++ others, g.phase.Attends entry.2 (c'.cellAt entry.2) := by
    rcases hm.attends_next hs.wf hf he ha with hi | ⟨n, rfl, hn⟩
    · exact .inl hi
    · exact .inr ⟨n, List.mem_cons_self .., hn⟩
  rcases hm.entry_cases hf he with ⟨hold, hcell⟩ | ⟨n, rfl, hn, hempty⟩
  · rcases h entry hold with ⟨i, hi⟩ | ⟨g, hg, ha⟩
    · exact .inl ⟨i, (hm.change hf).cellAt_done hi⟩
    · rcases List.mem_cons.mp hg with rfl | hg
      · exact hself ha
      · rcases hcell with hsame | hfa
        · exact .inr ⟨g, List.mem_append_right _ hg, hsame ▸ ha⟩
        · exact hself hfa
  · exact .inr ⟨n, List.mem_cons_self .., by rw [hempty]; exact hn⟩

/-- The cell of a key in the table holds a success, or a request for the key holds it. -/
theorem Attended.exists_request {fs : List (Frame κ ι ε)} (h : Attended c fs)
    (hs : Consistent c fs) {key : κ} {slot : Nat} (hm : (key, slot) ∈ c.table) :
    (∃ i, c.cellAt slot = .done (.ok i)) ∨
      ∃ f ∈ fs, f.key = key ∧ f.phase.slot? = some slot := by
  rcases h (key, slot) hm with hi | ⟨f, hf, ha⟩
  · exact .inl hi
  · exact .inr ⟨f, hf, (hs.sound f hf).key_eq hs.wf hm ha, ha.slot?_eq⟩

namespace State

variable {shard : κ → Nat} {s t : State κ ι ε}

/-- Every step keeps every cell attended to. -/
theorem attended_step {move : Move κ ι ε} (hs : Consistent s.cache s.frames)
    (ha : Attended s.cache s.frames) (h : s.step shard caller move = some t) :
    Attended t.cache t.frames := by
  rcases step_cases h with ⟨goal, key, hc, hp, -⟩ | ⟨f, others, next, record, hm, hp, hp', -⟩
  · rw [hc]
    exact (ha.new (.new goal key)).perm hp.symm
  · exact ((ha.perm hp).moves (hs.perm hp) hm).perm hp'.symm

/-- After every run from an empty cache every cell is attended to. -/
theorem attended_run {callers : Nat} {moves : List (Nat × Move κ ι ε)}
    (h : (start .empty callers).run shard moves = some t) : Attended t.cache t.frames := by
  have hall : Consistent t.cache t.frames ∧ Attended t.cache t.frames := by
    apply run_induction _ _ h
    · rintro s t caller move ⟨hs, ha⟩ hstep
      exact ⟨consistent_step hs hstep, attended_step hs ha hstep⟩
    · refine ⟨consistent_start wf_empty callers, fun entry he ↦ ?_⟩
      cases he
  exact hall.2

/-- Once no request is in flight every cell in the table holds a success. -/
theorem ready_of_frames_eq_nil {callers : Nat} {moves : List (Nat × Move κ ι ε)}
    (h : (start .empty callers).run shard moves = some t) (hidle : t.frames = []) :
    ∀ entry ∈ t.cache.table, ∃ i, t.cache.cellAt entry.2 = .done (.ok i) := by
  intro entry hm
  rcases attended_run h entry hm with hready | ⟨f, hf, -⟩
  · exact hready
  · rw [hidle] at hf
    cases hf

end State
end Invocation.Cache.Interleaving
