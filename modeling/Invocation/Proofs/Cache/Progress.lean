import Invocation.Proofs.Cache.Attendance
import Invocation.Proofs.Cache.Uniqueness
import Mathlib.Order.WellFounded

/-!
# Some request can always go on

A request waits only for the lock of a shard or for a cell that another one is initialising. Whoever
holds a lock can make its step (`Frame.proceed_of_locked`). Whoever waits for a cell waits for a
request for the same key that compiles; if that one waits itself, then for a request on top of it in
its stack, and that is for a key further down as long as compilations ask only for what is below
their own keys (`State.Descending`). So there is no circle of requests that wait for each other
(`State.progress`).
-/

namespace Invocation.Cache.Interleaving

variable {κ ι ε : Type}

/-- A move of a caller with this stack asks to obtain only what is below the key that its newest
request is for. -/
def Move.Descends (r : κ → κ → Prop) (stack : List (Frame κ ι ε)) : Move κ ι ε → Prop
  | .request .obtain key => ∀ f ∈ stack.head?, r key f.key
  | _ => True

/-- The moves of a run ask to obtain only what is below the key that is being compiled. -/
def State.Descending [DecidableEq κ] (r : κ → κ → Prop) (shard : κ → Nat) :
    State κ ι ε → List (Nat × Move κ ι ε) → Prop
  | _, [] => True
  | s, (caller, move) :: moves =>
    move.Descends r (s.callers[caller]?.getD []) ∧
      ∀ t ∈ s.step shard caller move, t.Descending r shard moves

/-- Whether a move descends can be found out. -/
instance Move.decidableDescends (r : κ → κ → Prop) [DecidableRel r] (stack : List (Frame κ ι ε)) :
    DecidablePred (Move.Descends r stack : Move κ ι ε → Prop)
  | .request .obtain key => inferInstanceAs (Decidable (∀ f ∈ stack.head?, r key f.key))
  | .request .peek _ | .proceed | .finish _ => .isTrue trivial

/-- Whether the moves of a run descend can be found out. -/
instance State.decidableDescending [DecidableEq κ] (r : κ → κ → Prop) [DecidableRel r]
    (shard : κ → Nat) : (s : State κ ι ε) → (moves : List (Nat × Move κ ι ε)) →
      Decidable (s.Descending r shard moves)
  | _, [] => .isTrue trivial
  | s, (caller, move) :: moves =>
    have : DecidablePred fun t : State κ ι ε ↦ t.Descending r shard moves :=
      fun t ↦ decidableDescending r shard t moves
    inferInstanceAs (Decidable (move.Descends r (s.callers[caller]?.getD []) ∧
      ∀ t ∈ s.step shard caller move, t.Descending r shard moves))

/-- A request holds a lock only at a phase that needs it, and one to peek does nothing but look its
key up. -/
structure Frame.Tidy (f : Frame κ ι ε) : Prop where
  locked : f.locked = true → f.phase.NeedsLock
  peek : f.goal = .peek → f.phase = .lookup

/-- A request was made, at some depth, while the other one compiled: what it is to obtain is further
down than what the other one is for. -/
def Frame.Above (r : κ → κ → Prop) (f g : Frame κ ι ε) : Prop :=
  g.isCompiling = true ∧ (f.goal = .obtain → Relation.TransGen r f.key g.key)

/-- The requests of a caller are tidy, and each was made while those below it compiled. -/
structure Stacked (r : κ → κ → Prop) (stack : List (Frame κ ι ε)) : Prop where
  tidy : ∀ f ∈ stack, f.Tidy
  above : stack.Pairwise (Frame.Above r)

/-- A request that compiles is one to obtain. -/
theorem Frame.Tidy.goal_eq {f : Frame κ ι ε} (h : f.Tidy) (hc : f.isCompiling = true) :
    f.goal = .obtain := by
  cases hg : f.goal with
  | obtain => rfl
  | peek => simp [isCompiling, h.peek hg] at hc

/-- A request that compiles, or is about to enter a cell, holds no lock. -/
theorem Frame.Tidy.unlocked {f : Frame κ ι ε} (h : f.Tidy)
    (hw : f.isCompiling = true ∨ ∃ slot, f.phase = .enter slot) : f.locked = false := by
  cases hl : f.locked with
  | false => rfl
  | true =>
    have hneeds := h.locked hl
    rcases hw with hc | ⟨slot, hp⟩
    · cases hp : f.phase <;> simp [isCompiling, hp, Phase.NeedsLock] at hc hneeds
    · simp [hp, Phase.NeedsLock] at hneeds

section Stack

variable {r : κ → κ → Prop} {f g : Frame κ ι ε} {rest : List (Frame κ ι ε)}

/-- All requests below the newest one compile, and hold no lock. -/
theorem Stacked.unlocked_below (h : Stacked r (f :: rest)) (hg : g ∈ rest) : g.locked = false :=
  (h.tidy g (List.mem_cons_of_mem _ hg)).unlocked
    (.inl ((List.pairwise_cons.mp h.above).1 g hg).1)

/-- A request can be put on an idle stack, and on one that compiles if it is for a key below. -/
theorem Stacked.request {stack : List (Frame κ ι ε)} (h : Stacked r stack) {goal : Goal} {key : κ}
    (hcan : State.canRequest stack = true)
    (hd : (Move.request goal key : Move κ ι ε).Descends r stack) :
    Stacked r (.new goal key :: stack) := by
  refine ⟨fun g hg ↦ ?_, List.pairwise_cons.mpr ⟨fun g hg ↦ ?_, h.above⟩⟩
  · rcases List.mem_cons.mp hg with rfl | hg
    · exact ⟨fun hl ↦ (by cases hl), fun _ ↦ rfl⟩
    · exact h.tidy g hg
  · cases stack with
    | nil => cases hg
    | cons f rest =>
      have hf : f.isCompiling = true := hcan
      have hkey (ho : goal = .obtain) : r key f.key := by
        subst ho
        exact hd f rfl
      rcases List.mem_cons.mp hg with rfl | hg
      · exact ⟨hf, fun ho ↦ .single (hkey ho)⟩
      · obtain ⟨hgc, hbelow⟩ := (List.pairwise_cons.mp h.above).1 g hg
        have hgoal := (h.tidy f (List.mem_cons_self ..)).goal_eq hf
        exact ⟨hgc, fun ho ↦ .head (hkey ho) (hbelow hgoal)⟩

variable [DecidableEq κ] {caller : Nat} {free : Bool} {c c' : Cache κ ι ε}
  {next : Option (Frame κ ι ε)} {record : List (Occurrence κ ι ε)}

/-- A request that has moved on is tidy. -/
theorem Frame.Tidy.advance {n : Frame κ ι ε} (h : f.Tidy)
    (hm : f.Moves caller free c c' (some n) record) : n.Tidy := by
  have hobtain (phase : Phase ι ε) (hp : f.phase ≠ .lookup) : (f.goTo phase).Tidy :=
    ⟨fun hl ↦ (by cases hl), fun hg ↦ absurd (h.peek hg) hp⟩
  cases hm with
  | lock hn => exact ⟨fun _ ↦ hn, h.peek⟩
  | find i hp hl hg | miss hp hl hg =>
    exact ⟨fun hl ↦ (by cases hl), fun hpeek ↦ (by cases hg.symm.trans hpeek)⟩
  | countHit i hp | countMiss hp | claim hp | start slot hp | share slot outcome hp
  | settle slot outcome hp | countSuccess slot i hp | countFailure slot e hp
  | remove slot e hp => exact hobtain _ (by simp [hp])

/-- A stack on which the newest request has moved on is still in order. -/
theorem Stacked.moves (h : Stacked r (f :: rest))
    (hm : f.Moves caller free c c' next record) : Stacked r (next.toList ++ rest) := by
  obtain ⟨htop, hrest⟩ := List.pairwise_cons.mp h.above
  have htidy (g) (hg : g ∈ rest) : g.Tidy := h.tidy g (List.mem_cons_of_mem _ hg)
  cases next with
  | none => exact ⟨htidy, hrest⟩
  | some n =>
    refine ⟨fun g hg ↦ ?_, List.pairwise_cons.mpr ⟨fun g hg ↦ ?_, hrest⟩⟩
    · rcases List.mem_cons.mp hg with rfl | hg
      · exact (h.tidy f (List.mem_cons_self ..)).advance hm
      · exact htidy g hg
    · rw [Frame.Above, hm.key_next, hm.goal_next]
      exact htop g hg

/-- A request that holds the lock it needs can make its step. -/
theorem Frame.proceed_of_locked (hneeds : f.phase.NeedsLock) (hl : f.locked = true) :
    ∃ p, f.proceed caller free c = some p := by
  cases hp : f.phase with
  | lookup | claim | remove => simp [proceed, hp, withLock, hl]
  | countHit | countMiss | enter | compile | count | answer => simp [hp, Phase.NeedsLock] at hneeds

/-- When the lock is free a request can make its step, unless it waits for its own compilation or
for that of another one. -/
theorem Frame.proceed_of_free (f : Frame κ ι ε) (c : Cache κ ι ε) (caller : Nat) :
    (∃ p, f.proceed caller true c = some p) ∨ f.isCompiling = true ∨
      ∃ slot, f.phase = .enter slot ∧ c.cellAt slot = .running := by
  cases hp : f.phase with
  | lookup | claim | remove =>
    refine .inl ?_
    cases hl : f.locked <;> simp [proceed, hp, withLock, hl]
  | countHit | countMiss | count | answer => exact .inl (by simp [proceed, hp])
  | compile slot => exact .inr (.inl (by simp [isCompiling, hp]))
  | enter slot =>
    cases hc : c.cellAt slot with
    | running => exact .inr (.inr ⟨slot, rfl, hc⟩)
    | empty | done => exact .inl (by simp [proceed, hp, hc])

end Stack

namespace State

variable [DecidableEq κ] {r : κ → κ → Prop} {shard : κ → Nat} {s t : State κ ι ε}

/-- Every step that descends keeps the stacks of all callers in order. -/
theorem stacked_step {caller : Nat} {move : Move κ ι ε}
    (hs : ∀ stack ∈ s.callers, Stacked r stack)
    (hd : move.Descends r (s.callers[caller]?.getD [])) (h : s.step shard caller move = some t) :
    ∀ stack ∈ t.callers, Stacked r stack := by
  intro stack hstack
  rcases step_stack_cases h with ⟨goal, key, old, rfl, hold, hcan, -, ht, -⟩ |
    ⟨f, rest, next, record, hold, hm, ht, -⟩
  · rw [ht] at hstack
    rcases List.mem_or_eq_of_mem_set hstack with hsame | rfl
    · exact hs stack hsame
    · rw [hold] at hd
      exact (hs old (List.mem_of_getElem? hold)).request hcan hd
  · rw [ht] at hstack
    rcases List.mem_or_eq_of_mem_set hstack with hsame | rfl
    · exact hs stack hsame
    · exact (hs _ (List.mem_of_getElem? hold)).moves hm

/-- Every run that descends keeps the stacks of all callers in order. -/
theorem stacked_run {moves : List (Nat × Move κ ι ε)} (hs : ∀ stack ∈ s.callers, Stacked r stack)
    (hd : s.Descending r shard moves) (h : s.run shard moves = some t) :
    ∀ stack ∈ t.callers, Stacked r stack := by
  induction moves generalizing s with
  | nil =>
    obtain rfl : s = t := by simpa [run] using h
    exact hs
  | cons m moves ih =>
    obtain ⟨caller, move⟩ := m
    obtain ⟨hmove, hrest⟩ := hd
    simp only [run, Option.bind_eq_some_iff] at h
    obtain ⟨u, hu, ht⟩ := h
    exact ih (stacked_step hs hmove hu) (hrest u hu) ht

/-- The newest request of a caller can go on: it makes its next step, or it compiles and its
compilation can end with any outcome. -/
def CanGoOn (shard : κ → Nat) (s : State κ ι ε) (caller : Nat) : Prop :=
  (∃ t, s.step shard caller .proceed = some t) ∨
    ∀ outcome, ∃ t, s.step shard caller (.finish outcome) = some t

/-- A caller whose newest request can make its step can go on. -/
theorem canGoOn_of_proceed {caller : Nat} {f : Frame κ ι ε} {rest : List (Frame κ ι ε)}
    (hstack : s.callers[caller]? = some (f :: rest))
    (h : ∃ p, f.proceed caller (s.isFree shard (shard f.key)) s.cache = some p) :
    s.CanGoOn shard caller := by
  obtain ⟨p, hp⟩ := h
  exact .inl ⟨_, by simp only [step, hstack, hp]; rfl⟩

/-- A caller whose newest request compiles can go on. -/
theorem canGoOn_of_isCompiling {caller : Nat} {f : Frame κ ι ε} {rest : List (Frame κ ι ε)}
    (hstack : s.callers[caller]? = some (f :: rest)) (h : f.isCompiling = true) :
    s.CanGoOn shard caller := by
  refine .inr fun outcome ↦ ?_
  cases hp : f.phase with
  | compile slot => exact ⟨_, by simp only [step, hstack, hp]; rfl⟩
  | _ => simp [Frame.isCompiling, hp] at h

/-- A request that waits for a cell waits for one for the same key that compiles. -/
theorem exists_compiling (hs : Consistent s.cache s.frames) (ha : Attended s.cache s.frames)
    {f : Frame κ ι ε} (hf : f ∈ s.frames) {slot : Nat} (hp : f.phase = .enter slot)
    (hc : s.cache.cellAt slot = .running) :
    ∃ g ∈ s.frames, g.key = f.key ∧ g.isCompiling = true := by
  have hsound := hs.sound f hf
  simp only [Frame.Sound, hp] at hsound
  have hm : (f.key, slot) ∈ s.cache.table := hsound.2.mem_table (by simp [hc])
  rcases ha _ hm with ⟨i, hi⟩ | ⟨g, hg, hattends⟩
  · simp [hc] at hi
  · refine ⟨g, hg, (hs.sound g hg).key_eq hs.wf hm hattends, ?_⟩
    rw [hc] at hattends
    have hcompile : g.phase = .compile slot := hattends
    simp [Frame.isCompiling, hcompile]

/-- While nobody holds a lock, every request that has not been answered can go on, or waits for one
that is further down and can go on. -/
theorem exists_canGoOn_of_free (hwf : WellFounded r) (hs : Consistent s.cache s.frames)
    (ha : Attended s.cache s.frames) (hstacks : ∀ stack ∈ s.callers, Stacked r stack)
    (hfree : ∀ n, s.isFree shard n = true) {caller : Nat} {f : Frame κ ι ε}
    {rest : List (Frame κ ι ε)} (hstack : s.callers[caller]? = some (f :: rest)) :
    ∃ n, (∃ g below, s.callers[n]? = some (g :: below)) ∧ s.CanGoOn shard n := by
  -- The induction is on the key: a caller that waits for another one waits for a key further down.
  induction hkey : f.key using hwf.transGen.induction generalizing caller f rest with
  | _ key ih =>
    subst hkey
    rcases f.proceed_of_free s.cache caller with hgo | hgo | ⟨slot, hp, hc⟩
    · refine ⟨caller, ⟨f, rest, hstack⟩, canGoOn_of_proceed hstack ?_⟩
      rw [hfree]
      exact hgo
    · exact ⟨caller, ⟨f, rest, hstack⟩, canGoOn_of_isCompiling hstack hgo⟩
    · obtain ⟨g, hg, hkey, hcompiling⟩ :=
        exists_compiling hs ha (mem_frames hstack (List.mem_cons_self ..)) hp hc
      obtain ⟨n, top, below, hn, hgstack⟩ := exists_stack hg
      have htop := hstacks _ (List.mem_of_getElem? hn)
      rcases List.mem_cons.mp hgstack with rfl | hbelow
      · exact ⟨n, ⟨g, below, hn⟩, canGoOn_of_isCompiling hn hcompiling⟩
      · cases hgoal : top.goal with
        | obtain =>
          have hlt := ((List.pairwise_cons.mp htop.above).1 g hbelow).2 hgoal
          rw [hkey] at hlt
          exact ih top.key hlt hn rfl
        | peek =>
          have hlookup := (htop.tidy top (List.mem_cons_self ..)).peek hgoal
          rcases top.proceed_of_free s.cache n with hgo | hgo | ⟨slot, hp, -⟩
          · refine ⟨n, ⟨top, below, hn⟩, canGoOn_of_proceed hn ?_⟩
            rw [hfree]
            exact hgo
          · simp [Frame.isCompiling, hlookup] at hgo
          · simp [hlookup] at hp

/-- A request that holds a lock is the newest of its caller, and can make its step. -/
theorem exists_canGoOn_of_locked (hstacks : ∀ stack ∈ s.callers, Stacked r stack)
    {f : Frame κ ι ε} (hf : f ∈ s.frames) (hl : f.locked = true) :
    ∃ n, (∃ g below, s.callers[n]? = some (g :: below)) ∧ s.CanGoOn shard n := by
  obtain ⟨n, top, below, hn, hfstack⟩ := exists_stack hf
  have hstacked := hstacks _ (List.mem_of_getElem? hn)
  rcases List.mem_cons.mp hfstack with rfl | hbelow
  · have hneeds := (hstacked.tidy f hfstack).locked hl
    exact ⟨n, ⟨f, below, hn⟩, canGoOn_of_proceed hn (Frame.proceed_of_locked hneeds hl)⟩
  · rw [hstacked.unlocked_below hbelow] at hl
    cases hl

omit [DecidableEq κ] in
/-- As long as no request holds a lock every lock is free. -/
theorem isFree_of_unlocked (h : ∀ f ∈ s.frames, f.locked ≠ true) (n : Nat) :
    s.isFree shard n = true := by
  simp only [isFree, List.all_eq_true]
  intro stack hstack f hf
  simp [h f (List.mem_flatten_of_mem hstack hf)]

/-- When some request has not been answered, the newest of some caller can go on. -/
theorem exists_canGoOn (hwf : WellFounded r) (hs : Consistent s.cache s.frames)
    (ha : Attended s.cache s.frames) (hstacks : ∀ stack ∈ s.callers, Stacked r stack)
    (hne : s.frames ≠ []) :
    ∃ n, (∃ f below, s.callers[n]? = some (f :: below)) ∧ s.CanGoOn shard n := by
  by_cases hl : ∃ f ∈ s.frames, f.locked = true
  · obtain ⟨f, hf, hlocked⟩ := hl
    exact exists_canGoOn_of_locked hstacks hf hlocked
  · have hfree : ∀ n, s.isFree shard n = true :=
      isFree_of_unlocked fun f hf hlocked ↦ hl ⟨f, hf, hlocked⟩
    obtain ⟨f, hf⟩ := List.exists_mem_of_ne_nil _ hne
    obtain ⟨n, top, below, hn, -⟩ := exists_stack hf
    exact exists_canGoOn_of_free hwf hs ha hstacks hfree hn

/-- While compilations ask to obtain only what is below their own keys in a well-founded order,
there is no deadlock: in every state that a run leads to, if some request has not been answered then
the newest of some caller can go on. A request that compiles or waits for a cell holds no lock, and
while the newest of a caller does so the caller holds none at all. -/
theorem progress (hwf : WellFounded r) {callers : Nat} {moves : List (Nat × Move κ ι ε)}
    (hd : (start .empty callers).Descending r shard moves)
    (h : (start .empty callers).run shard moves = some t) :
    (t.frames ≠ [] → ∃ n, (∃ f below, t.callers[n]? = some (f :: below)) ∧ t.CanGoOn shard n) ∧
    (∀ f ∈ t.frames, (f.isCompiling = true ∨ ∃ slot, f.phase = .enter slot) → f.locked = false) ∧
    ∀ (n : Nat) (f : Frame κ ι ε) (below : List (Frame κ ι ε)),
      t.callers[n]? = some (f :: below) → (f.isCompiling = true ∨ ∃ slot, f.phase = .enter slot) →
        ∀ g ∈ f :: below, g.locked = false := by
  have hstacks : ∀ stack ∈ t.callers, Stacked r stack := by
    refine stacked_run (fun stack hstack ↦ ?_) hd h
    obtain rfl : stack = [] := List.eq_of_mem_replicate hstack
    exact ⟨fun f hf ↦ (by cases hf), List.Pairwise.nil⟩
  refine ⟨exists_canGoOn hwf (consistent_run h).1 (attended_run h) hstacks, fun f hf hw ↦ ?_,
    fun n f below hn hw g hg ↦ ?_⟩
  · obtain ⟨n, top, below, hn, hfstack⟩ := exists_stack hf
    exact ((hstacks _ (List.mem_of_getElem? hn)).tidy f hfstack).unlocked hw
  · have hstack := hstacks _ (List.mem_of_getElem? hn)
    rcases List.mem_cons.mp hg with rfl | hbelow
    · exact (hstack.tidy g hg).unlocked hw
    · exact hstack.unlocked_below hbelow

/-- While the second caller compiles for a key and, for that, for one further down, the first one
compiles for a key further up, asks for the former, and waits. -/
def nestedMoves : List (Nat × Move Nat Nat String) :=
  (1, .request .obtain 3) :: List.replicate 6 (1, Move.proceed) ++
    (0, .request .obtain 5) :: List.replicate 6 (0, Move.proceed) ++
    (0, .request .obtain 3) :: List.replicate 5 (0, Move.proceed) ++
    (1, .request .obtain 1) :: List.replicate 6 (1, Move.proceed)

/-- The first caller cannot go on, although no lock is held, but one of the two can. All keys are in
one shard. -/
theorem progress_nestedMoves :
    ∃ t, (start (.empty : Cache Nat Nat String) 2).run (fun _ ↦ 0) nestedMoves = some t ∧
      t.step (fun _ ↦ 0) 0 .proceed = none ∧ (t.callers.map List.length) = [2, 2] ∧
      (∃ n, (∃ f below, t.callers[n]? = some (f :: below)) ∧ t.CanGoOn (fun _ ↦ 0) n) := by
  have h : ∃ t, (start (.empty : Cache Nat Nat String) 2).run (fun _ ↦ 0) nestedMoves = some t ∧
      t.step (fun _ ↦ 0) 0 .proceed = none ∧ (t.callers.map List.length) = [2, 2] :=
    ⟨_, rfl, rfl, rfl⟩
  obtain ⟨t, hrun, hwaits, hcallers⟩ := h
  have hne : t.frames ≠ [] := by
    intro hnil
    have hlength : t.frames.length = 4 := by
      rw [frames, List.length_flatten, hcallers]
      rfl
    simp [hnil] at hlength
  have hd : (start (.empty : Cache Nat Nat String) 2).Descending (· < ·) (fun _ ↦ 0)
      nestedMoves := by
    decide
  exact ⟨t, hrun, hwaits, hcallers, (progress Nat.lt_wfRel.wf hd hrun).1 hne⟩

/-- A compilation that asks for its own key waits for itself. -/
example : ∃ t, (start (.empty : Cache Nat Nat String) 1).run id
      ((0, .request .obtain 7) :: List.replicate 6 (0, .proceed) ++
        (0, .request .obtain 7) :: List.replicate 5 (0, .proceed)) = some t ∧
    t.step id 0 .proceed = none ∧ ∀ outcome, t.step id 0 (.finish outcome) = none :=
  ⟨_, rfl, rfl, fun _ ↦ rfl⟩

end State
end Invocation.Cache.Interleaving
