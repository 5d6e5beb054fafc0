import Invocation.Cache.Interleaving

/-!
# What a step can do

Every step of a caller either makes a new request or moves its newest request on. `Frame.Moves`
lists all the ways a request can move on, with what must be the case for each, and
`State.step_cases` says that there are no others. Which caller it is matters only for the record:
the requests of all callers together (`State.frames`) change in the one request that moves.
-/

namespace Invocation.Cache.Interleaving

/-- What is in all lists together is what is in one of them and what is in the others; the latter
stays when the one is replaced. -/
theorem exists_others {α : Type} {lists : List (List α)} {n : Nat} {list : List α}
    (h : lists[n]? = some list) :
    ∃ others : List α, lists.flatten.Perm (list ++ others) ∧
      ∀ list', (lists.set n list').flatten.Perm (list' ++ others) := by
  obtain ⟨hl, hs⟩ := List.getElem?_eq_some_iff.mp h
  have hsplit (list') : (lists.set n list').flatten.Perm
      (list' ++ ((lists.take n).flatten ++ (lists.drop (n + 1)).flatten)) := by
    rw [List.set_eq_take_append_cons_drop, if_pos hl, List.flatten_append, List.flatten_cons]
    exact List.perm_append_comm_assoc ..
  refine ⟨(lists.take n).flatten ++ (lists.drop (n + 1)).flatten, ?_, hsplit⟩
  have hset : lists.set n list = lists := by
    rw [← hs]
    exact List.set_getElem_self hl
  have hperm := hsplit list
  rwa [hset] at hperm

variable {κ ι ε : Type}

namespace State

/-- The requests of all callers that have not been answered. -/
def frames (s : State κ ι ε) : List (Frame κ ι ε) := s.callers.flatten

variable {s : State κ ι ε} {f : Frame κ ι ε}

/-- A request of a caller is one of all. -/
theorem mem_frames {n : Nat} {stack : List (Frame κ ι ε)} (hstack : s.callers[n]? = some stack)
    (hf : f ∈ stack) : f ∈ s.frames :=
  List.mem_flatten_of_mem (List.mem_of_getElem? hstack) hf

/-- Every request is one of a caller, which has a newest one. -/
theorem exists_stack (hf : f ∈ s.frames) :
    ∃ (n : Nat) (top : Frame κ ι ε) (below : List (Frame κ ι ε)),
      s.callers[n]? = some (top :: below) ∧ f ∈ top :: below := by
  obtain ⟨stack, hstack, hf⟩ := List.mem_flatten.mp hf
  obtain ⟨n, hn⟩ := List.mem_iff_getElem?.mp hstack
  cases stack with
  | nil => cases hf
  | cons top below => exact ⟨n, top, below, hn, hf⟩

end State

/-- The phases at which a request takes the lock of its key's shard. -/
def Phase.NeedsLock : Phase ι ε → Prop
  | .lookup | .claim | .remove .. => True
  | _ => False

/-- How a request of a caller can move on, with a cache and with the lock that it may need: the
cache afterwards, the request afterwards unless it is answered, and the record. -/
inductive Frame.Moves [DecidableEq κ] (caller : Nat) (free : Bool) (c : Cache κ ι ε)
    (f : Frame κ ι ε) : Cache κ ι ε → Option (Frame κ ι ε) → List (Occurrence κ ι ε) → Prop
  | lock : f.phase.NeedsLock → f.locked = false → free = true →
    Moves caller free c f c (some { f with locked := true }) []
  | peek : f.phase = .lookup → f.locked = true → f.goal = .peek →
    Moves caller free c f c none [.peeked caller f.key (c.lookup f.key)]
  | find (i : ι) : f.phase = .lookup → f.locked = true → f.goal = .obtain →
    c.lookup f.key = some i → Moves caller free c f c (some (f.goTo (.countHit i))) []
  | miss : f.phase = .lookup → f.locked = true → f.goal = .obtain → c.lookup f.key = none →
    Moves caller free c f c (some (f.goTo .countMiss)) []
  | countHit (i : ι) : f.phase = .countHit i →
    Moves caller free c f c.countHit (some (f.goTo (.answer (.ok i) none))) []
  | countMiss : f.phase = .countMiss → Moves caller free c f c.countMiss (some (f.goTo .claim)) []
  | claim : f.phase = .claim → f.locked = true →
    Moves caller free c f (c.claim f.key).2 (some (f.goTo (.enter (c.claim f.key).1))) []
  | start (slot : Nat) : f.phase = .enter slot → c.cellAt slot = .empty →
    Moves caller free c f (c.start slot) (some (f.goTo (.compile slot))) [.began caller f.key slot]
  | share (slot : Nat) (outcome : Except ε ι) : f.phase = .enter slot →
    c.cellAt slot = .done outcome →
    Moves caller free c f c (some (f.goTo (.answer outcome (some slot)))) []
  | settle (slot : Nat) (outcome : Except ε ι) : f.phase = .compile slot →
    Moves caller free c f (c.settle slot outcome) (some (f.goTo (.count slot outcome)))
      [.ended caller f.key slot outcome]
  | countSuccess (slot : Nat) (i : ι) : f.phase = .count slot (.ok i) →
    Moves caller free c f (c.countOutcome (.ok i)) (some (f.goTo (.answer (.ok i) (some slot)))) []
  | countFailure (slot : Nat) (e : ε) : f.phase = .count slot (.error e) →
    Moves caller free c f (c.countOutcome (.error e)) (some (f.goTo (.remove slot e))) []
  | remove (slot : Nat) (e : ε) : f.phase = .remove slot e → f.locked = true →
    Moves caller free c f (c.removeIfSame f.key slot)
      (some (f.goTo (.answer (.error e) (some slot)))) []
  | answer (outcome : Except ε ι) (source : Option Nat) : f.phase = .answer outcome source →
    Moves caller free c f c none [.answered caller f.key outcome source]

/-- A step that needs the lock takes it if it is free, and does its work once it has it. -/
theorem Frame.withLock_eq_some {α : Type} {f : Frame κ ι ε} {free : Bool} {take : Frame κ ι ε → α}
    {work x : α} (h : f.withLock free take work = some x) :
    f.locked = true ∧ x = work ∨
      f.locked = false ∧ free = true ∧ x = take { f with locked := true } := by
  unfold withLock at h
  cases hl : f.locked with
  | true => exact .inl ⟨rfl, by simpa [hl] using h.symm⟩
  | false =>
    cases free with
    | true => exact .inr ⟨rfl, rfl, by simpa [hl] using h.symm⟩
    | false => simp [hl] at h

variable [DecidableEq κ]

/-- A request that makes its next step moves on in one of the ways there are. -/
theorem Frame.moves_of_proceed {caller : Nat} {free : Bool} {c : Cache κ ι ε} {f : Frame κ ι ε}
    {next : Progress κ ι ε} (h : f.proceed caller free c = some next) :
    f.Moves caller free c next.cache next.frame next.record := by
  unfold proceed at h
  cases hp : f.phase with
  | lookup =>
    simp only [hp] at h
    rcases withLock_eq_some h with ⟨hl, rfl⟩ | ⟨hl, hf, rfl⟩
    · cases hg : f.goal with
      | peek => exact .peek hp hl hg
      | obtain =>
        cases hc : c.lookup f.key with
        | some i => exact .find i hp hl hg hc
        | none => exact .miss hp hl hg hc
    · exact .lock (by rw [hp]; trivial) hl hf
  | countHit i =>
    simp only [hp, Option.some.injEq] at h
    subst h
    exact .countHit i hp
  | countMiss =>
    simp only [hp, Option.some.injEq] at h
    subst h
    exact .countMiss hp
  | claim =>
    simp only [hp] at h
    rcases withLock_eq_some h with ⟨hl, rfl⟩ | ⟨hl, hf, rfl⟩
    · exact .claim hp hl
    · exact .lock (by rw [hp]; trivial) hl hf
  | enter slot =>
    simp only [hp] at h
    cases hc : c.cellAt slot with
    | empty =>
      simp only [hc, Option.some.injEq] at h
      subst h
      exact .start slot hp hc
    | running => simp [hc] at h
    | done outcome =>
      simp only [hc, Option.some.injEq] at h
      subst h
      exact .share slot outcome hp hc
  | compile slot => simp [hp] at h
  | count slot outcome =>
    simp only [hp, Option.some.injEq] at h
    subst h
    cases outcome with
    | ok i => exact .countSuccess slot i hp
    | error e => exact .countFailure slot e hp
  | remove slot e =>
    simp only [hp] at h
    rcases withLock_eq_some h with ⟨hl, rfl⟩ | ⟨hl, hf, rfl⟩
    · exact .remove slot e hp hl
    · exact .lock (by rw [hp]; trivial) hl hf
  | answer outcome source =>
    simp only [hp, Option.some.injEq] at h
    subst h
    exact .answer outcome source hp

/-- A request keeps its key. -/
theorem Frame.Moves.key_next {caller : Nat} {free : Bool} {c c' : Cache κ ι ε} {f n : Frame κ ι ε}
    {record : List (Occurrence κ ι ε)} (h : f.Moves caller free c c' (some n) record) :
    n.key = f.key := by
  cases h <;> rfl

/-- A request stays after what it is after. -/
theorem Frame.Moves.goal_next {caller : Nat} {free : Bool} {c c' : Cache κ ι ε} {f n : Frame κ ι ε}
    {record : List (Occurrence κ ι ε)} (h : f.Moves caller free c c' (some n) record) :
    n.goal = f.goal := by
  cases h <;> rfl

namespace State

/-- A step of a caller puts a new request on its stack, if it is idle or compiles, or moves the
newest one on. -/
theorem step_stack_cases {shard : κ → Nat} {s t : State κ ι ε} {caller : Nat} {move : Move κ ι ε}
    (h : s.step shard caller move = some t) :
    (∃ goal key stack, move = .request goal key ∧ s.callers[caller]? = some stack ∧
      canRequest stack = true ∧ t.cache = s.cache ∧
      t.callers = s.callers.set caller (.new goal key :: stack) ∧
      t.history = .asked caller goal key :: s.history) ∨
    ∃ f rest next record, s.callers[caller]? = some (f :: rest) ∧
      f.Moves caller (s.isFree shard (shard f.key)) s.cache t.cache next record ∧
      t.callers = s.callers.set caller (next.toList ++ rest) ∧
      t.history = record ++ s.history := by
  cases hs : s.callers[caller]? with
  | none => cases move <;> simp [step, hs] at h
  | some stack =>
    cases move with
    | request goal key =>
      simp only [step, hs] at h
      split at h
      · next hcan =>
        cases h
        exact .inl ⟨goal, key, stack, rfl, rfl, hcan, rfl, rfl, rfl⟩
      · cases h
    | proceed =>
      cases stack with
      | nil => simp [step, hs] at h
      | cons f rest =>
        simp only [step, hs] at h
        cases hp : f.proceed caller (s.isFree shard (shard f.key)) s.cache with
        | none => simp [hp] at h
        | some next =>
          simp only [hp, Option.some.injEq] at h
          subst h
          exact .inr ⟨f, rest, next.frame, next.record, rfl, Frame.moves_of_proceed hp, rfl, rfl⟩
    | finish outcome =>
      cases stack with
      | nil => simp [step, hs] at h
      | cons f rest =>
        simp only [step, hs] at h
        cases hp : f.phase with
        | compile slot =>
          simp only [hp, Option.some.injEq] at h
          subst h
          exact .inr ⟨f, rest, some _, _, rfl, .settle slot outcome hp, rfl, rfl⟩
        | _ => simp [hp] at h

/-- A step of a caller is a new request, or its newest request moves on. -/
theorem step_cases {shard : κ → Nat} {s t : State κ ι ε} {caller : Nat} {move : Move κ ι ε}
    (h : s.step shard caller move = some t) :
    (∃ goal key, t.cache = s.cache ∧ t.frames.Perm (.new goal key :: s.frames) ∧
      t.history = .asked caller goal key :: s.history) ∨
    ∃ f others next record,
      f.Moves caller (s.isFree shard (shard f.key)) s.cache t.cache next record ∧
      s.frames.Perm (f :: others) ∧ t.frames.Perm (next.toList ++ others) ∧
      t.history = record ++ s.history := by
  rcases step_stack_cases h with ⟨goal, key, stack, -, hs, -, hc, ht, hh⟩ |
    ⟨f, rest, next, record, hs, hm, ht, hh⟩
  · obtain ⟨others, hperm, hset⟩ := exists_others hs
    refine .inl ⟨goal, key, hc, ?_, hh⟩
    rw [frames, ht]
    exact (hset _).trans (hperm.symm.cons _)
  · obtain ⟨others, hperm, hset⟩ := exists_others hs
    refine .inr ⟨f, rest ++ others, next, record, hm, hperm, ?_, hh⟩
    rw [frames, ht, ← List.append_assoc]
    exact hset _

/-- What holds at first and is kept by every step holds after every run. -/
theorem run_induction {shard : κ → Nat} {P : State κ ι ε → Prop} {s t : State κ ι ε}
    (keep : ∀ s t caller move, P s → s.step shard caller move = some t → P t) (hs : P s)
    {moves : List (Nat × Move κ ι ε)} (h : s.run shard moves = some t) : P t := by
  induction moves generalizing s with
  | nil =>
    obtain rfl : s = t := by simpa [run] using h
    exact hs
  | cons m moves ih =>
    obtain ⟨caller, move⟩ := m
    simp only [run, Option.bind_eq_some_iff] at h
    obtain ⟨u, hu, ht⟩ := h
    exact ih (keep s u caller move hs hu) ht

end State
end Invocation.Cache.Interleaving
