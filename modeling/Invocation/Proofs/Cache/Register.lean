import Invocation.Proofs.Cache.Attendance

/-!
# The register of requests

The record of a cache in use tells of every request when it was made, which cell it compiled for,
and when and with what it was answered. `State.register` reads this off the record, caller by
caller: what happens to a caller happens to its newest request. The stacks of the register are those
of the callers (`Tracks`), and every step changes both in the same request (`Tracks.step_cases`).
-/

namespace Invocation.Cache.Interleaving

variable {κ ι ε : Type}

/-- What the record tells of a request before its answer. -/
structure Visit (κ : Type) where
  goal : Goal
  key : κ
  /-- How much had been recorded when it was made. -/
  made : Nat
  /-- The cell that it compiled for, if it did. -/
  compiled : Option Nat

/-- A request to obtain that was answered. -/
structure Answer (κ ι ε : Type) where
  visit : Visit κ
  /-- How much had been recorded when it was answered. -/
  given : Nat
  outcome : Except ε ι
  /-- The cell that the outcome came from, unless it was ready at once. -/
  source : Option Nat

/-- What the record tells of all requests. -/
structure Register (κ ι ε : Type) where
  /-- Those that have not been answered: the stack of each caller, the newest first. -/
  visits : List (List (Visit κ))
  /-- The answers, the latest first. -/
  answers : List (Answer κ ι ε)

/-- The caller that something happened to. -/
def Occurrence.caller : Occurrence κ ι ε → Nat
  | .asked n .. | .began n .. | .ended n .. | .answered n .. | .peeked n .. => n

namespace Visit

/-- What is told of a request after something happened to it. -/
def note (v : Visit κ) : Occurrence κ ι ε → Visit κ
  | .began _ _ slot => { v with compiled := some slot }
  | _ => v

/-- The answer to a request, if that is what happened. -/
def answer? (v : Visit κ) (now : Nat) : Occurrence κ ι ε → Option (Answer κ ι ε)
  | .answered _ _ outcome source => some ⟨v, now, outcome, source⟩
  | _ => none

/-- What is told of the requests of a caller after something happened to it. -/
def noteNewest (now : Nat) (o : Occurrence κ ι ε) (stack : List (Visit κ)) : List (Visit κ) :=
  match o, stack with
  | .asked _ goal key, stack => ⟨goal, key, now, none⟩ :: stack
  | .began .., v :: rest | .ended .., v :: rest => v.note o :: rest
  | .answered .., _ :: rest | .peeked .., _ :: rest => rest
  | _, [] => []

end Visit

namespace Register

/-- What is told of the requests of a caller. -/
def stackOf (r : Register κ ι ε) (caller : Nat) : List (Visit κ) := r.visits[caller]?.getD []

/-- Something happened, after so much else. -/
def note (now : Nat) (r : Register κ ι ε) (o : Occurrence κ ι ε) : Register κ ι ε :=
  ⟨r.visits.set o.caller (Visit.noteNewest now o (r.stackOf o.caller)),
    ((r.stackOf o.caller).head?.bind (·.answer? now o)).toList ++ r.answers⟩

/-- What a record tells of the requests of so many callers. -/
def ofHistory (callers : Nat) : List (Occurrence κ ι ε) → Register κ ι ε
  | [] => ⟨List.replicate callers [], []⟩
  | o :: earlier => (ofHistory callers earlier).note earlier.length o

end Register

/-- What the record tells of the requests. -/
def State.register (s : State κ ι ε) : Register κ ι ε :=
  .ofHistory s.callers.length s.history

/-- How far a request has come, and what the register tells of it. -/
abbrev Course (κ ι ε : Type) := Phase ι ε × Visit κ

/-- A request that was answered has come to its answer. -/
def Answer.course (a : Answer κ ι ε) : Course κ ι ε := (.answer a.outcome a.source, a.visit)

/-- All requests that there were: those in flight and those that were answered. -/
def courses (inFlight : List (Frame κ ι ε × Visit κ)) (answers : List (Answer κ ι ε)) :
    List (Course κ ι ε) :=
  inFlight.map (fun p ↦ (p.1.phase, p.2)) ++ answers.map Answer.course

/-- What the register tells of a request agrees with how far it has come. -/
structure Course.Fits (q : Course κ ι ε) : Prop where
  /-- Only a request to obtain gets beyond its lookup. -/
  goal : q.1 ≠ .lookup → q.2.goal = .obtain
  compiled : match q.1 with
    | .compile slot | .count slot _ | .remove slot _ => q.2.compiled = some slot
    | .answer _ source => q.2.compiled = none ∨ q.2.compiled = source
    | _ => q.2.compiled = none
  /-- What comes from no cell was ready. -/
  ready : ∀ outcome, q.1 = .answer outcome none → ∃ i, outcome = .ok i

/-- What happens to a request changes neither what it is after nor when it was made. -/
theorem Visit.foldl_note (v : Visit κ) (record : List (Occurrence κ ι ε)) :
    (record.foldl note v).goal = v.goal ∧ (record.foldl note v).made = v.made := by
  induction record generalizing v with
  | nil => exact ⟨rfl, rfl⟩
  | cons o record ih =>
    have h : (v.note o).goal = v.goal ∧ (v.note o).made = v.made := by cases o <;> exact ⟨rfl, rfl⟩
    exact ⟨(ih _).1.trans h.1, (ih _).2.trans h.2⟩

/-- Each request that has not been answered, with what the register tells of it. -/
structure Tracks (s : State κ ι ε) (tracked : List (List (Frame κ ι ε × Visit κ))) : Prop where
  callers : s.callers = tracked.map (·.map Prod.fst)
  visits : s.register.visits = tracked.map (·.map Prod.snd)

/-- Writing what is there already changes nothing. -/
theorem set_of_getElem? {α : Type} {l : List α} {n : Nat} {a : α} (h : l[n]? = some a) :
    l.set n a = l := by
  obtain ⟨hl, rfl⟩ := List.getElem?_eq_some_iff.mp h
  exact List.set_getElem_self hl

variable {s : State κ ι ε} {tracked : List (List (Frame κ ι ε × Visit κ))} {caller : Nat}

/-- What the register tells of the requests of a caller is told of those on its stack. -/
theorem Tracks.stackOf_eq (hs : Tracks s tracked) {stack : List (Frame κ ι ε × Visit κ)}
    (h : tracked[caller]? = some stack) : s.register.stackOf caller = stack.map Prod.snd := by
  rw [Register.stackOf, hs.visits, List.getElem?_map, h]
  rfl

/-- Before the first request there is nothing to tell. -/
theorem Tracks.start (cache : Cache κ ι ε) (callers : Nat) :
    Tracks (State.start cache callers) (List.replicate callers []) := by
  constructor
  · simp [State.start]
  · simp [State.register, State.start, Register.ofHistory]

variable {next : Option (Frame κ ι ε)} {record : List (Occurrence κ ι ε)}

/-- How far a request has come after it has moved on, unless it was to peek and is answered. -/
def Visit.advance (v : Visit κ) (now : Nat) (next : Option (Frame κ ι ε))
    (record : List (Occurrence κ ι ε)) : List (Course κ ι ε) :=
  next.toList.map (fun n ↦ (n.phase, record.foldl note v)) ++
    (record.filterMap (v.answer? now)).map Answer.course

section Advance

variable (v : Visit κ) (now : Nat) (n : Frame κ ι ε) (k : Nat) (key : κ) (slot : Nat)
  (outcome : Except ε ι) (source : Option Nat) (found : Option ι)

@[simp] theorem advance_nil : v.advance now (some n) [] = [(n.phase, v)] := rfl

@[simp] theorem advance_began :
    v.advance now (some n) [.began k key slot] =
      [(n.phase, { v with compiled := some slot })] := rfl

@[simp] theorem advance_ended :
    v.advance now (some n) [.ended k key slot outcome] = [(n.phase, v)] := rfl

@[simp] theorem advance_answered :
    v.advance now none [.answered k key outcome source] = [(.answer outcome source, v)] := rfl

@[simp] theorem advance_peeked :
    v.advance now none [.peeked k key found] = ([] : List (Course κ ι ε)) := rfl

@[simp] theorem phase_goTo (phase : Phase ι ε) : (n.goTo phase).phase = phase := rfl

end Advance

/-- A request was made when it was made. -/
theorem Visit.made_of_mem_advance {v : Visit κ} {now : Nat} {q : Course κ ι ε}
    (hq : q ∈ v.advance now next record) : q.2.made = v.made := by
  rcases List.mem_append.mp hq with hq | hq
  · obtain ⟨n, -, rfl⟩ := List.mem_map.mp hq
    exact (v.foldl_note record).2
  · obtain ⟨a, ha, rfl⟩ := List.mem_map.mp hq
    obtain ⟨o, -, ho⟩ := List.mem_filterMap.mp ha
    cases o <;> simp only [answer?, reduceCtorEq, Option.some.injEq] at ho
    subst ho
    rfl

/-- When a request moves on, the others are where they were. -/
theorem courses_advance {v : Visit κ} {now : Nat} {others : List (Frame κ ι ε × Visit κ)}
    {answers : List (Answer κ ι ε)} :
    (courses (next.toList.map (·, record.foldl Visit.note v) ++ others)
      (record.filterMap (v.answer? now) ++ answers)).Perm
        (v.advance now next record ++ courses others answers) := by
  simp only [courses, Visit.advance, List.map_append, List.map_map, List.append_assoc,
    Function.comp_def]
  exact (List.perm_append_comm_assoc ..).append_left _

/-- Before the first request there was none. -/
theorem courses_start (cache : Cache κ ι ε) (callers : Nat) :
    courses (List.replicate callers ([] : List (Frame κ ι ε × Visit κ))).flatten
      (State.start cache callers).register.answers = [] := by
  simp [courses, State.register, State.start, Register.ofHistory]

variable [DecidableEq κ] {shard : κ → Nat} {t : State κ ι ε} {free : Bool} {c c' : Cache κ ι ε}
  {f : Frame κ ι ε}

/-- What is recorded when a request moves on happens to its caller, and the register keeps, changes
or drops the request as the caller does. -/
theorem Frame.Moves.record_cases (h : f.Moves caller free c c' next record) :
    record = [] ∧ next.isSome ∨
      ∃ o : Occurrence κ ι ε, record = [o] ∧ o.caller = caller ∧
        ∀ (now : Nat) (v : Visit κ) rest,
          Visit.noteNewest now o (v :: rest) = next.toList.map (fun _ ↦ v.note o) ++ rest := by
  cases h with
  | peek | start | settle | answer => exact .inr ⟨_, rfl, rfl, fun now v rest ↦ rfl⟩
  | lock | find | miss | countHit | countMiss | claim | share => exact .inl ⟨rfl, rfl⟩
  | countSuccess | countFailure | remove => exact .inl ⟨rfl, rfl⟩

/-- What the register tells after a request has moved on, where it was the newest of its caller. -/
theorem Register.ofHistory_moves {callers : Nat} {earlier : List (Occurrence κ ι ε)} {v : Visit κ}
    {rest : List (Visit κ)} (hm : f.Moves caller free c c' next record)
    (h : (ofHistory callers earlier).stackOf caller = v :: rest) :
    (ofHistory callers (record ++ earlier)).visits = (ofHistory callers earlier).visits.set caller
        (next.toList.map (fun _ ↦ record.foldl Visit.note v) ++ rest) ∧
      (ofHistory callers (record ++ earlier)).answers =
        record.filterMap (v.answer? earlier.length) ++ (ofHistory callers earlier).answers := by
  rcases hm.record_cases with ⟨rfl, hn⟩ | ⟨o, rfl, rfl, hnote⟩
  · obtain ⟨n, rfl⟩ := Option.isSome_iff_exists.mp hn
    have hstack : (ofHistory callers earlier).visits[caller]? = some (v :: rest) := by
      unfold stackOf at h
      cases hv : (ofHistory callers earlier).visits[caller]? with
      | none => simp [hv] at h
      | some stack => simpa [hv] using h
    exact ⟨(set_of_getElem? hstack).symm, rfl⟩
  · constructor
    · show ((ofHistory callers earlier).note earlier.length o).visits = _
      rw [note, h, hnote]
      rfl
    · show ((ofHistory callers earlier).note earlier.length o).answers = _
      rw [note, h]
      cases ho : v.answer? earlier.length o <;> simp [ho]

/-- A step puts a new request on a stack, of which the register tells when it was made, or moves the
newest request of a stack on, of which it tells what was recorded. -/
theorem Tracks.step_cases (hs : Tracks s tracked) {move : Move κ ι ε}
    (h : s.step shard caller move = some t) :
    (∃ goal key tracked', Tracks t tracked' ∧ t.cache = s.cache ∧
      tracked'.flatten.Perm
        ((.new goal key, ⟨goal, key, s.history.length, none⟩) :: tracked.flatten) ∧
      t.history = .asked caller goal key :: s.history ∧
      t.register.answers = s.register.answers) ∨
    ∃ f v others next record tracked',
      f.Moves caller (s.isFree shard (shard f.key)) s.cache t.cache next record ∧
      Tracks t tracked' ∧ tracked.flatten.Perm ((f, v) :: others) ∧
      tracked'.flatten.Perm (next.toList.map (·, record.foldl Visit.note v) ++ others) ∧
      t.history = record ++ s.history ∧
      t.register.answers =
        record.filterMap (v.answer? s.history.length) ++ s.register.answers := by
  rcases State.step_stack_cases h with ⟨goal, key, stack, -, hstack, -, hc, ht, hh⟩ |
    ⟨f, rest, next, record, hstack, hm, ht, hh⟩
  · rw [hs.callers, List.getElem?_map] at hstack
    obtain ⟨pairs, hpairs, rfl⟩ := Option.map_eq_some_iff.mp hstack
    obtain ⟨others, hperm, hset⟩ := exists_others hpairs
    have hstackOf := hs.stackOf_eq hpairs
    have hregister : t.register = s.register.note s.history.length (.asked caller goal key) := by
      rw [State.register, ht, hh, List.length_set]
      rfl
    refine .inl ⟨goal, key, tracked.set caller
      ((.new goal key, ⟨goal, key, s.history.length, none⟩) :: pairs), ⟨?_, ?_⟩, hc, ?_, hh, ?_⟩
    · rw [ht, hs.callers, List.map_set]
      rfl
    · rw [hregister, List.map_set, ← hs.visits, Register.note, Occurrence.caller, hstackOf]
      rfl
    · exact (hset _).trans (hperm.symm.cons _)
    · rw [hregister, Register.note]
      cases (s.register.stackOf caller).head? <;> simp [Occurrence.caller, Visit.answer?]
  · rw [hs.callers, List.getElem?_map] at hstack
    obtain ⟨pairs, hpairs, hcons⟩ := Option.map_eq_some_iff.mp hstack
    obtain ⟨⟨f, v⟩, rest, rfl, rfl, rfl⟩ := List.map_eq_cons_iff.mp hcons
    obtain ⟨others, hperm, hset⟩ := exists_others hpairs
    have hregister : t.register = .ofHistory s.callers.length (record ++ s.history) := by
      rw [State.register, ht, hh, List.length_set]
    obtain ⟨hvisits, hanswers⟩ := Register.ofHistory_moves hm (hs.stackOf_eq hpairs)
    rw [← hregister] at hvisits hanswers
    refine .inr ⟨f, v, rest ++ others, next, record,
      tracked.set caller (next.toList.map (·, record.foldl Visit.note v) ++ rest), hm, ⟨?_, ?_⟩,
      hperm, ?_, hh, hanswers⟩
    · rw [ht, hs.callers, List.map_set, List.map_append, List.map_map]
      simp [Function.comp_def]
    · rw [List.map_set, ← hs.visits, List.map_append, List.map_map]
      exact hvisits
    · rw [← List.append_assoc]
      exact hset _

/-- A request that is answered had come to this answer. -/
theorem Frame.Moves.course_of_mem_answers (hm : f.Moves caller free c c' next record) {v : Visit κ}
    {now : Nat} {a : Answer κ ι ε} (ha : a ∈ record.filterMap (v.answer? now)) :
    a.course = (f.phase, v) ∧ a.given = now := by
  cases hm with
  | answer outcome source hp =>
    obtain rfl : a = ⟨v, now, outcome, source⟩ := by simpa [Visit.answer?] using ha
    exact ⟨by rw [hp]; rfl, rfl⟩
  | _ => simp [Visit.answer?] at ha

/-- The register agrees with a request that has moved on. -/
theorem Frame.Moves.fits_advance (hm : f.Moves caller free c c' next record) {v : Visit κ}
    (hgoal : v.goal = f.goal) (hf : Course.Fits (f.phase, v)) {now : Nat} {q : Course κ ι ε}
    (hq : q ∈ v.advance now next record) : q.Fits := by
  obtain ⟨hobtain, hcompiled, hready⟩ := hf
  cases hm with
  | peek => simp at hq
  | lock =>
    obtain rfl : q = (f.phase, v) := by simpa using hq
    exact ⟨hobtain, hcompiled, hready⟩
  | find i hp hl hg | miss hp hl hg =>
    simp only [hp] at hcompiled
    obtain rfl : q = (_, v) := by simpa using hq
    exact ⟨fun _ ↦ hgoal.trans hg, hcompiled, fun outcome ho ↦ (by cases ho)⟩
  | countMiss hp | claim hp | settle slot outcome hp | countFailure slot e hp =>
    simp only [hp] at hcompiled hobtain
    obtain rfl : q = (_, v) := by simpa using hq
    exact ⟨fun _ ↦ hobtain (by simp), hcompiled, fun outcome ho ↦ (by cases ho)⟩
  | countHit i hp =>
    simp only [hp] at hcompiled hobtain
    obtain rfl : q = (_, v) := by simpa using hq
    refine ⟨fun _ ↦ hobtain (by simp), .inl hcompiled, fun outcome ho ↦ ⟨i, ?_⟩⟩
    cases ho
    rfl
  | share slot outcome hp =>
    simp only [hp] at hcompiled hobtain
    obtain rfl : q = (_, v) := by simpa using hq
    exact ⟨fun _ ↦ hobtain (by simp), .inl hcompiled, fun outcome ho ↦ (by cases ho)⟩
  | start slot hp =>
    simp only [hp] at hobtain
    obtain rfl : q = (.compile slot, { v with compiled := some slot }) := by
      simpa using hq
    exact ⟨fun _ ↦ hobtain (by simp), rfl, fun outcome ho ↦ (by cases ho)⟩
  | countSuccess slot i hp | remove slot e hp =>
    simp only [hp] at hcompiled hobtain
    obtain rfl : q = (_, v) := by simpa using hq
    exact ⟨fun _ ↦ hobtain (by simp), .inr hcompiled, fun outcome ho ↦ (by cases ho)⟩
  | answer outcome source hp =>
    simp only [hp] at hcompiled hobtain hready
    obtain rfl : q = (.answer outcome source, v) := by simpa using hq
    exact ⟨fun _ ↦ hobtain (by simp), hcompiled, hready⟩

/-- The register agrees with the requests of a cache in use. -/
structure Registered (s : State κ ι ε) (tracked : List (List (Frame κ ι ε × Visit κ))) :
    Prop where
  tracks : Tracks s tracked
  goal : ∀ p ∈ tracked.flatten, p.2.goal = p.1.goal
  fits : ∀ q ∈ courses tracked.flatten s.register.answers, q.Fits
  made : ∀ q ∈ courses tracked.flatten s.register.answers, q.2.made < s.history.length

omit [DecidableEq κ] in
/-- Before the first request the register agrees with the callers. -/
theorem Registered.start (cache : Cache κ ι ε) (callers : Nat) :
    Registered (State.start cache callers) (List.replicate callers []) := by
  refine ⟨.start cache callers, fun p hp ↦ ?_, fun q hq ↦ ?_, fun q hq ↦ ?_⟩
  · simp at hp
  · rw [courses_start] at hq
    cases hq
  · rw [courses_start] at hq
    cases hq

/-- A request of a caller moves on from one state to the next, while others are where they are. -/
structure Turn (caller : Nat) (s t : State κ ι ε) (f : Frame κ ι ε) (v : Visit κ)
    (next : Option (Frame κ ι ε)) (record : List (Occurrence κ ι ε)) : Prop where
  moves : ∃ free, f.Moves caller free s.cache t.cache next record
  wf : s.cache.WF
  sound : f.Sound s.cache
  goal : v.goal = f.goal
  fits : Course.Fits (f.phase, v)
  history : t.history = record ++ s.history
  answers :
    t.register.answers = record.filterMap (v.answer? s.history.length) ++ s.register.answers

/-- A step keeps the register in agreement. It adds a request that has just been made to the others,
or one of them moves on. -/
theorem Registered.step_cases (hs : Registered s tracked) (hc : Consistent s.cache s.frames)
    {move : Move κ ι ε} (h : s.step shard caller move = some t) :
    ∃ tracked', Registered t tracked' ∧
      ((∃ goal key, t.cache = s.cache ∧
        (courses tracked'.flatten t.register.answers).Perm
          ((.lookup, ⟨goal, key, s.history.length, none⟩) ::
            courses tracked.flatten s.register.answers) ∧
        t.history = .asked caller goal key :: s.history ∧
        t.register.answers = s.register.answers) ∨
      ∃ f v others next record, Turn caller s t f v next record ∧
        (courses tracked.flatten s.register.answers).Perm ((f.phase, v) :: others) ∧
        (courses tracked'.flatten t.register.answers).Perm
          (v.advance s.history.length next record ++ others)) := by
  rcases hs.tracks.step_cases h with ⟨goal, key, tracked', ht, hcache, hp, hh, ha⟩ |
    ⟨f, v, others, next, record, tracked', hm, ht, hp, hp', hh, ha⟩
  · have hcourses : (courses tracked'.flatten t.register.answers).Perm
        ((.lookup, ⟨goal, key, s.history.length, none⟩) ::
          courses tracked.flatten s.register.answers) := by
      rw [ha]
      exact ((hp.map _).append_right _)
    refine ⟨tracked', ⟨ht, fun p hm ↦ ?_, fun q hm ↦ ?_, fun q hm ↦ ?_⟩,
      .inl ⟨goal, key, hcache, hcourses, hh, ha⟩⟩
    · rcases List.mem_cons.mp (hp.mem_iff.mp hm) with rfl | hm
      · rfl
      · exact hs.goal p hm
    · rcases List.mem_cons.mp (hcourses.mem_iff.mp hm) with rfl | hm
      · exact ⟨fun hne ↦ absurd rfl hne, rfl, fun outcome ho ↦ (by cases ho)⟩
      · exact hs.fits q hm
    · rw [hh, List.length_cons]
      rcases List.mem_cons.mp (hcourses.mem_iff.mp hm) with rfl | hm
      · exact Nat.lt_succ_self _
      · exact Nat.lt_succ_of_lt (hs.made q hm)
  · have hbefore : (courses tracked.flatten s.register.answers).Perm
        ((f.phase, v) :: courses others s.register.answers) :=
      (hp.map _).append_right _
    have hafter : (courses tracked'.flatten t.register.answers).Perm
        (v.advance s.history.length next record ++ courses others s.register.answers) := by
      rw [ha]
      exact ((hp'.map _).append_right _).trans courses_advance
    have hgoal : v.goal = f.goal := hs.goal (f, v) (hp.mem_iff.mpr (List.mem_cons_self ..))
    have hf : Course.Fits (f.phase, v) :=
      hs.fits _ (hbefore.mem_iff.mpr (List.mem_cons_self ..))
    have hframe : f ∈ s.frames := by
      rw [State.frames, hs.tracks.callers, ← List.map_flatten]
      exact List.mem_map_of_mem (hp.mem_iff.mpr (List.mem_cons_self ..))
    refine ⟨tracked', ⟨ht, fun p hmem ↦ ?_, fun q hmem ↦ ?_, fun q hmem ↦ ?_⟩,
      .inr ⟨f, v, _, next, record, ⟨⟨_, hm⟩, hc.wf, hc.sound f hframe, hgoal, hf, hh, ha⟩, hbefore,
        hafter⟩⟩
    · rcases List.mem_append.mp (hp'.mem_iff.mp hmem) with hn | hm'
      · obtain ⟨n, hn, rfl⟩ := List.mem_map.mp hn
        obtain rfl : next = some n := by simpa using hn
        exact (v.foldl_note record).1.trans (hgoal.trans hm.goal_next.symm)
      · exact hs.goal p (hp.mem_iff.mpr (List.mem_cons_of_mem _ hm'))
    · rcases List.mem_append.mp (hafter.mem_iff.mp hmem) with hn | hm'
      · exact hm.fits_advance hgoal hf hn
      · exact hs.fits q (hbefore.mem_iff.mpr (List.mem_cons_of_mem _ hm'))
    · rw [hh, List.length_append]
      rcases List.mem_append.mp (hafter.mem_iff.mp hmem) with hn | hm'
      · have hv : v.made < s.history.length :=
          hs.made _ (hbefore.mem_iff.mpr (List.mem_cons_self ..))
        rw [Visit.made_of_mem_advance hn]
        omega
      · have := hs.made q (hbefore.mem_iff.mpr (List.mem_cons_of_mem _ hm'))
        omega

/-- What holds of all requests before the first one, and is kept when one is made and when one moves
on, holds of them after every run. -/
theorem Registered.run_induction {P : State κ ι ε → List (Course κ ι ε) → Prop} {callers : Nat}
    (start : P (.start .empty callers) [])
    (perm : ∀ s qs rs, P s qs → qs.Perm rs → P s rs)
    (new : ∀ s t qs caller goal key, P s qs → t.cache = s.cache →
      t.history = .asked caller goal key :: s.history → t.register.answers = s.register.answers →
      P t ((.lookup, ⟨goal, key, s.history.length, none⟩) :: qs))
    (advance : ∀ s t caller f v next record others, P s ((f.phase, v) :: others) →
      Turn caller s t f v next record →
      (∀ q ∈ (f.phase, v) :: others, q.2.made < s.history.length) →
      P t (v.advance s.history.length next record ++ others))
    {moves : List (Nat × Move κ ι ε)} (h : (State.start .empty callers).run shard moves = some t) :
    ∃ tracked, Registered t tracked ∧ P t (courses tracked.flatten t.register.answers) := by
  have hall : Consistent t.cache t.frames ∧
      ∃ tracked, Registered t tracked ∧ P t (courses tracked.flatten t.register.answers) := by
    apply State.run_induction _ _ h
    · rintro s t caller move ⟨hs, tracked, hr, hP⟩ hstep
      refine ⟨State.consistent_step hs hstep, ?_⟩
      obtain ⟨tracked', hr', hcases⟩ := hr.step_cases hs hstep
      refine ⟨tracked', hr', ?_⟩
      rcases hcases with ⟨goal, key, hc, hp, hh, ha⟩ | ⟨f, v, others, next, record, ht, hp, hp'⟩
      · exact perm _ _ _ (new s t _ caller goal key hP hc hh ha) hp.symm
      · have hmade : ∀ q ∈ (f.phase, v) :: others, q.2.made < s.history.length :=
          fun q hq ↦ hr.made q (hp.mem_iff.mpr hq)
        have hnext := advance s t caller f v next record others (perm _ _ _ hP hp) ht hmade
        exact perm _ _ _ hnext hp'.symm
    · refine ⟨State.consistent_start wf_empty callers, _, .start _ _, ?_⟩
      rw [courses_start]
      exact start
  exact hall.2

end Invocation.Cache.Interleaving
