import Invocation.Proofs.Cache.Register
import Invocation.Proofs.Cache.Uniqueness
import Mathlib.Algebra.Group.Nat.Defs

/-!
# What the counters say

How far a request has come decides what was counted and what was recorded for it: `Course.counts`
and `Course.hasTold` say so, and every step keeps the counters and the record in agreement with all
requests that there were (`Accounted.advance`). From this follow the bounds that hold between the
counters at every moment, and the sums that hold once every request has been answered
(`State.accounts`).
-/

namespace Invocation

/-- The counters of a cache. -/
inductive Tally where
  | hit
  | miss
  | compilation
  | failure
  deriving DecidableEq

/-- The value of a counter. -/
def CacheStats.value (stats : CacheStats) : Tally → Counter
  | .hit => stats.hits
  | .miss => stats.misses
  | .compilation => stats.compilations
  | .failure => stats.failures

namespace Cache.Interleaving

variable {κ ι ε : Type}

/-- What the record tells that can be counted. -/
inductive Fact where
  /-- A request to obtain was made. -/
  | request
  /-- A compilation succeeded. -/
  | success
  /-- A compilation failed. -/
  | failure
  deriving DecidableEq

/-- Whether this is what happened. -/
def Occurrence.tells (fact : Fact) (o : Occurrence κ ι ε) : Bool :=
  match fact with
  | .request =>
    match o with
    | .asked _ .obtain _ => true
    | _ => false
  | .success =>
    match o with
    | .ended _ _ _ (.ok _) => true
    | _ => false
  | .failure =>
    match o with
    | .ended _ _ _ (.error _) => true
    | _ => false

/-- How often this happened. -/
def State.number (s : State κ ι ε) (fact : Fact) : Nat := s.history.countP (Occurrence.tells fact)

namespace Course

/-- Whether a request that has come so far was counted by a counter. -/
def counts (tally : Tally) (q : Course κ ι ε) : Bool :=
  match tally with
  | .hit =>
    match q.1 with
    | .answer _ none => true
    | _ => false
  | .miss =>
    match q.1 with
    | .lookup | .countHit _ | .countMiss | .answer _ none => false
    | _ => true
  | .compilation =>
    match q.1 with
    | .answer (.ok _) _ => q.2.compiled.isSome
    | _ => false
  | .failure =>
    match q.1 with
    | .remove .. => true
    | .answer (.error _) _ => q.2.compiled.isSome
    | _ => false

/-- Whether the record tells this of a request that has come so far. -/
def hasTold (fact : Fact) (q : Course κ ι ε) : Bool :=
  match fact with
  | .request => q.2.goal == .obtain
  | .success =>
    match q.1 with
    | .count _ (.ok _) => true
    | _ => q.counts .compilation
  | .failure =>
    match q.1 with
    | .count _ (.error _) => true
    | _ => q.counts .failure

end Course

/-- The counters and the record agree with how far the requests have come. -/
structure Accounted (c : Cache κ ι ε) (qs : List (Course κ ι ε))
    (history : List (Occurrence κ ι ε)) : Prop where
  counted (tally : Tally) : c.stats.value tally = BitVec.ofNat 64 (qs.countP (Course.counts tally))
  told (fact : Fact) : history.countP (Occurrence.tells fact) = qs.countP (Course.hasTold fact)

/-- The order of the requests does not matter. -/
theorem Accounted.perm {c : Cache κ ι ε} {qs rs : List (Course κ ι ε)}
    {history : List (Occurrence κ ι ε)} (h : Accounted c qs history) (hp : qs.Perm rs) :
    Accounted c rs history := by
  constructor
  · intro tally
    rw [h.counted tally, hp.countP_eq]
  · intro fact
    rw [h.told fact, hp.countP_eq]

/-- A request that has just been made is recorded, and nothing is counted. -/
theorem Accounted.new {c : Cache κ ι ε} {qs : List (Course κ ι ε)}
    {history : List (Occurrence κ ι ε)} (h : Accounted c qs history) (caller now : Nat)
    (goal : Goal) (key : κ) :
    Accounted c ((.lookup, ⟨goal, key, now, none⟩) :: qs) (.asked caller goal key :: history) := by
  constructor
  · intro tally
    rw [h.counted tally]
    cases tally <;> rfl
  · intro fact
    rw [List.countP_cons, List.countP_cons, h.told fact]
    cases fact <;> cases goal <;> rfl

variable [DecidableEq κ] {caller : Nat} {free : Bool} {c c' : Cache κ ι ε} {f : Frame κ ι ε}
  {next : Option (Frame κ ι ε)} {record : List (Occurrence κ ι ε)} {v : Visit κ}

/-- A move counts what the request is counted by once it has moved on, and no more. -/
theorem Frame.Moves.counted_advance (hm : f.Moves caller free c c' next record)
    (hf : Course.Fits (f.phase, v)) (now : Nat) (tally : Tally) :
    c'.stats.value tally + BitVec.ofNat 64 ([(f.phase, v)].countP (Course.counts tally)) =
      c.stats.value tally +
        BitVec.ofNat 64 ((v.advance now next record).countP (Course.counts tally)) := by
  have hcompiled := hf.compiled
  cases hm with
  | share slot outcome =>
    cases outcome <;> cases tally <;>
      simp_all [List.countP_cons, Course.counts]
  | _ =>
    cases tally <;>
      simp_all [List.countP_cons, Course.counts, CacheStats.value, Cache.countHit, Cache.countMiss,
        Cache.countOutcome]

/-- A move records what the record tells of the request once it has moved on, and no more. -/
theorem Frame.Moves.told_advance (hm : f.Moves caller free c c' next record)
    (hgoal : v.goal = f.goal) (hf : Course.Fits (f.phase, v)) (now : Nat) (fact : Fact) :
    record.countP (Occurrence.tells fact) + [(f.phase, v)].countP (Course.hasTold fact) =
      (v.advance now next record).countP (Course.hasTold fact) := by
  have hcompiled := hf.compiled
  cases hm with
  | share slot outcome | settle slot outcome =>
    cases outcome <;> cases fact <;>
      simp_all [List.countP_cons, Course.hasTold, Course.counts, Occurrence.tells]
  | _ =>
    cases fact <;>
      simp_all [List.countP_cons, Course.hasTold, Course.counts, Occurrence.tells]

/-- A request that moves on keeps the counters and the record in agreement with all requests. -/
theorem Accounted.advance {others : List (Course κ ι ε)} {history : List (Occurrence κ ι ε)}
    (h : Accounted c ((f.phase, v) :: others) history)
    (hm : f.Moves caller free c c' next record) (hgoal : v.goal = f.goal)
    (hf : Course.Fits (f.phase, v)) (now : Nat) :
    Accounted c' (v.advance now next record ++ others) (record ++ history) := by
  constructor
  · intro tally
    have hbefore := h.counted tally
    have hmove := hm.counted_advance hf now tally
    rw [← List.singleton_append, List.countP_append, BitVec.ofNat_add] at hbefore
    rw [List.countP_append, BitVec.ofNat_add]
    apply (BitVec.add_left_inj (BitVec.ofNat 64 ([(f.phase, v)].countP (Course.counts tally)))).mp
    rw [hmove, hbefore]
    ac_rfl
  · intro fact
    have hbefore := h.told fact
    have hmove := hm.told_advance hgoal hf now fact
    rw [← List.singleton_append, List.countP_append] at hbefore
    rw [List.countP_append, List.countP_append]
    omega

section Totals

omit [DecidableEq κ]

/-- What satisfies one of two conditions that exclude each other is counted by their sum. -/
theorem countP_or {α : Type} {p q : α → Bool} {l : List α}
    (h : ∀ a ∈ l, p a = true → q a = false) :
    l.countP (fun a ↦ p a || q a) = l.countP p + l.countP q := by
  induction l with
  | nil => rfl
  | cons a l ih =>
    have hl := ih fun b hb ↦ h b (List.mem_cons_of_mem _ hb)
    have ha := h a (List.mem_cons_self ..)
    rw [List.countP_cons, List.countP_cons, List.countP_cons, hl]
    cases hp : p a with
    | true =>
      rw [ha hp]
      simp only [Bool.or_false, if_true, Bool.false_eq_true, if_false]
      omega
    | false =>
      simp only [Bool.false_or, Bool.false_eq_true, if_false]
      omega

variable {q : Course κ ι ε}

/-- Only requests to obtain are counted. -/
theorem Course.Fits.hasTold_request (hf : q.Fits) {tally : Tally} (h : q.counts tally = true) :
    q.hasTold .request = true := by
  have hne : q.1 ≠ .lookup := by
    intro hp
    cases tally <;> simp [Course.counts, hp] at h
  simp [Course.hasTold, hf.goal hne]

/-- A request is not both a hit and a miss. -/
theorem Course.not_counts_miss (h : q.counts .hit = true) : q.counts .miss = false := by
  obtain ⟨phase, v⟩ := q
  cases phase with
  | answer outcome source => cases source <;> simp_all [counts]
  | _ => simp [counts] at h

/-- What is counted as a compilation is not counted as a failure. -/
theorem Course.not_counts_failure (h : q.counts .compilation = true) :
    q.counts .failure = false := by
  obtain ⟨phase, v⟩ := q
  cases phase with
  | answer outcome source => cases outcome <;> simp_all [counts]
  | _ => simp [counts] at h

/-- What is counted as a compilation or as a failure was counted as a miss. -/
theorem Course.Fits.counts_miss (hf : q.Fits)
    (h : (q.counts .compilation || q.counts .failure) = true) : q.counts .miss = true := by
  obtain ⟨phase, v⟩ := q
  have hcompiled := hf.compiled
  cases phase with
  | answer outcome source =>
    cases source with
    | none => cases outcome <;> simp_all [counts]
    | some slot => rfl
  | remove => rfl
  | _ => simp [counts] at h

/-- What is counted as a compilation succeeded. -/
theorem Course.hasTold_success (h : q.counts .compilation = true) :
    q.hasTold .success = true := by
  obtain ⟨phase, v⟩ := q
  cases phase <;> simp_all [counts, hasTold]

/-- A request that missed and did not compile was answered with an outcome that another one had
compiled. -/
def Answer.isShared (a : Answer κ ι ε) : Bool := a.source.isSome && a.visit.compiled.isNone

variable {answers : List (Answer κ ι ε)}

/-- Every request that was answered was a hit or a miss. -/
theorem hits_add_misses (hf : ∀ a ∈ answers, a.course.Fits) :
    (answers.map Answer.course).countP (Course.counts .hit) +
        (answers.map Answer.course).countP (Course.counts .miss) =
      (answers.map Answer.course).countP (Course.hasTold .request) := by
  rw [← countP_or fun q _ ↦ Course.not_counts_miss, List.countP_map, List.countP_map]
  apply List.countP_congr
  intro a ha
  have hgoal : a.visit.goal = .obtain := (hf a ha).goal fun hp ↦ (by cases hp)
  cases hs : a.source <;> simp [Answer.course, Course.counts, Course.hasTold, hs, hgoal]

/-- Every request that was answered and had missed had compiled with success, had failed to compile,
or shared an outcome. -/
theorem misses_eq (hf : ∀ a ∈ answers, a.course.Fits) :
    (answers.map Answer.course).countP (Course.counts .miss) =
      (answers.map Answer.course).countP (Course.counts .compilation) +
        (answers.map Answer.course).countP (Course.counts .failure) +
        answers.countP Answer.isShared := by
  rw [← countP_or fun q _ ↦ Course.not_counts_failure, List.countP_map, List.countP_map,
    ← countP_or]
  · apply List.countP_congr
    intro a ha
    have hcompiled : a.visit.compiled = none ∨ a.visit.compiled = a.source := (hf a ha).compiled
    cases hs : a.source <;> cases hv : a.visit.compiled <;> cases ho : a.outcome <;>
      simp_all [Answer.course, Course.counts, Answer.isShared]
  · intro a _ hcounts
    cases ho : a.outcome <;>
      simp_all [Answer.course, Course.counts, Answer.isShared]

end Totals

/-- The key whose compilation succeeded, if that is what happened. -/
def Occurrence.compiledKey? : Occurrence κ ι ε → Option κ
  | .ended _ key _ (.ok _) => some key
  | _ => none

namespace State

variable {shard : κ → Nat} {s t : State κ ι ε}

/-- A key was compiled with success as often as there are successes for it. -/
theorem count_compiledKeys (s : State κ ι ε) (key : κ) :
    (s.history.filterMap Occurrence.compiledKey?).count key = (s.successes key).length := by
  rw [successes]
  induction s.history with
  | nil => rfl
  | cons o history ih =>
    rw [List.filterMap_cons, List.filterMap_cons]
    cases o with
    | ended caller k slot outcome =>
      cases outcome with
      | error e => exact ih
      | ok i =>
        by_cases hk : k = key
        · simp [Occurrence.compiledKey?, Occurrence.success?, hk, ih]
        · simp [Occurrence.compiledKey?, Occurrence.success?, hk, ih]
    | asked | began | answered | peeked => exact ih

/-- There are as many ready keys as compilations that succeeded. -/
theorem Recorded.size_eq (hr : s.Recorded) (hc : s.cache.WF) :
    s.cache.size = s.number .success := by
  have hcount (key : κ) : (s.history.filterMap Occurrence.compiledKey?).count key =
      (s.cache.lookup key).toList.length := by
    rw [count_compiledKeys, hr.successes key]
  have hnodup : (s.history.filterMap Occurrence.compiledKey?).Nodup := by
    apply List.nodup_iff_count_le_one.mpr
    intro key
    rw [hcount key]
    cases s.cache.lookup key <;> simp
  have hmem (key : κ) : key ∈ s.history.filterMap Occurrence.compiledKey? ↔
      (s.cache.lookup key).isSome = true := by
    rw [← List.count_pos_iff, hcount key]
    cases s.cache.lookup key <;> simp
  rw [size_eq_length hc hnodup hmem, number, List.length_filterMap_eq_countP]
  apply List.countP_congr
  intro o ho
  rcases o with _ | _ | ⟨_, _, _, _ | _⟩ | _ | _ <;> simp [Occurrence.compiledKey?, Occurrence.tells]

end State

/-- Every outcome in a cell is recorded as that of a compilation, and every request that is to answer
with what is in a cell, or has, has this from it. -/
structure Sourced (c : Cache κ ι ε) (qs : List (Course κ ι ε))
    (history : List (Occurrence κ ι ε)) : Prop where
  compiled (slot : Nat) (outcome : Except ε ι) : c.cellAt slot = .done outcome →
    ∃ caller key, .ended caller key slot outcome ∈ history
  answered : ∀ q ∈ qs, ∀ outcome slot, q.1 = .answer outcome (some slot) →
    c.cellAt slot = .done outcome

/-- An outcome in a cell after a move was there before, or it is recorded now. -/
theorem Frame.Moves.done_cases (hm : f.Moves caller free c c' next record) (hc : c.WF)
    (hf : f.Sound c) {slot : Nat} {outcome : Except ε ι} (hs : c'.cellAt slot = .done outcome) :
    c.cellAt slot = .done outcome ∨ .ended caller f.key slot outcome ∈ record := by
  unfold Sound at hf
  cases hm with
  | claim => exact .inl (by rwa [cellAt_claim] at hs)
  | start other hp =>
    simp only [hp] at hf
    by_cases ho : other = slot
    · rw [← ho, Cache.start, c.cellAt_setCell .running hf.1] at hs
      cases hs
    · exact .inl (by rwa [Cache.start, c.cellAt_setCell_of_ne _ ho] at hs)
  | settle other outcome' hp =>
    simp only [hp] at hf
    by_cases ho : other = slot
    · rw [← ho, Cache.settle, c.cellAt_setCell _ (hc.exist _ hf.1)] at hs
      cases hs
      exact .inr (by simp [ho])
    · exact .inl (by rwa [Cache.settle, c.cellAt_setCell_of_ne _ ho] at hs)
  | _ => exact .inl hs

/-- A request that has moved on to answer with what is in a cell has this from it. -/
theorem Frame.Moves.cellAt_advance (hm : f.Moves caller free c c' next record)
    (hf : f.Sound c) {q : Course κ ι ε} {now : Nat} (hq : q ∈ v.advance now next record)
    {outcome : Except ε ι} {slot : Nat} (hp : q.1 = .answer outcome (some slot)) :
    c'.cellAt slot = .done outcome := by
  have hchange := hm.change hf
  unfold Sound at hf
  cases hm with
  | peek => simp at hq
  | lock =>
    obtain rfl : q = (f.phase, v) := by simpa using hq
    have hphase : f.phase = .answer outcome (some slot) := hp
    simp only [hphase] at hf
    exact hf.2 slot rfl
  | find | miss | countHit | countMiss | claim | start | settle | countFailure =>
    obtain rfl : q = (_, _) := by simpa using hq
    cases hp
  | share other outcome' hphase hdone =>
    obtain rfl : q = (_, v) := by simpa using hq
    cases hp
    exact hdone
  | countSuccess other i hphase =>
    obtain rfl : q = (_, v) := by simpa using hq
    simp only [hphase] at hf
    cases hp
    exact hchange.cellAt_done hf.1
  | remove other e hphase =>
    obtain rfl : q = (_, v) := by simpa using hq
    simp only [hphase] at hf
    cases hp
    exact hchange.cellAt_done hf.2
  | answer outcome' source hphase =>
    obtain rfl : q = (.answer outcome' source, v) := by simpa using hq
    simp only [hphase] at hf
    cases hp
    exact hf.2 slot rfl

/-- A request that moves on keeps every outcome recorded. -/
theorem Sourced.advance {others : List (Course κ ι ε)} {history : List (Occurrence κ ι ε)}
    (h : Sourced c ((f.phase, v) :: others) history)
    (hm : f.Moves caller free c c' next record) (hc : c.WF) (hf : f.Sound c) (now : Nat) :
    Sourced c' (v.advance now next record ++ others) (record ++ history) := by
  constructor
  · intro slot outcome hs
    rcases hm.done_cases hc hf hs with hbefore | hnow
    · obtain ⟨n, key, hn⟩ := h.compiled slot outcome hbefore
      exact ⟨n, key, List.mem_append_right _ hn⟩
    · exact ⟨caller, f.key, List.mem_append_left _ hnow⟩
  · intro q hq outcome slot hp
    rcases List.mem_append.mp hq with hq | hq
    · exact hm.cellAt_advance hf hq hp
    · exact (hm.change hf).cellAt_done (h.answered q (List.mem_cons_of_mem _ hq) outcome slot hp)

omit [DecidableEq κ] in
/-- What a request shared is recorded as the outcome of a compilation for the cell that it had it
from. -/
theorem Sourced.ended_of_isShared {qs : List (Course κ ι ε)} {history : List (Occurrence κ ι ε)}
    (h : Sourced c qs history) {a : Answer κ ι ε} (ha : a.course ∈ qs) (hs : a.isShared = true) :
    ∃ slot caller key, a.source = some slot ∧ .ended caller key slot a.outcome ∈ history := by
  obtain ⟨hsource, -⟩ := Bool.and_eq_true_iff.mp hs
  obtain ⟨slot, hslot⟩ := Option.isSome_iff_exists.mp hsource
  have hcell := h.answered a.course ha a.outcome slot (by rw [Answer.course, hslot])
  obtain ⟨caller, key, hended⟩ := h.compiled slot a.outcome hcell
  exact ⟨slot, caller, key, hslot, hended⟩

namespace State

variable {shard : κ → Nat} {s t : State κ ι ε}

/-- After every run from an empty cache the counters, the record and the cells agree with all
requests. -/
theorem accounted_run {callers : Nat} {moves : List (Nat × Move κ ι ε)}
    (h : (start .empty callers).run shard moves = some t) :
    ∃ tracked, Registered t tracked ∧
      Accounted t.cache (courses tracked.flatten t.register.answers) t.history ∧
      Sourced t.cache (courses tracked.flatten t.register.answers) t.history := by
  apply Registered.run_induction
    (P := fun s qs ↦ Accounted s.cache qs s.history ∧ Sourced s.cache qs s.history) _ _ _ _ h
  · refine ⟨⟨fun tally ↦ ?_, fun fact ↦ rfl⟩, ⟨fun slot outcome hs ↦ ?_, fun q hq ↦ ?_⟩⟩
    · cases tally <;> rfl
    · cases hs
    · cases hq
  · rintro s qs rs ⟨haccounted, hsourced⟩ hp
    exact ⟨haccounted.perm hp, hsourced.compiled,
      fun q hq ↦ hsourced.answered q (hp.mem_iff.mpr hq)⟩
  · rintro s t qs caller goal key ⟨haccounted, hsourced⟩ hc hh ha
    rw [hc, hh]
    refine ⟨haccounted.new caller _ goal key, ⟨fun slot outcome hs ↦ ?_, fun q hq ↦ ?_⟩⟩
    · obtain ⟨n, k, hn⟩ := hsourced.compiled slot outcome hs
      exact ⟨n, k, List.mem_cons_of_mem _ hn⟩
    · rcases List.mem_cons.mp hq with rfl | hq
      · intro outcome slot hp
        cases hp
      · exact hsourced.answered q hq
  · rintro s t caller f v next record others ⟨haccounted, hsourced⟩ ht -
    obtain ⟨free, hm⟩ := ht.moves
    rw [ht.history]
    exact ⟨haccounted.advance hm ht.goal ht.fits _, hsourced.advance hm ht.wf ht.sound _⟩

omit [DecidableEq κ] in
/-- With fewer requests than a counter can hold, a counter tells how many requests it counted. -/
theorem toNat_value {tracked : List (List (Frame κ ι ε × Visit κ))} (hr : Registered t tracked)
    (ha : Accounted t.cache (courses tracked.flatten t.register.answers) t.history)
    (hfew : t.number .request < 2 ^ 64) (tally : Tally) :
    (t.cache.stats.value tally).toNat =
      (courses tracked.flatten t.register.answers).countP (Course.counts tally) := by
  have hle : (courses tracked.flatten t.register.answers).countP (Course.counts tally) ≤
      t.number .request := by
    rw [number, ha.told .request]
    exact List.countP_mono_left fun q hq hcounts ↦ (hr.fits q hq).hasTold_request hcounts
  rw [ha.counted tally, BitVec.toNat_ofNat]
  exact Nat.mod_eq_of_lt (Nat.lt_of_le_of_lt hle hfew)

omit [DecidableEq κ] in
/-- Once no request is in flight, all requests there were are those that were answered. -/
theorem courses_of_frames_eq_nil {tracked : List (List (Frame κ ι ε × Visit κ))}
    (hr : Registered t tracked) (hidle : t.frames = []) :
    courses tracked.flatten t.register.answers = t.register.answers.map Answer.course := by
  have hflatten : tracked.flatten = [] := by
    have hmap : tracked.flatten.map Prod.fst = [] := by
      rw [List.map_flatten, ← hr.tracks.callers]
      exact hidle
    exact List.map_eq_nil_iff.mp hmap
  rw [courses, hflatten]
  rfl

omit [DecidableEq κ] in
/-- Once no request is in flight, a counter tells what the record does, if every request that was
answered is counted by it just if the record tells this of the request. -/
theorem number_eq_toNat {tracked : List (List (Frame κ ι ε × Visit κ))} (hr : Registered t tracked)
    (ha : Accounted t.cache (courses tracked.flatten t.register.answers) t.history)
    (hfew : t.number .request < 2 ^ 64) (hidle : t.frames = []) (fact : Fact) (tally : Tally)
    (h : ∀ a : Answer κ ι ε, a.course.hasTold fact = a.course.counts tally) :
    t.number fact = (t.cache.stats.value tally).toNat := by
  rw [number, ha.told fact, toNat_value hr ha hfew tally, courses_of_frames_eq_nil hr hidle,
    List.countP_map, List.countP_map]
  exact List.countP_congr fun a _ ↦ iff_of_eq (congrArg (· = true) (h a))

/-- In every run, with fewer requests than a counter can hold, there are never more compilations and
failures than misses, nor more compilations than ready keys. Once every request has been answered,
the hits and misses are the requests, the compilations are the ready keys and the compilations that
succeeded, the failures are the compilations that failed, the misses beyond both are the requests
that were answered with what another one had compiled, and every cell in the table is ready. -/
theorem accounts {callers : Nat} {moves : List (Nat × Move κ ι ε)}
    (h : (start .empty callers).run shard moves = some t) (hfew : t.number .request < 2 ^ 64) :
    let stats := t.cache.stats
    stats.compilations.toNat + stats.failures.toNat ≤ stats.misses.toNat ∧
    stats.compilations.toNat ≤ t.cache.size ∧
    (t.frames = [] →
      stats.hits.toNat + stats.misses.toNat = t.number .request ∧
      stats.compilations.toNat = t.cache.size ∧
      stats.compilations.toNat = t.number .success ∧
      stats.failures.toNat = t.number .failure ∧
      stats.misses.toNat - stats.compilations.toNat - stats.failures.toNat =
        t.register.answers.countP Answer.isShared ∧
      (∀ a ∈ t.register.answers, a.isShared = true →
        ∃ slot caller key, a.source = some slot ∧ .ended caller key slot a.outcome ∈ t.history) ∧
      ∀ entry ∈ t.cache.table, ∃ i, t.cache.cellAt entry.2 = .done (.ok i)) := by
  intro stats
  obtain ⟨hconsistent, hrecorded⟩ := consistent_run h
  obtain ⟨tracked, hr, ha, hsourced⟩ := accounted_run h
  have hvalue := toNat_value hr ha hfew
  have hhits : stats.hits.toNat = _ := hvalue .hit
  have hmisses : stats.misses.toNat = _ := hvalue .miss
  have hcompilations : stats.compilations.toNat = _ := hvalue .compilation
  have hfailures : stats.failures.toNat = _ := hvalue .failure
  have hsize := hrecorded.size_eq hconsistent.wf
  have hor := countP_or (l := courses tracked.flatten t.register.answers)
    (p := Course.counts .compilation) (q := Course.counts .failure)
    fun q _ ↦ Course.not_counts_failure
  refine ⟨?_, ?_, fun hidle ↦ ?_⟩
  · rw [hcompilations, hfailures, hmisses, ← hor]
    exact List.countP_mono_left fun q hq ↦ (hr.fits q hq).counts_miss
  · rw [hcompilations, hsize, number, ha.told .success]
    exact List.countP_mono_left fun q _ ↦ Course.hasTold_success
  · have hcourses := courses_of_frames_eq_nil hr hidle
    rw [hcourses] at hhits hmisses hcompilations hfailures
    have hfits : ∀ a ∈ t.register.answers, a.course.Fits := by
      intro a hm
      apply hr.fits
      rw [hcourses]
      exact List.mem_map_of_mem hm
    have hsuccess : t.number .success = stats.compilations.toNat :=
      number_eq_toNat hr ha hfew hidle .success .compilation fun _ ↦ rfl
    have hfailure : t.number .failure = stats.failures.toNat :=
      number_eq_toNat hr ha hfew hidle .failure .failure fun _ ↦ rfl
    refine ⟨?_, hsuccess.symm.trans hsize.symm, hsuccess.symm, hfailure.symm, ?_,
      fun a hm hshared ↦ ?_, ready_of_frames_eq_nil h hidle⟩
    · rw [hhits, hmisses, hits_add_misses hfits, number, ha.told .request, hcourses]
    · rw [hmisses, misses_eq hfits, ← hcompilations, ← hfailures]
      omega
    · exact hsourced.ended_of_isShared (hcourses ▸ List.mem_map_of_mem hm) hshared

/-- Two callers request the same key; the first fails to compile it, and the second shares the
failure. The second compiles the key when it asks again, and the first finds it ready then. -/
def sharedMoves : List (Nat × Move Nat Nat String) :=
  (0, .request .obtain 7) :: List.replicate 6 (0, Move.proceed) ++
    (1, .request .obtain 7) :: List.replicate 5 (1, Move.proceed) ++
    (0, .finish (.error "failed")) :: List.replicate 4 (0, Move.proceed) ++
    List.replicate 2 (1, Move.proceed) ++
    (1, .request .obtain 7) :: List.replicate 6 (1, Move.proceed) ++
    (1, .finish (.ok 5)) :: List.replicate 2 (1, Move.proceed) ++
    (0, .request .obtain 7) :: List.replicate 4 (0, Move.proceed)

/-- There are four requests: a hit and three misses, of which one compiled with success, one failed
to compile, and one shared the failure. -/
theorem accounts_sharedMoves :
    ∃ t, (start (.empty : Cache Nat Nat String) 2).run id sharedMoves = some t ∧
      t.number .request = 4 ∧ t.frames = [] ∧ t.cache.stats = ⟨1, 3, 1, 1⟩ ∧ t.cache.size = 1 ∧
      t.register.answers.countP Answer.isShared = 1 ∧
      t.cache.stats.hits.toNat + t.cache.stats.misses.toNat = t.number .request := by
  have h : ((start (.empty : Cache Nat Nat String) 2).run id sharedMoves).map (fun t ↦
      (t.number .request, t.frames.isEmpty, t.cache.stats, t.cache.size,
        t.register.answers.countP Answer.isShared)) = some (4, true, ⟨1, 3, 1, 1⟩, 1, 1) := by
    decide +kernel
  obtain ⟨t, hrun, ht⟩ := Option.map_eq_some_iff.mp h
  simp only [Prod.mk.injEq, List.isEmpty_iff] at ht
  obtain ⟨hrequests, hidle, hstats, hsize, hshared⟩ := ht
  have hfew : t.number .request < 2 ^ 64 := by rw [hrequests]; decide
  obtain ⟨-, -, hsums⟩ := accounts hrun hfew
  exact ⟨t, hrun, hrequests, hidle, hstats, hsize, hshared, (hsums hidle).1⟩

end State

end Cache.Interleaving
end Invocation
