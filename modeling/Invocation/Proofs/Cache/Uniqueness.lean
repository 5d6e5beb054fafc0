import Invocation.Proofs.Cache.Invariant

/-!
# One success for each key

Whatever the callers ask for and in whatever order their steps come, a key is compiled by one
request at a time, its compilation succeeds at most once, and every request that is served for it
gets what that compilation made (`State.unique_success`). What is ready for a key is at every moment
exactly what was recorded as the success of its compilation (`State.Recorded`).
-/

namespace Invocation.Cache.Interleaving

variable {κ ι ε : Type} [DecidableEq κ]

namespace Occurrence

/-- What a compilation for a key succeeded with, if that is what happened. -/
def success? (key : κ) : Occurrence κ ι ε → Option ι
  | .ended _ k _ (.ok i) => if k = key then some i else none
  | _ => none

/-- What a request for a key was served, if that is what happened. -/
def result? (key : κ) : Occurrence κ ι ε → Option ι
  | .answered _ k (.ok i) _ => if k = key then some i else none
  | .peeked _ k (some i) => if k = key then some i else none
  | _ => none

end Occurrence

namespace State

/-- The compilations for a key that are in progress. -/
def compiling (s : State κ ι ε) (key : κ) : List (Frame κ ι ε) :=
  s.frames.filter fun f ↦ f.isCompiling && decide (f.key = key)

/-- What the compilations for a key succeeded with so far. -/
def successes (s : State κ ι ε) (key : κ) : List ι :=
  s.history.filterMap (Occurrence.success? key)

/-- What the requests for a key were served so far, to obtain or to peek. -/
def results (s : State κ ι ε) (key : κ) : List ι := s.history.filterMap (Occurrence.result? key)

/-- What is ready for a key is what its compilation succeeded with, and what every request for it
that was served has got. -/
structure Recorded (s : State κ ι ε) : Prop where
  successes (key : κ) : s.successes key = (s.cache.lookup key).toList
  results (key : κ) : ∀ i ∈ s.results key, s.cache.lookup key = some i

end State

variable {caller : Nat} {free : Bool} {c c' : Cache κ ι ε} {f : Frame κ ι ε}
  {next : Option (Frame κ ι ε)} {record : List (Occurrence κ ι ε)}

/-- What becomes ready when a request moves on is recorded as a success. -/
theorem Frame.Moves.toList_lookup (h : f.Moves caller free c c' next record) (hc : c.WF)
    (hf : f.Sound c) (key : κ) :
    (c'.lookup key).toList =
      record.filterMap (Occurrence.success? key) ++ (c.lookup key).toList := by
  unfold Sound at hf
  cases h with
  | lock | peek | find | miss | countHit | countMiss | share | countSuccess | countFailure =>
    rfl
  | answer => rfl
  | claim => rw [lookup_claim hc]; rfl
  | start slot hp hs =>
    simp only [hp] at hf
    have hm := hf.2.mem_table (by simp [hs])
    rw [Cache.start, lookup_setCell hc .running hm]
    by_cases hk : key = f.key
    · rw [if_pos hk, hk, lookup_eq_none hc hm (by simp [hs])]
      rfl
    · rw [if_neg hk]
      rfl
  | settle slot outcome hp =>
    simp only [hp] at hf
    rw [Cache.settle, lookup_setCell hc (.done outcome) hf.1]
    by_cases hk : key = f.key
    · rw [if_pos hk, hk, lookup_eq_none hc hf.1 (by simp [hf.2])]
      cases outcome with
      | ok i => simp [Cell.ready?, Occurrence.success?]
      | error e => rfl
    · rw [if_neg hk]
      cases outcome with
      | ok i => simp [Occurrence.success?, Ne.symm hk]
      | error e => rfl
  | remove slot e hp =>
    simp only [hp] at hf
    rw [lookup_removeIfSame hc (by simp [hf.2])]
    rfl

/-- What a request is served when it is answered is ready for its key. -/
theorem Frame.Moves.lookup_of_mem_results (h : f.Moves caller free c c' next record)
    (hf : f.Sound c) {key : κ} {i : ι} (hi : i ∈ record.filterMap (Occurrence.result? key)) :
    c.lookup key = some i := by
  unfold Sound at hf
  cases h with
  | peek hp hl hg =>
    cases hk : c.lookup f.key with
    | none => simp [hk, Occurrence.result?] at hi
    | some j =>
      obtain ⟨rfl, rfl⟩ : f.key = key ∧ j = i := by simpa [hk, Occurrence.result?] using hi
      exact hk
  | answer outcome source hp =>
    simp only [hp] at hf
    cases outcome with
    | error e => simp [Occurrence.result?] at hi
    | ok j =>
      obtain ⟨rfl, rfl⟩ : f.key = key ∧ j = i := by simpa [Occurrence.result?] using hi
      exact hf.1 j rfl
  | start | settle | lock | find | miss | countHit | countMiss | claim | share | countSuccess
  | countFailure | remove => simp [Occurrence.result?] at hi

namespace State

variable {shard : κ → Nat} {s t : State κ ι ε}

/-- Every step keeps the record in agreement with the cache. -/
theorem recorded_step {move : Move κ ι ε} (hs : Consistent s.cache s.frames) (hr : s.Recorded)
    (h : s.step shard caller move = some t) : t.Recorded := by
  rcases step_cases h with ⟨goal, key, hc, -, hh⟩ | ⟨f, others, next, record, hm, hp, -, hh⟩
  · constructor
    · intro k
      rw [successes, hh, hc, ← hr.successes k]
      rfl
    · intro k i hi
      rw [hc]
      rw [results, hh] at hi
      exact hr.results k i hi
  · have hf : f.Sound s.cache := hs.sound f (hp.mem_iff.mpr (List.mem_cons_self ..))
    have hchange := hm.change hf
    constructor
    · intro k
      rw [hm.toList_lookup hs.wf hf, successes, hh, List.filterMap_append, ← hr.successes k]
      rfl
    · intro k i hi
      rw [results, hh, List.filterMap_append] at hi
      rcases List.mem_append.mp hi with hi | hi
      · exact hchange.lookup_eq_some hs.wf (hm.lookup_of_mem_results hf hi)
      · exact hchange.lookup_eq_some hs.wf (hr.results k i hi)

/-- After every run from an empty cache, cache and requests are consistent and the record agrees. -/
theorem consistent_run {callers : Nat} {moves : List (Nat × Move κ ι ε)}
    (h : (start .empty callers).run shard moves = some t) :
    Consistent t.cache t.frames ∧ t.Recorded := by
  apply run_induction _ _ h
  · rintro s t caller move ⟨hs, hr⟩ hstep
    exact ⟨consistent_step hs hstep, recorded_step hs hr hstep⟩
  · exact ⟨consistent_start wf_empty callers, fun _ ↦ rfl, fun _ _ hi ↦ by cases hi⟩

/-- A request that compiles for a key is at work on the cell of the key. -/
theorem workSlot_of_mem_compiling (hs : Consistent s.cache s.frames) {key : κ} {f : Frame κ ι ε}
    (hf : f ∈ s.compiling key) :
    ∃ slot, f.phase.workSlot? = some slot ∧ (key, slot) ∈ s.cache.table := by
  obtain ⟨hm, hc⟩ := List.mem_filter.mp hf
  obtain ⟨hc, hk⟩ := Bool.and_eq_true_iff.mp hc
  obtain rfl := of_decide_eq_true hk
  have hsound := hs.sound f hm
  unfold Frame.Sound at hsound
  cases hp : f.phase with
  | compile slot =>
    simp only [hp] at hsound
    exact ⟨slot, rfl, hsound.1⟩
  | _ => simp [Frame.isCompiling, hp] at hc

/-- No two requests compile for the same key: they would be at work on the same cell. -/
theorem length_compiling_le_one (hs : Consistent s.cache s.frames) (key : κ) :
    (s.compiling key).length ≤ 1 := by
  have hapart : (s.compiling key).Pairwise Frame.Apart := hs.apart.filter _
  match hl : s.compiling key with
  | [] => exact Nat.zero_le 1
  | [_] => exact Nat.le_refl 1
  | f :: g :: rest =>
    rw [hl] at hapart
    obtain ⟨a, hf, ha⟩ := workSlot_of_mem_compiling hs (hl ▸ List.mem_cons_self ..)
    obtain ⟨b, hg, hb⟩ :=
      workSlot_of_mem_compiling hs (hl ▸ List.mem_cons_of_mem f (List.mem_cons_self ..))
    have hfg := (List.pairwise_cons.mp hapart).1 g (List.mem_cons_self ..) a hf
    rw [hg, hs.wf.slot_unique ha hb] at hfg
    exact absurd rfl hfg

/-- In every run a key is compiled by at most one request at a time, its compilation succeeds at
most once, and all requests that are served for it get the same, which is what that compilation
made. -/
theorem unique_success {callers : Nat} {moves : List (Nat × Move κ ι ε)}
    (h : (start .empty callers).run shard moves = some t) (key : κ) :
    (t.compiling key).length ≤ 1 ∧ (t.successes key).length ≤ 1 ∧
      (∀ i ∈ t.results key, ∀ j ∈ t.results key, i = j) ∧
      ∀ i ∈ t.results key, t.successes key = [i] := by
  obtain ⟨hs, hr⟩ := consistent_run h
  refine ⟨length_compiling_le_one hs key, ?_, fun i hi j hj ↦ ?_, fun i hi ↦ ?_⟩
  · rw [hr.successes key]
    cases t.cache.lookup key <;> simp
  · have hi := hr.results key i hi
    have hj := hr.results key j hj
    exact Option.some.inj (hi.symm.trans hj)
  · rw [hr.successes key, hr.results key i hi]
    rfl

/-- Two callers request the same key; the first fails to compile it, and the second compiles it when
it asks again. -/
def retriedMoves : List (Nat × Move Nat Nat String) :=
  [(0, .request .obtain 7), (0, .proceed), (0, .proceed), (0, .proceed), (0, .proceed),
    (0, .proceed), (0, .proceed), (1, .request .obtain 7), (1, .proceed), (1, .proceed),
    (1, .proceed), (1, .proceed), (1, .proceed), (0, .finish (.error "failed")), (1, .proceed),
    (1, .proceed), (0, .proceed), (0, .proceed), (0, .proceed), (0, .proceed),
    (1, .request .obtain 7), (1, .proceed), (1, .proceed), (1, .proceed), (1, .proceed),
    (1, .proceed), (1, .proceed), (1, .finish (.ok 5)), (0, .request .peek 7), (0, .proceed),
    (0, .proceed), (1, .proceed), (1, .proceed)]

/-- After a failure the key is compiled again, once, and both callers get the same. -/
theorem unique_success_retriedMoves :
    ∃ t, (start (.empty : Cache Nat Nat String) 2).run id retriedMoves = some t ∧
      t.results 7 = [5, 5] ∧ (t.successes 7).length ≤ 1 := by
  have h : ∃ t, (start (.empty : Cache Nat Nat String) 2).run id retriedMoves = some t ∧
      t.results 7 = [5, 5] := ⟨_, rfl, rfl⟩
  obtain ⟨t, hrun, hresults⟩ := h
  exact ⟨t, hrun, hresults, (unique_success hrun 7).2.1⟩

end State
end Invocation.Cache.Interleaving
