import Invocation.Proofs.Cache.Register

/-!
# Requests after a failure

A cell that failed has left the table for good when the request that compiled for it is answered
(`Cache.Retired`). So no request that is made after that answer gets this failure: it is served what
is ready, or comes from another compilation (`State.compiles_again`). The answer to a request that
only waited for the cell promises less: it may come before the cell has left the table, and then a
request made after it still finds the old failure (`State.stale_failure`).
-/

namespace Invocation.Cache

variable {κ ι ε : Type}

/-- A cell that was given out and is no key's any more. -/
def Retired (c : Cache κ ι ε) (slot : Nat) : Prop :=
  slot < c.cells.length ∧ ∀ entry ∈ c.table, entry.2 ≠ slot

variable [DecidableEq κ]

/-- A cell taken out of the table is retired. -/
theorem retired_removeIfSame {c : Cache κ ι ε} (h : c.WF) {key : κ} {slot : Nat}
    (hm : (key, slot) ∈ c.table) : (c.removeIfSame key slot).Retired slot := by
  refine ⟨h.exist _ hm, fun entry he hs ↦ ?_⟩
  have hold : entry ∈ c.table := List.mem_of_mem_erase he
  have hentry : entry = (key, slot) := by
    subst hs
    exact Prod.ext (h.key_unique hold hm) rfl
  rw [removeIfSame, hentry] at he
  exact (List.Nodup.of_map Prod.fst h.keys).not_mem_erase he

namespace Interleaving

variable {caller : Nat} {free : Bool} {c c' : Cache κ ι ε} {f : Frame κ ι ε}
  {next : Option (Frame κ ι ε)} {record : List (Occurrence κ ι ε)} {slot : Nat}

/-- A retired cell stays retired. -/
theorem Change.retired (h : Change c f c') (hr : c.Retired slot) : c'.Retired slot := by
  refine ⟨Nat.lt_of_lt_of_le hr.1 h.length_le, fun entry he ↦ ?_⟩
  cases h with
  | count | write => exact hr.2 entry he
  | remove => exact hr.2 entry (List.mem_of_mem_erase he)
  | claim =>
    rcases (c.mem_table_claim_iff _ _).mp he with hm | ⟨-, rfl⟩
    · exact hr.2 entry hm
    · exact Nat.ne_of_gt hr.1

/-- The cell that a request holds, or that it has its answer from. -/
def Phase.source? : Phase ι ε → Option Nat
  | .answer _ source => source
  | phase => phase.slot?

/-- The cell that a request holds or has its answer from after a move was so before, or it is in the
table. -/
theorem Frame.Moves.source_advance (hm : f.Moves caller free c c' next record) {v : Visit κ}
    {now : Nat} {q : Course κ ι ε} (hq : q ∈ v.advance now next record)
    (hs : q.1.source? = some slot) :
    f.phase.source? = some slot ∨ ∃ entry ∈ c'.table, entry.2 = slot := by
  cases hm with
  | peek => simp at hq
  | lock =>
    obtain rfl : q = (f.phase, v) := by simpa using hq
    exact .inl hs
  | find i hp | miss hp | countHit i hp | countMiss hp =>
    obtain rfl : q = (_, v) := by simpa using hq
    cases hs
  | claim hp =>
    obtain rfl : q = (_, v) := by simpa using hq
    cases hs
    exact .inr ⟨_, c.mem_table_claim f.key, rfl⟩
  | start other hp | share other outcome hp | settle other outcome hp | countSuccess other i hp
  | countFailure other e hp | remove other e hp =>
    obtain rfl : q = (_, _) := by simpa using hq
    exact .inl (by rw [hp]; exact hs)
  | answer outcome source hp =>
    obtain rfl : q = (.answer outcome source, v) := by simpa using hq
    exact .inl (by rw [hp]; exact hs)

/-- When a request that compiled for a cell comes to answer with a failure, the cell is retired. -/
theorem Frame.Moves.retired_advance (hm : f.Moves caller free c c' next record) (hc : c.WF)
    (hf : f.Sound c) {v : Visit κ} (hfits : Course.Fits (f.phase, v)) {now : Nat}
    {q : Course κ ι ε} (hq : q ∈ v.advance now next record) {e : ε} {source : Option Nat}
    (hp : q.1 = .answer (.error e) source) (hv : q.2.compiled = some slot) :
    c'.Retired slot ∨ c' = c ∧ q = (f.phase, v) := by
  have hcompiled := hfits.compiled
  unfold Sound at hf
  cases hm with
  | peek => simp at hq
  | lock =>
    obtain rfl : q = (f.phase, v) := by simpa using hq
    exact .inr ⟨rfl, rfl⟩
  | find | miss | countHit | countMiss | claim | start | settle | countSuccess | countFailure =>
    obtain rfl : q = (_, _) := by simpa using hq
    cases hp
  | share other outcome hphase =>
    obtain rfl : q = (_, v) := by simpa using hq
    simp only [hphase] at hcompiled
    rw [hcompiled] at hv
    cases hv
  | remove other e hphase =>
    obtain rfl : q = (_, v) := by simpa using hq
    simp only [hphase] at hcompiled hf
    obtain rfl : other = slot := Option.some.inj (hcompiled.symm.trans hv)
    exact .inl (retired_removeIfSame hc hf.1)
  | answer outcome source hphase =>
    obtain rfl : q = (.answer outcome source, v) := by simpa using hq
    exact .inr ⟨rfl, by rw [hphase]⟩

/-- The requests that compiled and failed have retired their cells by the time of their answers, and
no request made later holds such a cell or has its answer from it. -/
structure Retires (c : Cache κ ι ε) (qs : List (Course κ ι ε)) (answers : List (Answer κ ι ε)) :
    Prop where
  due : ∀ q ∈ qs, ∀ e source, q.1 = .answer (.error e) source →
    ∀ slot, q.2.compiled = some slot → c.Retired slot
  given : ∀ a ∈ answers, ∀ e, a.outcome = .error e →
    ∀ slot, a.visit.compiled = some slot → c.Retired slot
  later : ∀ a ∈ answers, ∀ e, a.outcome = .error e → ∀ slot, a.visit.compiled = some slot →
    ∀ q ∈ qs, a.given < q.2.made → q.1.source? ≠ some slot

omit [DecidableEq κ] in
/-- The order of the requests does not matter. -/
theorem Retires.perm {qs rs : List (Course κ ι ε)} {answers : List (Answer κ ι ε)}
    (h : Retires c qs answers) (hp : qs.Perm rs) : Retires c rs answers :=
  ⟨fun q hq ↦ h.due q (hp.mem_iff.mpr hq), h.given,
    fun a ha e he slot hs q hq ↦ h.later a ha e he slot hs q (hp.mem_iff.mpr hq)⟩

omit [DecidableEq κ] in
/-- A request that has just been made holds no cell. -/
theorem Retires.new {qs : List (Course κ ι ε)} {answers : List (Answer κ ι ε)}
    (h : Retires c qs answers) (v : Visit κ) : Retires c ((.lookup, v) :: qs) answers := by
  refine ⟨fun q hq e source hp ↦ ?_, h.given, fun a ha e he slot hs q hq hlater ↦ ?_⟩
  · rcases List.mem_cons.mp hq with rfl | hq
    · cases hp
    · exact h.due q hq e source hp
  · rcases List.mem_cons.mp hq with rfl | hq
    · exact fun hsource ↦ (by cases hsource)
    · exact h.later a ha e he slot hs q hq hlater

/-- A request that moves on keeps failures retired. -/
theorem Retires.advance {v : Visit κ} {now : Nat} {others : List (Course κ ι ε)}
    {answers : List (Answer κ ι ε)} (h : Retires c ((f.phase, v) :: others) answers)
    (hm : f.Moves caller free c c' next record) (hc : c.WF) (hf : f.Sound c)
    (hfits : Course.Fits (f.phase, v)) (hmade : ∀ q ∈ (f.phase, v) :: others, q.2.made < now) :
    Retires c' (v.advance now next record ++ others)
      (record.filterMap (v.answer? now) ++ answers) := by
  have hchange := hm.change hf
  have hself : (f.phase, v) ∈ (f.phase, v) :: others := List.mem_cons_self ..
  have hgiven : ∀ a ∈ record.filterMap (v.answer? now) ++ answers, ∀ e, a.outcome = .error e →
      ∀ slot, a.visit.compiled = some slot → c'.Retired slot := by
    intro a ha e he slot hs
    rcases List.mem_append.mp ha with ha | ha
    · obtain ⟨hcourse, -⟩ := hm.course_of_mem_answers ha
      rw [Answer.course, he] at hcourse
      obtain ⟨hp, hv⟩ := Prod.mk.inj hcourse
      exact hchange.retired (h.due _ hself e a.source hp.symm slot (hv ▸ hs))
    · exact hchange.retired (h.given a ha e he slot hs)
  refine ⟨fun q hq e source hp slot hs ↦ ?_, hgiven, fun a ha e he slot hs q hq hlater ↦ ?_⟩
  · rcases List.mem_append.mp hq with hq | hq
    · rcases hm.retired_advance hc hf hfits hq hp hs with hr | ⟨rfl, rfl⟩
      · exact hr
      · exact h.due _ hself e source hp slot hs
    · exact hchange.retired (h.due q (List.mem_cons_of_mem _ hq) e source hp slot hs)
  · have hq' : (q ∈ v.advance now next record ∧ q.2.made = v.made) ∨ q ∈ others := by
      rcases List.mem_append.mp hq with hq | hq
      · exact .inl ⟨hq, Visit.made_of_mem_advance hq⟩
      · exact .inr hq
    rcases List.mem_append.mp ha with hnew | hold
    · -- The answer is given now, and every request was made before.
      rw [(hm.course_of_mem_answers hnew).2] at hlater
      rcases hq' with ⟨-, hv⟩ | hq
      · have : v.made < now := hmade _ hself
        omega
      · have := hmade q (List.mem_cons_of_mem _ hq)
        omega
    · rcases hq' with ⟨hq, hv⟩ | hq
      · intro hsource
        rcases hm.source_advance hq hsource with hbefore | ⟨entry, hentry, hslot⟩
        · exact h.later a hold e he slot hs _ hself (hv ▸ hlater) hbefore
        · exact (hgiven a ha e he slot hs).2 entry hentry hslot
      · exact h.later a hold e he slot hs q (List.mem_cons_of_mem _ hq) hlater

namespace State

variable {shard : κ → Nat} {s t : State κ ι ε}

/-- After every run from an empty cache, failures are retired. -/
theorem retires_run {callers : Nat} {moves : List (Nat × Move κ ι ε)}
    (h : (start .empty callers).run shard moves = some t) :
    ∃ tracked, Registered t tracked ∧
      Retires t.cache (courses tracked.flatten t.register.answers) t.register.answers := by
  apply Registered.run_induction (P := fun s qs ↦ Retires s.cache qs s.register.answers) _ _ _ _ h
  · constructor
    · intro q hq
      cases hq
    · intro a ha
      cases ha
    · intro a ha
      cases ha
  · intro s qs rs hretires hp
    exact hretires.perm hp
  · intro s t qs caller goal key hretires hc _ ha
    rw [hc, ha]
    exact hretires.new _
  · intro s t caller f v next record others hretires ht hmade
    obtain ⟨free, hm⟩ := ht.moves
    rw [ht.answers]
    exact hretires.advance hm ht.wf ht.sound ht.fits hmade

/-- In every run, no request that is made after the request that compiled for a cell and failed has
been answered is answered with what is in this cell: it gets what is ready, or the outcome of another
compilation. -/
theorem compiles_again {callers : Nat} {moves : List (Nat × Move κ ι ε)}
    (h : (start .empty callers).run shard moves = some t) {a b : Answer κ ι ε} {e : ε} {slot : Nat}
    (ha : a ∈ t.register.answers) (he : a.outcome = .error e) (hs : a.visit.compiled = some slot)
    (hb : b ∈ t.register.answers) (hlater : a.given < b.visit.made) :
    (b.source = none ∧ ∃ i, b.outcome = .ok i) ∨ ∃ other, b.source = some other ∧ other ≠ slot := by
  obtain ⟨tracked, hr, hretires⟩ := retires_run h
  have hcourse : b.course ∈ courses tracked.flatten t.register.answers :=
    List.mem_append_right _ (List.mem_map_of_mem hb)
  have hne : b.source ≠ some slot := hretires.later a ha e he slot hs b.course hcourse hlater
  cases hsource : b.source with
  | none =>
    refine .inl ⟨rfl, (hr.fits _ hcourse).ready b.outcome ?_⟩
    rw [Answer.course, hsource]
  | some other => exact .inr ⟨other, rfl, fun ho ↦ hne (by rw [hsource, ho])⟩

/-- A caller requests a key and fails to compile it; when it has been answered, another one requests
the key and compiles it. -/
def patientMoves : List (Nat × Move Nat Nat String) :=
  (0, .request .obtain 7) :: List.replicate 6 (0, Move.proceed) ++
    (0, .finish (.error "failed")) :: List.replicate 4 (0, Move.proceed) ++
    (1, .request .obtain 7) :: List.replicate 6 (1, Move.proceed) ++
    (1, .finish (.ok 5)) :: List.replicate 2 (1, Move.proceed)

/-- The second caller is not answered with what is in the first cell. -/
theorem compiles_again_patientMoves :
    ∃ t a b, (start (.empty : Cache Nat Nat String) 2).run id patientMoves = some t ∧
      a ∈ t.register.answers ∧ a.outcome = .error "failed" ∧ a.visit.compiled = some 0 ∧
      b ∈ t.register.answers ∧ a.given < b.visit.made ∧ b.outcome = .ok 5 ∧
      ((b.source = none ∧ ∃ i, b.outcome = .ok i) ∨ ∃ other, b.source = some other ∧ other ≠ 0) := by
  have h : ∃ t b a, (start (.empty : Cache Nat Nat String) 2).run id patientMoves = some t ∧
      t.register.answers = [b, a] ∧ a.outcome = .error "failed" ∧ a.visit.compiled = some 0 ∧
      a.given < b.visit.made ∧ b.outcome = .ok 5 :=
    ⟨_, _, _, rfl, rfl, rfl, rfl, by decide, rfl⟩
  obtain ⟨t, b, a, hrun, hanswers, he, hs, hlater, houtcome⟩ := h
  have ha : a ∈ t.register.answers := by simp [hanswers]
  have hb : b ∈ t.register.answers := by simp [hanswers]
  exact ⟨t, a, b, hrun, ha, he, hs, hb, hlater, houtcome, compiles_again hrun ha he hs hb hlater⟩

/-- Two callers request the same key. The first fails to compile it, and the second, which waited,
is answered and requests the key again before the first has taken the failure out of the table. -/
def hastyMoves : List (Nat × Move Nat Nat String) :=
  (0, .request .obtain 7) :: List.replicate 6 (0, Move.proceed) ++
    (1, .request .obtain 7) :: List.replicate 5 (1, Move.proceed) ++
    (0, .finish (.error "failed")) :: List.replicate 2 (1, Move.proceed) ++
    (1, .request .obtain 7) :: List.replicate 7 (1, Move.proceed) ++
    List.replicate 4 (0, Move.proceed)

/-- A request that is made after a request that only waited was answered with a failure may be
answered with this very failure, without another compilation. -/
theorem stale_failure :
    ∃ t a b, (start (.empty : Cache Nat Nat String) 2).run id hastyMoves = some t ∧
      a ∈ t.register.answers ∧ b ∈ t.register.answers ∧ a.visit.key = b.visit.key ∧
      a.outcome = .error "failed" ∧ a.source = some 0 ∧ a.given < b.visit.made ∧
      b.outcome = .error "failed" ∧ b.source = some 0 ∧ b.visit.compiled = none := by
  have h : ∃ t c b a, (start (.empty : Cache Nat Nat String) 2).run id hastyMoves = some t ∧
      t.register.answers = [c, b, a] ∧ a.visit.key = b.visit.key ∧
      a.outcome = .error "failed" ∧ a.source = some 0 ∧ a.given < b.visit.made ∧
      b.outcome = .error "failed" ∧ b.source = some 0 ∧ b.visit.compiled = none :=
    ⟨_, _, _, _, rfl, rfl, rfl, rfl, rfl, by decide, rfl, rfl, rfl⟩
  obtain ⟨t, c, b, a, hrun, hanswers, hrest⟩ := h
  exact ⟨t, a, b, hrun, by simp [hanswers], by simp [hanswers], hrest⟩

end State
end Interleaving
end Invocation.Cache
