import Mathlib.Data.List.Dedup
import Invocation.Proofs.Cache.Client
import Invocation.Proofs.Program.Run

/-!
# Requests one after the other, in any order

A backend is steady if the binding alone decides whether it emits a thunk and with what it fails
else, and if it leaves the cache alone (`Backend.Steady`). What a sequence of requests to a cache at
rest then comes to can be told without its order (`InvokerCache.Served`): which keys are ready in
the end depends on which pairs were requested, how many of them were compiled on how many more keys
are ready, and how a request fails on its pair. So the order does not matter
(`InvokerCache.requestAll_perm`).
-/

namespace Invocation

open Program (Pair)

/-- What went wrong, if something did. -/
def failureOf? {ε α : Type} : Except ε α → Option ε
  | .ok _ => none
  | .error e => some e

/-- A backend that succeeds or fails as the binding alone decides, and leaves the cache alone. -/
def Backend.Steady {σ τ : Type} (backend : Backend σ (InvokerCache σ × τ))
    (refuses : Binding σ → Option CompileError) : Prop :=
  ∀ b c x, ∃ outcome x', backend.emit b (c, x) = some (outcome, c, x') ∧
    failureOf? outcome = refuses b

namespace Backend

variable {σ τ : Type} [ObjectNames σ]

/-- The backend of portable thunks is steady. -/
theorem steady_portable : (portable : Backend σ (InvokerCache σ × τ)).Steady fun _ ↦ none :=
  fun _ _ x ↦ ⟨_, x, rfl, rfl⟩

/-- The backend that generates machine code is steady. -/
theorem steady_machine : (machine : Backend σ (InvokerCache σ × τ)).Steady fun b ↦
    match Machine.generate b with
    | .ok _ => none
    | .error _ => some (.codegen "Failed to define thunk") := by
  intro b c x
  cases hcode : Machine.generate b with
  | ok code =>
    refine ⟨.ok (Machine.thunk b code), x, ?_, by simp [hcode, failureOf?]⟩
    simp only [machine, hcode]
    rfl
  | error e =>
    refine ⟨.error (.codegen "Failed to define thunk"), x, ?_, by simp [hcode, failureOf?]⟩
    simp only [machine, hcode]
    rfl

end Backend

namespace Program.Pair

variable {σ : Type}

/-- The error that compiling a pair comes to, if it fails: that of its validation, or else that of
the backend. -/
def refusal (refuses : Binding σ → Option CompileError) (p : Pair σ) : Option CompileError :=
  match Binding.make p.method p.target with
  | .error e => some e
  | .ok b => refuses b

/-- The pairs whose compilation succeeds. -/
def succeeding (refuses : Binding σ → Option CompileError) (ps : List (Pair σ)) : List (Pair σ) :=
  ps.filter fun p ↦ (p.refusal refuses).isNone

/-- The pairs whose compilation fails. -/
def failing (refuses : Binding σ → Option CompileError) (ps : List (Pair σ)) : List (Pair σ) :=
  ps.filter fun p ↦ (p.refusal refuses).isSome

/-- What the pairs name is alive at the same time: no two methods live at one address, no two
instances do, and no instance lives at 0. -/
structure Coexist (ps : List (Pair σ)) : Prop where
  methods : ∀ p ∈ ps, ∀ q ∈ ps, p.method.address = q.method.address → p.method = q.method
  targets : ∀ p ∈ ps, ∀ q ∈ ps, ∀ t ∈ p.target, ∀ u ∈ q.target, t.address = u.address → t = u
  nonzero : ∀ p ∈ ps, ∀ t ∈ p.target, t.address ≠ 0

/-- Pairs of the same key are the same. -/
theorem Coexist.eq_of_key {ps : List (Pair σ)} (h : Coexist ps) {p q : Pair σ} (hp : p ∈ ps)
    (hq : q ∈ ps) (hkey : p.key = q.key) : p = q := by
  obtain ⟨hmethod, htarget⟩ := CacheKey.mk.inj hkey
  have hm := h.methods p hp q hq hmethod
  have hnonzero := h.nonzero p hp
  have hnonzero' := h.nonzero q hq
  have htargets := h.targets p hp q hq
  obtain ⟨m, t⟩ := p
  obtain ⟨m', t'⟩ := q
  obtain rfl : m = m' := hm
  congr 1
  cases t with
  | none =>
    cases t' with
    | none => rfl
    | some u => exact absurd htarget.symm (hnonzero' u rfl)
  | some t =>
    cases t' with
    | none => exact absurd htarget (hnonzero t rfl)
    | some u => exact congrArg some (htargets t rfl u rfl htarget)

end Program.Pair

/-- A compilation by a steady backend ends, leaves the cache alone, and fails as the pair decides.
-/
theorem Backend.Steady.compile_eq {σ τ : Type} [Surroundings τ]
    {backend : Backend σ (InvokerCache σ × τ)} {refuses : Binding σ → Option CompileError}
    (h : backend.Steady refuses) (p : Pair σ) (c : InvokerCache σ) (x : τ) :
    ∃ outcome y, backend.compile p.method p.target (c, x) = some (outcome, c, y) ∧
      failureOf? outcome = p.refusal refuses := by
  unfold Backend.compile Pair.refusal
  cases Binding.make p.method p.target with
  | error e => exact ⟨_, _, rfl, rfl⟩
  | ok b =>
    obtain ⟨outcome, y, hrun, hfailure⟩ := h b c x
    simp only [bind_apply, hrun, Option.bind_some]
    cases outcome with
    | ok thunk => exact ⟨_, _, rfl, hfailure⟩
    | error e => exact ⟨_, _, rfl, hfailure⟩

/-- Count so many hits, compilations and failures more, and a miss for each of the latter two. -/
def CacheStats.tally (s : CacheStats) (hits compilations failures : Nat) : CacheStats :=
  ⟨s.hits + BitVec.ofNat 64 hits, s.misses + BitVec.ofNat 64 (compilations + failures),
    s.compilations + BitVec.ofNat 64 compilations, s.failures + BitVec.ofNat 64 failures⟩

/-- What is counted in two parts is counted. -/
theorem CacheStats.tally_tally (s : CacheStats) (h n f h' n' f' : Nat) :
    (s.tally h n f).tally h' n' f' = s.tally (h + h') (n + n') (f + f') := by
  simp only [tally, BitVec.add_assoc, ← BitVec.ofNat_add, mk.injEq, true_and, and_true]
  rw [Nat.add_add_add_comm]

namespace Cache

variable {κ ι ε : Type}

/-- A well-formed cache that holds nothing but successes, as it is while no request is in flight. -/
structure AtRest (c : Cache κ ι ε) : Prop where
  wf : c.WF
  held : ∀ entry ∈ c.table, ∃ i, c.cellAt entry.2 = .done (.ok i)

/-- A cache without keys is at rest. -/
theorem atRest_empty : (empty : Cache κ ι ε).AtRest := by
  refine ⟨wf_empty, fun entry hm ↦ ?_⟩
  cases hm

theorem AtRest.settled {c : Cache κ ι ε} (h : c.AtRest) : c.Settled :=
  ⟨h.wf, fun entry hm ↦ .inr (h.held entry hm)⟩

variable [DecidableEq κ] {c d : Cache κ ι ε} {key : κ}

/-- Once no request is in flight a cache is at rest. -/
theorem Interleaving.State.atRest_of_frames_eq_nil {shard : κ → Nat} {callers : Nat}
    {moves : List (Nat × Interleaving.Move κ ι ε)} {t : Interleaving.State κ ι ε}
    (h : (start .empty callers).run shard moves = some t) (hidle : t.frames = []) :
    t.cache.AtRest :=
  ⟨(settled_of_frames_eq_nil h hidle).wf, ready_of_frames_eq_nil h hidle⟩

/-- In a cache at rest a key that is not ready has no cell. -/
theorem AtRest.slotOf?_eq_none (h : c.AtRest) (hkey : (c.lookup key).isSome = false) :
    c.slotOf? key = none := by
  cases hslot : c.slotOf? key with
  | none => rfl
  | some slot =>
    obtain ⟨i, hi⟩ := h.held _ (mem_of_lookup_eq_some hslot)
    have hlookup : c.lookup key = some i := by
      rw [lookup, cellOf?, hslot, Option.map_some, hi]
      rfl
    simp [hlookup] at hkey

/-- A cache is at rest again after a compilation. -/
theorem AtRest.conclude_began (h : c.AtRest) (hslot : c.slotOf? key = none)
    (outcome : Except ε ι) : ((c.began key).conclude key c.cells.length outcome).AtRest := by
  have hbegan := h.settled.began hslot
  have hm := mem_table_began hslot
  refine ⟨(hbegan.conclude hm outcome).wf, fun entry he ↦ ?_⟩
  rcases (hbegan.conclude hm outcome).held entry he with hrunning | hi
  · -- Only the new cell could be running, and it holds the outcome.
    obtain ⟨hold, -⟩ := (mem_table_conclude_iff hbegan.wf outcome entry).mp he
    rw [cellAt_conclude (hbegan.wf.exist _ hm)] at hrunning
    split at hrunning
    · cases hrunning
    · next hne =>
      rw [table_began hslot] at hold
      rcases List.mem_cons.mp hold with rfl | hold
      · exact absurd rfl hne
      · obtain ⟨i, hi⟩ := h.held entry hold
        rw [cellAt_began_of_ne hne, hi] at hrunning
        cases hrunning
  · exact hi

/-- After a compilation the keys that were ready are, and its own if it succeeded. -/
theorem AtRest.lookup_conclude_began (h : c.AtRest) (hslot : c.slotOf? key = none)
    (outcome : Except ε ι) (other : κ) :
    (((c.began key).conclude key c.cells.length outcome).lookup other).isSome = true ↔
      (c.lookup other).isSome = true ∨ key = other ∧ failureOf? outcome = none := by
  have hlookup := lookup_conclude (h.settled.began hslot) (mem_table_began hslot)
    (cellAt_began_self hslot) outcome other
  simp only [Option.isSome_iff_exists, hlookup, lookup_began h.wf hslot, exists_or]
  refine or_congr Iff.rfl ?_
  cases outcome with
  | ok i => simp [failureOf?, eq_comm]
  | error e => simp [failureOf?]

/-- As many keys are ready in two caches as long as these are the same. -/
theorem size_congr (hc : c.WF) (hd : d.WF)
    (h : ∀ k, (c.lookup k).isSome = true ↔ (d.lookup k).isSome = true) : c.size = d.size := by
  rw [size_eq_length hc (nodup_keys_ready hd) fun k ↦ ?_, List.length_map, size]
  rw [mem_keys_ready_iff hd, h]

/-- One more key is ready if a key is that was not. -/
theorem size_eq_succ (hc : c.WF) (hd : d.WF) (hkey : (c.lookup key).isSome = false)
    (h : ∀ k, (d.lookup k).isSome = true ↔ (c.lookup k).isSome = true ∨ key = k) :
    d.size = c.size + 1 := by
  have hnew : key ∉ c.ready.map Prod.fst := by
    rw [mem_keys_ready_iff hc, hkey]
    simp
  rw [size_eq_length hd (List.nodup_cons.mpr ⟨hnew, nodup_keys_ready hc⟩) fun k ↦ ?_,
    List.length_cons, List.length_map, size]
  rw [List.mem_cons, mem_keys_ready_iff hc, h, or_comm, eq_comm (a := key)]

end Cache

namespace InvokerCache

open Cache

variable {σ τ : Type} [Surroundings τ]

/-- Request invokers for pairs, one after the other. -/
def requestAll (backend : Backend σ (InvokerCache σ × τ)) (ps : List (Pair σ)) :
    CompileM (InvokerCache σ × τ) (List (Except CompileError (Invoker σ))) :=
  ps.mapM fun p ↦ getOrCompile backend p.method p.target

/-- The error that a request for a pair is answered with, if it is: none if its key is ready. -/
def answer (c : InvokerCache σ) (refuses : Binding σ → Option CompileError) (p : Pair σ) :
    Option CompileError :=
  if (c.lookup p.key).isSome then none else p.refusal refuses

/-- What is the case after requests for pairs, made to a cache at rest: how they were answered,
which keys are ready, and what was counted. -/
structure Served (refuses : Binding σ → Option CompileError) (ps : List (Pair σ))
    (c : InvokerCache σ) (outcomes : List (Except CompileError (Invoker σ))) (d : InvokerCache σ)
    (hits compilations failures : Nat) : Prop where
  atRest : d.AtRest
  ready : ∀ key, (d.lookup key).isSome = true ↔ (c.lookup key).isSome = true ∨
    ∃ p ∈ ps, p.key = key ∧ p.refusal refuses = none
  answers : outcomes.map failureOf? = ps.map (c.answer refuses)
  failed : failures = ps.countP fun p ↦ (c.answer refuses p).isSome
  size : d.size = c.size + compilations
  total : hits + compilations + failures = ps.length
  stats : d.stats = c.stats.tally hits compilations failures

variable {backend : Backend σ (InvokerCache σ × τ)} {refuses : Binding σ → Option CompileError}
  {ps qs : List (Pair σ)} {p : Pair σ} {c d : InvokerCache σ}

/-- A request for a ready key is a hit. -/
theorem served_hit (hc : c.AtRest) {i : Invoker σ} (hget : c.lookup p.key = some i) :
    Served refuses [p] c [.ok i] c.countHit 1 0 0 := by
  have hanswer : c.answer refuses p = none := by simp [answer, hget]
  refine ⟨⟨hc.settled.countHit.wf, hc.held⟩, fun key ↦ ?_, ?_, ?_, rfl, rfl, ?_⟩
  · rw [lookup_countHit]
    refine ⟨.inl, ?_⟩
    rintro (hready | ⟨q, hq, rfl, -⟩)
    · exact hready
    · obtain rfl := List.mem_singleton.mp hq
      simp [hget]
  · simp [hanswer, failureOf?]
  · simp [hanswer]
  · simp [Cache.countHit, CacheStats.tally]

/-- A request for another key compiles. -/
theorem served_conclude (hc : c.AtRest) (hkey : (c.lookup p.key).isSome = false)
    {outcome : Except CompileError (Invoker σ)}
    (hfailure : failureOf? outcome = p.refusal refuses) :
    Served refuses [p] c [outcome] ((c.began p.key).conclude p.key c.cells.length outcome) 0
      (if outcome.isOk then 1 else 0) (if outcome.isOk then 0 else 1) := by
  have hslot := hc.slotOf?_eq_none hkey
  have hrest := hc.conclude_began hslot outcome
  have hready := hc.lookup_conclude_began hslot outcome
  have hanswer : c.answer refuses p = failureOf? outcome := by simp [answer, hkey, hfailure]
  have hstats : (c.began p.key).stats = c.countMiss.stats := by
    rw [Cache.began, stats_start, stats_claim]
  refine ⟨hrest, fun key ↦ ?_, ?_, ?_, ?_, ?_, ?_⟩
  · rw [hready, hfailure]
    simp
  · simp [hanswer]
  · cases outcome <;> simp [hanswer, failureOf?, Except.isOk, Except.toBool]
  · cases outcome with
    | ok i => exact size_eq_succ hc.wf hrest.wf hkey fun k ↦ by simp [hready, failureOf?]
    | error e => exact (size_congr hrest.wf hc.wf fun k ↦ by simp [hready, failureOf?])
  · cases outcome <;> rfl
  · rw [stats_conclude, hstats]
    cases outcome <;> simp [Cache.countMiss, CacheStats.tally, Except.isOk, Except.toBool]

/-- A request to a cache at rest is answered: it is a hit, a compilation or a failure. -/
theorem served_getOrCompile (hb : backend.Steady refuses) (hc : c.AtRest) (p : Pair σ) (x : τ) :
    ∃ outcome d y h n f, getOrCompile backend p.method p.target (c, x) = some (outcome, d, y) ∧
      Served refuses [p] c [outcome] d h n f := by
  cases hget : c.lookup p.key with
  | some i => exact ⟨_, _, _, _, _, _, getOrCompile_of_get hget, served_hit hc hget⟩
  | none =>
    have hkey : (c.lookup p.key).isSome = false := by simp [hget]
    obtain ⟨outcome, y, hrun, hfailure⟩ := hb.compile_eq p (c.began p.key)
      (Surroundings.record (.miss p.method.method.name) x)
    refine ⟨outcome, _, y, _, _, _, ?_, served_conclude hc hkey hfailure⟩
    have hslot : c.slotOf? (.of p.method p.target) = none := hc.slotOf?_eq_none hkey
    have hrun' : backend.compile p.method p.target (c.began (.of p.method p.target), _) = _ := hrun
    rw [getOrCompile_of_slotOf? hslot, hrun']
    rfl

/-- Before the first request nothing was counted. -/
theorem served_nil (hc : c.AtRest) : Served refuses [] c [] c 0 0 0 :=
  ⟨hc, fun key ↦ by simp, rfl, rfl, rfl, rfl, by simp [CacheStats.tally]⟩

/-- What was said of the first request and of the others can be said of all, as long as pairs of the
same key fail alike: a key that the first has compiled counts as ready for the others. -/
theorem Served.cons {e : InvokerCache σ} {outcome : Except CompileError (Invoker σ)}
    {outcomes : List (Except CompileError (Invoker σ))} {h n f h' n' f' : Nat}
    (hp : Served refuses [p] c [outcome] d h n f) (hps : Served refuses ps d outcomes e h' n' f')
    (hsame : ∀ q ∈ ps, p.key = q.key → p.refusal refuses = q.refusal refuses) :
    Served refuses (p :: ps) c (outcome :: outcomes) e (h + h') (n + n') (f + f') := by
  have hanswer : ∀ q ∈ ps, d.answer refuses q = c.answer refuses q := by
    intro q hq
    have hready := hp.ready q.key
    unfold answer
    by_cases hc : (c.lookup q.key).isSome = true
    · rw [if_pos hc, if_pos (hready.mpr (.inl hc))]
    · rw [if_neg hc]
      by_cases hd : (d.lookup q.key).isSome = true
      · rw [if_pos hd]
        rcases hready.mp hd with hc' | ⟨p', hp', hkey, hrefusal⟩
        · exact absurd hc' hc
        · obtain rfl := List.mem_singleton.mp hp'
          rw [← hsame q hq hkey, hrefusal]
      · rw [if_neg hd]
  refine ⟨hps.atRest, fun key ↦ ?_, ?_, ?_, ?_, ?_, ?_⟩
  · rw [hps.ready, hp.ready, or_assoc]
    simp [List.mem_cons]
  · have hfirst := hp.answers
    simp only [List.map_cons, List.map_nil, List.cons.injEq, and_true] at hfirst
    rw [List.map_cons, List.map_cons, hfirst, hps.answers]
    congr 1
    exact List.map_congr_left hanswer
  · have hcount : ps.countP (fun q ↦ (d.answer refuses q).isSome) =
        ps.countP fun q ↦ (c.answer refuses q).isSome :=
      List.countP_congr fun q hq ↦ by rw [hanswer q hq]
    rw [hp.failed, hps.failed, hcount, ← List.countP_append, List.singleton_append]
  · rw [hps.size, hp.size, Nat.add_assoc]
  · have htotal := hp.total
    have htotal' := hps.total
    rw [List.length_cons]
    simp only [List.length_cons, List.length_nil] at htotal
    omega
  · rw [hps.stats, hp.stats, CacheStats.tally_tally]

/-- Requests to a cache at rest are answered, one after the other. -/
theorem served_requestAll (hb : backend.Steady refuses) (hc : c.AtRest)
    (hsame : ∀ p ∈ ps, ∀ q ∈ ps, p.key = q.key → p.refusal refuses = q.refusal refuses) (x : τ) :
    ∃ outcomes d y h n f, requestAll backend ps (c, x) = some (outcomes, d, y) ∧
      Served refuses ps c outcomes d h n f := by
  induction ps generalizing c x with
  | nil => exact ⟨_, _, _, _, _, _, rfl, served_nil hc⟩
  | cons p ps ih =>
    obtain ⟨outcome, d, y, h, n, f, hrun, hp⟩ := served_getOrCompile hb hc p x
    obtain ⟨outcomes, e, z, h', n', f', hruns, hps⟩ := ih hp.atRest
      (fun q hq r hr ↦ hsame q (List.mem_cons_of_mem _ hq) r (List.mem_cons_of_mem _ hr)) y
    have hfirst : ∀ q ∈ ps, p.key = q.key → p.refusal refuses = q.refusal refuses :=
      fun q hq ↦ hsame p (List.mem_cons_self ..) q (List.mem_cons_of_mem _ hq)
    refine ⟨_, _, z, _, _, _, ?_, hp.cons hps hfirst⟩
    have hruns' : (ps.mapM fun p ↦ getOrCompile backend p.method p.target) (d, y) = _ := hruns
    rw [requestAll, List.mapM_cons, bind_apply, hrun, Option.bind_some, bind_apply, hruns']
    rfl

namespace Served

variable {outcomes outcomes' : List (Except CompileError (Invoker σ))} {d' : InvokerCache σ}
  {h n f h' n' f' : Nat}

/-- What requests come to does not depend on their order. -/
theorem perm (hs : Served refuses ps c outcomes d h n f)
    (hs' : Served refuses qs c outcomes' d' h' n' f') (hperm : ps.Perm qs) :
    (∀ key, (d.lookup key).isSome = (d'.lookup key).isSome) ∧ d.size = d'.size ∧
      d.stats = d'.stats := by
  have hready (key) : (d.lookup key).isSome = true ↔ (d'.lookup key).isSome = true := by
    rw [hs.ready, hs'.ready]
    simp only [hperm.mem_iff]
  have hsize : d.size = d'.size := size_congr hs.atRest.wf hs'.atRest.wf hready
  refine ⟨fun key ↦ Bool.eq_iff_iff.mpr (hready key), hsize, ?_⟩
  have hn : n = n' := by
    rw [hs.size, hs'.size] at hsize
    exact Nat.add_left_cancel hsize
  have hf : f = f' := by rw [hs.failed, hs'.failed, hperm.countP_eq]
  have hh : h = h' := by
    have htotal := hs.total.trans (hperm.length_eq.trans hs'.total.symm)
    omega
  rw [hs.stats, hs'.stats, hn, hf, hh]

/-- A request is answered with the error that its pair comes to, if it is. -/
theorem getElem?_outcomes (hs : Served refuses ps c outcomes d h n f) {k : Nat}
    (hk : ps[k]? = some p) : outcomes[k]?.map failureOf? = some (c.answer refuses p) := by
  rw [← List.getElem?_map, hs.answers, List.getElem?_map, hk]
  rfl

/-- A request for a pair that fails, whose key was not ready, is answered with the error. -/
theorem getElem?_outcomes_of_refusal (hs : Served refuses ps c outcomes d h n f) {k : Nat}
    (hk : ps[k]? = some p) {e : CompileError} (he : p.refusal refuses = some e)
    (hkey : c.lookup p.key = none) : outcomes[k]? = some (.error e) := by
  have hanswer : c.answer refuses p = some e := by simp [answer, hkey, he]
  have hmap := hs.getElem?_outcomes hk
  obtain ⟨outcome, houtcome, hfailure⟩ := Option.map_eq_some_iff.mp hmap
  rw [hanswer] at hfailure
  cases outcome with
  | ok i => cases hfailure
  | error e' =>
    cases hfailure
    exact houtcome

/-- From an empty cache, as many compilations are counted as there are different keys of pairs that
succeed, and the other requests for such pairs are hits. -/
theorem stats_eq (hs : Served refuses ps .empty outcomes d h n f) :
    d.stats = CacheStats.zero.tally
      ((Pair.succeeding refuses ps).length -
        ((Pair.succeeding refuses ps).map Pair.key).dedup.length)
      ((Pair.succeeding refuses ps).map Pair.key).dedup.length
      (Pair.failing refuses ps).length := by
  have hanswer (q : Pair σ) : answer .empty refuses q = q.refusal refuses := by
    simp [answer, lookup_empty]
  have hn : ((Pair.succeeding refuses ps).map Pair.key).dedup.length = n := by
    have hkeys := size_eq_length hs.atRest.wf
      (List.nodup_dedup ((Pair.succeeding refuses ps).map Pair.key)) fun key ↦ by
        rw [hs.ready, List.mem_dedup]
        simp [lookup_empty, Pair.succeeding, and_left_comm, and_comm]
    rw [← hkeys, hs.size]
    exact Nat.zero_add n
  have hf : (Pair.failing refuses ps).length = f := by
    rw [hs.failed, List.countP_eq_length_filter, Pair.failing]
    simp only [hanswer]
  have hh : (Pair.succeeding refuses ps).length - n = h := by
    have htotal := hs.total
    have hsplit := List.length_eq_length_filter_add (l := ps) fun p ↦ (p.refusal refuses).isNone
    simp only [Option.not_isNone] at hsplit
    rw [← Pair.succeeding, ← Pair.failing, hf] at hsplit
    omega
  rw [hn, hh, hf, hs.stats]
  rfl

end Served

/-- Requests for pairs that are alive together, to a cache at rest with a steady backend, can be
made in any order. All of them are answered, whatever the surroundings; afterwards the same keys are
ready, just as many, and the counters are the same. A request for a pair fails in both orders or in
none, and with the same error, which is that of the pair if its key was not ready. If the cache was
empty, then as many compilations are counted as different keys were requested whose pairs succeed,
the other requests for such pairs are hits, and the requests for the other pairs are failures. -/
theorem requestAll_perm (hb : backend.Steady refuses) (hperm : ps.Perm qs)
    (halive : Pair.Coexist ps) (hc : c.AtRest) (x y : τ) :
    ∃ outcomes outcomes' d d' x' y', requestAll backend ps (c, x) = some (outcomes, d, x') ∧
      requestAll backend qs (c, y) = some (outcomes', d', y') ∧
      (∀ key, (d.lookup key).isSome = (d'.lookup key).isSome) ∧ d.size = d'.size ∧
      d.stats = d'.stats ∧
      (∀ (i j : Nat) (p : Pair σ), ps[i]? = some p → qs[j]? = some p →
        outcomes[i]?.map failureOf? = outcomes'[j]?.map failureOf? ∧
        ∀ e, p.refusal refuses = some e → c.lookup p.key = none →
          outcomes[i]? = some (.error e) ∧ outcomes'[j]? = some (.error e)) ∧
      (c = .empty → d.stats = CacheStats.zero.tally
        ((Pair.succeeding refuses ps).length -
          ((Pair.succeeding refuses ps).map Pair.key).dedup.length)
        ((Pair.succeeding refuses ps).map Pair.key).dedup.length
        (Pair.failing refuses ps).length) := by
  have hsame : ∀ p ∈ ps, ∀ q ∈ ps, p.key = q.key → p.refusal refuses = q.refusal refuses :=
    fun p hp q hq hkey ↦ by rw [halive.eq_of_key hp hq hkey]
  obtain ⟨outcomes, d, x', h, n, f, hrun, hs⟩ := served_requestAll hb hc hsame x
  obtain ⟨outcomes', d', y', h', n', f', hrun', hs'⟩ := served_requestAll hb hc
    (fun p hp q hq ↦ hsame p (hperm.mem_iff.mpr hp) q (hperm.mem_iff.mpr hq)) y
  obtain ⟨hready, hsize, hstats⟩ := hs.perm hs' hperm
  refine ⟨outcomes, outcomes', d, d', x', y', hrun, hrun', hready, hsize, hstats,
    fun i j p hi hj ↦ ⟨?_, fun e he hkey ↦ ?_⟩, fun hempty ↦ ?_⟩
  · rw [hs.getElem?_outcomes hi, hs'.getElem?_outcomes hj]
  · exact ⟨hs.getElem?_outcomes_of_refusal hi he hkey, hs'.getElem?_outcomes_of_refusal hj he hkey⟩
  · subst hempty
    exact hs.stats_eq

/-- A backend for bells; the third is cracked, and cannot be hung. -/
def founder : Backend Unit (InvokerCache Unit × Session.Bench) :=
  ⟨"founder", fun b ↦
    pure (if b.method.id = 3 then .error (.codegen "cracked") else .ok fun _ ↦ pure (.ok .null))⟩

/-- The bells of these numbers. -/
def bells (numbers : List Nat) : List (Pair Unit) :=
  numbers.map fun number ↦ ⟨Emitter.bell number, none⟩

/-- Bells can be requested in any order, some of them again. -/
theorem requestAll_perm_bells :
    ∃ outcomes outcomes' d d' x' y',
      requestAll founder (bells [1, 3, 1, 2]) (.empty, ⟨0, [], .start⟩) = some (outcomes, d, x') ∧
      requestAll founder (bells [3, 2, 1, 1]) (.empty, ⟨5, [], .start⟩) = some (outcomes', d', y') ∧
      d.size = d'.size ∧ d.stats = ⟨1, 3, 2, 1⟩ ∧ d'.stats = ⟨1, 3, 2, 1⟩ ∧
      outcomes[1]? = some (.error (.codegen "cracked")) ∧
      outcomes'[0]? = some (.error (.codegen "cracked")) := by
  have hb : founder.Steady fun b ↦ if b.method.id = 3 then some (.codegen "cracked") else none := by
    intro b c x
    refine ⟨_, x, rfl, ?_⟩
    by_cases h : b.method.id = 3 <;> simp [h, failureOf?]
  have hperm : (bells [1, 3, 1, 2]).Perm (bells [3, 2, 1, 1]) := by
    have hnumbers : [1, 3, 1, 2].Perm [3, 2, 1, 1] := by decide
    exact hnumbers.map _
  have halive : Pair.Coexist (bells [1, 3, 1, 2]) := by
    have haddress : ∀ m ∈ [1, 3, 1, 2], ∀ n ∈ [1, 3, 1, 2],
        BitVec.ofNat 64 (16 * m) = BitVec.ofNat 64 (16 * n) → m = n := by decide
    refine ⟨fun p hp q hq h ↦ ?_, fun p hp q hq t ht ↦ ?_, fun p hp t ht ↦ ?_⟩
    · obtain ⟨m, hm, rfl⟩ := List.mem_map.mp hp
      obtain ⟨n, hn, rfl⟩ := List.mem_map.mp hq
      rw [haddress m hm n hn h]
    · obtain ⟨m, -, rfl⟩ := List.mem_map.mp hp
      cases ht
    · obtain ⟨m, -, rfl⟩ := List.mem_map.mp hp
      cases ht
  obtain ⟨outcomes, outcomes', d, d', x', y', hrun, hrun', -, hsize, hstats, hanswers, hcount⟩ :=
    requestAll_perm hb hperm halive Cache.atRest_empty ⟨0, [], .start⟩ ⟨5, [], .start⟩
  obtain ⟨hfailed, hfailed'⟩ := (hanswers 1 0 _ rfl rfl).2 _ rfl rfl
  have hd : d.stats = ⟨1, 3, 2, 1⟩ := (hcount rfl).trans (by decide)
  exact ⟨outcomes, outcomes', d, d', x', y', hrun, hrun', hsize, hd, hstats ▸ hd, hfailed, hfailed'⟩

end InvokerCache
end Invocation
