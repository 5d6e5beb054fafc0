import Invocation.Proofs.Binding
import Invocation.Proofs.Program.Liveness

/-!
# What is served is what was asked for

A key is a pair of addresses, and addresses are used again. Still no two pairs ever meet at one
entry (`State.never_alias`): what a key of a live cache points at is alive as long as the entry is
there, so nothing else can be put at its addresses meanwhile. A program stays sound (`State.Sound`)
with every step: it either makes something at a vacant address, or leaves nothing alive that was not
alive before.
-/

namespace Invocation

/-- An invoker is made of the very pair that was to be compiled, whatever the backend does. -/
theorem Backend.compile_eq_ok {σ τ : Type} [Surroundings τ] {backend : Backend σ τ}
    {m : MethodHandle σ} {target : Option Target} {x y : τ} {i : Invoker σ}
    (h : (backend.compile m target).run x = some (.ok i, y)) :
    i.method = m ∧ i.target = target := by
  unfold compile at h
  cases hb : Binding.make m target with
  | error e =>
    rw [hb] at h
    cases h
  | ok b =>
    obtain ⟨-, rfl⟩ := (Binding.make_eq_ok_iff m target b).mp hb
    simp only [hb, StateT.run_bind, Option.bind_eq_bind, Option.bind_eq_some_iff] at h
    obtain ⟨⟨emitted, z⟩, -, h⟩ := h
    cases emitted with
    | error e => cases h
    | ok thunk =>
      cases h
      exact ⟨rfl, rfl⟩

namespace Program

open Cache.Interleaving (Frame)

variable {σ : Type}

namespace Pair

/-- What an invoker was compiled from is its method and its target. -/
theorem ofInvoker_eq_iff (i : Invoker σ) (p : Pair σ) :
    ofInvoker i = p ↔ i.method = p.method ∧ i.target = p.target := by
  cases p
  simp [ofInvoker]

end Pair

namespace State

variable {s t : State σ}

/-- The parts of a pair were made some time. -/
structure Knows (s : State σ) (p : Pair σ) : Prop where
  method : p.method ∈ s.methods
  target : ∀ x, p.target = some x → x ∈ s.instances

/-- What holds of a program at every moment. -/
structure Sound (s : State σ) : Prop where
  separate : s.Separate
  caches : ∀ u ∈ s.caches, u.Sound
  /-- Also what is gone by now and was named in a request was made some time. -/
  uses : ∀ u ∈ s.caches, ∀ p slot, (p, slot) ∈ u.uses → s.Knows p
  liveMethods : s.liveMethods ⊆ s.methods
  liveTargets : s.liveTargets ⊆ s.instances
  methodIds : (s.methods.map MethodHandle.id).Nodup
  instanceIds : (s.instances.map Target.id).Nodup
  methodIds_lt : ∀ m ∈ s.methods, m.id < s.nextId
  instanceIds_lt : ∀ x ∈ s.instances, x.id < s.nextId

/-- A pair whose parts are alive is known. -/
theorem Sound.knows (hs : s.Sound) {p : Pair σ} (hp : s.Keeps p) : s.Knows p :=
  ⟨hs.liveMethods hp.method, fun x hx ↦ hs.liveTargets (hp.target x hx)⟩

/-- A program stays sound when nothing is made, as long as its caches do. -/
theorem Sound.within (hs : s.Sound) (hw : t.Within s) (hm : t.methods = s.methods)
    (hi : t.instances = s.instances) (hn : s.nextId ≤ t.nextId) (hc : ∀ u ∈ t.caches, u.Sound)
    (hu : ∀ u ∈ t.caches, ∀ p slot, (p, slot) ∈ u.uses → s.Knows p) : t.Sound := by
  constructor
  · exact hs.separate.within hw
  · exact hc
  · intro u hmem p slot hp
    have hk := hu u hmem p slot hp
    exact ⟨hm ▸ hk.method, hi ▸ hk.target⟩
  · rw [hm]
    exact List.Subset.trans hw.methods hs.liveMethods
  · rw [hi]
    exact List.Subset.trans hw.targets hs.liveTargets
  · rw [hm]
    exact hs.methodIds
  · rw [hi]
    exact hs.instanceIds
  · rw [hm]
    exact fun m h ↦ Nat.lt_of_lt_of_le (hs.methodIds_lt m h) hn
  · rw [hi]
    exact fun x h ↦ Nat.lt_of_lt_of_le (hs.instanceIds_lt x h) hn

/-- A program can take any handles to what is alive, and drop any. -/
theorem Sound.rehandle (hs : s.Sound) {handles : List (Handle σ)}
    (hh : ∀ h ∈ handles, s.Allows h)
    (hc : ∀ n, .cache n ∈ handles → .cache n ∈ s.handles) :
    State.Sound { s with handles := handles } := by
  refine hs.within (within_of_allows hh ?_) rfl rfl (Nat.le_refl _) hs.caches hs.uses
  intro n u hu hl p hp
  refine keeps_of_owned hu ((s.isLive_iff n u).mpr ?_) hp
  rcases (isLive_iff _ n u).mp hl with hmem | hf
  · exact .inl (hc n hmem)
  · exact .inr hf

/-- A program can take handles to the parts of a live pair. -/
theorem Sound.giveParts (hs : s.Sound) {p : Pair σ} (hp : s.Keeps p) :
    (s.give (handlesOf p)).Sound := by
  apply hs.rehandle
  · intro h hh
    rcases List.mem_append.mp hh with hh | hh
    · exact hp.allows hh
    · exact allows_of_mem hh
  · intro n hn
    rcases List.mem_append.mp hn with hn | hn
    · simp [handlesOf] at hn
    · exact hn

/-- A program can make a cache. -/
theorem Sound.newCache (hs : s.Sound) (callers : Nat) :
    State.Sound
      { s.give [.cache s.caches.length] with caches := s.caches ++ [.start callers] } := by
  have hcases {n : Nat} {u : UsedCache σ} (hu : (s.caches ++ [.start callers])[n]? = some u) :
      s.caches[n]? = some u ∨ u = .start callers := by
    rw [List.getElem?_append] at hu
    split at hu
    · exact .inl hu
    · exact .inr (List.mem_singleton.mp (List.mem_of_getElem? hu))
  have hmem {u : UsedCache σ} (hu : u ∈ s.caches ++ [.start callers]) :
      u ∈ s.caches ∨ u = .start callers := by
    rcases List.mem_append.mp hu with hu | hu
    · exact .inl hu
    · exact .inr (List.mem_singleton.mp hu)
  refine hs.within (within_of_allows ?_ ?_) rfl rfl (Nat.le_refl _) ?_ ?_
  · intro h hh
    rcases List.mem_cons.mp hh with rfl | hh
    · exact ⟨fun m hm ↦ (by cases hm), fun x hx ↦ (by cases hx)⟩
    · exact allows_of_mem hh
  · intro n u hu hl p hp
    rcases hcases hu with hu | rfl
    · refine keeps_of_owned hu ((s.isLive_iff n u).mpr ?_) hp
      rcases (isLive_iff _ n u).mp hl with hh | hf
      · rcases List.mem_cons.mp hh with he | hh
        -- The number of the new cache is that of no cache before, so the handle keeps none alive.
        · obtain rfl := Handle.cache.inj he
          simp at hu
        · exact .inl hh
      · exact .inr hf
    · simp [UsedCache.owned, UsedCache.inFlight, UsedCache.start, Cache.ready, Cache.empty] at hp
  · intro u hu
    rcases hmem hu with hu | rfl
    · exact hs.caches u hu
    · exact UsedCache.sound_start callers
  · intro u hu p slot hp
    rcases hmem hu with hu | rfl
    · exact hs.uses u hu p slot hp
    · cases hp

/-- A program can use a live cache in any way that keeps it sound and nothing else alive, and get
handles to invokers of pairs that are alive. -/
theorem Sound.recache (hs : s.Sound) {n k : Nat} {u v : UsedCache σ} (invokers : List (Invoker σ))
    (hu : s.caches[n]? = some u) (hv : v.Sound) (ho : ∀ p ∈ v.owned, s.Keeps p)
    (huse : ∀ p slot, (p, slot) ∈ v.uses → s.Keeps p ∨ (p, slot) ∈ u.uses)
    (hi : ∀ i ∈ invokers, s.Keeps (.ofInvoker i)) (hk : s.nextId ≤ k) :
    State.Sound
      { s.give (invokers.map .invoker) with caches := s.caches.set n v, nextId := k } := by
  have hset {w : UsedCache σ} (hw : w ∈ s.caches.set n v) : w = v ∨ w ∈ s.caches :=
    (List.mem_or_eq_of_mem_set hw).symm
  refine hs.within (within_of_allows ?_ ?_) rfl rfl hk ?_ ?_
  · intro h hh
    rcases List.mem_append.mp hh with hh | hh
    · obtain ⟨i, hmem, rfl⟩ := List.mem_map.mp hh
      have hkeep := hi i hmem
      constructor
      · intro m hm
        cases hm
        exact hkeep.method
      · intro x hx
        exact hkeep.target x hx
    · exact allows_of_mem hh
  · intro m w hw hl p hp
    by_cases hm : n = m
    · subst hm
      rw [List.getElem?_set_self (List.getElem?_eq_some_iff.mp hu).1] at hw
      cases hw
      exact ho p hp
    · rw [List.getElem?_set_ne hm] at hw
      refine keeps_of_owned hw ((s.isLive_iff m w).mpr ?_) hp
      simpa [isLive_iff, give] using hl
  · intro w hw
    rcases hset hw with rfl | hw
    · exact hv
    · exact hs.caches w hw
  · intro w hw p slot hp
    rcases hset hw with rfl | hw
    · rcases huse p slot hp with hkeep | hold
      · exact hs.knows hkeep
      · exact hs.uses u (List.mem_of_getElem? hu) p slot hold
    · exact hs.uses w hw p slot hp

/-- An identity above all others is a new one. -/
theorem nodup_ids_cons {α : Type} {id : α → Nat} {xs : List α} {x : α} (h : (xs.map id).Nodup)
    (hlt : ∀ a ∈ xs, id a < id x) : ((x :: xs).map id).Nodup := by
  refine List.nodup_cons.mpr ⟨fun hm ↦ ?_, h⟩
  obtain ⟨a, ha, he⟩ := List.mem_map.mp hm
  have := hlt a ha
  omega

/-- Identities stay below the next one when one more is given out. -/
theorem ids_lt_cons {α : Type} {id : α → Nat} {xs : List α} {x : α} {next : Nat} (hx : id x = next)
    (hlt : ∀ a ∈ xs, id a < next) : ∀ a ∈ x :: xs, id a < next + 1 := by
  intro a ha
  rcases List.mem_cons.mp ha with rfl | ha
  · omega
  · exact Nat.lt_succ_of_lt (hlt a ha)

/-- A method made at a vacant address keeps a program sound. -/
theorem Sound.newMethod (hs : s.Sound) {m : MethodHandle σ} (hid : m.id = s.nextId)
    (hv : s.isVacantForMethod m.address = true) :
    State.Sound
      { s.give [.method m] with methods := m :: s.methods, nextId := s.nextId + 1 } := by
  obtain ⟨hm, hx⟩ := live_cons (s := s) (h := .method m)
    (t := { s.give [.method m] with methods := m :: s.methods, nextId := s.nextId + 1 }) rfl rfl
    fun _ ↦ rfl
  have hvacant (n : MethodHandle σ) (hn : n ∈ s.liveMethods) : n.address ≠ m.address := by
    simpa using List.all_eq_true.mp hv n hn
  constructor
  · constructor
    · rw [hm]
      exact inj_of_vacant hs.separate.methods hvacant
    · rw [hx]
      exact hs.separate.targets
    · rw [hx]
      exact hs.separate.ne_zero
  · exact hs.caches
  · intro u hu p slot hp
    have hk := hs.uses u hu p slot hp
    exact ⟨List.mem_cons_of_mem _ hk.method, hk.target⟩
  · rw [hm]
    exact List.cons_subset_cons m hs.liveMethods
  · rw [hx]
    exact hs.liveTargets
  · exact nodup_ids_cons hs.methodIds (hid ▸ hs.methodIds_lt)
  · exact hs.instanceIds
  · exact ids_lt_cons hid hs.methodIds_lt
  · exact fun x h ↦ Nat.lt_succ_of_lt (hs.instanceIds_lt x h)

/-- An instance made at a vacant address keeps a program sound. -/
theorem Sound.makeInstance (hs : s.Sound) {handle : Target → Handle σ}
    (hmethod : ∀ x, (handle x).method? = none) (htarget : ∀ x, (handle x).target? = some x)
    (hcache : ∀ x n, (handle x).isCache n = false) {type : HostType} {address : Word}
    (h : s.makeInstance handle type address = some t) : t.Sound := by
  unfold State.makeInstance at h
  split at h
  · next hv =>
    obtain ⟨hzero, hv⟩ := Bool.and_eq_true_iff.mp hv
    cases h
    let x : Target := ⟨s.nextId, address, type⟩
    obtain ⟨hm, hx⟩ := live_cons (s := s) (h := handle x)
      (t := { s.give [handle x] with instances := x :: s.instances, nextId := s.nextId + 1 })
      rfl rfl (hcache x)
    rw [hmethod] at hm
    rw [htarget] at hx
    have hvacant (y : Target) (hy : y ∈ s.liveTargets) : y.address ≠ x.address := by
      simpa using List.all_eq_true.mp hv y hy
    constructor
    · constructor
      · rw [hm]
        exact hs.separate.methods
      · rw [hx]
        exact inj_of_vacant hs.separate.targets hvacant
      · rw [hx]
        intro y hy
        rcases List.mem_cons.mp hy with rfl | hy
        · simpa using hzero
        · exact hs.separate.ne_zero y hy
    · exact hs.caches
    · intro u hu p slot hp
      have hk := hs.uses u hu p slot hp
      exact ⟨hk.method, fun y hy ↦ List.mem_cons_of_mem _ (hk.target y hy)⟩
    · rw [hm]
      exact hs.liveMethods
    · rw [hx]
      exact List.cons_subset_cons x hs.liveTargets
    · exact hs.methodIds
    · exact nodup_ids_cons hs.instanceIds hs.instanceIds_lt
    · exact fun m h ↦ Nat.lt_succ_of_lt (hs.methodIds_lt m h)
    · exact ids_lt_cons rfl hs.instanceIds_lt
  · cases h

/-- Compiling gives identities out, and takes none back. -/
theorem le_of_compile {name : String} {emitted : Except CompileError (Thunk σ)}
    {m : MethodHandle σ} {target : Option Target} {n : Nat}
    {outcome : Except CompileError (Invoker σ)} {supply : Supply}
    (h : ((⟨name, fun _ ↦ pure emitted⟩ : Backend σ Supply).compile m target).run ⟨n⟩ =
      some (outcome, supply)) : n ≤ supply.next := by
  unfold Backend.compile at h
  cases hb : Binding.make m target with
  | error e =>
    rw [hb] at h
    cases h
    exact Nat.le_refl n
  | ok b =>
    rw [hb] at h
    cases emitted with
    | error e =>
      cases h
      exact Nat.le_refl n
    | ok thunk =>
      cases h
      exact Nat.le_succ n

/-- A request to a cache that moves on keeps the program sound. -/
theorem Sound.turn (hs : s.Sound) {n k caller : Nat} {free : Bool} {u v : UsedCache σ}
    {f : Request σ} {p : Pair σ} {others : List (Request σ × Pair σ)} {next : Option (Request σ)}
    {record : List (Cache.Interleaving.Occurrence CacheKey (Invoker σ) CompileError)}
    (invokers : List (Invoker σ)) (hu : s.caches[n]? = some u)
    (ht : Turn caller free u v f p others next record)
    (hmade : ∀ slot i, f.phase = .compile slot → v.cache.cellAt slot = .done (.ok i) →
      .ofInvoker i = p)
    (hi : ∀ i ∈ invokers, (p, i) ∈ v.served) (hk : s.nextId ≤ k) :
    State.Sound
      { s.give (invokers.map .invoker) with caches := s.caches.set n v, nextId := k } := by
  have hlive : s.isLive n u = true :=
    (s.isLive_iff n u).mpr (.inr (List.ne_nil_of_mem ht.mem_inFlight))
  have husound := hs.caches u (List.mem_of_getElem? hu)
  have hvsound := ht.sound husound (hs.separate.distinct hu hlive) hmade
  have hp : s.Keeps p :=
    keeps_of_owned hu hlive (UsedCache.mem_owned_of_inFlight ht.mem_inFlight)
  refine hs.recache invokers hu hvsound ?_ ?_ ?_ hk
  · intro q hq
    exact keeps_of_owned hu hlive (ht.owned_subset husound hmade hq)
  · intro q slot hq
    rcases ht.use_cases hq with ⟨rfl, -⟩ | hold
    · exact .inl hp
    · exact .inr hold
  · intro i hmem
    rw [(hvsound.served p i (hi i hmem)).1]
    exact hp

/-- A request for a method and a target that the program has handles to keeps it sound. -/
theorem Sound.ask (hs : s.Sound) {n caller : Nat} {goal : Cache.Interleaving.Goal} {p : Pair σ}
    {u v : UsedCache σ} (hu : s.caches[n]? = some u) (hl : s.isLive n u = true) (hp : s.Keeps p)
    (h : u.ask caller goal p = some v) :
    State.Sound { s with caches := s.caches.set n v } := by
  have hvsound := (hs.caches u (List.mem_of_getElem? hu)).ask h
  obtain ⟨hcache, huses, -, hperm⟩ := UsedCache.ask_cases h
  apply hs.recache [] hu hvsound
  · intro q hq
    rcases List.mem_append.mp hq with hq | hq
    · rcases List.mem_cons.mp ((hperm.map Prod.snd).mem_iff.mp hq) with rfl | hold
      · exact hp
      · exact keeps_of_owned hu hl (List.mem_append_left _ hold)
    · rw [hcache] at hq
      exact keeps_of_owned hu hl (List.mem_append_right _ hq)
  · intro q slot hq
    exact .inr (huses ▸ hq)
  · intro i hi
    cases hi
  · exact Nat.le_refl _

/-- Every step keeps a program sound. -/
theorem sound_step {shard : CacheKey → Nat} {move : Move σ} (hs : s.Sound)
    (h : s.step shard move = some t) : t.Sound := by
  cases move with
  | newMethod m address =>
    simp only [step] at h
    split at h
    · next hv =>
      cases h
      exact hs.newMethod (m := ⟨s.nextId, address, m⟩) rfl hv
    · cases h
  | newShared type address => exact hs.makeInstance (fun _ ↦ rfl) (fun _ ↦ rfl) (fun _ _ ↦ rfl) h
  | newTarget type address => exact hs.makeInstance (fun _ ↦ rfl) (fun _ ↦ rfl) (fun _ _ ↦ rfl) h
  | toTarget n =>
    simp only [step] at h
    split at h
    · next x hx =>
      cases h
      have hshared := allows_of_mem (List.mem_of_getElem? hx)
      apply hs.rehandle
      · intro a ha
        rcases List.mem_or_eq_of_mem_set ha with ha | rfl
        · exact allows_of_mem ha
        · exact ⟨hshared.method, hshared.target⟩
      · intro m hm
        rcases List.mem_or_eq_of_mem_set hm with hm | he
        · exact hm
        · cases he
    · cases h
  | clone n =>
    obtain ⟨a, ha, rfl⟩ := Option.map_eq_some_iff.mp h
    have ha := List.mem_of_getElem? ha
    apply hs.rehandle
    · intro b hb
      rcases List.mem_cons.mp hb with rfl | hb
      · exact allows_of_mem ha
      · exact allows_of_mem hb
    · intro m hm
      rcases List.mem_cons.mp hm with rfl | hm
      · exact ha
      · exact hm
  | cloneParts n =>
    simp only [step] at h
    split at h
    · next i hi =>
      cases h
      have hinvoker := allows_of_mem (List.mem_of_getElem? hi)
      have hkeep : s.Keeps (.ofInvoker i) := ⟨hinvoker.method _ rfl, hinvoker.target⟩
      exact hs.giveParts hkeep
    · cases h
  | cloneBinding n caller =>
    obtain ⟨p, hp, rfl⟩ := Option.map_eq_some_iff.mp h
    obtain ⟨u, hu, hp⟩ := Option.bind_eq_some_iff.mp hp
    obtain ⟨f, hf⟩ := UsedCache.mem_inFlight_of_compiling? hp
    have hlive := (s.isLive_iff n u).mpr (.inr (List.ne_nil_of_mem hf))
    exact hs.giveParts (keeps_of_owned hu hlive (UsedCache.mem_owned_of_inFlight hf))
  | drop n =>
    simp only [step] at h
    split at h
    · cases h
      apply hs.rehandle
      · intro a ha
        exact allows_of_mem (List.mem_of_mem_eraseIdx ha)
      · intro m hm
        exact List.mem_of_mem_eraseIdx hm
    · cases h
  | newCache callers =>
    cases h
    exact hs.newCache callers
  | ask cache caller goal method target =>
    simp only [step] at h
    split at h
    · next n m x hc hm hx =>
      obtain ⟨v, hv, rfl⟩ := Option.map_eq_some_iff.mp h
      obtain ⟨u, hu, hv⟩ := Option.bind_eq_some_iff.mp hv
      have hlive := (s.isLive_iff n u).mpr (.inl (List.mem_of_getElem? hc))
      refine hs.ask hu hlive ⟨?_, ?_⟩ hv
      · exact (allows_of_mem (List.mem_of_getElem? hm)).method m rfl
      · exact mem_liveTargets_of_targetAt? hx
    · cases h
  | proceed n caller =>
    obtain ⟨⟨v, invokers⟩, hv, rfl⟩ := Option.map_eq_some_iff.mp h
    obtain ⟨u, hu, hv⟩ := Option.bind_eq_some_iff.mp hv
    obtain ⟨f, p, others, next, record, free, ht, hc, rfl⟩ := UsedCache.turn_of_proceed hv
    refine hs.turn _ hu ht (fun slot i hp ↦ absurd hp (hc slot)) ?_ (Nat.le_refl _)
    intro i hi
    rw [ht.served]
    exact List.mem_append_left _ (List.mem_map_of_mem hi)
  | finish n caller backend emitted =>
    simp only [step, Option.bind_eq_bind, Option.bind_eq_some_iff, Option.pure_def,
      Option.some.injEq] at h
    obtain ⟨u, hu, p, hp, ⟨outcome, supply⟩, hcompile, v, hv, rfl⟩ := h
    obtain ⟨f, q, others, next, record, slot, ht, hq, hc, hsettle⟩ := UsedCache.turn_of_finish hv
    obtain rfl := Option.some.inj (hp.symm.trans hq)
    refine hs.turn [] hu ht ?_ (fun i hi ↦ (by cases hi)) (le_of_compile hcompile)
    intro other i ho hi
    obtain rfl : slot = other := by simpa [hc] using ho
    -- The cell is in the table, so it exists, and what is in it now is the outcome.
    have husound := hs.caches u (List.mem_of_getElem? hu)
    have hf := ht.sound_frame husound
    simp only [Frame.Sound, hc] at hf
    rw [hsettle, Cache.settle, u.cache.cellAt_setCell _ (husound.consistent.wf.exist _ hf.1)] at hi
    obtain rfl : outcome = .ok i := by simpa using hi
    exact (Pair.ofInvoker_eq_iff i p).mpr (Backend.compile_eq_ok hcompile)

/-- Every run from the start is sound. -/
theorem sound_run {shard : CacheKey → Nat} {moves : List (Move σ)} (hs : s.Sound)
    (h : s.run shard moves = some t) : t.Sound := by
  induction moves generalizing s with
  | nil =>
    cases h
    exact hs
  | cons move moves ih =>
    obtain ⟨u, hu, ht⟩ := Option.bind_eq_some_iff.mp h
    exact ih (sound_step hs hu) ht

/-- A program that has nothing yet is sound. -/
theorem sound_start : (start : State σ).Sound := by
  have hm : (start : State σ).liveMethods = [] := rfl
  have hx : (start : State σ).liveTargets = [] := rfl
  constructor
  · constructor <;> simp [hm, hx]
  · intro u hu
    cases hu
  · intro u hu
    cases hu
  · exact hm ▸ List.nil_subset _
  · exact hx ▸ List.nil_subset _
  · exact List.nodup_nil
  · exact List.nodup_nil
  · intro m hm
    cases hm
  · intro x hx
    cases hx

/-- Two pairs that were made some time name the same allocations only if they are the same. -/
theorem Sound.eq_of_same (hs : s.Sound) {p q : Pair σ} (hp : s.Knows p) (hq : s.Knows q)
    (h : p.Same q) : p = q := by
  obtain ⟨m, x⟩ := p
  obtain ⟨n, y⟩ := q
  obtain ⟨hm, hx⟩ := h
  obtain rfl : m = n := List.inj_on_of_nodup_map hs.methodIds hp.method hq.method hm
  cases x with
  | none =>
    cases y with
    | none => rfl
    | some y => cases hx
  | some x =>
    cases y with
    | none => cases hx
    | some y =>
      have hid : x.id = y.id := Option.some.inj hx
      rw [List.inj_on_of_nodup_map hs.instanceIds (hp.target x rfl) (hq.target y rfl) hid]

/-- In every run an invoker that was served for a pair is of this very method and target. The cells
of a cache that two requests used are the same only if the requests name the same allocations, and
then they are the same unless one of them failed and was dropped. As long as a cache is alive, each
entry of its table belongs to one pair, whose parts are alive: its cell was used for no other pair,
and what is in it was compiled from this pair. And live pairs have the same key exactly if they name
the same allocations. -/
theorem never_alias {shard : CacheKey → Nat} {moves : List (Move σ)}
    (h : (start : State σ).run shard moves = some t) :
    (∀ u ∈ t.caches, ∀ p i, (p, i) ∈ u.served → i.method = p.method ∧ i.target = p.target) ∧
    (∀ u ∈ t.caches, ∀ p q a b, (p, a) ∈ u.uses → (q, b) ∈ u.uses →
      (a = b → p.Same q) ∧ (p.Same q → a = b ∨ u.Dropped p.key a ∨ u.Dropped q.key b)) ∧
    (∀ n u, t.caches[n]? = some u → t.isLive n u = true →
      ∀ key slot, (key, slot) ∈ u.cache.table →
        ∃ p, t.Keeps p ∧ p.key = key ∧ (∀ q, (q, slot) ∈ u.uses → q = p) ∧
          ∀ i, u.cache.cellAt slot = .done (.ok i) → .ofInvoker i = p) ∧
    ∀ p q, t.Keeps p → t.Keeps q → (p.key = q.key ↔ p.Same q) := by
  have hs := sound_run sound_start h
  refine ⟨fun u hu p i hi ↦ ?_, fun u hu p q a b hp hq ↦ ⟨?_, fun hsame ↦ ?_⟩,
    fun n u hu hl key slot hm ↦ ?_, fun p q hp hq ↦ ⟨fun hk ↦ ?_, fun hsame ↦ ?_⟩⟩
  · exact (Pair.ofInvoker_eq_iff i p).mp ((hs.caches u hu).served p i hi).1
  · rintro rfl
    obtain rfl := (hs.caches u hu).alone p q a hp hq
    exact ⟨rfl, rfl⟩
  · obtain rfl := hs.eq_of_same (hs.uses u hu p a hp) (hs.uses u hu q b hq) hsame
    exact (hs.caches u hu).eq_or_dropped hp hq
  · have husound := hs.caches u (List.mem_of_getElem? hu)
    obtain ⟨p, hp, hk, huse⟩ := husound.exists_owned hm
    have hkeep := keeps_of_owned hu hl hp
    refine ⟨p, hkeep, hk, huse, fun i hi ↦ ?_⟩
    subst hk
    exact husound.ofInvoker_eq (hs.separate.distinct hu hl) hp
      ((Cache.lookup_eq_some_iff husound.consistent.wf _ i).mpr ⟨slot, hm, hi⟩)
  · obtain rfl := hs.separate.eq_of_key hp hq hk
    exact ⟨rfl, rfl⟩
  · rw [hs.eq_of_same (hs.knows hp) (hs.knows hq) hsame]

/-- A method that opens a door. -/
def openDoor : Method Unit :=
  ⟨"Door.open", ⟨[], .void, .instance ⟨1, "Door"⟩⟩, 4096, fun _ _ s ↦ ((), s)⟩

/-- A method and a door are made, and compiling them fails; both are dropped, and another method and
another door are put where they were. These are compiled, and then found ready. -/
def reusedMoves : List (Move Unit) :=
  [Move.newMethod openDoor 16, .newTarget ⟨1, "Door"⟩ 32, .newCache 1,
      .ask 0 0 .obtain 2 (some 1)] ++
    List.replicate 6 (Move.proceed 0 0) ++
    [Move.finish 0 0 "broken" (.error (.codegen "no code"))] ++
    List.replicate 4 (Move.proceed 0 0) ++
    [Move.drop 1, .drop 1, .newMethod openDoor 16, .newTarget ⟨1, "Door"⟩ 32,
      .ask 2 0 .obtain 1 (some 0)] ++
    List.replicate 6 (Move.proceed 0 0) ++
    [Move.finish 0 0 "working" (.ok fun _ ↦ pure (.ok .null))] ++
    List.replicate 2 (Move.proceed 0 0) ++ [Move.ask 3 0 .peek 2 (some 1)] ++
    List.replicate 2 (Move.proceed 0 0)

/-- The second method and the second door have the key of the first ones and share nothing with
them. -/
theorem never_alias_reusedMoves :
    ∃ t u, (start : State Unit).run (fun _ ↦ 0) reusedMoves = some t ∧ t.caches = [u] ∧
      (u.uses.map fun (p, slot) ↦ (p.method.id, p.key, slot)) =
        [(2, ⟨16, 32⟩, 1), (2, ⟨16, 32⟩, 1), (0, ⟨16, 32⟩, 0)] ∧
      (u.served.map fun (p, i) ↦ (p.method.id, i.id)) = [(2, 4), (2, 4)] ∧
      ∀ p i, (p, i) ∈ u.served → i.method = p.method ∧ i.target = p.target := by
  have h : ∃ t u, (start : State Unit).run (fun _ ↦ 0) reusedMoves = some t ∧ t.caches = [u] ∧
      (u.uses.map fun (p, slot) ↦ (p.method.id, p.key, slot)) =
        [(2, ⟨16, 32⟩, 1), (2, ⟨16, 32⟩, 1), (0, ⟨16, 32⟩, 0)] ∧
      (u.served.map fun (p, i) ↦ (p.method.id, i.id)) = [(2, 4), (2, 4)] :=
    ⟨_, _, rfl, rfl, rfl, rfl⟩
  obtain ⟨t, u, hrun, hcaches, huses, hserved⟩ := h
  exact ⟨t, u, hrun, hcaches, huses, hserved,
    (never_alias hrun).1 u (hcaches ▸ List.mem_cons_self ..)⟩

end State
end Program
end Invocation
