import Invocation.Proofs.Compiler
import Invocation.Proofs.Cache.Settled
import Invocation.Session.Backend

/-!
# Clients of a cache

Whoever uses a cache of invokers on its own does one thing after the other: work on its
surroundings, ask what is ready, and request invokers (`Client`). A backend can be such a client of
the very cache that it emits for (`Emitter`); its requests make it emit again, to any depth that is
allowed, and nothing comes of a run that would go deeper.

A request to a settled cache is a hit, or it compiles between `Cache.began` and `Cache.conclude`
(`InvokerCache.getOrCompile_cases`). Whatever a client does, it leaves the cache settled, with all
entries that it found (`Emitter.settles_getOrCompile`, `Client.settles_run`). More depth changes
nothing that comes of a run (`Emitter.transfers_depth`).
-/

namespace Invocation

namespace Cache.RequestM

variable {κ ι ε τ : Type} (c : Cache κ ι ε) (x : τ)

theorem cache_apply : cache (c, x) = some (c, c, x) := rfl

theorem update_apply (f : Cache κ ι ε → Cache κ ι ε) :
    update f (c, x) = some ((), f c, x) := rfl

theorem claim_apply [DecidableEq κ] (key : κ) :
    claim key (c, x) = some ((c.claim key).1, (c.claim key).2, x) := rfl

end Cache.RequestM

/-- What comes of filling a cell is what comes of the compilation, and the outcome is put into the
cell. -/
theorem Cache.fill_eq {κ ι ε τ : Type} [DecidableEq κ] (key : κ) (slot : Nat)
    (compile : RequestM κ ι ε τ (Except ε ι)) (c : Cache κ ι ε) (x : τ) :
    fill key slot compile (c, x) =
      (compile (c.start slot, x)).map fun r ↦ (r.1, r.2.1.conclude key slot r.1, r.2.2) := by
  rw [fill, bind_apply, RequestM.update_apply, Option.bind_some, bind_apply]
  cases compile (c.start slot, x) with
  | none => rfl
  | some r =>
    obtain ⟨outcome, d, y⟩ := r
    cases outcome <;> rfl

namespace InvokerCache

open Cache

variable {σ τ : Type} [Surroundings τ] {backend : Backend σ (InvokerCache σ × τ)}
  {m : MethodHandle σ} {target : Option Target} {c : InvokerCache σ} {x : τ}

/-- What comes of a request is decided by what is ready, and else by the cell that it claims. -/
theorem getOrCompile_eq :
    getOrCompile backend m target (c, x) =
      match c.lookup (.of m target) with
      | some i => some (.ok i, c.countHit, Surroundings.record (.hit m.method.name) x)
      | none =>
        let (slot, d) := c.countMiss.claim (.of m target)
        let y := Surroundings.record (.miss m.method.name) x
        match d.cellAt slot with
        | .empty => fill (.of m target) slot (backend.compile m target) (d, y)
        | .running => none
        | .done outcome => some (outcome, d, y) := by
  unfold getOrCompile request
  simp only [bind_apply, RequestM.cache_apply, Option.bind_some]
  cases c.lookup (.of m target) with
  | some i => rfl
  | none =>
    simp only [bind_apply, RequestM.update_apply, report_apply, record_prod, RequestM.claim_apply,
      RequestM.cache_apply, Option.bind_some]
    cases (c.countMiss.claim (CacheKey.of m target)).2.cellAt
      (c.countMiss.claim (CacheKey.of m target)).1 <;> rfl

/-- A request for a ready key is a hit: it gets what is ready, and nothing is compiled. -/
theorem getOrCompile_of_get {i : Invoker σ} (h : c.get m target = some i) :
    getOrCompile backend m target (c, x) =
      some (.ok i, c.countHit, Surroundings.record (.hit m.method.name) x) := by
  have hlookup : c.lookup (.of m target) = some i := h
  rw [getOrCompile_eq, hlookup]

/-- A request for a key without a cell is a miss: it compiles, and puts the outcome into a new
cell. -/
theorem getOrCompile_of_slotOf? (h : c.slotOf? (.of m target) = none) :
    getOrCompile backend m target (c, x) =
      (backend.compile m target (c.began (.of m target),
        Surroundings.record (.miss m.method.name) x)).map fun r ↦
          (r.1, r.2.1.conclude (.of m target) c.cells.length r.1, r.2.2) := by
  have hslot : c.countMiss.slotOf? (.of m target) = none := h
  have hclaim : (c.countMiss.claim (.of m target)).1 = c.cells.length := by
    rw [claim, hslot]
    rfl
  have hempty : (c.countMiss.claim (.of m target)).2.cellAt c.cells.length = .empty := by
    rw [cellAt_claim]
    exact c.cellAt_of_le (Nat.le_refl _)
  rw [getOrCompile_eq, lookup_of_slotOf? h]
  simp only [hclaim, hempty]
  exact fill_eq ..

/-- Nothing comes of a request for a key that is being compiled for. -/
theorem getOrCompile_of_running {slot : Nat} (h : c.slotOf? (.of m target) = some slot)
    (hrunning : c.cellAt slot = .running) : getOrCompile backend m target (c, x) = none := by
  have hslot : c.countMiss.slotOf? (.of m target) = some slot := h
  have hcell : c.countMiss.cellAt slot = .running := hrunning
  have hlookup : c.lookup (.of m target) = none := by
    rw [lookup, cellOf?, h, Option.map_some, hrunning]
    rfl
  rw [getOrCompile_eq, hlookup, claim_of_slotOf? hslot]
  simp only [hcell]

/-- A request to a settled cache that is answered is a hit, or it has compiled. -/
theorem getOrCompile_cases (hc : c.Settled) {outcome : Except CompileError (Invoker σ)}
    {c' : InvokerCache σ} {x' : τ}
    (h : getOrCompile backend m target (c, x) = some (outcome, c', x')) :
    (∃ i, c.get m target = some i ∧ outcome = .ok i ∧ c' = c.countHit ∧
        x' = Surroundings.record (.hit m.method.name) x) ∨
      c.slotOf? (.of m target) = none ∧ ∃ d,
        backend.compile m target (c.began (.of m target),
          Surroundings.record (.miss m.method.name) x) = some (outcome, d, x') ∧
        c' = d.conclude (.of m target) c.cells.length outcome := by
  cases hslot : c.slotOf? (.of m target) with
  | none =>
    rw [getOrCompile_of_slotOf? hslot, Option.map_eq_some_iff] at h
    obtain ⟨⟨outcome, d, y⟩, hrun, hp⟩ := h
    cases hp
    exact .inr ⟨rfl, d, hrun, rfl⟩
  | some slot =>
    rcases hc.held _ (mem_of_lookup_eq_some hslot) with hrunning | ⟨i, hi⟩
    · rw [getOrCompile_of_running hslot hrunning] at h
      cases h
    · have hget : c.get m target = some i := by
        rw [get, lookup, cellOf?, hslot, Option.map_some, hi]
        rfl
      rw [getOrCompile_of_get hget] at h
      cases h
      exact .inl ⟨i, hget, rfl, rfl, rfl⟩

/-- What comes of a request comes of it in other surroundings, if so it is with the compilation. -/
theorem transfers_getOrCompile {τ' : Type} [Surroundings τ'] {U : τ → τ' → Prop}
    {backend' : Backend σ (InvokerCache σ × τ')}
    (hrecord : ∀ e x y, U x y → U (Surroundings.record e x) (Surroundings.record e y))
    (hcompile : Transfers (Both Eq U) (backend.compile m target) (backend'.compile m target)) :
    Transfers (Both Eq U) (getOrCompile backend m target) (getOrCompile backend' m target) := by
  rintro ⟨c, x⟩ ⟨d, y⟩ outcome s' ⟨hc, hx⟩ h
  obtain rfl : c = d := hc
  have hx : U x y := hx
  rw [getOrCompile_eq] at h ⊢
  cases hl : c.lookup (.of m target) with
  | some i =>
    simp only [hl, Option.some.injEq] at h ⊢
    cases h
    exact ⟨_, rfl, rfl, hrecord _ x y hx⟩
  | none =>
    simp only [hl] at h ⊢
    cases hcell : (c.countMiss.claim (.of m target)).2.cellAt
        (c.countMiss.claim (.of m target)).1 with
    | running => simp [hcell] at h
    | done outcome' =>
      simp only [hcell, Option.some.injEq] at h ⊢
      cases h
      exact ⟨_, rfl, rfl, hrecord _ x y hx⟩
    | empty =>
      simp only [hcell, fill_eq, Option.map_eq_some_iff] at h ⊢
      obtain ⟨⟨outcome', c', x'⟩, hrun, hpair⟩ := h
      cases hpair
      obtain ⟨⟨d', y'⟩, hrun', hc', hx'⟩ := hcompile _ (_, _) _ _ ⟨rfl, hrecord _ x y hx⟩ hrun
      obtain rfl : c' = d' := hc'
      exact ⟨_, ⟨_, hrun', rfl⟩, rfl, hx'⟩

end InvokerCache

/-- What can be asked of a cache without a request. -/
inductive Query (σ : Type) where
  | get (m : MethodHandle σ) (target : Option Target)
  | contains (m : MethodHandle σ) (target : Option Target)
  | size
  | isEmpty
  | stats

namespace Query

variable {σ : Type}

/-- What sort of answer there is. -/
abbrev Answer : Query σ → Type
  | .get .. => Option (Invoker σ)
  | .contains .. => Bool
  | .size => Nat
  | .isEmpty => Bool
  | .stats => CacheStats

/-- The answer of a cache. -/
def answer (c : InvokerCache σ) : (q : Query σ) → q.Answer
  | .get m target => c.get m target
  | .contains m target => c.contains m target
  | .size => c.size
  | .isEmpty => c.isEmpty
  | .stats => c.stats

end Query

/-- What a user of a cache does. -/
inductive Client (σ τ α : Type) where
  | done (result : α)
  /-- Change the surroundings, and go on with what they were. -/
  | work (change : τ → τ) (next : τ → Client σ τ α)
  | query (q : Query σ) (next : q.Answer → Client σ τ α)
  | request (m : MethodHandle σ) (target : Option Target)
    (next : Except CompileError (Invoker σ) → Client σ τ α)

/-- What can be noted while clients use a cache. -/
inductive Note (σ : Type) where
  /-- A client was in control, and the cache was this one. -/
  | seen (cache : InvokerCache σ)
  /-- A request was answered. -/
  | served (key : CacheKey) (outcome : Except CompileError (Invoker σ))

/-- Take no notes. -/
def Note.ignore {σ τ : Type} (_ : Note σ) (x : τ) : τ := x

/-- How an invoker is requested from a cache. -/
abbrev RequestOf (σ τ : Type) :=
  MethodHandle σ → Option Target →
    CompileM (InvokerCache σ × τ) (Except CompileError (Invoker σ))

namespace Client

variable {σ τ α : Type}

/-- What comes of a client that uses a cache, with a way to request invokers and a way to take
notes. -/
def run (note : Note σ → τ → τ) (request : RequestOf σ τ) :
    Client σ τ α → CompileM (InvokerCache σ × τ) α
  | .done result => fun (c, x) ↦ some (result, c, note (.seen c) x)
  | .work change next => fun (c, x) ↦
    (next (note (.seen c) x)).run note request (c, change (note (.seen c) x))
  | .query q next => fun (c, x) ↦ (next (q.answer c)).run note request (c, note (.seen c) x)
  | .request m target next => fun (c, x) ↦
    (request m target (c, note (.seen c) x)).bind fun (outcome, d, y) ↦
      (next outcome).run note request (d, note (.served (.of m target) outcome) y)

/-- A settled cache is left settled, with all entries that there were. -/
def Settles (s s' : InvokerCache σ × τ) : Prop :=
  s.1.Settled → s'.1.Settled ∧ s.1.Extends s'.1

theorem Settles.refl (s : InvokerCache σ × τ) : Settles s s := fun hs ↦ ⟨hs, .refl s.1⟩

theorem Settles.trans (s t u : InvokerCache σ × τ) (h : Settles s t) (h' : Settles t u) :
    Settles s u := by
  intro hs
  obtain ⟨ht, hst⟩ := h hs
  obtain ⟨hu, htu⟩ := h' ht
  exact ⟨hu, hst.trans htu⟩

/-- A client whose requests leave the cache settled does so itself. -/
theorem settles_run {note : Note σ → τ → τ} {request : RequestOf σ τ}
    (hrequest : ∀ m target, Keeps Settles (request m target)) (client : Client σ τ α) :
    Keeps Settles (client.run note request) := by
  induction client with
  | done result =>
    rintro ⟨c, x⟩ a s' h
    cases h
    exact .refl _
  | work change next ih =>
    rintro ⟨c, x⟩ a s' h
    exact ih (note (.seen c) x) (c, change (note (.seen c) x)) a s' h
  | query q next ih =>
    rintro ⟨c, x⟩ a s' h
    exact ih (q.answer c) (c, note (.seen c) x) a s' h
  | request m target next ih =>
    rintro ⟨c, x⟩ a s' h
    obtain ⟨⟨outcome, d, y⟩, hd, hrun⟩ := Option.bind_eq_some_iff.mp h
    have hfirst : Settles (c, x) (d, y) :=
      hrequest m target (c, note (.seen c) x) outcome (d, y) hd
    have hrest := ih outcome (d, note (.served (.of m target) outcome) y) a s' hrun
    exact hfirst.trans _ _ _ hrest

/-- What comes of a client comes of it with a related cache too, if the two caches answer all
queries alike and so it is with requests. -/
theorem transfers_run {R : InvokerCache σ → InvokerCache σ → Prop} {note : Note σ → τ → τ}
    {request request' : RequestOf σ τ}
    (hquery : ∀ c d, R c d → ∀ q : Query σ, q.answer c = q.answer d)
    (hnote : ∀ c d, R c d → ∀ x, note (.seen c) x = note (.seen d) x)
    (hrequest : ∀ m target, Transfers (Both R Eq) (request m target) (request' m target))
    (client : Client σ τ α) :
    Transfers (Both R Eq) (client.run note request) (client.run note request') := by
  induction client with
  | done result =>
    rintro ⟨c, x⟩ ⟨d, y⟩ a s' ⟨hR, hx⟩ h
    obtain rfl : x = y := hx
    cases h
    exact ⟨_, rfl, hR, hnote c d hR x⟩
  | work change next ih =>
    rintro ⟨c, x⟩ ⟨d, y⟩ a s' ⟨hR, hx⟩ h
    obtain rfl : x = y := hx
    have hseen := hnote c d hR x
    have hnext := ih (note (.seen c) x) (c, change (note (.seen c) x))
      (d, change (note (.seen d) x)) a s' ⟨hR, by rw [hseen]⟩ h
    rw [hseen] at hnext
    exact hnext
  | query q next ih =>
    rintro ⟨c, x⟩ ⟨d, y⟩ a s' ⟨hR, hx⟩ h
    obtain rfl : x = y := hx
    have hnext := ih (q.answer c) (c, note (.seen c) x) (d, note (.seen d) x) a s'
      ⟨hR, hnote c d hR x⟩ h
    rw [hquery c d hR q] at hnext
    exact hnext
  | request m target next ih =>
    rintro ⟨c, x⟩ ⟨d, y⟩ a s' ⟨hR, hx⟩ h
    obtain rfl : x = y := hx
    obtain ⟨⟨outcome, c', x'⟩, hfirst, hrun⟩ := Option.bind_eq_some_iff.mp h
    obtain ⟨⟨d', y'⟩, hfirst', hR', hx'⟩ := hrequest m target (c, note (.seen c) x)
      (d, note (.seen d) x) outcome (c', x') ⟨hR, hnote c d hR x⟩ hfirst
    obtain rfl : x' = y' := hx'
    obtain ⟨t, hrun', ht⟩ := ih outcome (c', note (.served (.of m target) outcome) x')
      (d', note (.served (.of m target) outcome) x') a s' ⟨hR', rfl⟩ hrun
    exact ⟨t, Option.bind_eq_some_iff.mpr ⟨_, hfirst', hrun'⟩, ht⟩

end Client

/-- A backend that uses the cache it emits for as a client. -/
structure Emitter (σ τ : Type) where
  name : String
  emit : Binding σ → Client σ τ (Except CompileError (Thunk σ))

namespace Emitter

variable {σ τ : Type} [Surroundings τ]

/-- The backend, whose emissions may make requests that make it emit, and so on to a depth. -/
def backend (note : Note σ → τ → τ) (p : Emitter σ τ) : Nat → Backend σ (InvokerCache σ × τ)
  | 0 => ⟨p.name, fun _ _ ↦ none⟩
  | depth + 1 => ⟨p.name, fun b ↦
    (p.emit b).run note (InvokerCache.getOrCompile (p.backend note depth))⟩

theorem name_backend (note : Note σ → τ → τ) (p : Emitter σ τ) (depth : Nat) :
    (p.backend note depth).name = p.name := by
  cases depth <;> rfl

/-- A request leaves a settled cache settled if every compilation does. -/
theorem settles_getOrCompile {backend : Backend σ (InvokerCache σ × τ)}
    (hcompile : ∀ m target, Keeps Client.Settles (backend.compile m target)) (m : MethodHandle σ)
    (target : Option Target) : Keeps Client.Settles (InvokerCache.getOrCompile backend m target) := by
  rintro ⟨c, x⟩ outcome ⟨c', x'⟩ h hc
  have hc : c.Settled := hc
  show c'.Settled ∧ c.Extends c'
  rcases InvokerCache.getOrCompile_cases hc h with ⟨i, -, -, rfl, -⟩ | ⟨hslot, d, hrun, rfl⟩
  · exact ⟨hc.countHit, fun entry hm ↦ ⟨hm, rfl⟩⟩
  · obtain ⟨hd, hextends⟩ : d.Settled ∧ (c.began (.of m target)).Extends d :=
      hcompile m target _ _ _ hrun (hc.began hslot)
    obtain ⟨hm, -⟩ := hextends _ (Cache.mem_table_began hslot)
    exact ⟨hd.conclude hm outcome, Cache.extends_conclude hc.wf hslot hextends hd.wf outcome⟩

/-- Compilations leave a settled cache settled, to any depth. -/
theorem settles_compile (note : Note σ → τ → τ) (p : Emitter σ τ) (depth : Nat)
    (m : MethodHandle σ) (target : Option Target) :
    Keeps Client.Settles ((p.backend note depth).compile m target) := by
  induction depth generalizing m target with
  | zero =>
    refine Backend.keeps_compile Client.Settles.refl Client.Settles.trans (fun e s ↦ .refl s)
      (fun s ↦ .refl s) (fun b s a s' h ↦ ?_) m target
    cases h
  | succ depth ih =>
    refine Backend.keeps_compile Client.Settles.refl Client.Settles.trans (fun e s ↦ .refl s)
      (fun s ↦ .refl s) (fun b ↦ ?_) m target
    exact Client.settles_run (settles_getOrCompile ih) (p.emit b)

/-- What comes of a compilation comes of it with more depth. -/
theorem transfers_depth (note : Note σ → τ → τ) (p : Emitter σ τ) {depth depth' : Nat}
    (h : depth ≤ depth') (m : MethodHandle σ) (target : Option Target) :
    Transfers (Both Eq Eq) ((p.backend note depth).compile m target)
      ((p.backend note depth').compile m target) := by
  have hname : (p.backend note depth).name = (p.backend note depth').name := by
    rw [name_backend, name_backend]
  induction depth generalizing depth' m target with
  | zero =>
    apply Backend.transfers_compile_same hname
    intro b s t a s' h hrun
    cases hrun
  | succ depth ih =>
    cases depth' with
    | zero => cases h
    | succ depth' =>
      apply Backend.transfers_compile_same hname
      intro b
      apply Client.transfers_run (fun c d h q ↦ by rw [h]) (fun c d h x ↦ by rw [h])
      intro m target
      apply InvokerCache.transfers_getOrCompile (fun e x y h ↦ congrArg _ h)
      exact ih (Nat.le_of_succ_le_succ h) m target (by rw [name_backend, name_backend])

/-- A method that rings a bell. -/
def bell (number : Nat) : MethodHandle Unit :=
  ⟨number, BitVec.ofNat 64 (16 * number),
    ⟨"Bell.ring", ⟨[], .void, .static⟩, 4096, fun _ _ s ↦ ((), s)⟩⟩

/-- A backend for bells. Before the first is hung it has the second and the third hung; the second
can be hung, and then the others cannot. -/
def belfry : Emitter Unit Session.Bench :=
  ⟨"belfry", fun b ↦
    match b.method.id with
    | 1 =>
      .request (bell 2) none fun _ ↦ .request (bell 3) none fun _ ↦
        .done (.error (.codegen "bell 1"))
    | 2 => .done (.ok fun _ ↦ pure (.ok .null))
    | _ => .done (.error (.codegen "bell 3"))⟩

end Emitter
end Invocation
