import Mathlib.Data.List.Dedup
import Invocation.Proofs.Cache.Client

/-!
# The contents of a cache are its history

While clients use a cache, a journal can be kept of what it was whenever a client was in control, and
of how every request was answered (`Note.keep`). Keeping it changes nothing that comes of a client
(`Client.transfers_lift`). At every point of the journal the invokers that are ready are those that
requests had been answered with before (`Client.contents_eq_history`).
-/

namespace Invocation

/-- What was noted, the latest first. -/
abbrev Journal (σ : Type) := List (Note σ)

/-- Put a note into the journal. -/
def Note.keep {σ τ : Type} (n : Note σ) (s : Journal σ × τ) : Journal σ × τ := (n :: s.1, s.2)

/-- The client, where the surroundings have one more part that it knows nothing of. -/
def Client.lift {σ ρ τ α : Type} : Client σ τ α → Client σ (ρ × τ) α
  | .done result => .done result
  | .work change next => .work (fun s ↦ (s.1, change s.2)) fun s ↦ (next s.2).lift
  | .query q next => .query q fun a ↦ (next a).lift
  | .request m target next => .request m target fun outcome ↦ (next outcome).lift

/-- The backend, where the surroundings have one more part that it knows nothing of. -/
def Emitter.lift {σ ρ τ : Type} (p : Emitter σ τ) : Emitter σ (ρ × τ) :=
  ⟨p.name, fun b ↦ (p.emit b).lift⟩

section Lift

open Cache

variable {σ ρ τ α : Type}

/-- The cache and the surroundings are the same, apart from the additional part. -/
abbrev Forgets : InvokerCache σ × τ → InvokerCache σ × ρ × τ → Prop :=
  Both Eq fun x y ↦ x = y.2

/-- What comes of a client without a journal comes of it with one. -/
theorem Client.transfers_lift {request : RequestOf σ τ} {request' : RequestOf σ (Journal σ × τ)}
    (hrequest : ∀ m target, Transfers Forgets (request m target) (request' m target))
    (client : Client σ τ α) :
    Transfers Forgets (client.run Note.ignore request) (client.lift.run Note.keep request') := by
  induction client with
  | done result =>
    rintro ⟨c, x⟩ ⟨d, j, y⟩ a s' ⟨hc, hx⟩ h
    obtain rfl : c = d := hc
    obtain rfl : x = y := hx
    cases h
    exact ⟨_, rfl, rfl, rfl⟩
  | work change next ih =>
    rintro ⟨c, x⟩ ⟨d, j, y⟩ a s' ⟨hc, hx⟩ h
    obtain rfl : c = d := hc
    obtain rfl : x = y := hx
    exact ih x (c, change x) (c, .seen c :: j, change x) a s' ⟨rfl, rfl⟩ h
  | query q next ih =>
    rintro ⟨c, x⟩ ⟨d, j, y⟩ a s' ⟨hc, hx⟩ h
    obtain rfl : c = d := hc
    obtain rfl : x = y := hx
    exact ih (q.answer c) (c, x) (c, .seen c :: j, x) a s' ⟨rfl, rfl⟩ h
  | request m target next ih =>
    rintro ⟨c, x⟩ ⟨d, j, y⟩ a s' ⟨hc, hx⟩ h
    obtain rfl : c = d := hc
    obtain rfl : x = y := hx
    obtain ⟨⟨outcome, c', x'⟩, hfirst, hrun⟩ := Option.bind_eq_some_iff.mp h
    obtain ⟨⟨d', j', y'⟩, hfirst', hc', hx'⟩ := hrequest m target (c, x) (c, .seen c :: j, x)
      outcome (c', x') ⟨rfl, rfl⟩ hfirst
    obtain rfl : c' = d' := hc'
    obtain rfl : x' = y' := hx'
    obtain ⟨t, hrun', ht⟩ := ih outcome (c', x')
      (c', .served (.of m target) outcome :: j', x') a s' ⟨rfl, rfl⟩ hrun
    exact ⟨t, Option.bind_eq_some_iff.mpr ⟨_, hfirst', hrun'⟩, ht⟩

variable [Surroundings τ]

/-- What comes of a compilation without a journal comes of it with one, to any depth. -/
theorem Emitter.transfers_lift (p : Emitter σ τ) (depth : Nat) (m : MethodHandle σ)
    (target : Option Target) :
    Transfers Forgets ((p.backend Note.ignore depth).compile m target)
      ((p.lift.backend Note.keep depth).compile m target) := by
  have hrecord (e : Event) (x : τ) (y : Journal σ × τ) (h : x = y.2) :
      Surroundings.record e x = (Surroundings.record e y).2 := congrArg _ h
  have hfresh (x : τ) (y : Journal σ × τ) (h : x = y.2) :
      (Surroundings.fresh x).1 = (Surroundings.fresh y).1 ∧
        (Surroundings.fresh x).2 = (Surroundings.fresh y).2.2 := by
    rw [h]
    exact ⟨rfl, rfl⟩
  have hname (n : Nat) :
      (p.backend Note.ignore n).name = (p.lift.backend (Note.keep : Note σ → _) n).name := by
    rw [Emitter.name_backend, Emitter.name_backend]
    rfl
  induction depth generalizing m target with
  | zero =>
    apply Backend.transfers_compile (hname 0) hrecord hfresh
    intro b s t a s' h hrun
    cases hrun
  | succ depth ih =>
    apply Backend.transfers_compile (hname (depth + 1)) hrecord hfresh
    intro b
    apply Client.transfers_lift
    intro m target
    exact InvokerCache.transfers_getOrCompile hrecord (ih m target)

end Lift

namespace Journal

open Cache

variable {σ τ α : Type}

/-- What is ready in a cache is what requests were answered with. -/
def Tells (j : Journal σ) (c : InvokerCache σ) : Prop :=
  ∀ key i, c.lookup key = some i ↔ .served key (.ok i) ∈ j

/-- Every cache that was seen held what requests had been answered with before. -/
def Legal (j : Journal σ) : Prop :=
  ∀ now earlier, .seen now :: earlier <:+ j → now.WF ∧ Tells earlier now

theorem Legal.seen {j : Journal σ} {c : InvokerCache σ} (h : Legal j) (hc : c.WF)
    (ht : Tells j c) : Legal (.seen c :: j) := by
  intro now earlier hs
  rcases List.suffix_cons_iff.mp hs with he | hs
  · cases he
    exact ⟨hc, ht⟩
  · exact h now earlier hs

theorem Legal.served {j : Journal σ} (h : Legal j) (key : CacheKey)
    (outcome : Except CompileError (Invoker σ)) : Legal (.served key outcome :: j) := by
  intro now earlier hs
  rcases List.suffix_cons_iff.mp hs with he | hs
  · cases he
  · exact h now earlier hs

theorem Tells.seen {j : Journal σ} {c : InvokerCache σ} (h : Tells j c) (d : InvokerCache σ) :
    Tells (.seen d :: j) c := by
  intro key i
  rw [h key i, List.mem_cons]
  simp

/-- A settled cache stays settled, a legal journal stays legal, and the cache stays as it tells. -/
def Records (s s' : InvokerCache σ × Journal σ × τ) : Prop :=
  s.1.Settled → s.2.1.Legal → s.2.1.Tells s.1 →
    s'.1.Settled ∧ s'.2.1.Legal ∧ s'.2.1.Tells s'.1

/-- A request keeps a legal journal legal, and is answered with what becomes ready, if anything
does. -/
def Serves (key : CacheKey)
    (act : CompileM (InvokerCache σ × Journal σ × τ) (Except CompileError (Invoker σ))) : Prop :=
  ∀ s outcome s', act s = some (outcome, s') → s.1.Settled → s.2.1.Legal → s.2.1.Tells s.1 →
    s'.2.1.Legal ∧ ∀ other i, s'.1.lookup other = some i ↔
      .served other (.ok i) ∈ s'.2.1 ∨ other = key ∧ outcome = .ok i

theorem Records.refl (s : InvokerCache σ × Journal σ × τ) : Records s s :=
  fun hs hl ht ↦ ⟨hs, hl, ht⟩

theorem Records.trans (s t u : InvokerCache σ × Journal σ × τ) (h : Records s t)
    (h' : Records t u) : Records s u := by
  intro hs hl ht
  obtain ⟨hs', hl', ht'⟩ := h hs hl ht
  exact h' hs' hl' ht'

/-- A client whose requests keep the journal legal does so itself. -/
theorem records_run {request : RequestOf σ (Journal σ × τ)}
    (hsettles : ∀ m target, Keeps Client.Settles (request m target))
    (hserves : ∀ m target, Serves (.of m target) (request m target))
    (client : Client σ τ α) : Keeps Records (client.lift.run Note.keep request) := by
  induction client with
  | done result =>
    rintro ⟨c, j, x⟩ a s' h hc hl ht
    cases h
    exact ⟨hc, hl.seen hc.wf ht, ht.seen c⟩
  | work change next ih =>
    rintro ⟨c, j, x⟩ a s' h hc hl ht
    exact ih x (c, .seen c :: j, change x) a s' h hc (hl.seen hc.wf ht) (ht.seen c)
  | query q next ih =>
    rintro ⟨c, j, x⟩ a s' h hc hl ht
    exact ih (q.answer c) (c, .seen c :: j, x) a s' h hc (hl.seen hc.wf ht) (ht.seen c)
  | request m target next ih =>
    rintro ⟨c, j, x⟩ a s' h hc hl ht
    obtain ⟨⟨outcome, d, j', y⟩, hfirst, hrun⟩ := Option.bind_eq_some_iff.mp h
    have hd : d.Settled := (hsettles m target _ _ _ hfirst hc).1
    obtain ⟨hl', ht'⟩ := hserves m target _ _ _ hfirst hc (hl.seen hc.wf ht) (ht.seen c)
    have htold : Tells (.served (.of m target) outcome :: j') d := by
      intro key i
      rw [ht' key i, List.mem_cons, or_comm]
      simp [eq_comm]
    exact ih outcome (d, .served (.of m target) outcome :: j', y) a s' hrun hd
      (hl'.served _ _) htold

variable [Surroundings τ]

/-- A request keeps the journal legal if the compilation does. -/
theorem serves_getOrCompile {backend : Backend σ (InvokerCache σ × Journal σ × τ)}
    {m : MethodHandle σ} {target : Option Target}
    (hsettles : Keeps Client.Settles (backend.compile m target))
    (hrecords : Keeps Records (backend.compile m target)) :
    Serves (.of m target) (InvokerCache.getOrCompile backend m target) := by
  rintro ⟨c, j, x⟩ outcome ⟨c', j', x'⟩ h hc hl ht
  have hc : c.Settled := hc
  have ht : Tells j c := ht
  show Legal j' ∧ ∀ other i, c'.lookup other = some i ↔ _
  rcases InvokerCache.getOrCompile_cases hc h with ⟨i, hi, rfl, rfl, hx⟩ | ⟨hslot, d, hrun, rfl⟩
  · cases hx
    have hi : c.lookup (.of m target) = some i := hi
    refine ⟨hl, fun other i' ↦ ?_⟩
    rw [lookup_countHit, ht other i']
    constructor
    · exact .inl
    · rintro (hserved | ⟨rfl, hok⟩)
      · exact hserved
      · cases hok
        exact (ht _ _).mp hi
  · have ht₀ : Tells j (c.began (.of m target)) := by
      intro other i
      rw [lookup_began hc.wf hslot, ht other i]
    obtain ⟨hd, hextends⟩ : d.Settled ∧ (c.began (.of m target)).Extends d :=
      hsettles _ _ _ hrun (hc.began hslot)
    obtain ⟨-, hl', ht'⟩ : d.Settled ∧ Legal j' ∧ Tells j' d :=
      hrecords _ _ _ hrun (hc.began hslot) hl ht₀
    obtain ⟨hm, hcell⟩ := hextends _ (mem_table_began hslot)
    refine ⟨hl', fun other i ↦ ?_⟩
    rw [lookup_conclude hd hm (hcell.trans (cellAt_began_self hslot)), ht' other i]

/-- Compilations keep the journal legal, to any depth. -/
theorem records_compile (p : Emitter σ τ) (depth : Nat) (m : MethodHandle σ)
    (target : Option Target) :
    Keeps Records ((p.lift.backend Note.keep depth).compile m target) := by
  have hrecord (e : Event) (s : InvokerCache σ × Journal σ × τ) :
      Records s (Surroundings.record e s) := .refl s
  have hfresh (s : InvokerCache σ × Journal σ × τ) : Records s (Surroundings.fresh s).2 := .refl s
  induction depth generalizing m target with
  | zero =>
    apply Backend.keeps_compile Records.refl Records.trans hrecord hfresh
    intro b s a s' h
    cases h
  | succ depth ih =>
    apply Backend.keeps_compile Records.refl Records.trans hrecord hfresh
    intro b
    have hsettles := Emitter.settles_compile Note.keep (p.lift (ρ := Journal σ)) depth
    apply records_run (Emitter.settles_getOrCompile hsettles)
    intro m target
    exact serves_getOrCompile (hsettles m target) (ih m target)

/-- The keys that requests were answered with success for. -/
def succeeded (j : Journal σ) : List CacheKey :=
  j.filterMap fun
    | .served key (.ok _) => some key
    | _ => none

/-- A key is among them if a request for it was answered with success. -/
theorem mem_succeeded_iff {j : Journal σ} {key : CacheKey} :
    key ∈ j.succeeded ↔ ∃ i, .served key (.ok i) ∈ j := by
  constructor
  · intro hm
    obtain ⟨n, hn, hkey⟩ := List.mem_filterMap.mp hm
    rcases n with c | ⟨k, e | i⟩ <;> simp only [reduceCtorEq, Option.some.injEq] at hkey
    subst hkey
    exact ⟨i, hn⟩
  · rintro ⟨i, hi⟩
    exact List.mem_filterMap.mpr ⟨_, hi, rfl⟩

/-- As many keys are ready as different ones succeeded. -/
theorem Tells.size_eq {j : Journal σ} {c : InvokerCache σ} (h : Tells j c) (hc : c.WF) :
    c.size = j.succeeded.dedup.length := by
  apply size_eq_length hc (List.nodup_dedup _)
  intro key
  rw [List.mem_dedup, mem_succeeded_iff, Option.isSome_iff_exists]
  constructor
  · rintro ⟨i, hi⟩
    exact ⟨i, (h key i).mpr hi⟩
  · rintro ⟨i, hi⟩
    exact ⟨i, (h key i).mp hi⟩

end Journal

namespace Client

open Journal

variable {σ τ α : Type}

/-- The last point of the journal is the end. -/
theorem exists_seen_run {request : RequestOf σ (Journal σ × τ)} (client : Client σ τ α)
    {s : InvokerCache σ × Journal σ × τ} {a : α} {c : InvokerCache σ} {j : Journal σ} {y : τ}
    (h : client.lift.run Note.keep request s = some (a, c, j, y)) :
    ∃ earlier, j = .seen c :: earlier := by
  induction client generalizing s with
  | done result =>
    cases h
    exact ⟨_, rfl⟩
  | work change next ih => exact ih _ h
  | query q next ih => exact ih _ h
  | request m target next ih =>
    obtain ⟨⟨outcome, d, j', z⟩, -, hrun⟩ := Option.bind_eq_some_iff.mp h
    exact ih _ hrun

variable [Surroundings τ]

/-- Whatever a client does with a cache that was empty, and whatever requests of its own the backend
makes while it emits, to whatever depth: at every point where one of them is in control, an invoker
is ready for a pair if and only if a request for it, by either of them, has been answered with this
very invoker; a pair is contained if and only if something is ready for it; there are as many ready
keys as different ones succeeded; what was ready at an earlier point is ready; a request for what is
ready gets it, whatever the backend, and counts a hit; and no query changes the cache. -/
theorem contents_eq_history (p : Emitter σ τ) (depth : Nat) (client : Client σ τ α) {x y : τ} {a : α}
    {c : InvokerCache σ}
    (h : client.run Note.ignore (InvokerCache.getOrCompile (p.backend Note.ignore depth))
      (.empty, x) = some (a, c, y)) :
    ∃ journal : Journal σ,
      client.lift.run Note.keep (InvokerCache.getOrCompile (p.lift.backend Note.keep depth))
        (.empty, [], x) = some (a, c, journal, y) ∧
      (∃ earlier, journal = .seen c :: earlier) ∧
      ∀ (now : InvokerCache σ) (earlier : Journal σ), .seen now :: earlier <:+ journal →
        (∀ m target i, now.get m target = some i ↔ .served (.of m target) (.ok i) ∈ earlier) ∧
        (∀ m target, now.contains m target = true ↔
          ∃ i, .served (.of m target) (.ok i) ∈ earlier) ∧
        now.size = earlier.succeeded.dedup.length ∧
        (now.isEmpty = true ↔ earlier.succeeded = []) ∧
        (∀ before, .seen before ∈ earlier → ∀ m target i, before.get m target = some i →
          now.get m target = some i) ∧
        (∀ m target i, now.get m target = some i →
          ∀ (backend : Backend σ (InvokerCache σ × τ)) (z : τ),
            InvokerCache.getOrCompile backend m target (now, z) =
              some (.ok i, now.countHit, Surroundings.record (.hit m.method.name) z)) ∧
        ∀ (q : Query σ) (next : q.Answer → Client σ τ α) (request : RequestOf σ τ) (z : τ),
          (query q next).run Note.ignore request (now, z) =
            (next (q.answer now)).run Note.ignore request (now, z) := by
  have hsettles := Emitter.settles_compile Note.keep (p.lift (ρ := Journal σ)) depth
  have htransfers := transfers_lift (fun m target ↦ InvokerCache.transfers_getOrCompile
    (fun e x y hx ↦ congrArg _ hx) (Emitter.transfers_lift p depth m target)) client
  obtain ⟨⟨c', journal, y'⟩, hrun, hc, hy⟩ :=
    htransfers (.empty, x) (.empty, [], x) a (c, y) ⟨rfl, rfl⟩ h
  obtain rfl : c = c' := hc
  obtain rfl : y = y' := hy
  have hempty : Legal ([] : Journal σ) ∧ Tells ([] : Journal σ) .empty := by
    refine ⟨fun now earlier hs ↦ ?_, fun key i ↦ ?_⟩
    · cases List.suffix_nil.mp hs
    · rw [Cache.lookup_empty]
      simp
  obtain ⟨-, hlegal, -⟩ : c.Settled ∧ Legal journal ∧ Tells journal c :=
    records_run (Emitter.settles_getOrCompile hsettles)
      (fun m target ↦ serves_getOrCompile (hsettles m target) (records_compile p depth m target))
      client _ _ _ hrun Cache.settled_empty hempty.1 hempty.2
  refine ⟨journal, hrun, exists_seen_run client hrun, fun now earlier hnow ↦ ?_⟩
  obtain ⟨hwf, htells⟩ := hlegal now earlier hnow
  have hsize := htells.size_eq hwf
  refine ⟨fun m target i ↦ htells _ i, fun m target ↦ ?_, hsize, ?_, fun before hb m target i hi ↦ ?_,
    fun m target i hi backend z ↦ InvokerCache.getOrCompile_of_get hi, fun q next request z ↦ rfl⟩
  · rw [InvokerCache.contains, Option.isSome_iff_exists]
    exact exists_congr fun i ↦ htells _ i
  · rw [Cache.isEmpty, hsize, beq_iff_eq, List.length_eq_zero_iff, List.dedup_eq_nil]
  · -- The earlier point is one of the journal too, and what it tells is told later.
    obtain ⟨later, before', rfl⟩ := List.append_of_mem hb
    have hbefore : .seen before :: before' <:+ journal := by
      apply List.IsSuffix.trans _ hnow
      exact ⟨.seen now :: later, rfl⟩
    obtain ⟨-, htold⟩ := hlegal before before' hbefore
    apply (htells _ i).mpr
    have hserved := (htold _ i).mp hi
    exact List.mem_append_right _ (List.mem_cons_of_mem _ hserved)

/-- What somebody does who wants two bells hung. -/
def ringer : Client Unit Session.Bench Nat :=
  .request (Emitter.bell 1) none fun _ ↦ .query (.contains (Emitter.bell 2) none) fun hung ↦
    .request (Emitter.bell 2) none fun _ ↦ .query .size fun size ↦ .done (if hung then size else 0)

/-- The first bell is not hung, but the second is meanwhile, and is found when it is requested. -/
theorem contents_eq_history_ringer :
    ∃ c y i, ringer.run Note.ignore
        (InvokerCache.getOrCompile (Emitter.belfry.backend Note.ignore 2))
        (.empty, ⟨0, [], .start⟩) = some (1, c, y) ∧ c.stats = ⟨1, 3, 1, 2⟩ ∧
      c.get (Emitter.bell 2) none = some i ∧ ∃ earlier : Journal Unit,
        .served (.of (Emitter.bell 2) none) (.ok i) ∈ earlier ∧
          c.size = earlier.succeeded.dedup.length := by
  have h : (ringer.run Note.ignore
      (InvokerCache.getOrCompile (Emitter.belfry.backend Note.ignore 2))
        (.empty, ⟨0, [], .start⟩)).map (fun r ↦
          (r.1, r.2.1.stats, r.2.1.contains (Emitter.bell 2) none)) =
      some (1, ⟨1, 3, 1, 2⟩, true) := by
    decide +kernel
  obtain ⟨⟨a, c, y⟩, hrun, hr⟩ := Option.map_eq_some_iff.mp h
  simp only [Prod.mk.injEq] at hr
  obtain ⟨rfl, hstats, hcontains⟩ := hr
  obtain ⟨i, hget⟩ := Option.isSome_iff_exists.mp hcontains
  obtain ⟨journal, -, ⟨earlier, hlast⟩, hpoints⟩ := contents_eq_history Emitter.belfry 2 ringer hrun
  obtain ⟨hserved, -, hsize, -⟩ := hpoints c earlier (hlast ▸ List.suffix_refl _)
  exact ⟨c, y, i, hrun, hstats, hget, earlier, (hserved _ none i).mp hget, hsize⟩

end Client

end Invocation
