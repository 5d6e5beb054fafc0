import Invocation.Proofs.Program.Entries

/-!
# What is alive

What handles, requests in flight and ready invokers keep alive (`State.Keeps`). When nothing is
alive that was not alive before (`State.Within`), live methods keep their addresses to themselves,
and so do live instances (`State.Separate`): then two live pairs have the same key only if they are
the same (`State.Separate.eq_of_key`).
-/

namespace Invocation.Program.State

variable {σ : Type} {s t : State σ}

/-- A pair of which both parts are alive. -/
structure Keeps (s : State σ) (p : Pair σ) : Prop where
  method : p.method ∈ s.liveMethods
  target : ∀ x, p.target = some x → x ∈ s.liveTargets

/-- A handle that keeps nothing alive which is not alive. -/
structure Allows (s : State σ) (h : Handle σ) : Prop where
  method : ∀ m, h.method? = some m → m ∈ s.liveMethods
  target : ∀ x, h.target? = some x → x ∈ s.liveTargets

/-- Everything that is alive in one state is alive in another. -/
structure Within (t s : State σ) : Prop where
  methods : t.liveMethods ⊆ s.liveMethods
  targets : t.liveTargets ⊆ s.liveTargets

/-- Live methods have different addresses, and so do live instances; no instance lives at 0. -/
structure Separate (s : State σ) : Prop where
  methods : ∀ m ∈ s.liveMethods, ∀ n ∈ s.liveMethods, m.address = n.address → m = n
  targets : ∀ x ∈ s.liveTargets, ∀ y ∈ s.liveTargets, x.address = y.address → x = y
  ne_zero : ∀ x ∈ s.liveTargets, x.address ≠ 0

/-- The pairs that live caches keep alive, cache by cache. -/
theorem mem_ownedPairs_iff (s : State σ) (p : Pair σ) :
    p ∈ s.ownedPairs ↔ ∃ n u, s.caches[n]? = some u ∧ s.isLive n u = true ∧ p ∈ u.owned := by
  simp only [ownedPairs, List.mem_flatMap, List.mem_filter, Prod.exists,
    List.mem_zipIdx_iff_getElem?]
  constructor
  · rintro ⟨u, n, ⟨hu, hl⟩, hp⟩
    exact ⟨n, u, hu, hl, hp⟩
  · rintro ⟨n, u, hu, hl, hp⟩
    exact ⟨u, n, ⟨hu, hl⟩, hp⟩

/-- A cache is alive if there is a handle to it or a request in flight. -/
theorem isLive_iff (s : State σ) (n : Nat) (u : UsedCache σ) :
    s.isLive n u = true ↔ .cache n ∈ s.handles ∨ u.inFlight ≠ [] := by
  have hcache (h : Handle σ) : h.isCache n = true ↔ h = .cache n := by
    cases h <;> simp [Handle.isCache]
  simp [isLive, hcache]

/-- A pair that a live cache keeps alive is alive. -/
theorem keeps_of_owned {n : Nat} {u : UsedCache σ} {p : Pair σ} (hu : s.caches[n]? = some u)
    (hl : s.isLive n u = true) (hp : p ∈ u.owned) : s.Keeps p := by
  have ho : p ∈ s.ownedPairs := (s.mem_ownedPairs_iff p).mpr ⟨n, u, hu, hl, hp⟩
  constructor
  · exact List.mem_append_right _ (List.mem_map_of_mem ho)
  · intro x hx
    exact List.mem_append_right _ (List.mem_filterMap.mpr ⟨p, ho, hx⟩)

/-- The parts that a handle keeps alive are alive. -/
theorem allows_of_mem {h : Handle σ} (hh : h ∈ s.handles) : s.Allows h := by
  constructor
  · intro m hm
    exact List.mem_append_left _ (List.mem_filterMap.mpr ⟨h, hh, hm⟩)
  · intro x hx
    exact List.mem_append_left _ (List.mem_filterMap.mpr ⟨h, hh, hx⟩)

/-- A target that an optional handle is to is alive. -/
theorem mem_liveTargets_of_targetAt? {n : Option Nat} {target : Option Target}
    (h : s.targetAt? n = some target) : ∀ x, target = some x → x ∈ s.liveTargets := by
  rintro x rfl
  cases n with
  | none => cases h
  | some n =>
    simp only [targetAt?] at h
    split at h
    · next y hy =>
      obtain rfl := Option.some.inj (Option.some.inj h)
      exact (allows_of_mem (List.mem_of_getElem? hy)).target y rfl
    · cases h

/-- Handles to the parts of a live pair keep nothing else alive. -/
theorem Keeps.allows {p : Pair σ} (hp : s.Keeps p) {h : Handle σ} (hh : h ∈ handlesOf p) :
    s.Allows h := by
  rcases List.mem_cons.mp hh with rfl | hh
  · constructor
    · intro m hm
      cases hm
      exact hp.method
    · intro x hx
      cases hx
  · obtain ⟨x, hx, rfl⟩ := Option.map_eq_some_iff.mp (Option.mem_toList.mp hh)
    constructor
    · intro m hm
      cases hm
    · intro y hy
      cases hy
      exact hp.target x hx

/-- What handles and live caches keep alive is all that is alive. -/
theorem within_of_allows (hh : ∀ h ∈ t.handles, s.Allows h)
    (hc : ∀ n u, t.caches[n]? = some u → t.isLive n u = true → ∀ p ∈ u.owned, s.Keeps p) :
    t.Within s := by
  have ho (p : Pair σ) (hp : p ∈ t.ownedPairs) : s.Keeps p := by
    obtain ⟨n, u, hu, hl, hp⟩ := (t.mem_ownedPairs_iff p).mp hp
    exact hc n u hu hl p hp
  constructor
  · intro m hm
    rcases List.mem_append.mp hm with hm | hm
    · obtain ⟨h, hmem, hm⟩ := List.mem_filterMap.mp hm
      exact (hh h hmem).method m hm
    · obtain ⟨p, hp, rfl⟩ := List.mem_map.mp hm
      exact (ho p hp).method
  · intro x hx
    rcases List.mem_append.mp hx with hx | hx
    · obtain ⟨h, hmem, hx⟩ := List.mem_filterMap.mp hx
      exact (hh h hmem).target x hx
    · obtain ⟨p, hp, hx⟩ := List.mem_filterMap.mp hx
      exact (ho p hp).target x hx

/-- What is kept apart stays so when nothing new is alive. -/
theorem Separate.within (hs : s.Separate) (h : t.Within s) : t.Separate := by
  constructor
  · intro m hm n hn
    exact hs.methods m (h.methods hm) n (h.methods hn)
  · intro x hx y hy
    exact hs.targets x (h.targets hx) y (h.targets hy)
  · intro x hx
    exact hs.ne_zero x (h.targets hx)

/-- Two live pairs of the same key are the same. -/
theorem Separate.eq_of_key (hs : s.Separate) {p q : Pair σ} (hp : s.Keeps p) (hq : s.Keeps q)
    (hk : p.key = q.key) : p = q := by
  obtain ⟨m, x⟩ := p
  obtain ⟨n, y⟩ := q
  simp only [Pair.key, CacheKey.of, CacheKey.mk.injEq] at hk
  obtain rfl : m = n := hs.methods m hp.method n hq.method hk.1
  cases x with
  | none =>
    cases y with
    | none => rfl
    | some y => exact absurd hk.2.symm (hs.ne_zero y (hq.target y rfl))
  | some x =>
    cases y with
    | none => exact absurd hk.2 (hs.ne_zero x (hp.target x rfl))
    | some y => rw [hs.targets x (hp.target x rfl) y (hq.target y rfl) hk.2]

/-- A live cache keeps no two pairs of one key alive. -/
theorem Separate.distinct (hs : s.Separate) {n : Nat} {u : UsedCache σ}
    (hu : s.caches[n]? = some u) (hl : s.isLive n u = true) : u.Distinct :=
  fun _ hp _ hq hk ↦ hs.eq_of_key (keeps_of_owned hu hl hp) (keeps_of_owned hu hl hq) hk

/-- With one more handle, which is not to a cache, what it keeps alive is alive besides. -/
theorem live_cons {h : Handle σ} (hc : t.caches = s.caches) (hh : t.handles = h :: s.handles)
    (hn : ∀ n, h.isCache n = false) :
    t.liveMethods = h.method?.toList ++ s.liveMethods ∧
      t.liveTargets = h.target?.toList ++ s.liveTargets := by
  have ho : t.ownedPairs = s.ownedPairs := by simp [ownedPairs, isLive, hc, hh, hn]
  constructor
  · rw [liveMethods, liveMethods, ho, hh]
    cases hm : h.method? <;> simp [hm]
  · rw [liveTargets, liveTargets, ho, hh]
    cases hx : h.target? <;> simp [hx]

/-- What is added where there is nothing else is apart from all that was apart. -/
theorem inj_of_vacant {α : Type} {address : α → Word} {xs : List α} {x : α}
    (h : ∀ a ∈ xs, ∀ b ∈ xs, address a = address b → a = b)
    (hx : ∀ a ∈ xs, address a ≠ address x) :
    ∀ a ∈ x :: xs, ∀ b ∈ x :: xs, address a = address b → a = b := by
  intro a ha b hb he
  rcases List.mem_cons.mp ha with rfl | hold
  · rcases List.mem_cons.mp hb with rfl | hold
    · rfl
    · exact absurd he.symm (hx b hold)
  · rcases List.mem_cons.mp hb with rfl | hother
    · exact absurd he (hx a hold)
    · exact h a hold b hother he

end Invocation.Program.State
