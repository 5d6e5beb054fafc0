import Invocation.Proofs.Cache.Attendance
import Invocation.Proofs.Program.Run

/-!
# Whose entry it is

While a cache is in use, an entry of its table belongs to one pair of method and target: the pair is
kept alive, by the ready invoker or by a request that holds the cell, and whoever used the cell
named this very pair (`UsedCache.Sound.exists_owned`). All that this takes from outside is that two
pairs which the cache keeps alive have the same key only if they are the same
(`UsedCache.Distinct`).
-/

namespace Invocation

namespace Cache.Interleaving

variable {κ ι ε : Type} {c c' : Cache κ ι ε} {key : κ} {slot : Nat}

/-- A cell that a key may use was given out. -/
theorem Current.lt (h : Current c key slot) (hc : c.WF) : slot < c.cells.length := by
  rcases h with hm | ⟨e, he⟩
  · exact hc.exist _ hm
  · apply lt_of_cellAt_ne
    simp [he]

variable [DecidableEq κ] {caller : Nat} {free : Bool} {f : Frame κ ι ε}
  {next : Option (Frame κ ι ε)} {record : List (Occurrence κ ι ε)}

/-- A cell that holds a success after a move held it before, or is that which the request compiled
for. -/
theorem Frame.Moves.success_cases (h : f.Moves caller free c c' next record) (hf : f.Sound c)
    {i : ι} (hi : c'.cellAt slot = .done (.ok i)) :
    c.cellAt slot = .done (.ok i) ∨ f.phase = .compile slot := by
  unfold Sound at hf
  cases h with
  | claim =>
    rw [cellAt_claim] at hi
    exact .inl hi
  | start other hp hs =>
    simp only [hp] at hf
    by_cases ho : other = slot
    · subst ho
      rw [Cache.start, c.cellAt_setCell .running hf.1] at hi
      cases hi
    · rw [Cache.start, c.cellAt_setCell_of_ne .running ho] at hi
      exact .inl hi
  | settle other outcome hp =>
    by_cases ho : other = slot
    · subst ho
      exact .inr hp
    · rw [Cache.settle, c.cellAt_setCell_of_ne _ ho] at hi
      exact .inl hi
  | lock | peek | find | miss | countHit | countMiss | share | countSuccess => exact .inl hi
  | countFailure | remove | answer => exact .inl hi

/-- The cell that a request holds after a move is the one that it held before, or the one that it
has just used. -/
theorem Frame.Moves.slot?_next {n : Frame κ ι ε} (h : f.Moves caller free c c' (some n) record)
    (hs : n.phase.slot? = some slot) : f.phase.slot? = some slot ∨ f.usedSlot? c = some slot := by
  cases h with
  | lock => exact .inl hs
  | claim hp hl =>
    refine .inr ?_
    rw [← hs]
    simp [usedSlot?, hp, hl, goTo, Phase.slot?]
  | start other hp | settle other outcome hp | countFailure other e hp =>
    refine .inl ?_
    rw [← hs, hp]
    rfl
  | find | miss | countHit | countMiss | share | countSuccess | remove =>
    simp [goTo, Phase.slot?] at hs

/-- A cell that a request uses is that of its key in the table afterwards, and was so before unless
it has just been given out. -/
theorem Frame.Moves.mem_table_of_usedSlot? (h : f.Moves caller free c c' next record)
    (he : f.usedSlot? c = some slot) :
    (f.key, slot) ∈ c'.table ∧ ((f.key, slot) ∈ c.table ∨ c.cells.length ≤ slot) := by
  have hlookup (hp : f.phase = .lookup) (hl : f.locked = true) : (f.key, slot) ∈ c.table := by
    simp only [usedSlot?, hp, hl, if_true, Option.bind_eq_some_iff] at he
    obtain ⟨i, -, hslot⟩ := he
    exact mem_of_lookup_eq_some hslot
  cases h with
  | lock hn hl => simp [usedSlot?, hl] at he
  | peek hp hl | find i hp hl | miss hp hl => exact ⟨hlookup hp hl, .inl (hlookup hp hl)⟩
  | claim hp hl =>
    obtain rfl : (c.claim f.key).1 = slot := by simpa [usedSlot?, hp, hl] using he
    refine ⟨c.mem_table_claim f.key, ?_⟩
    rcases (c.mem_table_claim_iff _ _).mp (c.mem_table_claim f.key) with hm | ⟨-, hn⟩
    · exact .inl hm
    · exact .inr (Nat.le_of_eq (congrArg Prod.snd hn).symm)
  | countHit i hp | countMiss hp | start other hp | share other outcome hp
  | settle other outcome hp | countSuccess other i hp | countFailure other e hp
  | remove other e hp | answer outcome source hp => simp [usedSlot?, hp] at he

end Cache.Interleaving

namespace Program

open Cache.Interleaving

variable {σ : Type}

/-- A cache before and after one of its requests, for a pair, has moved on. -/
structure Turn (caller : Nat) (free : Bool) (u v : UsedCache σ) (f : Request σ) (p : Pair σ)
    (others : List (Request σ × Pair σ)) (next : Option (Request σ))
    (record : List (Occurrence CacheKey (Invoker σ) CompileError)) : Prop where
  moves : f.Moves caller free u.cache v.cache next record
  before : u.inFlight.Perm ((f, p) :: others)
  after : v.inFlight.Perm (next.toList.map (·, p) ++ others)
  uses : v.uses = (f.usedSlot? u.cache).toList.map (p, ·) ++ u.uses
  served : v.served = (record.filterMap (Occurrence.result? p.key)).map (p, ·) ++ u.served

namespace UsedCache

/-- Two pairs that a cache keeps alive have the same key only if they are the same. -/
def Distinct (u : UsedCache σ) : Prop := ∀ p ∈ u.owned, ∀ q ∈ u.owned, p.key = q.key → p = q

/-- An entry of a key is in the table no more, and its compilation failed. -/
def Dropped (u : UsedCache σ) (key : CacheKey) (slot : Nat) : Prop :=
  (key, slot) ∉ u.cache.table ∧ ∃ e, u.cache.cellAt slot = .done (.error e)

/-- What holds of a cache in use, besides what holds of it and its requests whatever these name. -/
structure Sound (u : UsedCache σ) : Prop where
  consistent : Consistent u.cache (u.inFlight.map Prod.fst)
  attended : Attended u.cache (u.inFlight.map Prod.fst)
  /-- Requests are for the keys of the pairs that they name. -/
  keyed : ∀ f p, (f, p) ∈ u.inFlight → f.key = p.key
  /-- A request has used the cell that it holds. -/
  held : ∀ f p slot, (f, p) ∈ u.inFlight → f.phase.slot? = some slot → (p, slot) ∈ u.uses
  /-- What is ready for a key was compiled for a pair of this key. -/
  ready : ∀ key i, u.cache.lookup key = some i → (Pair.ofInvoker i).key = key
  /-- A cell that was used for a pair is that of its key, or failed. -/
  current : ∀ p slot, (p, slot) ∈ u.uses → Current u.cache p.key slot
  /-- What is in a cell was compiled from the pair that the cell was used for. -/
  made : ∀ p slot i, (p, slot) ∈ u.uses → u.cache.cellAt slot = .done (.ok i) → .ofInvoker i = p
  /-- No cell was used for two pairs. -/
  alone : ∀ p q slot, (p, slot) ∈ u.uses → (q, slot) ∈ u.uses → p = q
  /-- What was served for a pair was compiled from it, and is ready. -/
  served : ∀ p i, (p, i) ∈ u.served → .ofInvoker i = p ∧ u.cache.lookup p.key = some i

variable {u v : UsedCache σ}

/-- What a request names is kept alive. -/
theorem mem_owned_of_inFlight {f : Request σ} {p : Pair σ} (h : (f, p) ∈ u.inFlight) :
    p ∈ u.owned :=
  List.mem_append_left _ (List.mem_map_of_mem h)

/-- What a ready invoker was compiled from is kept alive. -/
theorem mem_owned_of_cellAt {key : CacheKey} {slot : Nat} {i : Invoker σ}
    (hm : (key, slot) ∈ u.cache.table) (hi : u.cache.cellAt slot = .done (.ok i)) :
    .ofInvoker i ∈ u.owned := by
  have hready : (key, i) ∈ u.cache.ready :=
    List.mem_filterMap.mpr ⟨(key, slot), hm, by simp [hi, Cell.ready?]⟩
  exact List.mem_append_right _ (List.mem_map_of_mem hready)

namespace Sound

/-- An entry of the table belongs to a pair of its key that is kept alive, and its cell was used for
no other pair. -/
theorem exists_owned (h : u.Sound) {key : CacheKey} {slot : Nat}
    (hm : (key, slot) ∈ u.cache.table) :
    ∃ p ∈ u.owned, p.key = key ∧ ∀ q, (q, slot) ∈ u.uses → q = p := by
  -- The pair is that of the ready invoker, or that of a request which has still to fill the cell or
  -- to take it out of the table.
  rcases h.attended.exists_request h.consistent hm with ⟨i, hi⟩ | ⟨f, hf, hk, hs⟩
  · refine ⟨.ofInvoker i, mem_owned_of_cellAt hm hi, ?_, fun q hq ↦ ?_⟩
    · exact h.ready key i ((Cache.lookup_eq_some_iff h.consistent.wf key i).mpr ⟨slot, hm, hi⟩)
    · exact (h.made q slot i hq hi).symm
  · obtain ⟨⟨g, p⟩, hg, rfl⟩ := List.mem_map.mp hf
    refine ⟨p, mem_owned_of_inFlight hg, ?_, fun q hq ↦ ?_⟩
    · rw [← h.keyed g p hg, hk]
    · exact h.alone q p slot hq (h.held g p slot hg hs)

/-- Two cells that were used for one pair are the same, unless one of them was dropped. -/
theorem eq_or_dropped (h : u.Sound) {p : Pair σ} {a b : Nat} (ha : (p, a) ∈ u.uses)
    (hb : (p, b) ∈ u.uses) : a = b ∨ u.Dropped p.key a ∨ u.Dropped p.key b := by
  by_cases hm : (p.key, a) ∈ u.cache.table
  · by_cases hn : (p.key, b) ∈ u.cache.table
    · exact .inl (h.consistent.wf.slot_unique hm hn)
    · exact .inr (.inr ⟨hn, (h.current p b hb).resolve_left hn⟩)
  · exact .inr (.inl ⟨hm, (h.current p a ha).resolve_left hm⟩)

/-- The entry of the key of a pair that is kept alive belongs to this pair. -/
theorem eq_of_use (h : u.Sound) (hd : u.Distinct) {p q : Pair σ} {slot : Nat} (hp : p ∈ u.owned)
    (hm : (p.key, slot) ∈ u.cache.table) (hq : (q, slot) ∈ u.uses) : q = p := by
  obtain ⟨r, hr, hk, huse⟩ := h.exists_owned hm
  rw [huse q hq]
  exact hd r hr p hp hk

/-- What is ready for the key of a pair that is kept alive was compiled from this pair. -/
theorem ofInvoker_eq (h : u.Sound) (hd : u.Distinct) {p : Pair σ} {i : Invoker σ}
    (hp : p ∈ u.owned) (hi : u.cache.lookup p.key = some i) : .ofInvoker i = p := by
  obtain ⟨slot, hm, hs⟩ := (Cache.lookup_eq_some_iff h.consistent.wf _ _).mp hi
  exact hd _ (mem_owned_of_cellAt hm hs) p hp (h.ready _ i hi)

end Sound
end UsedCache

namespace Turn

variable {caller : Nat} {free : Bool} {u v : UsedCache σ} {f : Request σ} {p : Pair σ}
  {others : List (Request σ × Pair σ)} {next : Option (Request σ)}
  {record : List (Occurrence CacheKey (Invoker σ) CompileError)}

/-- The request that moves on was not answered before. -/
theorem mem_inFlight (h : Turn caller free u v f p others next record) : (f, p) ∈ u.inFlight :=
  h.before.mem_iff.mpr (List.mem_cons_self ..)

/-- A request that is not answered afterwards is the one that moved on, or has not moved. -/
theorem inFlight_cases (h : Turn caller free u v f p others next record) {g : Request σ}
    {q : Pair σ} (hg : (g, q) ∈ v.inFlight) : next = some g ∧ q = p ∨ (g, q) ∈ u.inFlight := by
  rcases List.mem_append.mp (h.after.mem_iff.mp hg) with hn | ho
  · obtain ⟨n, hm, he⟩ := List.mem_map.mp hn
    cases he
    exact .inl ⟨Option.mem_toList.mp hm, rfl⟩
  · exact .inr (h.before.mem_iff.mpr (List.mem_cons_of_mem _ ho))

/-- A use of a cell is that which the request that moves on has just made, or an earlier one. -/
theorem use_cases (h : Turn caller free u v f p others next record) {q : Pair σ} {slot : Nat}
    (hq : (q, slot) ∈ v.uses) : q = p ∧ f.usedSlot? u.cache = some slot ∨ (q, slot) ∈ u.uses := by
  rw [h.uses] at hq
  rcases List.mem_append.mp hq with hn | ho
  · obtain ⟨other, hm, he⟩ := List.mem_map.mp hn
    cases he
    exact .inl ⟨rfl, Option.mem_toList.mp hm⟩
  · exact .inr ho

/-- An invoker that was served is one that the request which moves on has just got, or an earlier
one. -/
theorem served_cases (h : Turn caller free u v f p others next record) {q : Pair σ}
    {i : Invoker σ} (hq : (q, i) ∈ v.served) :
    q = p ∧ i ∈ record.filterMap (Occurrence.result? p.key) ∨ (q, i) ∈ u.served := by
  rw [h.served] at hq
  rcases List.mem_append.mp hq with hn | ho
  · obtain ⟨j, hm, he⟩ := List.mem_map.mp hn
    cases he
    exact .inl ⟨rfl, hm⟩
  · exact .inr ho

/-- What was used stays noted. -/
theorem mem_uses (h : Turn caller free u v f p others next record) {q : Pair σ} {slot : Nat}
    (hq : (q, slot) ∈ u.uses) : (q, slot) ∈ v.uses := by
  rw [h.uses]
  exact List.mem_append_right _ hq

/-- What the request uses is noted. -/
theorem mem_uses_of_usedSlot? (h : Turn caller free u v f p others next record) {slot : Nat}
    (he : f.usedSlot? u.cache = some slot) : (p, slot) ∈ v.uses := by
  rw [h.uses, he]
  exact List.mem_cons_self ..

/-- The requests before are the one that moves on and the others. -/
theorem frames_before (h : Turn caller free u v f p others next record) :
    (u.inFlight.map Prod.fst).Perm (f :: others.map Prod.fst) :=
  h.before.map Prod.fst

/-- The requests afterwards are what became of it and the others. -/
theorem frames_after (h : Turn caller free u v f p others next record) :
    (v.inFlight.map Prod.fst).Perm (next.toList ++ others.map Prod.fst) := by
  have hperm := h.after.map Prod.fst
  have hid : Prod.fst ∘ (·, p) = (id : Request σ → Request σ) := rfl
  rwa [List.map_append, List.map_map, hid, List.map_id] at hperm

section Sound

variable (h : Turn caller free u v f p others next record) (hs : u.Sound)
include h hs

/-- The request that moves on is right about the cache. -/
theorem sound_frame : f.Sound u.cache :=
  hs.consistent.sound f (List.mem_map_of_mem h.mem_inFlight)

/-- The entries after a move whose cells hold something were there before. -/
theorem mem_table_before {key : CacheKey} {slot : Nat} {outcome : Except CompileError (Invoker σ)}
    (hm : (key, slot) ∈ v.cache.table) (hc : v.cache.cellAt slot = .done outcome) :
    (key, slot) ∈ u.cache.table := by
  rcases h.moves.entry_cases (h.sound_frame hs) hm with ⟨hold, -⟩ | ⟨n, -, -, he⟩
  · exact hold
  · rw [hc] at he
    cases he

/-- What is ready for a key afterwards was ready before, or the request has just compiled it. -/
theorem ready_cases {key : CacheKey} {i : Invoker σ} (hi : v.cache.lookup key = some i) :
    u.cache.lookup key = some i ∨
      key = p.key ∧ ∃ slot, f.phase = .compile slot ∧ v.cache.cellAt slot = .done (.ok i) := by
  have hf := h.sound_frame hs
  have hw := (h.moves.change hf).wf hs.consistent.wf
  obtain ⟨slot, hm, hc⟩ := (Cache.lookup_eq_some_iff hw key i).mp hi
  have hold := h.mem_table_before hs hm hc
  rcases h.moves.success_cases hf hc with hsame | hp
  · exact .inl ((Cache.lookup_eq_some_iff hs.consistent.wf key i).mpr ⟨slot, hold, hsame⟩)
  · unfold Frame.Sound at hf
    simp only [hp] at hf
    refine .inr ⟨?_, slot, hp, hc⟩
    rw [← hs.keyed f p h.mem_inFlight]
    exact hs.consistent.wf.key_unique hold hf.1

/-- A cell that the request uses was used for no other pair. -/
theorem eq_of_usedSlot? (hd : u.Distinct) {q : Pair σ} {slot : Nat}
    (he : f.usedSlot? u.cache = some slot) (hq : (q, slot) ∈ u.uses) : q = p := by
  have hk := hs.keyed f p h.mem_inFlight
  rcases (h.moves.mem_table_of_usedSlot? he).2 with hm | hn
  · rw [hk] at hm
    exact hs.eq_of_use hd (UsedCache.mem_owned_of_inFlight h.mem_inFlight) hm hq
  · have hlt := (hs.current q slot hq).lt hs.consistent.wf
    omega

/-- What is in a cell afterwards was compiled from the pair that the cell was used for, if what the
request compiles was. -/
theorem made (hd : u.Distinct)
    (hmade : ∀ slot i, f.phase = .compile slot → v.cache.cellAt slot = .done (.ok i) →
      .ofInvoker i = p)
    {q : Pair σ} {slot : Nat} {i : Invoker σ} (hq : (q, slot) ∈ v.uses)
    (hi : v.cache.cellAt slot = .done (.ok i)) : .ofInvoker i = q := by
  have hf := h.sound_frame hs
  have hp := UsedCache.mem_owned_of_inFlight h.mem_inFlight
  rcases h.use_cases hq with ⟨rfl, he⟩ | hold
  · rcases h.moves.success_cases hf hi with hsame | hc
    · rcases (h.moves.mem_table_of_usedSlot? he).2 with hm | hn
      · rw [hs.keyed f q h.mem_inFlight] at hm
        exact hs.ofInvoker_eq hd hp
          ((Cache.lookup_eq_some_iff hs.consistent.wf _ i).mpr ⟨slot, hm, hsame⟩)
      · rw [u.cache.cellAt_of_le hn] at hsame
        cases hsame
    · exact hmade slot i hc hi
  · rcases h.moves.success_cases hf hi with hsame | hc
    · exact hs.made q slot i hold hsame
    · have hheld := hs.held f p slot h.mem_inFlight (by rw [hc]; rfl)
      rw [hmade slot i hc hi]
      exact hs.alone p q slot hheld hold

/-- A request that moves on keeps the cache sound, if what it compiles is compiled from its pair. -/
theorem sound (hd : u.Distinct)
    (hmade : ∀ slot i, f.phase = .compile slot → v.cache.cellAt slot = .done (.ok i) →
      .ofInvoker i = p) : v.Sound := by
  have hf := h.sound_frame hs
  have hchange := h.moves.change hf
  have hbefore := hs.consistent.perm h.frames_before
  have hp := UsedCache.mem_owned_of_inFlight h.mem_inFlight
  have hkey := hs.keyed f p h.mem_inFlight
  constructor
  · exact (hbefore.moves h.moves).perm h.frames_after.symm
  · exact ((hs.attended.perm h.frames_before).moves hbefore h.moves).perm h.frames_after.symm
  · intro g q hg
    rcases h.inFlight_cases hg with ⟨rfl, rfl⟩ | hold
    · rw [h.moves.key_next, hkey]
    · exact hs.keyed g q hold
  · intro g q slot hg hslot
    rcases h.inFlight_cases hg with ⟨rfl, rfl⟩ | hold
    · rcases h.moves.slot?_next hslot with hsame | he
      · exact h.mem_uses (hs.held f q slot h.mem_inFlight hsame)
      · exact h.mem_uses_of_usedSlot? he
    · exact h.mem_uses (hs.held g q slot hold hslot)
  · intro key i hi
    rcases h.ready_cases hs hi with hold | ⟨rfl, slot, hc, hdone⟩
    · exact hs.ready key i hold
    · rw [hmade slot i hc hdone]
  · intro q slot hq
    rcases h.use_cases hq with ⟨rfl, he⟩ | hold
    · rw [← hkey]
      exact .inl (h.moves.mem_table_of_usedSlot? he).1
    · exact hchange.current (hs.current q slot hold)
  · intro q slot i hq hi
    exact h.made hs hd hmade hq hi
  · intro q r slot hq hr
    -- Only a use that has just been made can break this, and it found its own entry or a new cell.
    rcases h.use_cases hq with ⟨rfl, he⟩ | hq
    · rcases h.use_cases hr with ⟨rfl, -⟩ | hr
      · rfl
      · exact (h.eq_of_usedSlot? hs hd he hr).symm
    · rcases h.use_cases hr with ⟨rfl, he⟩ | hr
      · exact h.eq_of_usedSlot? hs hd he hq
      · exact hs.alone q r slot hq hr
  · intro q i hq
    rcases h.served_cases hq with ⟨rfl, hi⟩ | hold
    · have hready := h.moves.lookup_of_mem_results hf hi
      exact ⟨hs.ofInvoker_eq hd hp hready, hchange.lookup_eq_some hs.consistent.wf hready⟩
    · obtain ⟨he, hready⟩ := hs.served q i hold
      exact ⟨he, hchange.lookup_eq_some hs.consistent.wf hready⟩

/-- What a cache keeps alive after a request has moved on was kept alive before, if what the request
compiles was compiled from its pair. -/
theorem owned_subset
    (hmade : ∀ slot i, f.phase = .compile slot → v.cache.cellAt slot = .done (.ok i) →
      .ofInvoker i = p) : v.owned ⊆ u.owned := by
  intro q hq
  rcases List.mem_append.mp hq with hq | hq
  · obtain ⟨⟨g, q⟩, hg, rfl⟩ := List.mem_map.mp hq
    rcases h.inFlight_cases hg with ⟨-, rfl⟩ | hold
    · exact UsedCache.mem_owned_of_inFlight h.mem_inFlight
    · exact UsedCache.mem_owned_of_inFlight hold
  · obtain ⟨⟨key, i⟩, hi, rfl⟩ := List.mem_map.mp hq
    obtain ⟨⟨other, slot⟩, hm, he⟩ := List.mem_filterMap.mp hi
    obtain ⟨j, hj, hji⟩ := Option.map_eq_some_iff.mp he
    obtain ⟨rfl, rfl⟩ := Prod.mk.inj hji
    have hdone := Cell.ready?_eq_some_iff.mp hj
    rcases h.moves.success_cases (h.sound_frame hs) hdone with hsame | hc
    · exact UsedCache.mem_owned_of_cellAt (h.mem_table_before hs hm hdone) hsame
    · show Pair.ofInvoker j ∈ u.owned
      rw [hmade slot j hc hdone]
      exact UsedCache.mem_owned_of_inFlight h.mem_inFlight

end Sound
end Turn

namespace UsedCache

variable {u v : UsedCache σ} {caller : Nat}

/-- A new cache is sound. -/
theorem sound_start (callers : Nat) : (start callers : UsedCache σ).Sound := by
  have hf : (start callers : UsedCache σ).inFlight = [] := by simp [start, inFlight]
  constructor
  · rw [hf]
    exact ⟨Cache.wf_empty, fun f hf ↦ (by cases hf), List.Pairwise.nil⟩
  · intro entry he
    cases he
  · intro f p h
    rw [hf] at h
    cases h
  · intro f p slot h
    rw [hf] at h
    cases h
  · intro key i hi
    cases hi
  · intro p slot h
    cases h
  · intro p slot i h
    cases h
  · intro p q slot h
    cases h
  · intro p i h
    cases h

/-- A new request joins those that have not been answered. -/
theorem ask_cases {goal : Goal} {p : Pair σ} (h : u.ask caller goal p = some v) :
    v.cache = u.cache ∧ v.uses = u.uses ∧ v.served = u.served ∧
      v.inFlight.Perm ((.new goal p.key, p) :: u.inFlight) := by
  unfold ask at h
  cases hs : u.callers[caller]? with
  | none => simp [hs] at h
  | some stack =>
    simp only [hs] at h
    split at h
    · cases h
      obtain ⟨others, hperm, hset⟩ := exists_others hs
      exact ⟨rfl, rfl, rfl, (hset _).trans (hperm.symm.cons _)⟩
    · cases h

/-- A request that makes its next step moves on. It does not end a compilation. -/
theorem turn_of_proceed {shard : CacheKey → Nat} {invokers : List (Invoker σ)}
    (h : u.proceed shard caller = some (v, invokers)) :
    ∃ f p others next record free, Turn caller free u v f p others next record ∧
      (∀ slot, f.phase ≠ .compile slot) ∧
      invokers = record.filterMap (Occurrence.result? p.key) := by
  unfold proceed at h
  rcases hs : u.callers[caller]? with _ | _ | ⟨⟨f, p⟩, rest⟩
  · simp [hs] at h
  · simp [hs] at h
  · simp only [hs, Option.map_eq_some_iff, Prod.mk.injEq] at h
    obtain ⟨next, hn, rfl, rfl⟩ := h
    obtain ⟨others, hperm, hset⟩ := exists_others hs
    refine ⟨f, p, rest ++ others, next.frame, next.record, _,
      ⟨Frame.moves_of_proceed hn, hperm, ?_, rfl, rfl⟩, fun slot hp ↦ ?_, rfl⟩
    · rw [← List.append_assoc]
      exact hset _
    · simp [Frame.proceed, hp] at hn

/-- A request whose compilation ends moves on, and the outcome is in its cell. -/
theorem turn_of_finish {outcome : Except CompileError (Invoker σ)}
    (h : u.finish caller outcome = some v) :
    ∃ f p others next record slot, Turn caller true u v f p others next record ∧
      u.compiling? caller = some p ∧ f.phase = .compile slot ∧
      v.cache = u.cache.settle slot outcome := by
  unfold finish at h
  rcases hs : u.callers[caller]? with _ | _ | ⟨⟨f, p⟩, rest⟩
  · simp [hs] at h
  · simp [hs] at h
  · cases hp : f.phase with
    | compile slot =>
      simp only [hs, hp, Option.some.injEq] at h
      subst h
      obtain ⟨others, hperm, hset⟩ := exists_others hs
      refine ⟨f, p, rest ++ others, some (f.goTo (.count slot outcome)),
        [.ended caller f.key slot outcome], slot,
        ⟨.settle slot outcome hp, hperm, hset _, ?_, rfl⟩, ?_, hp, rfl⟩
      · simp [Frame.usedSlot?, hp]
      · simp [compiling?, hs, Frame.isCompiling, hp]
    | _ => simp [hs, hp] at h

/-- The pair that a caller compiles is kept alive. -/
theorem mem_inFlight_of_compiling? {p : Pair σ} (h : u.compiling? caller = some p) :
    ∃ f, (f, p) ∈ u.inFlight := by
  unfold compiling? at h
  rcases hs : u.callers[caller]? with _ | _ | ⟨⟨f, q⟩, rest⟩
  · simp [hs] at h
  · simp [hs] at h
  · simp only [hs] at h
    split at h
    · cases h
      exact ⟨f, List.mem_flatten.mpr ⟨_, List.mem_of_getElem? hs, List.mem_cons_self ..⟩⟩
    · cases h

namespace Sound

/-- A new request keeps a cache sound. -/
theorem ask {goal : Goal} {p : Pair σ} (hs : u.Sound) (h : u.ask caller goal p = some v) :
    v.Sound := by
  obtain ⟨hcache, huses, hserved, hperm⟩ := ask_cases h
  have hcases {f : Request σ} {q : Pair σ} (hf : (f, q) ∈ v.inFlight) :
      f = .new goal p.key ∧ q = p ∨ (f, q) ∈ u.inFlight := by
    rcases List.mem_cons.mp (hperm.mem_iff.mp hf) with he | hold
    · exact .inl (Prod.mk.inj he)
    · exact .inr hold
  constructor
  · rw [hcache]
    exact (hs.consistent.new goal p.key).perm (hperm.map Prod.fst).symm
  · rw [hcache]
    exact (hs.attended.new (.new goal p.key)).perm (hperm.map Prod.fst).symm
  · intro f q hf
    rcases hcases hf with ⟨rfl, rfl⟩ | hold
    · rfl
    · exact hs.keyed f q hold
  · intro f q slot hf hslot
    rw [huses]
    rcases hcases hf with ⟨rfl, rfl⟩ | hold
    · cases hslot
    · exact hs.held f q slot hold hslot
  · rw [hcache]
    exact hs.ready
  · rw [hcache, huses]
    exact hs.current
  · rw [hcache, huses]
    exact hs.made
  · rw [huses]
    exact hs.alone
  · rw [hcache, hserved]
    exact hs.served

end Sound
end UsedCache
end Program
end Invocation
