import Invocation.Cache.Request

/-!
# What comes of a compilation

An action of a compiler changes the surroundings, or nothing comes of it. Two things are said of
actions here: that what they leave is related to what they start from (`Keeps`), and that what comes
of one comes of another one from related surroundings (`Transfers`). Both are said of a compilation
if they can be said of every emission (`Backend.keeps_compile`, `Backend.transfers_compile`).
-/

namespace Invocation

/-- Whatever an action starts from and what it leaves are related. -/
def Keeps {S α : Type} (Q : S → S → Prop) (act : CompileM S α) : Prop :=
  ∀ s a s', act s = some (a, s') → Q s s'

/-- What comes of one action comes of the other from every related state, and what they leave is
related again. -/
def Transfers {S T α : Type} (R : S → T → Prop) (act : CompileM S α) (act' : CompileM T α) : Prop :=
  ∀ s t a s', R s t → act s = some (a, s') → ∃ t', act' t = some (a, t') ∧ R s' t'

/-- Two caches with what surrounds them are related if the caches are and the surroundings are. -/
def Both {C D S T : Type} (R : C → D → Prop) (U : S → T → Prop) (s : C × S) (t : D × T) : Prop :=
  R s.1 t.1 ∧ U s.2 t.2

section Actions

variable {S α β : Type}

theorem bind_apply (act : CompileM S α) (next : α → CompileM S β) (s : S) :
    (act >>= next) s = (act s).bind fun p ↦ next p.1 p.2 := rfl

/-- An action goes on with what comes of its first part. -/
theorem bind_eq_some_iff {act : CompileM S α} {next : α → CompileM S β} {s u : S} {b : β} :
    (act >>= next) s = some (b, u) ↔ ∃ a t, act s = some (a, t) ∧ next a t = some (b, u) := by
  simp [bind_apply, Option.bind_eq_some_iff]

theorem report_apply [Surroundings S] (e : Event) (s : S) :
    report e s = some ((), Surroundings.record e s) := rfl

theorem freshId_apply [Surroundings S] (s : S) : freshId s = some (Surroundings.fresh s) := rfl

/-- What surrounds a cache takes the notes. -/
theorem record_prod [Surroundings S] (e : Event) (a : α) (s : S) :
    Surroundings.record e (a, s) = (a, Surroundings.record e s) := rfl

end Actions

namespace Keeps

variable {S α β : Type} {Q : S → S → Prop}

theorem pure (hrefl : ∀ s, Q s s) (a : α) : Keeps Q (Pure.pure a : CompileM S α) := by
  intro s b s' h
  cases h
  exact hrefl s

theorem bind (htrans : ∀ s t u, Q s t → Q t u → Q s u) {act : CompileM S α}
    {next : α → CompileM S β} (h : Keeps Q act) (hnext : ∀ a, Keeps Q (next a)) :
    Keeps Q (act >>= next) := by
  intro s b u hrun
  obtain ⟨a, t, ha, hb⟩ := bind_eq_some_iff.mp hrun
  exact htrans s t u (h s a t ha) (hnext a t b u hb)

end Keeps

namespace Transfers

variable {S T α β : Type} {R : S → T → Prop}

theorem pure (a : α) : Transfers R (Pure.pure a : CompileM S α) (Pure.pure a : CompileM T α) := by
  intro s t b s' hR h
  cases h
  exact ⟨t, rfl, hR⟩

theorem bind {act : CompileM S α} {act' : CompileM T α} {next : α → CompileM S β}
    {next' : α → CompileM T β} (h : Transfers R act act')
    (hnext : ∀ a, Transfers R (next a) (next' a)) : Transfers R (act >>= next) (act' >>= next') := by
  intro s t b u hR hrun
  obtain ⟨a, s', ha, hb⟩ := bind_eq_some_iff.mp hrun
  obtain ⟨t', ha', hR'⟩ := h s t a s' hR ha
  obtain ⟨u', hb', hR''⟩ := hnext a s' t' b u hR' hb
  exact ⟨u', bind_eq_some_iff.mpr ⟨a, t', ha', hb'⟩, hR''⟩

end Transfers

namespace Backend

variable {σ S T : Type} [Surroundings S] [Surroundings T]

/-- What every emission keeps is kept by every compilation. -/
theorem keeps_compile {Q : S → S → Prop} {backend : Backend σ S} (hrefl : ∀ s, Q s s)
    (htrans : ∀ s t u, Q s t → Q t u → Q s u) (hrecord : ∀ e s, Q s (Surroundings.record e s))
    (hfresh : ∀ s, Q s (Surroundings.fresh s).2) (hemit : ∀ b, Keeps Q (backend.emit b))
    (m : MethodHandle σ) (target : Option Target) : Keeps Q (backend.compile m target) := by
  have hreport (e : Event) : Keeps Q (report e : CompileM S Unit) := by
    intro s a s' h
    rw [report_apply] at h
    cases h
    exact hrecord e s
  have hid : Keeps Q (freshId : CompileM S Nat) := by
    intro s a s' h
    rw [freshId_apply, Option.some.injEq] at h
    have hs : s' = (Surroundings.fresh s).2 := by rw [h]
    rw [hs]
    exact hfresh s
  unfold compile
  cases Binding.make m target with
  | error e => exact .pure hrefl _
  | ok b =>
    apply Keeps.bind htrans (hemit b)
    intro emitted
    cases emitted with
    | error e => exact .pure hrefl _
    | ok thunk =>
      apply Keeps.bind htrans (hreport _)
      intro _
      exact .bind htrans hid fun _ ↦ .pure hrefl _

/-- What comes of every emission of one backend comes of those of another that has the same name,
and so it is with compilations. -/
theorem transfers_compile {C D : Type} {R : C → D → Prop} {U : S → T → Prop}
    {backend : Backend σ (C × S)} {backend' : Backend σ (D × T)} (hname : backend.name = backend'.name)
    (hrecord : ∀ e x y, U x y → U (Surroundings.record e x) (Surroundings.record e y))
    (hfresh : ∀ x y, U x y → (Surroundings.fresh x).1 = (Surroundings.fresh y).1 ∧
      U (Surroundings.fresh x).2 (Surroundings.fresh y).2)
    (hemit : ∀ b, Transfers (Both R U) (backend.emit b) (backend'.emit b)) (m : MethodHandle σ)
    (target : Option Target) :
    Transfers (Both R U) (backend.compile m target) (backend'.compile m target) := by
  have hreport (e : Event) :
      Transfers (Both R U) (report e : CompileM (C × S) Unit) (report e) := by
    rintro ⟨c, x⟩ ⟨d, y⟩ a s' ⟨hR, hU⟩ h
    cases h
    exact ⟨_, rfl, hR, hrecord e x y hU⟩
  have hid : Transfers (Both R U) (freshId : CompileM (C × S) Nat) freshId := by
    rintro ⟨c, x⟩ ⟨d, y⟩ a s' ⟨hR, hU⟩ h
    cases h
    obtain ⟨hsame, hnext⟩ := hfresh x y hU
    refine ⟨(d, (Surroundings.fresh y).2), ?_, hR, hnext⟩
    show _ = some ((Surroundings.fresh x).1, _)
    rw [hsame]
    rfl
  unfold compile
  cases Binding.make m target with
  | error e => exact .pure _
  | ok b =>
    apply Transfers.bind (hemit b)
    intro emitted
    cases emitted with
    | error e => exact .pure _
    | ok thunk =>
      rw [hname]
      apply Transfers.bind (hreport _)
      intro _
      exact .bind hid fun _ ↦ .pure _

/-- It is the same in the same surroundings. -/
theorem transfers_compile_same {C D : Type} {R : C → D → Prop} {backend : Backend σ (C × S)}
    {backend' : Backend σ (D × S)} (hname : backend.name = backend'.name)
    (hemit : ∀ b, Transfers (Both R Eq) (backend.emit b) (backend'.emit b)) (m : MethodHandle σ)
    (target : Option Target) :
    Transfers (Both R Eq) (backend.compile m target) (backend'.compile m target) := by
  apply transfers_compile hname _ _ hemit m target
  · rintro e x y rfl
    rfl
  · rintro x y rfl
    exact ⟨rfl, rfl⟩

end Backend

end Invocation
