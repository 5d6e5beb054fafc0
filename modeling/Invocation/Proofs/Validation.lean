import Invocation.Proofs.Binding
import Invocation.Proofs.Compiler
import Invocation.Session.Backend

/-!
# Validation stands before every emission

A backend is asked for a thunk exactly if the pair of method and target is valid, whatever the
backend does (`Backend.compile_gated`). What it is asked for is the binding of that very pair, and
what it answers is passed on: its error as it is, its thunk in an invoker for the pair. Which bindings
a backend is given is told by a backend that takes note of them (`Backend.noting`).
-/

namespace Invocation

namespace Backend

variable {σ τ : Type}

/-- The same backend, which takes note of the bindings it is given. -/
def noting (backend : Backend σ τ) : Backend σ (List (Binding σ) × τ) where
  name := backend.name
  emit b := fun (log, x) ↦ (backend.emit b x).map fun (emitted, y) ↦ (emitted, log ++ [b], y)

variable [Surroundings τ]

/-- What becomes of an emission for a method and a target: a failure is passed on, and a thunk is put
into a new invoker, which is reported. -/
def outcome (backend : Backend σ τ) (m : MethodHandle σ) (target : Option Target) :
    Except CompileError (Thunk σ) × τ → Except CompileError (Invoker σ) × τ
  | (.error e, x) => (.error e, x)
  | (.ok thunk, x) =>
    let noted := Surroundings.record (.compiled m.method.name m.method.arity backend.name) x
    (.ok ⟨(Surroundings.fresh noted).1, m, target, backend.name, thunk⟩,
      (Surroundings.fresh noted).2)

/-- A compilation for which a binding can be made is one emission for it, and what becomes of it. -/
theorem compile_of_make_eq_ok (backend : Backend σ τ) {m : MethodHandle σ} {target : Option Target}
    {b : Binding σ} (bound : Binding.make m target = .ok b) (x : τ) :
    backend.compile m target x = (backend.emit b x).map (backend.outcome m target) := by
  obtain ⟨-, hb⟩ := (Binding.make_eq_ok_iff m target b).mp bound
  have hm : b.method = m := by rw [hb]
  have ht : b.target = target := by rw [hb]
  simp only [compile, bound, bind_apply, hm, ht]
  cases backend.emit b x with
  | none => rfl
  | some p =>
    obtain ⟨emitted, y⟩ := p
    cases emitted <;> rfl

/-- A compilation for which no binding can be made comes to the error at once. -/
theorem compile_of_make_eq_error (backend : Backend σ τ) {m : MethodHandle σ}
    {target : Option Target} {e : CompileError} (refused : Binding.make m target = .error e) (x : τ) :
    backend.compile m target x = some (.error e, x) := by
  simp only [compile, refused]
  rfl

/-- Taking note of bindings makes no difference to what becomes of an emission. -/
theorem outcome_noting (backend : Backend σ τ) (m : MethodHandle σ) (target : Option Target)
    (emitted : Except CompileError (Thunk σ)) (log : List (Binding σ)) (x : τ) :
    backend.noting.outcome m target (emitted, log, x) =
      ((backend.outcome m target (emitted, x)).1, log, (backend.outcome m target (emitted, x)).2) := by
  cases emitted <;> rfl

/-- A compilation for which a binding can be made takes note of that binding, and of no other. -/
theorem compile_noting (backend : Backend σ τ) {m : MethodHandle σ} {target : Option Target}
    {b : Binding σ} (bound : Binding.make m target = .ok b) (log : List (Binding σ)) (x : τ) :
    backend.noting.compile m target (log, x) =
      (backend.compile m target x).map fun (a, y) ↦ (a, log ++ [b], y) := by
  rw [compile_of_make_eq_ok _ bound, compile_of_make_eq_ok _ bound]
  show Option.map _ ((backend.emit b x).map _) = _
  cases backend.emit b x with
  | none => rfl
  | some p =>
    obtain ⟨emitted, y⟩ := p
    exact congrArg some (outcome_noting backend m target emitted (log ++ [b]) y)

/-- Validation is exact and stands before every emission. If the arity is within bounds and the
method takes the target, the backend is asked for one thunk, for the binding of the two with the plan
of the method's signature; its failure is passed on as it is, and its thunk becomes an invoker of the
two. A pair that is rejected comes to the error it calls for, without a word to the backend. A pair
is valid exactly if there is no error that it calls for. -/
theorem compile_gated (backend : Backend σ τ) (m : MethodHandle σ) (target : Option Target) :
    (m.method.arity ≤ maxParams ∧ m.method.signature.kind.Takes target →
      (∀ x, backend.compile m target x =
        (backend.emit ⟨m, target, .lower m.method.signature⟩ x).map (backend.outcome m target)) ∧
      ∀ log x, backend.noting.compile m target (log, x) = (backend.compile m target x).map
        fun (a, y) ↦ (a, log ++ [⟨m, target, .lower m.method.signature⟩], y)) ∧
    (∀ e, m.method.Rejects target e →
      (∀ x, backend.compile m target x = some (.error e, x)) ∧
      ∀ log x, backend.noting.compile m target (log, x) = some (.error e, log, x)) ∧
    (m.method.arity ≤ maxParams ∧ m.method.signature.kind.Takes target ↔
      ¬ ∃ e, m.method.Rejects target e) := by
  refine ⟨fun valid ↦ ?_, fun e rejected ↦ ?_, ?_⟩
  · have bound := (Binding.make_eq_ok_iff m target _).mpr ⟨valid, rfl⟩
    exact ⟨compile_of_make_eq_ok backend bound, compile_noting backend bound⟩
  · have refused := (Binding.make_eq_error_iff m target e).mpr rejected
    exact ⟨compile_of_make_eq_error backend refused,
      fun log x ↦ compile_of_make_eq_error backend.noting refused (log, x)⟩
  · simp only [← Method.validate_eq_ok_iff, ← Method.validate_eq_error_iff]
    cases m.method.validate target <;> simp

/-- A method on instances of a type. -/
def gauge : MethodHandle Unit :=
  ⟨0, 64, "Gauge.read", ⟨[.value .f32, .reference], .value .f32, .instance ⟨1, "Gauge"⟩⟩, 4096,
    fun _ (x, _, _) s ↦ (x, s)⟩

/-- An instance of a type with the name `Gauge`. -/
def dial (type : Nat) : Target := ⟨1, 128, ⟨type, "Gauge"⟩⟩

/-- A backend that emits nothing. -/
def broken : Backend Unit Session.Bench := ⟨"broken", fun _ ↦ pure (.error (.codegen "broken"))⟩

/-- A backend's failure is passed on after it was given the binding. An instance of another type that
has the same name is rejected before, as is no instance. -/
theorem compile_gated_gauge :
    broken.noting.compile gauge (some (dial 1)) ([], ⟨0, [], .start⟩) =
        some (.error (.codegen "broken"),
          [⟨gauge, some (dial 1), ⟨[.unbox .f32, .passRef], .box .f32⟩⟩], ⟨0, [], .start⟩) ∧
      broken.noting.compile gauge (some (dial 2)) ([], ⟨0, [], .start⟩) =
        some (.error (.targetTypeMismatch "Gauge.read" "Gauge" "Gauge"), [], ⟨0, [], .start⟩) ∧
      broken.noting.compile gauge none ([], ⟨0, [], .start⟩) =
        some (.error (.missingTarget "Gauge.read" "Gauge"), [], ⟨0, [], .start⟩) := by
  have arity : gauge.method.arity ≤ maxParams := by decide
  refine ⟨?_, ?_, ?_⟩
  · obtain ⟨hcompile, hnoting⟩ := (compile_gated broken gauge (some (dial 1))).1 ⟨arity, rfl⟩
    rw [hnoting, hcompile]
    rfl
  · have other : (dial 2).type.id ≠ 1 := by decide
    exact ((compile_gated broken gauge (some (dial 2))).2.1 _
      (.targetTypeMismatch ⟨1, "Gauge"⟩ (dial 2) arity rfl other)).2 _ _
  · exact ((compile_gated broken gauge none).2.1 _ (.missingTarget ⟨1, "Gauge"⟩ arity rfl)).2 _ _

end Backend
end Invocation
