import Invocation.Binding

/-!
# Which pairs can be bound

A method and an optional target make a binding exactly if the arity is within bounds and the target
is what the kind of the method takes (`Binding.make_eq_ok_iff`). The binding then carries the pair
as it was given, and the plan of the method's signature. Every other pair is rejected for a reason of
its own (`Method.validate_eq_error_iff`): the arity comes first, then what the pair is.
-/

namespace Invocation

/-- A static method takes no target, an instance method one whose type is that of the receiver. -/
def MethodKind.Takes : MethodKind → Option Target → Prop
  | .static, none => True
  | .instance receiver, some t => t.type.id = receiver.id
  | _, _ => False

namespace Method

variable {σ : Type}

/-- Why a method cannot be bound to a target: the error that the pair calls for. -/
inductive Rejects (m : Method σ) : Option Target → CompileError → Prop
  | tooManyParameters (target : Option Target) : maxParams < m.arity →
    m.Rejects target (.tooManyParameters m.name m.arity maxParams)
  | unexpectedTarget (t : Target) : m.arity ≤ maxParams → m.signature.kind = .static →
    m.Rejects (some t) (.unexpectedTarget m.name)
  | missingTarget (receiver : HostType) : m.arity ≤ maxParams →
    m.signature.kind = .instance receiver → m.Rejects none (.missingTarget m.name receiver.name)
  | targetTypeMismatch (receiver : HostType) (t : Target) : m.arity ≤ maxParams →
    m.signature.kind = .instance receiver → t.type.id ≠ receiver.id →
    m.Rejects (some t) (.targetTypeMismatch m.name receiver.name t.type.name)

/-- A pair is valid exactly if the arity is within bounds and the method takes the target. -/
theorem validate_eq_ok_iff (m : Method σ) (target : Option Target) :
    m.validate target = .ok () ↔ m.arity ≤ maxParams ∧ m.signature.kind.Takes target := by
  unfold validate
  split
  · next h => simp [Nat.not_le.mpr h]
  · next h =>
    have hm : m.arity ≤ maxParams := Nat.not_lt.mp h
    cases m.signature.kind with
    | static => cases target <;> simp [MethodKind.Takes, hm]
    | «instance» receiver =>
      cases target with
      | none => simp [MethodKind.Takes]
      | some t => by_cases ht : t.type.id = receiver.id <;> simp [MethodKind.Takes, ht, hm]

/-- A pair is rejected with the error that it calls for. -/
theorem validate_eq_error_iff (m : Method σ) (target : Option Target) (e : CompileError) :
    m.validate target = .error e ↔ m.Rejects target e := by
  constructor
  · intro h
    unfold validate at h
    split at h
    · next hmax =>
      cases h
      exact .tooManyParameters target hmax
    · next hmax =>
      have hm : m.arity ≤ maxParams := Nat.not_lt.mp hmax
      split at h
      · cases h
      · next hk =>
        cases h
        exact .unexpectedTarget _ hm hk
      · next hk =>
        cases h
        exact .missingTarget _ hm hk
      · next hk =>
        split at h
        · cases h
        · next ht =>
          cases h
          exact .targetTypeMismatch _ _ hm hk ht
  · intro h
    cases h with
    | tooManyParameters _ hmax => simp [validate, hmax]
    | unexpectedTarget t hm hk => simp [validate, Nat.not_lt.mpr hm, hk]
    | missingTarget receiver hm hk => simp [validate, Nat.not_lt.mpr hm, hk]
    | targetTypeMismatch receiver t hm hk ht => simp [validate, Nat.not_lt.mpr hm, hk, ht]

end Method

namespace Binding

variable {σ : Type}

/-- A binding is made of valid pairs only, and adds nothing to the pair but its plan. -/
theorem make_eq_ok_iff (m : MethodHandle σ) (target : Option Target) (b : Binding σ) :
    make m target = .ok b ↔
      (m.method.arity ≤ maxParams ∧ m.method.signature.kind.Takes target) ∧
        b = ⟨m, target, .lower m.method.signature⟩ := by
  rw [← Method.validate_eq_ok_iff, make]
  cases m.method.validate target with
  | error e => simp
  | ok u => simp [eq_comm]

/-- No binding is made of a pair that is rejected, and the error is the one that it calls for. -/
theorem make_eq_error_iff (m : MethodHandle σ) (target : Option Target) (e : CompileError) :
    make m target = .error e ↔ m.method.Rejects target e := by
  rw [← Method.validate_eq_error_iff, make]
  cases m.method.validate target with
  | error e => simp
  | ok u => simp

end Binding
end Invocation
