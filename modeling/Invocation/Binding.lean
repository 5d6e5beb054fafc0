import Invocation.Method
import Invocation.Plan

/-!
# Bindings

A binding is a method together with its target, if it takes one, and the plan of its signature.
It is made only after the pair has been validated, so what is generated from a binding can rely on
the bound on the arity and on the type of the receiver.
-/

namespace Invocation

open Text (Layout)

/-- The largest number of parameters a native call passes, not counting the receiver. -/
def maxParams : Nat := 8

namespace Method

variable {σ : Type}

/-- Whether a method can be bound to a target. The arity comes first; the type of the target is
compared as a type, and its name only appears in the error. -/
def validate (m : Method σ) (target : Option Target) : Except CompileError Unit :=
  if maxParams < m.arity then .error (.tooManyParameters m.name m.arity maxParams)
  else
    match m.signature.kind, target with
    | .static, none => .ok ()
    | .static, some _ => .error (.unexpectedTarget m.name)
    | .instance receiver, none => .error (.missingTarget m.name receiver.name)
    | .instance receiver, some t =>
      if t.type.id = receiver.id then .ok ()
      else .error (.targetTypeMismatch m.name receiver.name t.type.name)

end Method

/-- A validated pair of method and target with its plan. -/
structure Binding (σ : Type) where
  method : MethodHandle σ
  target : Option Target
  plan : Plan

namespace Binding

variable {σ : Type}

/-- Bind a method to an optional target. -/
def make (m : MethodHandle σ) (target : Option Target) : Except CompileError (Binding σ) :=
  match m.method.validate target with
  | .error e => .error e
  | .ok () => .ok ⟨m, target, .lower m.method.signature⟩

/-- The name of the bound method. -/
def name (b : Binding σ) : String := b.method.method.name

/-- The address of the receiver; 0 for a static method. -/
def receiver (b : Binding σ) : Word := Target.receiverWord b.target

/-- The structured text of a binding. -/
def layout (b : Binding σ) : Layout :=
  .record "Binding"
    [("method", b.method.method.layout), ("target", .option (b.target.map Target.layout)),
      ("plan", b.plan.layout)]

end Binding
end Invocation
