import Invocation.Config
import Invocation.Machine.Thunk

/-!
# Compilation

A backend turns a binding into a thunk; it sees nothing but valid bindings. A compiler is a backend
in use: it validates the pair of method and target, has the thunk emitted, and makes the invoker.
What a backend does besides, it does to a state of its surroundings, which may include the very
cache that asked for the thunk. A backend that waits for itself never finishes.
-/

namespace Invocation

open Text (Layout)

/-- A computation on the surroundings of a compiler; nothing comes of one that waits for itself. -/
abbrev CompileM (τ : Type) := StateT τ Option

/-- Surroundings that give out identities and take note of events. -/
class Surroundings (τ : Type) where
  /-- An identity that was never given out before. -/
  fresh : τ → Nat × τ
  /-- Take note of an event. -/
  record : Event → τ → τ

/-- Take note of an event. -/
def report {τ : Type} [Surroundings τ] (e : Event) : CompileM τ Unit :=
  modify (Surroundings.record e)

/-- A new identity. -/
def freshId {τ : Type} [Surroundings τ] : CompileM τ Nat := fun x ↦ some (Surroundings.fresh x)

/-- A compiled method, ready to be called as often as wanted. -/
structure Invoker (σ : Type) where
  /-- The identity of the invoker, shared by all handles to it. -/
  id : Nat
  method : MethodHandle σ
  target : Option Target
  /-- The name of the backend that emitted the thunk. -/
  backend : String
  thunk : Thunk σ

namespace Invoker

variable {σ : Type}

/-- Call the method. -/
def invoke (i : Invoker σ) (args : ArgSlice) : CallM σ (Except InvokeError Value) := i.thunk args

/-- Two handles are to the same invoker. -/
def same (a b : Invoker σ) : Bool := a.id == b.id

/-- The structured text of an invoker. -/
def layout (i : Invoker σ) : Layout :=
  .record "Invoker"
    [("method", .text i.method.method.name), ("target", .option (i.target.map Target.layout)),
      ("backend", .text i.backend)]

end Invoker

/-- A way to turn bindings into thunks. -/
structure Backend (σ τ : Type) where
  name : String
  emit : Binding σ → CompileM τ (Except CompileError (Thunk σ))

namespace Backend

variable {σ τ : Type}

/-- The backend of portable thunks. It never fails. -/
def portable [ObjectNames σ] : Backend σ τ :=
  ⟨BackendKind.closure.name, fun b ↦ pure (.ok (Portable.thunk b))⟩

/-- The backend that generates machine code. -/
def machine [ObjectNames σ] : Backend σ τ :=
  ⟨BackendKind.machine.name, fun b ↦
    match Machine.generate b with
    | .ok code => pure (.ok (Machine.thunk b code))
    | .error _ => pure (.error (.codegen "Failed to define thunk"))⟩

/-- Compile a method for a target. The backend is not asked unless the pair is valid, and its own
failure is passed on as it is. -/
def compile [Surroundings τ] (backend : Backend σ τ) (m : MethodHandle σ)
    (target : Option Target) : CompileM τ (Except CompileError (Invoker σ)) :=
  match Binding.make m target with
  | .error e => pure (.error e)
  | .ok b => do
    match ← backend.emit b with
    | .error e => return .error e
    | .ok thunk =>
      report (.compiled m.method.name m.method.arity backend.name)
      return .ok ⟨← freshId, b.method, b.target, backend.name, thunk⟩

/-- The backend of a configuration, if the build contains it. -/
def ofConfig [ObjectNames σ] (build : Build) (config : Config) :
    Except CompileError (Backend σ τ) :=
  if config.backend.isAvailable build then
    match config.backend with
    | .closure => .ok portable
    | .machine => .ok machine
  else .error (.unsupportedBackend config.backend.name)

/-- The backend that the process-wide cache uses, for a value of the environment variable: if the
configured one cannot be used, a warning is reported and the default is used. -/
def ofEnvironment [ObjectNames σ] (build : Build) (value : Option String) :
    Backend σ τ × List Event :=
  let (config, events) := Config.ofVariable value
  match ofConfig build config with
  | .ok backend => (backend, events)
  | .error e => (portable, events ++ [.unusableBackend config.backend.name e.message])

/-- The structured text of a compiler that uses the backend. -/
def compilerLayout (backend : Backend σ τ) : Layout :=
  .record "ThunkCompiler" [("backend", .text backend.name)]

end Backend
end Invocation
