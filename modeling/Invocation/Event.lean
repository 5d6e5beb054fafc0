/-!
# Events

What the compiler, the cache and the configuration report while they work, for whoever listens.
-/

namespace Invocation

/-- How important an event is. -/
inductive Level where
  | trace
  | debug
  | warn
  deriving DecidableEq, Repr

/-- The name of a level. -/
def Level.name : Level → String
  | .trace => "TRACE"
  | .debug => "DEBUG"
  | .warn => "WARN"

/-- Something that was reported. -/
inductive Event where
  /-- A request was served from a ready invoker. -/
  | hit (method : String)
  /-- A request found no ready invoker. -/
  | miss (method : String)
  /-- A method was compiled. -/
  | compiled (method : String) (arity : Nat) (backend : String)
  /-- An environment variable names no backend. -/
  | unknownBackend (setting value error : String)
  /-- The configured backend cannot be used. -/
  | unusableBackend (backend error : String)
  deriving DecidableEq, Repr

namespace Event

/-- How important the event is. -/
def level : Event → Level
  | .hit _ | .miss _ => .trace
  | .compiled .. => .debug
  | .unknownBackend .. | .unusableBackend .. => .warn

/-- What is said about the event. -/
def message : Event → String
  | .hit _ => "thunk cache hit"
  | .miss _ => "thunk cache miss"
  | .compiled .. => "compiled thunk"
  | .unknownBackend _ _ error | .unusableBackend _ error => error ++ ", using default backend"

/-- A field of an event. -/
inductive Field where
  | text (s : String)
  | number (n : Nat)
  deriving DecidableEq, Repr

/-- The fields of the event, by name. -/
def fields : Event → List (String × Field)
  | .hit method | .miss method => [("method", .text method)]
  | .compiled method arity backend =>
    [("method", .text method), ("arity", .number arity), ("backend", .text backend)]
  | .unknownBackend setting value _ => [("env", .text setting), ("value", .text value)]
  | .unusableBackend backend _ => [("backend", .text backend)]

end Event
end Invocation
