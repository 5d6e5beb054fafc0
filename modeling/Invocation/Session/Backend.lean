import Invocation.Cache.Request
import Invocation.Session.World

/-!
# Backends of a session

The backends a session can choose from: the two of the library, and backends of its own, which
count their emissions, fail as often as they are told to, and can request another invoker from the
very cache they emit for.
-/

namespace Invocation.Session

/-- What a backend of a session keeps account of. -/
structure Emissions where
  /-- How often a thunk was to be emitted. -/
  emitted : Nat
  /-- How often that failed. -/
  failed : Nat
  /-- A request to make during the next emission. -/
  pending : Option (MethodHandle World × Option Target)
  /-- What came of the last such request: the name of the method or the error. -/
  nested : Option (Except CompileError String)

/-- No thunk was emitted yet. -/
def Emissions.start : Emissions := ⟨0, 0, none, none⟩

/-- What compilation needs besides the cache. -/
structure Bench where
  /-- The next identity to give out. -/
  nextId : Nat
  /-- The events so far, the first event first. -/
  events : List Event
  emissions : Emissions

/-- Identities are counted, events are listed. -/
instance : Surroundings Bench where
  fresh := fun x ↦ (x.nextId, { x with nextId := x.nextId + 1 })
  record := fun e x ↦ { x with events := x.events ++ [e] }

/-- A computation of a compiler in a session, on the cache it works for. -/
abbrev WorkM := CompileM (InvokerCache World × Bench)

/-- What a thunk of a session's own backend does. -/
inductive ThunkStyle where
  /-- What the portable thunk does. -/
  | portable
  /-- Answer with the number of arguments, whatever they are. -/
  | count
  /-- Answer with the first argument, or null without one. -/
  | first
  deriving DecidableEq, Repr

/-- The thunk of a style. -/
def ThunkStyle.thunk (b : Binding World) : ThunkStyle → Thunk World
  | .portable => Portable.thunk b
  | .count => fun args ↦ return .ok (.inline .u64 (BitVec.ofNat 64 args.length))
  | .first => fun args ↦ do
    let v := args.values.head?.getD .null
    modify (World.retain v)
    return .ok v

/-- A backend of a session's own. -/
structure OwnBackend where
  name : String
  /-- How many emissions fail, before all others succeed. -/
  failures : Nat
  failure : CompileError
  style : ThunkStyle
  deriving Repr

namespace OwnBackend

/-- Change what is kept account of. -/
def account (f : Emissions → Emissions) : WorkM Unit :=
  modify fun (c, x) ↦ (c, { x with emissions := f x.emissions })

/-- Emit a thunk, where `request` is how to request an invoker. The pending request is made first;
it finds no other request pending. -/
def emit (o : OwnBackend)
    (request : MethodHandle World → Option Target → WorkM (Except CompileError (Invoker World)))
    (b : Binding World) : WorkM (Except CompileError (Thunk World)) := do
  account fun e ↦ { e with emitted := e.emitted + 1 }
  match (← get).2.emissions.pending with
  | none => pure ()
  | some (m, target) =>
    account fun e ↦ { e with pending := none }
    let outcome ← request m target
    account fun e ↦ { e with nested := some (outcome.map fun i ↦ i.method.method.name) }
  if (← get).2.emissions.failed < o.failures then
    account fun e ↦ { e with failed := e.failed + 1 }
    return .error o.failure
  else
    return .ok (o.style.thunk b)

/-- The backend during a request made from an emission, when no further request is pending. -/
def inner (o : OwnBackend) : Backend World (InvokerCache World × Bench) :=
  ⟨o.name, o.emit fun _ _ ↦ Cache.RequestM.waitForever⟩

/-- The backend. -/
def backend (o : OwnBackend) : Backend World (InvokerCache World × Bench) :=
  ⟨o.name, o.emit (InvokerCache.getOrCompile o.inner)⟩

end OwnBackend

/-- How a cache of a session compiles. -/
inductive BackendChoice where
  | portable
  | machine
  | own (o : OwnBackend)

/-- The backend of a choice. -/
def BackendChoice.backend : BackendChoice → Backend World (InvokerCache World × Bench)
  | .portable => .portable
  | .machine => .machine
  | .own o => o.backend

/-- The backend of the process-wide cache, where the environment says nothing. -/
def sharedBackend : Backend World (InvokerCache World × Bench) :=
  (Backend.ofEnvironment ⟨true⟩ none).1

end Invocation.Session
