import Invocation.Cache.Basic
import Invocation.Compiler

/-!
# Requests to a cache

What one request does when no other caller is active: serve a ready key, or compile it once and
keep the outcome if it is a success. While it compiles, whoever compiles may make requests of its
own to the same cache; a request for the very key that is being compiled waits for itself, and
nothing comes of it.
-/

namespace Invocation

namespace Cache

variable {κ ι ε τ : Type} [DecidableEq κ]

/-- What a compilation can do that has a cache at hand: change the cache and its surroundings. -/
abbrev RequestM (κ ι ε τ : Type) := CompileM (Cache κ ι ε × τ)

namespace RequestM

/-- The cache as it is now. -/
def cache : RequestM κ ι ε τ (Cache κ ι ε) := do return (← get).1

/-- Change the cache. -/
def update (f : Cache κ ι ε → Cache κ ι ε) : RequestM κ ι ε τ Unit :=
  modify fun (c, x) ↦ (f c, x)

/-- The cell of a key, which gets a new one if it has none. -/
def claim (key : κ) : RequestM κ ι ε τ Nat :=
  modifyGet fun (c, x) ↦ ((c.claim key).1, (c.claim key).2, x)

/-- Nothing comes of this request. -/
def waitForever {α : Type} : RequestM κ ι ε τ α := fun _ ↦ none

end RequestM

open RequestM

/-- Compile into an empty cell and keep the outcome: a failure leaves the table at once. -/
def fill (key : κ) (slot : Nat) (compile : RequestM κ ι ε τ (Except ε ι)) :
    RequestM κ ι ε τ (Except ε ι) := do
  update (·.start slot)
  let outcome ← compile
  update fun c ↦ (c.settle slot outcome).countOutcome outcome
  match outcome with
  | .ok i => return .ok i
  | .error e =>
    update (·.removeIfSame key slot)
    return .error e

/-- Get what is ready for a key, or compile it. The notes say that the key was found ready, or that
it was not. -/
def request (key : κ) (noteHit noteMiss : RequestM κ ι ε τ Unit)
    (compile : RequestM κ ι ε τ (Except ε ι)) : RequestM κ ι ε τ (Except ε ι) := do
  match (← cache).lookup key with
  | some i =>
    update countHit
    noteHit
    return .ok i
  | none =>
    update countMiss
    noteMiss
    let slot ← RequestM.claim key
    match (← cache).cellAt slot with
    | .empty => fill key slot compile
    | .running => waitForever
    | .done outcome => return outcome

end Cache

/-- The identity of a method and its target, by the addresses they live at. -/
structure CacheKey where
  method : Word
  /-- 0 if there is no target. -/
  target : Word
  deriving DecidableEq, Repr

namespace CacheKey

/-- The key of a method and an optional target. -/
def of {σ : Type} (m : MethodHandle σ) (target : Option Target) : CacheKey :=
  ⟨m.address, Target.receiverWord target⟩

end CacheKey

/-- A cache of invokers. -/
abbrev InvokerCache (σ : Type) := Cache CacheKey (Invoker σ) CompileError

/-- What surrounds a cache gives out the identities and takes the notes. -/
instance {α τ : Type} [Surroundings τ] : Surroundings (α × τ) where
  fresh := fun (c, x) ↦ ((Surroundings.fresh x).1, c, (Surroundings.fresh x).2)
  record := fun e (c, x) ↦ (c, Surroundings.record e x)

namespace InvokerCache

variable {σ τ : Type}

/-- The invoker of a method for a target, if it is ready. -/
def get (c : InvokerCache σ) (m : MethodHandle σ) (target : Option Target) :
    Option (Invoker σ) :=
  c.lookup (.of m target)

/-- Whether the invoker of a method for a target is ready. -/
def contains (c : InvokerCache σ) (m : MethodHandle σ) (target : Option Target) : Bool :=
  (c.get m target).isSome

/-- The invoker of a method for a target, compiled by the backend on the first request. -/
def getOrCompile [Surroundings τ] (backend : Backend σ (InvokerCache σ × τ))
    (m : MethodHandle σ) (target : Option Target) :
    CompileM (InvokerCache σ × τ) (Except CompileError (Invoker σ)) :=
  Cache.request (.of m target) (report (.hit m.method.name)) (report (.miss m.method.name))
    (backend.compile m target)

end InvokerCache
end Invocation
