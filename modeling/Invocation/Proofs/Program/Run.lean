import Invocation.Proofs.Cache.Uniqueness

/-!
# Programs that use caches

A program makes, clones and drops handles to methods, instances, invokers and caches in any order,
and any number of callers make requests to its caches at the same time, one atomic step after the
other. What no handle, no request and no live cache owns any more is gone. The allocator is free to
choose where something new lives, as long as nothing of its sort lives there (`State.step`).

For each cache it is noted which entries its requests used and what they were served, with the
method and the target that they named. Without these notes a cache of a program steps as
`Cache.Interleaving.State.step` says (`UsedCache.requests_ask`, `UsedCache.requests_proceed`,
`UsedCache.requests_finish`).
-/

namespace Invocation

namespace Cache.Interleaving

/-- The entry of the table that a request uses in its next step, if it uses one: that which is ready
for its key, or that which it claims. -/
def Frame.usedSlot? {κ ι ε : Type} [DecidableEq κ] (c : Cache κ ι ε) (f : Frame κ ι ε) :
    Option Nat :=
  if f.locked then
    match f.phase with
    | .lookup => (c.lookup f.key).bind fun _ ↦ c.slotOf? f.key
    | .claim => some (c.claim f.key).1
    | _ => none
  else none

end Cache.Interleaving

namespace Program

open Cache.Interleaving (Frame Occurrence Goal)

/-- What a request names: a method, and a target if it is to be bound to one. -/
structure Pair (σ : Type) where
  method : MethodHandle σ
  target : Option Target

/-- A request to a cache of invokers that has not been answered. -/
abbrev Request (σ : Type) := Frame CacheKey (Invoker σ) CompileError

namespace Pair

variable {σ : Type}

/-- The key of a pair. -/
def key (p : Pair σ) : CacheKey := .of p.method p.target

/-- What an invoker was compiled from. -/
def ofInvoker (i : Invoker σ) : Pair σ := ⟨i.method, i.target⟩

/-- Two pairs name the same allocations: the same method, and the same instance or none. -/
def Same (p q : Pair σ) : Prop :=
  p.method.id = q.method.id ∧ p.target.map Target.id = q.target.map Target.id

end Pair

/-- A cache of a program, and what its requests name. -/
structure UsedCache (σ : Type) where
  cache : InvokerCache σ
  /-- The stack of each caller, the newest request first. -/
  callers : List (List (Request σ × Pair σ))
  history : List (Occurrence CacheKey (Invoker σ) CompileError)
  /-- The cells that requests found ready or claimed so far. -/
  uses : List (Pair σ × Nat)
  /-- The invokers that requests were served so far. -/
  served : List (Pair σ × Invoker σ)

namespace UsedCache

variable {σ : Type}

/-- A new cache, which so many callers can use. -/
def start (callers : Nat) : UsedCache σ := ⟨.empty, List.replicate callers [], [], [], []⟩

/-- The cache and its callers, whatever their requests name. -/
def requests (u : UsedCache σ) : Cache.Interleaving.State CacheKey (Invoker σ) CompileError :=
  ⟨u.cache, u.callers.map (·.map Prod.fst), u.history⟩

/-- The requests that have not been answered, with what they name. -/
def inFlight (u : UsedCache σ) : List (Request σ × Pair σ) := u.callers.flatten

/-- What a cache and the requests to it keep alive: what these name, and what the ready invokers
were compiled from. -/
def owned (u : UsedCache σ) : List (Pair σ) :=
  u.inFlight.map Prod.snd ++ u.cache.ready.map fun (_, i) ↦ .ofInvoker i

/-- A caller makes a request. -/
def ask (u : UsedCache σ) (caller : Nat) (goal : Goal) (p : Pair σ) : Option (UsedCache σ) :=
  match u.callers[caller]? with
  | some stack =>
    if Cache.Interleaving.State.canRequest (stack.map Prod.fst) then
      some { u with
        callers := u.callers.set caller ((.new goal p.key, p) :: stack)
        history := .asked caller goal p.key :: u.history }
    else none
  | none => none

/-- A caller makes the next step of its newest request, which may be served an invoker. -/
def proceed (shard : CacheKey → Nat) (u : UsedCache σ) (caller : Nat) :
    Option (UsedCache σ × List (Invoker σ)) :=
  match u.callers[caller]? with
  | some ((f, p) :: rest) =>
    (f.proceed caller (u.requests.isFree shard (shard f.key)) u.cache).map fun next ↦
      let results := next.record.filterMap (Occurrence.result? p.key)
      ({ cache := next.cache
         callers := u.callers.set caller (next.frame.toList.map (·, p) ++ rest)
         history := next.record ++ u.history
         uses := (f.usedSlot? u.cache).toList.map (p, ·) ++ u.uses
         served := results.map (p, ·) ++ u.served }, results)
  | _ => none

/-- The pair that a caller compiles. -/
def compiling? (u : UsedCache σ) (caller : Nat) : Option (Pair σ) :=
  match u.callers[caller]? with
  | some ((f, p) :: _) => if f.isCompiling then some p else none
  | _ => none

/-- The compilation of a caller ends. -/
def finish (u : UsedCache σ) (caller : Nat) (outcome : Except CompileError (Invoker σ)) :
    Option (UsedCache σ) :=
  match u.callers[caller]? with
  | some ((f, p) :: rest) =>
    match f.phase with
    | .compile slot =>
      some { u with
        cache := u.cache.settle slot outcome
        callers := u.callers.set caller ((f.goTo (.count slot outcome), p) :: rest)
        history := .ended caller f.key slot outcome :: u.history }
    | _ => none
  | _ => none

variable (shard : CacheKey → Nat) (u : UsedCache σ) (caller : Nat)

/-- A request is made as the cache and its callers make it. -/
theorem requests_ask (goal : Goal) (p : Pair σ) :
    (u.ask caller goal p).map requests = u.requests.step shard caller (.request goal p.key) := by
  simp only [ask, Cache.Interleaving.State.step, requests, List.getElem?_map]
  cases u.callers[caller]? with
  | none => rfl
  | some stack =>
    simp only [Option.map_some]
    split
    · simp [requests, List.map_set]
    · rfl

/-- A request goes on as the cache and its callers make it go on. -/
theorem requests_proceed :
    (u.proceed shard caller).map (requests ∘ Prod.fst) =
      u.requests.step shard caller .proceed := by
  have hs : u.requests.callers[caller]? = u.callers[caller]?.map (·.map Prod.fst) :=
    List.getElem?_map ..
  simp only [proceed, Cache.Interleaving.State.step, hs]
  rcases u.callers[caller]? with _ | _ | ⟨⟨f, p⟩, rest⟩
  · rfl
  · rfl
  · simp only [Option.map_some, List.map_cons, requests]
    cases f.proceed caller _ u.cache with
    | none => rfl
    | some next => simp [requests, List.map_set, Function.comp_def]

/-- A compilation ends as the cache and its callers make it end. -/
theorem requests_finish (outcome : Except CompileError (Invoker σ)) :
    (u.finish caller outcome).map requests = u.requests.step shard caller (.finish outcome) := by
  have hs : u.requests.callers[caller]? = u.callers[caller]?.map (·.map Prod.fst) :=
    List.getElem?_map ..
  simp only [finish, Cache.Interleaving.State.step, hs]
  rcases u.callers[caller]? with _ | _ | ⟨⟨f, p⟩, rest⟩
  · rfl
  · rfl
  · simp only [Option.map_some, List.map_cons]
    cases f.phase with
    | compile slot => simp [requests, List.map_set]
    | _ => rfl

end UsedCache

/-- Something that a program has a handle to. -/
inductive Handle (σ : Type) where
  | method (m : MethodHandle σ)
  /-- A shared instance that a target can be made of. -/
  | shared (t : Target)
  | target (t : Target)
  | invoker (i : Invoker σ)
  /-- A cache, by its number. -/
  | cache (number : Nat)

namespace Handle

variable {σ : Type}

/-- The method that a handle keeps alive. -/
def method? : Handle σ → Option (MethodHandle σ)
  | .method m => some m
  | .invoker i => some i.method
  | _ => none

/-- The instance that a handle keeps alive. -/
def target? : Handle σ → Option Target
  | .shared t | .target t => some t
  | .invoker i => i.target
  | _ => none

/-- Whether a handle is to the cache of a number. -/
def isCache (number : Nat) : Handle σ → Bool
  | .cache n => n == number
  | _ => false

end Handle

/-- A program between two steps. -/
structure State (σ : Type) where
  /-- The handles that the program has, the latest first. -/
  handles : List (Handle σ)
  /-- Every cache there ever was, by its number. -/
  caches : List (UsedCache σ)
  /-- Every method there ever was, the latest first. -/
  methods : List (MethodHandle σ)
  /-- Every instance there ever was, the latest first. -/
  instances : List Target
  /-- The next identity to give out. -/
  nextId : Nat

/-- What a program does next. Handles are named by their place among those that the program has. -/
inductive Move (σ : Type) where
  /-- Make a method at an address. -/
  | newMethod (m : Method σ) (address : Word)
  /-- Make a shared instance at an address. -/
  | newShared (type : HostType) (address : Word)
  /-- Make an instance at an address, as a target. -/
  | newTarget (type : HostType) (address : Word)
  /-- Turn the handle to a shared instance into a target. -/
  | toTarget (handle : Nat)
  | clone (handle : Nat)
  /-- Clone the handles to method and target that an invoker has. -/
  | cloneParts (invoker : Nat)
  /-- Clone the handles to method and target that a caller's compilation has. -/
  | cloneBinding (cache caller : Nat)
  | drop (handle : Nat)
  /-- Make a cache that so many callers can use. -/
  | newCache (callers : Nat)
  /-- Make a request to a cache for a method and an optional target. -/
  | ask (cache caller : Nat) (goal : Goal) (method : Nat) (target : Option Nat)
  /-- Make the next step of a caller's newest request. -/
  | proceed (cache caller : Nat)
  /-- End a caller's compilation: a backend of a name has emitted a thunk, or failed to. -/
  | finish (cache caller : Nat) (backend : String) (emitted : Except CompileError (Thunk σ))

/-- Surroundings of a compilation that only give out identities. -/
structure Supply where
  next : Nat

instance : Surroundings Supply := ⟨fun x ↦ (x.next, ⟨x.next + 1⟩), fun _ x ↦ x⟩

namespace State

variable {σ : Type}

/-- A program that has nothing yet. -/
def start : State σ := ⟨[], [], [], [], 0⟩

/-- Whether a cache is in use: there is a handle to it, or a request has not been answered. -/
def isLive (s : State σ) (number : Nat) (u : UsedCache σ) : Bool :=
  s.handles.any (·.isCache number) || !u.inFlight.isEmpty

/-- The pairs that live caches keep alive. -/
def ownedPairs (s : State σ) : List (Pair σ) :=
  (s.caches.zipIdx.filter fun (u, number) ↦ s.isLive number u).flatMap fun (u, _) ↦ u.owned

/-- The methods that are alive. -/
def liveMethods (s : State σ) : List (MethodHandle σ) :=
  s.handles.filterMap Handle.method? ++ s.ownedPairs.map Pair.method

/-- The instances that are alive. -/
def liveTargets (s : State σ) : List Target :=
  s.handles.filterMap Handle.target? ++ s.ownedPairs.filterMap Pair.target

/-- Whether a method can be put at an address. -/
def isVacantForMethod (s : State σ) (address : Word) : Bool :=
  s.liveMethods.all (·.address != address)

/-- Whether an instance can be put at an address. -/
def isVacantForInstance (s : State σ) (address : Word) : Bool :=
  address != 0 && s.liveTargets.all (·.address != address)

/-- Get handles. -/
def give (s : State σ) (handles : List (Handle σ)) : State σ :=
  { s with handles := handles ++ s.handles }

/-- Make an instance at an address, and get a handle to it. -/
def makeInstance (s : State σ) (handle : Target → Handle σ) (type : HostType) (address : Word) :
    Option (State σ) :=
  if s.isVacantForInstance address then
    let t : Target := ⟨s.nextId, address, type⟩
    some { s.give [handle t] with instances := t :: s.instances, nextId := s.nextId + 1 }
  else none

/-- The handles to what a pair names. -/
def handlesOf (p : Pair σ) : List (Handle σ) := .method p.method :: (p.target.map .target).toList

/-- The target that an optional handle is to, if it is to one. -/
def targetAt? (s : State σ) : Option Nat → Option (Option Target)
  | none => some none
  | some n =>
    match s.handles[n]? with
    | some (.target t) => some (some t)
    | _ => none

/-- The next move of a program, if it can make it. -/
def step (shard : CacheKey → Nat) (s : State σ) : Move σ → Option (State σ)
  | .newMethod m address =>
    if s.isVacantForMethod address then
      let handle : MethodHandle σ := ⟨s.nextId, address, m⟩
      some { s.give [.method handle] with methods := handle :: s.methods, nextId := s.nextId + 1 }
    else none
  | .newShared type address => s.makeInstance .shared type address
  | .newTarget type address => s.makeInstance .target type address
  | .toTarget n =>
    match s.handles[n]? with
    | some (.shared t) => some { s with handles := s.handles.set n (.target t) }
    | _ => none
  | .clone n => s.handles[n]?.map fun h ↦ s.give [h]
  | .cloneParts n =>
    match s.handles[n]? with
    | some (.invoker i) => some (s.give (handlesOf (.ofInvoker i)))
    | _ => none
  | .cloneBinding number caller =>
    (s.caches[number]?.bind (·.compiling? caller)).map fun p ↦ s.give (handlesOf p)
  | .drop n =>
    if n < s.handles.length then some { s with handles := s.handles.eraseIdx n } else none
  | .newCache callers =>
    some { s.give [.cache s.caches.length] with caches := s.caches ++ [.start callers] }
  | .ask cache caller goal method target =>
    match s.handles[cache]?, s.handles[method]?, s.targetAt? target with
    | some (.cache number), some (.method m), some t =>
      (s.caches[number]?.bind (·.ask caller goal ⟨m, t⟩)).map fun u ↦
        { s with caches := s.caches.set number u }
    | _, _, _ => none
  | .proceed number caller =>
    (s.caches[number]?.bind (·.proceed shard caller)).map fun (u, invokers) ↦
      { s.give (invokers.map .invoker) with caches := s.caches.set number u }
  | .finish number caller backend emitted => do
    let u ← s.caches[number]?
    let p ← u.compiling? caller
    let emitter : Backend σ Supply := ⟨backend, fun _ ↦ pure emitted⟩
    let (outcome, supply) ← (emitter.compile p.method p.target).run ⟨s.nextId⟩
    let v ← u.finish caller outcome
    return { s with caches := s.caches.set number v, nextId := supply.next }

/-- A sequence of moves, if all of them can be made. -/
def run (shard : CacheKey → Nat) (s : State σ) : List (Move σ) → Option (State σ)
  | [] => some s
  | move :: moves => (s.step shard move).bind fun t ↦ t.run shard moves

end State
end Program
end Invocation
