import Invocation.Session.Backend

/-!
# The state of a session

A session keeps named things: values, methods, targets, shared instances, invokers and caches. A
name keeps what it names alive; so does an invoker its method and target, and a cache the invokers
that are ready in it. What nothing keeps alive any more is gone at the end of a step, and its
address can be given out again.
-/

namespace Invocation.Session

/-- A cache of a session. -/
structure OpenCache where
  choice : BackendChoice
  cache : InvokerCache World
  emissions : Emissions

/-- A named thing. -/
inductive Item where
  | value (v : Value)
  | method (m : MethodHandle World)
  | target (t : Target)
  /-- A shared instance that targets can be made of. -/
  | shared (t : Target)
  | invoker (i : Invoker World)
  | cache (c : OpenCache)
  /-- The process-wide cache. -/
  | sharedCache

/-- A session. -/
structure State where
  world : World
  items : List (String × Item)
  /-- What is in the process-wide cache. -/
  sharedCache : InvokerCache World
  /-- The next identity to give out. -/
  nextId : Nat
  /-- The events of this step, the first event first. -/
  events : List Event
  /-- The identity that was last given each name, of a method or a shared instance. -/
  remembered : List (String × Nat)

namespace State

/-- Nothing has a name yet. -/
def start : State := ⟨.empty, [], .empty, 0, [], []⟩

/-- What has a name. -/
def item? (s : State) (name : String) : Option Item := s.items.lookup name

/-- The names that a property holds for, in order. -/
def namesWhere (s : State) (p : Item → Bool) : List String :=
  ((s.items.filter fun (_, item) ↦ p item).map Prod.fst).mergeSort fun a b ↦ !(b < a)

/-- The names of an object; nothing else has such names. -/
def objectNames? (s : State) (v : Value) : Option (List String) :=
  v.object?.map fun r ↦ s.namesWhere fun
    | .value (.object other) => other == r
    | _ => false

/-- The names of an invoker. -/
def invokerNames (s : State) (i : Invoker World) : List String :=
  s.namesWhere fun
    | .invoker other => other.same i
    | _ => false

/-- The names of a method. -/
def methodNames (s : State) (m : MethodHandle World) : List String :=
  s.namesWhere fun
    | .method other => other.address == m.address
    | _ => false

/-- The names of targets that are an instance. -/
def targetNames (s : State) (t : Target) : List String :=
  s.namesWhere fun
    | .target other => other.same t
    | _ => false

/-- Take a name away; a value loses its handle. -/
def erase (name : String) (s : State) : State :=
  let rest := { s with items := s.items.filter fun (other, _) ↦ other != name }
  match s.item? name with
  | some (.value v) => { rest with world := rest.world.release v }
  | _ => rest

/-- Give something a name, in place of what had it. -/
def store (name : String) (item : Item) (s : State) : State :=
  let t := s.erase name
  { t with items := (name, item) :: t.items }

/-- Remember the identity that was given a name. -/
def remember (name : String) (id : Nat) (s : State) : State :=
  { s with remembered := (name, id) :: s.remembered }

/-- The caches of the session. -/
def openCaches (s : State) : List OpenCache :=
  s.items.filterMap fun
    | (_, .cache c) => some c
    | _ => none

/-- The live invokers: the named ones, and those that are ready in a cache. -/
def liveInvokers (s : State) : List (Invoker World) :=
  (s.items.filterMap fun
    | (_, .invoker i) => some i
    | _ => none) ++
  (s.openCaches.flatMap fun c ↦ c.cache.ready.map Prod.snd) ++ s.sharedCache.ready.map Prod.snd

/-- The requests that are pending. -/
def pendingRequests (s : State) : List (MethodHandle World × Option Target) :=
  s.openCaches.filterMap fun c ↦ c.emissions.pending

/-- The live methods. -/
def liveMethods (s : State) : List (MethodHandle World) :=
  (s.items.filterMap fun
    | (_, .method m) => some m
    | _ => none) ++
  s.liveInvokers.map Invoker.method ++ s.pendingRequests.map Prod.fst

/-- The live instances. -/
def liveTargets (s : State) : List Target :=
  (s.items.filterMap fun
    | (_, .target t) => some t
    | (_, .shared t) => some t
    | _ => none) ++
  s.liveInvokers.filterMap Invoker.target ++ s.pendingRequests.filterMap Prod.snd

/-- Whether the method or the instance of an identity is alive. -/
def isAlive (s : State) (id : Nat) : Bool :=
  (s.liveMethods.any fun m ↦ m.id == id) || s.liveTargets.any fun t ↦ t.id == id

/-- Take away the instances that nothing keeps alive. -/
def collect (s : State) : State :=
  let live := s.liveTargets.map Target.address
  let dead := (s.world.instances.map Prod.fst).filter fun address ↦ !live.contains address
  { s with world := dead.foldl (fun w address ↦ w.removeInstance address) s.world }

/-- Where the next method lives: at an address that no live method has. -/
def vacantMethodAddress (s : State) : Word :=
  vacantAddress 64 (s.liveMethods.map MethodHandle.address)

/-- Where the next instance lives: at an address that no instance has. -/
def vacantTargetAddress (s : State) : Word := vacantAddress 64 (s.world.instances.map Prod.fst)

/-- Make a method at an address. -/
def newMethod (s : State) (m : Method World) (address : Word) : MethodHandle World × State :=
  (⟨s.nextId, address, m⟩, { s with nextId := s.nextId + 1 })

/-- Make an instance at an address; what it holds is moved into it. -/
def newTarget (s : State) (i : Instance (Option ObjectRef)) (address : Word) : Target × State :=
  (⟨s.nextId, address, i.type.hostType⟩,
    { s with
      nextId := s.nextId + 1
      world := { s.world with instances := (address, i) :: s.world.instances } })

end State
end Invocation.Session
