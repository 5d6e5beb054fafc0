import Invocation.Cache.Interleaving
import Invocation.Session.Probe
import Invocation.Session.Step

/-!
# Running a session

Each step acts on the state of the session and answers. What the arguments of a call hold is made
before the call and released after it; what a step leaves without a name is released with it.
-/

namespace Invocation.Session

/-- A step at work. -/
abbrev StepM := StateT State (Except StepError)

namespace StepM

/-- Change the state of the host program. -/
def onWorld (f : World → World) : StepM Unit := modify fun s ↦ { s with world := f s.world }

/-- What has a name. -/
def item (name : String) : StepM Item := do
  match (← get).item? name with
  | some item => return item
  | none => throw (.unusable name)

/-- The value of a name. -/
def value (name : String) : StepM Value := do
  match ← item name with
  | .value v => return v
  | _ => throw (.unusable name)

/-- The target of a name. -/
def target (name : String) : StepM Target := do
  match ← item name with
  | .target t => return t
  | _ => throw (.unusable name)

/-- The invoker of a name. -/
def invoker (name : String) : StepM (Invoker World) := do
  match ← item name with
  | .invoker i => return i
  | _ => throw (.unusable name)

/-- The method and the target of a pair of names. -/
def pair (p : PairName) : StepM (MethodHandle World × Option Target) := do
  match ← item p.method, p.target with
  | .method m, none => return (m, none)
  | .method m, some t => return (m, some (← target t))
  | _, _ => throw (.unusable p.method)

/-- Store something under a name. -/
def store (name : String) (item : Item) : StepM Unit := modify (State.store name item)

/-- Store an invoker, if there is a name to store it under. -/
def storeInvoker (name : Option String) (i : Invoker World) : StepM Unit :=
  match name with
  | none => pure ()
  | some name => store name (.invoker i)

/-- Make the value of a literal. -/
def evaluate (l : Literal) : StepM Value := do
  let s ← get
  let named := fun name ↦
    match s.item? name with
    | some (.value v) => some v
    | _ => none
  match (l.evaluate named).run s.world with
  | .error name => throw (.unusable name)
  | .ok (v, w) =>
    set { s with world := w }
    return v

/-- Release the handle if a value is one. -/
def release (v : Value) : StepM Unit := onWorld (World.release v)

/-- Store a value under a name, or release it without one. -/
def keep (name : Option String) (v : Value) : StepM Unit :=
  match name with
  | none => release v
  | some name => store name (.value v)

/-- A value as it is shown. -/
def shown (v : Value) : StepM Shown := do
  let s ← get
  return ⟨s.world.describe v, s.objectNames? v⟩

/-- An invoker as it is shown. -/
def shownInvoker (i : Invoker World) : StepM ShownInvoker := do
  return ⟨i.backend, (← get).invokerNames i⟩

/-- The instance that a literal describes; a holder holds the object of what it is to hold. -/
def instantiate (i : Instance Literal) : StepM (Instance (Option ObjectRef)) := do
  match i.held? with
  | none => return i.map fun _ ↦ none
  | some l =>
    let v ← evaluate l
    return i.map fun _ ↦ v.object?

/-- Make the instance that a literal describes. -/
def newTarget (i : Instance Literal) : StepM Target := do
  let i ← instantiate i
  modifyGet fun s ↦ s.newTarget i s.vacantTargetAddress

/-- Where the argument slots of a call live. -/
def argumentBase : Word := 0x7fff0000

/-- Call a thunk on values. -/
def callThunk (thunk : Thunk World) (args : List Value) : StepM (Except InvokeError Value) := do
  let s ← get
  match ArgSlice.of? argumentBase args with
  | none => throw (.fault (.tooManyArguments args.length))
  | some slice =>
    match (thunk slice).run s.world with
    | (.error cause, _) => throw (.fault cause)
    | (.ok outcome, w) =>
      set { s with world := w }
      return outcome

/-- Call a thunk on what literals describe, show the result, and keep it under a name. -/
def callWith (thunk : Thunk World) (name : Option String) (args : List Literal) :
    StepM (Except InvokeError Shown) := do
  let values ← args.mapM evaluate
  let outcome ← callThunk thunk values
  values.forM release
  match outcome with
  | .error e => return .error e
  | .ok v =>
    let shown ← shown v
    keep name v
    return .ok shown

/-- Work on the cache of a name with its backend. -/
def onCache {α : Type} (name : String)
    (work : Backend World (InvokerCache World × Bench) → WorkM α) : StepM α := do
  let s ← get
  match ← item name with
  | .cache c =>
    match (work c.choice.backend).run (c.cache, ⟨s.nextId, s.events, c.emissions⟩) with
    | none => throw .waits
    | some (a, cache, x) =>
      set { s.store name (.cache ⟨c.choice, cache, x.emissions⟩) with
        nextId := x.nextId
        events := x.events }
      return a
  | .sharedCache =>
    match (work sharedBackend).run (s.sharedCache, ⟨s.nextId, s.events, .start⟩) with
    | none => throw .waits
    | some (a, cache, x) =>
      set { s with sharedCache := cache, nextId := x.nextId, events := x.events }
      return a
  | _ => throw (.unusable name)

/-- What is in the cache of a name. -/
def cache (name : String) : StepM (InvokerCache World) := do
  match ← item name with
  | .cache c => return c.cache
  | .sharedCache => return (← get).sharedCache
  | _ => throw (.unusable name)

/-- The cache of a name, unless it is the process-wide one. -/
def openCache (name : String) : StepM OpenCache := do
  match ← item name with
  | .cache c => return c
  | _ => throw (.unusable name)

/-- The invoker of a pair, compiled by the cache of a name on the first request. -/
def getOrCompile (cache : String) (p : PairName) :
    StepM (Except CompileError (Invoker World)) := do
  let (m, target) ← pair p
  onCache cache fun backend ↦ InvokerCache.getOrCompile backend m target

/-- Store an invoker and show it as it was before. -/
def compiled (name : Option String) (outcome : Except CompileError (Invoker World)) :
    StepM Reply := do
  match outcome with
  | .error e => return .compiled (.error e)
  | .ok i =>
    let shown ← shownInvoker i
    storeInvoker name i
    return .compiled (.ok shown)

end StepM

open StepM

/-- The backend of a cache, and the debug text of its compiler. -/
def cacheReply (backend : Backend World (InvokerCache World × Bench)) (pretty : Bool) : Reply :=
  .cache backend.name (backend.compilerLayout.render pretty)

/-- The method of a source; `number` is that of its code. -/
def MethodSource.method (number : Nat) : MethodSource → Except StepError (Method World)
  | .native function display =>
    match Natives.find? function with
    | none => .error (.unusable function)
    | some m => .ok { m with name := display.getD function }
  | .probe name signature => .ok (Probe.method name number signature)

/-- Messages, each with how often it occurs, in the order of their first occurrence. -/
def tally : List String → List (String × Nat)
  | [] => []
  | message :: rest =>
    (message, rest.count message + 1) :: (tally rest).filter fun (other, _) ↦ other != message

/-- What came of requests made at once, for the session as it was before. -/
def State.togetherReport (s : State) (outcomes : List (Except CompileError (Invoker World))) :
    TogetherReport :=
  let invokers := outcomes.filterMap Except.toOption
  let messages := outcomes.filterMap fun
    | .error e => some e.message
    | .ok _ => none
  { successes := invokers.length
    allSame := invokers.all fun i ↦ invokers.all fun j ↦ i.same j
    names := invokers.head?.map s.invokerNames
    errors := tally messages }

/-- Make a reference result of a value and drop it again, and watch the handles meanwhile. -/
def rawReport (l : Literal) (source : RawSource) (pretty : Bool) : StepM RawReport := do
  let v ← evaluate l
  let watcher := v
  onWorld (World.retain watcher)
  let before := (← get).world.handleCount? watcher
  let raw ←
    match source with
    | .value => pure (RawObject.ofValue v)
    | .option => do
      onWorld (World.retain v)
      release v
      pure v.object?
    | .null => do
      release v
      pure none
  let held := (← get).world.handleCount? watcher
  release raw.toValue
  let after := (← get).world.handleCount? watcher
  release watcher
  return ⟨raw.isNull, (Text.Layout.leaf raw.text).render pretty, before, held, after⟩

/-- What a step answers; `pretty` asks for debug texts on several lines. -/
def reply (pretty : Bool) : Step → StepM Reply
  | .cache name (.new choice) => do
    store name (.cache ⟨choice, .empty, .start⟩)
    return cacheReply choice.backend pretty
  | .cache name .shared => do
    store name .sharedCache
    return cacheReply sharedBackend pretty
  | .method name source => do
    let m ← source.method ((← get).nextId + Natives.all.length + 1)
    let handle ← modifyGet fun s ↦ s.newMethod m s.vacantMethodAddress
    store name (.method handle)
    modify (State.remember name handle.id)
    return .method (.of m pretty)
  | .target name (.new i) => do
    let t ← newTarget i
    store name (.target t)
    return .target t.type.name (t.layout.render pretty)
  | .target name (.shared other) => do
    match ← item other with
    | .shared t =>
      store name (.target t)
      return .target t.type.name (t.layout.render pretty)
    | _ => throw (.unusable other)
  | .shared name i => do
    let t ← newTarget i
    store name (.shared t)
    modify (State.remember name t.id)
    return .done
  | .contents name => do
    let t ← target name
    let w := (← get).world
    match w.instanceAt? t.address with
    | none => throw (.unusable name)
    | some i => return .contents (w.describeInstance i)
  | .sameTarget a b => do return .truth ((← target a).same (← target b))
  | .clone name other => do
    match ← item other with
    | .value v => do
      onWorld (World.retain v)
      store name (.value v)
    | .method m => do
      store name (.method m)
      modify (State.remember name m.id)
    | .target t => store name (.target t)
    | .invoker i => store name (.invoker i)
    | _ => throw (.unusable other)
    return .done
  | .letValue name l => do
    let v ← evaluate l
    let shown ← shown v
    store name (.value v)
    return .shown shown
  | .drop name => do
    let existed := ((← get).item? name).isSome
    modify (State.erase name)
    return .truth existed
  | .handleCount name => do
    let v ← value name
    return .count ((← get).world.handleCount? v)
  | .isAlive name => do
    let s ← get
    match s.remembered.lookup name with
    | none => throw (.unusable name)
    | some id => return .truth (s.isAlive id)
  | .raw l source => do return .raw (← rawReport l source pretty)
  | .compile name cache p => do
    let (m, target) ← pair p
    compiled name (← onCache cache fun backend ↦ backend.compile m target)
  | .getOrCompile name cache p => do compiled name (← getOrCompile cache p)
  | .get name cacheName p => do
    let (m, target) ← pair p
    match (← cache cacheName).get m target with
    | none => return .found none
    | some i =>
      let shown ← shownInvoker i
      storeInvoker name i
      return .found (some shown)
  | .contains cacheName p => do
    let (m, target) ← pair p
    return .truth ((← cache cacheName).contains m target)
  | .size cacheName => do
    let c ← cache cacheName
    match ← item cacheName with
    | .sharedCache => return .size c.size none
    | _ => return .size c.size (some c.isEmpty)
  | .stats cacheName => do return .stats (← cache cacheName).stats
  | .emitted cacheName => do
    let c ← openCache cacheName
    store cacheName (.cache { c with emissions := { c.emissions with nested := none } })
    return .emitted c.emissions.emitted c.emissions.nested
  | .nest cacheName p => do
    let request ← pair p
    let c ← openCache cacheName
    store cacheName (.cache { c with emissions := { c.emissions with pending := some request } })
    return .done
  | .together name cacheName p callers => do
    let (m, target) ← pair p
    let s ← get
    let outcomes ← onCache cacheName fun backend ↦
      Cache.Interleaving.requestTogether callers (.of m target) (backend.compile m target)
    modify fun t ↦ { t with events := s.events }
    match (outcomes.filterMap Except.toOption).head? with
    | none => pure ()
    | some i => storeInvoker name i
    return .together (s.togetherReport outcomes)
  | .invoke name invokerName args => do
    return .invoked (← callWith (← invoker invokerName).invoke name args)
  | .call name cache p args => do
    match ← getOrCompile cache p with
    | .error e => return .called (.error (.compile e))
    | .ok i =>
      match ← callWith i.invoke name args with
      | .error e => return .called (.error (.invoke e))
      | .ok shown => return .called (.ok shown)
  | .binding name p args => do
    let (m, target) ← pair p
    match Binding.make m target with
    | .error e => return .unbound e
    | .ok b =>
      let outcome ← callWith (Portable.thunk b) name args
      let report : BindingReport :=
        { plan := .of b.plan
          target := b.target.map fun t ↦ t.type.name
          sameMethod := b.method.address == m.address
          debug := b.layout.render pretty }
      return .bound report outcome
  | .invoker name => do
    let i ← invoker name
    let s ← get
    return .invoker
      { backend := i.backend
        name := i.method.method.name
        methods := s.methodNames i.method
        targets := (i.target.map s.targetNames).getD []
        isBound := i.target.isSome
        contents := i.target.bind fun t ↦
          (s.world.instanceAt? t.address).map s.world.describeInstance
        debug := i.layout.render pretty }
  | .sameInvoker a b => do return .truth ((← invoker a).same (← invoker b))
  | .sameKey a b => do
    let (m, target) ← pair a
    let (n, other) ← pair b
    return .truth (CacheKey.of m target == CacheKey.of n other)
  | .value l => do
    let v ← evaluate l
    let report := ValueReport.of (← get).world v
    release v
    return .value report
  | .sameValue a b => do
    let v ← evaluate a
    let w ← evaluate b
    release v
    release w
    return .truth (v.same w)

/-- Make a step: nothing recorded before counts for its answer, and what it leaves behind that
nothing keeps alive is taken away. -/
def step (pretty : Bool) (x : Step) (s : State) : Except StepError (Answer × State) := do
  let fresh := { s with events := [], world := { s.world with calls := [] } }
  let (r, t) ← (reply pretty x).run fresh
  return (⟨r, t.world.calls, t.events⟩, t.collect)

/-- Make all steps in order, from an empty session; a step that cannot be made changes nothing. -/
def run (steps : List (Bool × Step)) : List (Except StepError Answer) :=
  go State.start steps
where
  /-- Make the steps from a state on. -/
  go (s : State) : List (Bool × Step) → List (Except StepError Answer)
    | [] => []
    | (pretty, x) :: rest =>
      match step pretty x s with
      | .error e => .error e :: go s rest
      | .ok (answer, t) => .ok answer :: go t rest

end Invocation.Session
