import Invocation.Session.Report
import Invocation.Session.State

/-!
# Steps of a session and their replies
-/

namespace Invocation.Session

/-- How a session names a method with an optional target. -/
structure PairName where
  method : String
  target : Option String
  deriving DecidableEq, Repr

/-- Where a new method comes from. -/
inductive MethodSource where
  /-- A native method by its name, under another display name if one is given. -/
  | native (function : String) (display : Option String)
  /-- A probe. -/
  | probe (name : String) (signature : Signature)

/-- Where a target comes from. -/
inductive TargetSource where
  | new (i : Instance Literal)
  /-- A shared instance, by name. -/
  | shared (name : String)

/-- How a cache is opened. -/
inductive CacheSource where
  | new (choice : BackendChoice)
  /-- The process-wide cache. -/
  | shared

/-- How a reference result is made of a value. -/
inductive RawSource where
  | value
  /-- Of its optional object. -/
  | option
  | null
  deriving DecidableEq, Repr

/-- A step of a session. Where a step has a name for its result, the result is stored under it. -/
inductive Step where
  | cache (name : String) (source : CacheSource)
  | method (name : String) (source : MethodSource)
  | target (name : String) (source : TargetSource)
  | shared (name : String) (i : Instance Literal)
  | contents (target : String)
  | sameTarget (a b : String)
  | clone (name other : String)
  | letValue (name : String) (v : Literal)
  | drop (name : String)
  | handleCount (name : String)
  | isAlive (name : String)
  | raw (v : Literal) (source : RawSource)
  | compile (name : Option String) (cache : String) (pair : PairName)
  | getOrCompile (name : Option String) (cache : String) (pair : PairName)
  | get (name : Option String) (cache : String) (pair : PairName)
  | contains (cache : String) (pair : PairName)
  | size (cache : String)
  | stats (cache : String)
  | emitted (cache : String)
  /-- Have a request made during the next emission. -/
  | nest (cache : String) (pair : PairName)
  | together (name : Option String) (cache : String) (pair : PairName) (callers : Nat)
  | invoke (name : Option String) (invoker : String) (args : List Literal)
  | call (name : Option String) (cache : String) (pair : PairName) (args : List Literal)
  | binding (name : Option String) (pair : PairName) (args : List Literal)
  | invoker (name : String)
  | sameInvoker (a b : String)
  | sameKey (a b : PairName)
  | value (v : Literal)
  | sameValue (a b : Literal)

/-- A value as it is shown: written out, and under which names the identical object is known. -/
structure Shown where
  value : Literal
  /-- Only for objects. -/
  names : Option (List String)

/-- An invoker as it is shown: its backend, and under which names it is known. -/
structure ShownInvoker where
  backend : String
  names : List String
  deriving DecidableEq, Repr

/-- What can be observed of a reference result: the counts of handles before it is made, while it
is held, and after it is dropped. -/
structure RawReport where
  isNull : Bool
  debug : String
  before : Option Nat
  held : Option Nat
  after : Option Nat
  deriving DecidableEq, Repr

/-- What came of requests made at once. -/
structure TogetherReport where
  /-- How many got an invoker. -/
  successes : Nat
  /-- Whether all got the same one. -/
  allSame : Bool
  /-- The names of the first invoker. -/
  names : Option (List String)
  /-- The messages of the errors, each with its number. -/
  errors : List (String × Nat)
  deriving DecidableEq, Repr

/-- What can be observed of a binding. -/
structure BindingReport where
  plan : PlanReport
  target : Option String
  sameMethod : Bool
  debug : String
  deriving DecidableEq, Repr

/-- What can be observed of an invoker. -/
structure InvokerReport where
  backend : String
  name : String
  methods : List String
  targets : List String
  isBound : Bool
  contents : Option (Instance Literal)
  debug : String

/-- What a step answers. -/
inductive Reply where
  | done
  | truth (b : Bool)
  | count (n : Option Nat)
  | cache (backend compiler : String)
  | method (r : MethodReport)
  | target (typeName debug : String)
  | contents (i : Instance Literal)
  | shown (v : Shown)
  | raw (r : RawReport)
  | compiled (outcome : Except CompileError ShownInvoker)
  | found (i : Option ShownInvoker)
  | size (n : Nat) (isEmpty : Option Bool)
  | stats (s : CacheStats)
  | emitted (count : Nat) (nested : Option (Except CompileError String))
  | together (r : TogetherReport)
  | invoked (outcome : Except InvokeError Shown)
  | called (outcome : Except ThunkError Shown)
  | unbound (e : CompileError)
  | bound (r : BindingReport) (outcome : Except InvokeError Shown)
  | invoker (r : InvokerReport)
  | value (r : ValueReport)

/-- Why a step could not be made. -/
inductive StepError where
  /-- The name is not that of a thing the step can use. -/
  | unusable (name : String)
  /-- A call broke the contract between thunks and native code. -/
  | fault (cause : Fault)
  /-- A request waits for itself. -/
  | waits

/-- What a step answers, and what happened meanwhile. -/
structure Answer where
  reply : Reply
  calls : List CallRecord
  events : List Event

end Invocation.Session
