import Invocation.Cache.Request

/-!
# Requests at the same time

Any number of callers use one cache, and their atomic steps come in any order. A caller has a stack
of requests: the newest is at work, and the ones below it are compiling and wait for what they
asked for meanwhile. The lock of a key's shard is held only while the table is read or written; a
cell that somebody is initialising makes every other caller wait.

`step` is the whole behaviour: it says for each state, caller and move whether the caller can make
the move, and what the state is then. What a compilation does and how it ends is up to the moves.
-/

namespace Invocation.Cache.Interleaving

/-- What a request is after. -/
inductive Goal where
  /-- What is ready for a key, or else what compiling it gives. -/
  | obtain
  /-- What is ready for a key. -/
  | peek
  deriving DecidableEq, Repr

/-- The next thing a request does. -/
inductive Phase (ι ε : Type) where
  | lookup
  | countHit (found : ι)
  | countMiss
  | claim
  /-- Look at the cell: initialise it, wait for it, or take its outcome. -/
  | enter (slot : Nat)
  /-- The compilation for this cell is running. -/
  | compile (slot : Nat)
  | count (slot : Nat) (outcome : Except ε ι)
  | remove (slot : Nat) (failure : ε)
  /-- Answer with an outcome, and the cell it came from unless it was ready at once. -/
  | answer (outcome : Except ε ι) (source : Option Nat)

/-- A request that has not been answered. -/
structure Frame (κ ι ε : Type) where
  key : κ
  goal : Goal
  phase : Phase ι ε
  /-- Whether it holds the lock of its key's shard. -/
  locked : Bool

/-- Something that happened, for the record. -/
inductive Occurrence (κ ι ε : Type) where
  /-- A caller made a request. -/
  | asked (caller : Nat) (goal : Goal) (key : κ)
  /-- A compilation began. -/
  | began (caller : Nat) (key : κ) (slot : Nat)
  /-- A compilation ended. -/
  | ended (caller : Nat) (key : κ) (slot : Nat) (outcome : Except ε ι)
  /-- A request to obtain was answered, with the cell the outcome came from. -/
  | answered (caller : Nat) (key : κ) (outcome : Except ε ι) (source : Option Nat)
  /-- A request to peek was answered. -/
  | peeked (caller : Nat) (key : κ) (found : Option ι)

/-- A cache in use. -/
structure State (κ ι ε : Type) where
  cache : Cache κ ι ε
  /-- The stack of each caller, the newest request first. -/
  callers : List (List (Frame κ ι ε))
  /-- What happened so far, the latest first. -/
  history : List (Occurrence κ ι ε)

/-- What a caller does next. -/
inductive Move (κ ι ε : Type) where
  /-- Make a request; a caller that is not idle can do so only while it compiles. -/
  | request (goal : Goal) (key : κ)
  /-- Make the next step of the newest request. -/
  | proceed
  /-- End the compilation that the newest request waits for. -/
  | finish (outcome : Except ε ι)

variable {κ ι ε : Type}

namespace Frame

/-- A request that has just been made. -/
def new (goal : Goal) (key : κ) : Frame κ ι ε := ⟨key, goal, .lookup, false⟩

/-- The same request at another phase, without a lock. -/
def goTo (f : Frame κ ι ε) (phase : Phase ι ε) : Frame κ ι ε :=
  { f with phase := phase, locked := false }

/-- Whether the request waits for the end of its own compilation. -/
def isCompiling (f : Frame κ ι ε) : Bool :=
  match f.phase with
  | .compile _ => true
  | _ => false

/-- Make a step that needs the lock: take the lock if it is free, or do the work and let go. -/
def withLock {α : Type} (f : Frame κ ι ε) (free : Bool) (take : Frame κ ι ε → α) (work : α) :
    Option α :=
  if f.locked then some work else if free then some (take { f with locked := true }) else none

end Frame

/-- What becomes of the newest request and of the cache after a step: the request goes on, or it is
answered; and what there is to record. -/
structure Progress (κ ι ε : Type) where
  cache : Cache κ ι ε
  frame : Option (Frame κ ι ε)
  record : List (Occurrence κ ι ε)

/-- The next step of a request of a caller, if it can make one. -/
def Frame.proceed [DecidableEq κ] (caller : Nat) (free : Bool) (c : Cache κ ι ε)
    (f : Frame κ ι ε) : Option (Progress κ ι ε) :=
  let goOn (c : Cache κ ι ε) (f : Frame κ ι ε) : Progress κ ι ε := ⟨c, some f, []⟩
  match f.phase with
  | .lookup =>
    f.withLock free (goOn c) <|
      match f.goal, c.lookup f.key with
      | .peek, found => ⟨c, none, [.peeked caller f.key found]⟩
      | .obtain, some i => goOn c (f.goTo (.countHit i))
      | .obtain, none => goOn c (f.goTo .countMiss)
  | .countHit i => some (goOn c.countHit (f.goTo (.answer (.ok i) none)))
  | .countMiss => some (goOn c.countMiss (f.goTo .claim))
  | .claim => f.withLock free (goOn c) (goOn (c.claim f.key).2 (f.goTo (.enter (c.claim f.key).1)))
  | .enter slot =>
    match c.cellAt slot with
    | .empty =>
      some ⟨c.start slot, some (f.goTo (.compile slot)), [.began caller f.key slot]⟩
    | .running => none
    | .done outcome => some (goOn c (f.goTo (.answer outcome (some slot))))
  | .compile _ => none
  | .count slot outcome =>
    some <| goOn (c.countOutcome outcome) <| f.goTo <|
      match outcome with
      | .ok _ => .answer outcome (some slot)
      | .error failure => .remove slot failure
  | .remove slot failure =>
    f.withLock free (goOn c)
      (goOn (c.removeIfSame f.key slot) (f.goTo (.answer (.error failure) (some slot))))
  | .answer outcome source => some ⟨c, none, [.answered caller f.key outcome source]⟩

namespace State

/-- Nobody has asked for anything yet. -/
def start (cache : Cache κ ι ε) (callers : Nat) : State κ ι ε :=
  ⟨cache, List.replicate callers [], []⟩

/-- Whether nobody holds the lock of a shard. -/
def isFree (shard : κ → Nat) (s : State κ ι ε) (n : Nat) : Bool :=
  s.callers.all fun frames ↦ frames.all fun f ↦ !(f.locked && shard f.key == n)

/-- Whether a caller with this stack can make a request. -/
def canRequest : List (Frame κ ι ε) → Bool
  | [] => true
  | f :: _ => f.isCompiling

/-- The move of a caller, if it can make it. -/
def step [DecidableEq κ] (shard : κ → Nat) (s : State κ ι ε) (caller : Nat)
    (move : Move κ ι ε) : Option (State κ ι ε) :=
  match move, s.callers[caller]? with
  | .request goal key, some frames =>
    if canRequest frames then
      some { s with
        callers := s.callers.set caller (.new goal key :: frames)
        history := .asked caller goal key :: s.history }
    else none
  | .proceed, some (f :: rest) =>
    match f.proceed caller (s.isFree shard (shard f.key)) s.cache with
    | none => none
    | some next => some
      ⟨next.cache, s.callers.set caller (next.frame.toList ++ rest), next.record ++ s.history⟩
  | .finish outcome, some (f :: rest) =>
    match f.phase with
    | .compile slot => some
      ⟨s.cache.settle slot outcome,
        s.callers.set caller (f.goTo (.count slot outcome) :: rest),
        .ended caller f.key slot outcome :: s.history⟩
    | _ => none
  | _, _ => none

/-- A sequence of moves, if all of them can be made. -/
def run [DecidableEq κ] (shard : κ → Nat) (s : State κ ι ε) :
    List (Nat × Move κ ι ε) → Option (State κ ι ε)
  | [] => some s
  | (caller, move) :: rest => (s.step shard caller move).bind fun t ↦ t.run shard rest

/-- Let a caller proceed as far as it can, but at most so many steps. -/
def advance [DecidableEq κ] (shard : κ → Nat) (caller : Nat) : Nat → State κ ι ε → State κ ι ε
  | 0, s => s
  | limit + 1, s =>
    match s.step shard caller .proceed with
    | none => s
    | some t => t.advance shard caller limit

/-- Let every caller in turn proceed as far as it can, but at most so many steps. -/
def advanceAll [DecidableEq κ] (shard : κ → Nat) (limit : Nat) (s : State κ ι ε) : State κ ι ε :=
  (List.range s.callers.length).foldl (fun t caller ↦ t.advance shard caller limit) s

/-- The first caller that waits for the end of its compilation. -/
def compiling? (s : State κ ι ε) : Option Nat :=
  s.callers.findIdx? fun frames ↦ frames.head?.any Frame.isCompiling

/-- The outcomes that requests were answered with, the first answer first. -/
def outcomes (s : State κ ι ε) : List (Except ε ι) :=
  s.history.reverse.filterMap fun
    | .answered _ _ outcome _ => some outcome
    | _ => none

end State

/-- Steps enough for one request from its start to its answer. -/
def requestSteps : Nat := 12

/-- Steps enough for a request to find out whether its key is ready, and to count that. -/
def lookupSteps : Nat := 3

/-- As many callers request one key at once: all have looked the key up and have its cell before
the one that initialises it compiles. All keys share one lock. -/
def requestTogether {τ : Type} [DecidableEq κ] (callers : Nat) (key : κ)
    (compile : RequestM κ ι ε τ (Except ε ι)) : RequestM κ ι ε τ (List (Except ε ι)) := do
  let oneShard : κ → Nat := fun _ ↦ 0
  let asked ← ((State.start (← RequestM.cache) callers).run oneShard
    ((List.range callers).map (·, .request .obtain key)) : Option _)
  let s := (asked.advanceAll oneShard lookupSteps).advanceAll oneShard requestSteps
  RequestM.update fun _ ↦ s.cache
  match s.compiling? with
  | none => return s.outcomes
  | some caller =>
    let outcome ← compile
    let finished ← (({ s with cache := ← RequestM.cache }).step oneShard caller (.finish outcome) :
      Option _)
    let t := finished.advanceAll oneShard requestSteps
    RequestM.update fun _ ↦ t.cache
    return t.outcomes

end Invocation.Cache.Interleaving
