import Invocation.ValueType

/-!
# The cache of outcomes

A cache maps keys to cells. A cell is initialised at most once, by whoever finds it empty, and then
holds the outcome for good; the table says which cell a key has at the moment. A cell that holds a
failure is taken out of the table again, so that a later request gets a new one.

Every operation here is one atomic step. `Invocation.Cache.Request` puts them together for a caller
that runs alone, `Invocation.Cache.Interleaving` for callers that run at the same time.
-/

namespace Invocation

/-- A cell that is initialised at most once. -/
inductive Cell (ι ε : Type) where
  | empty
  /-- Somebody is at work on the outcome. -/
  | running
  | done (outcome : Except ε ι)

namespace Cell

variable {ι ε : Type}

/-- What a successfully initialised cell holds. -/
def ready? : Cell ι ε → Option ι
  | .done (.ok i) => some i
  | _ => none

end Cell

/-- A counter; it wraps around. -/
abbrev Counter := BitVec 64

/-- How the requests to a cache were served. -/
structure CacheStats where
  /-- Requests served from a ready cell. -/
  hits : Counter
  /-- Requests that found no ready cell. -/
  misses : Counter
  /-- Successful compilations. -/
  compilations : Counter
  /-- Failed compilations. -/
  failures : Counter
  deriving DecidableEq, Repr

namespace CacheStats

/-- Nothing was counted yet. -/
def zero : CacheStats := ⟨0, 0, 0, 0⟩

end CacheStats

/-- A cache of outcomes: successes `ι` or failures `ε`. -/
structure Cache (κ ι ε : Type) where
  /-- The cell of each key that has one. -/
  table : List (κ × Nat)
  /-- Every cell there ever was, by its number. -/
  cells : List (Cell ι ε)
  stats : CacheStats

namespace Cache

variable {κ ι ε : Type}

/-- The cache without any key. -/
def empty : Cache κ ι ε := ⟨[], [], .zero⟩

/-- The cell of a number; a number not given out yet is that of an empty cell. -/
def cellAt (c : Cache κ ι ε) (slot : Nat) : Cell ι ε := c.cells[slot]?.getD .empty

/-- The number of the cell of a key. -/
def slotOf? [DecidableEq κ] (c : Cache κ ι ε) (key : κ) : Option Nat := c.table.lookup key

/-- The cell of a key. -/
def cellOf? [DecidableEq κ] (c : Cache κ ι ε) (key : κ) : Option (Cell ι ε) :=
  (c.slotOf? key).map c.cellAt

/-- What is ready for a key. -/
def lookup [DecidableEq κ] (c : Cache κ ι ε) (key : κ) : Option ι :=
  (c.cellOf? key).bind Cell.ready?

/-- The entries of the table whose cells are ready, with what they hold. -/
def ready (c : Cache κ ι ε) : List (κ × ι) :=
  c.table.filterMap fun (key, slot) ↦ (c.cellAt slot).ready?.map (key, ·)

/-- The number of keys that something is ready for. -/
def size (c : Cache κ ι ε) : Nat := c.ready.length

/-- Whether nothing is ready for any key. -/
def isEmpty (c : Cache κ ι ε) : Bool := c.size == 0

/-- Count a request that was served from a ready cell. -/
def countHit (c : Cache κ ι ε) : Cache κ ι ε :=
  { c with stats := { c.stats with hits := c.stats.hits + 1 } }

/-- Count a request that found no ready cell. -/
def countMiss (c : Cache κ ι ε) : Cache κ ι ε :=
  { c with stats := { c.stats with misses := c.stats.misses + 1 } }

/-- Count the outcome of a compilation. -/
def countOutcome (c : Cache κ ι ε) : Except ε ι → Cache κ ι ε
  | .ok _ => { c with stats := { c.stats with compilations := c.stats.compilations + 1 } }
  | .error _ => { c with stats := { c.stats with failures := c.stats.failures + 1 } }

/-- The cell of a key, which gets a new one if it has none. -/
def claim [DecidableEq κ] (c : Cache κ ι ε) (key : κ) : Nat × Cache κ ι ε :=
  match c.slotOf? key with
  | some slot => (slot, c)
  | none =>
    (c.cells.length,
      { c with table := (key, c.cells.length) :: c.table, cells := c.cells ++ [.empty] })

/-- Write a cell. -/
def setCell (c : Cache κ ι ε) (slot : Nat) (cell : Cell ι ε) : Cache κ ι ε :=
  { c with cells := c.cells.set slot cell }

/-- Begin to initialise a cell. -/
def start (c : Cache κ ι ε) (slot : Nat) : Cache κ ι ε := c.setCell slot .running

/-- Put the outcome into a cell. -/
def settle (c : Cache κ ι ε) (slot : Nat) (outcome : Except ε ι) : Cache κ ι ε :=
  c.setCell slot (.done outcome)

/-- Take a key out of the table, but only if it has this very cell. -/
def removeIfSame [DecidableEq κ] (c : Cache κ ι ε) (key : κ) (slot : Nat) : Cache κ ι ε :=
  { c with table := c.table.erase (key, slot) }

/-- A cache without keys has nothing ready. -/
theorem lookup_empty [DecidableEq κ] (key : κ) : (empty : Cache κ ι ε).lookup key = none := rfl

/-- A key has a cell once it was claimed. -/
theorem slotOf?_claim [DecidableEq κ] (c : Cache κ ι ε) (key : κ) :
    (c.claim key).2.slotOf? key = some (c.claim key).1 := by
  cases h : c.slotOf? key with
  | some slot => simp only [claim, h]
  | none => simp only [claim, h]; exact List.lookup_cons_self

/-- Claiming a key that has a cell changes nothing. -/
theorem claim_of_slotOf? [DecidableEq κ] {c : Cache κ ι ε} {key : κ} {slot : Nat}
    (h : c.slotOf? key = some slot) : c.claim key = (slot, c) := by
  simp [claim, h]

/-- A written cell is read back. -/
theorem cellAt_setCell (c : Cache κ ι ε) {slot : Nat} (cell : Cell ι ε)
    (h : slot < c.cells.length) : (c.setCell slot cell).cellAt slot = cell := by
  simp [cellAt, setCell, h]

/-- Writing a cell changes no other. -/
theorem cellAt_setCell_of_ne (c : Cache κ ι ε) {slot other : Nat} (cell : Cell ι ε)
    (h : slot ≠ other) : (c.setCell slot cell).cellAt other = c.cellAt other := by
  simp [cellAt, setCell, h]

/-- Counting a hit changes no cell and no key. -/
theorem lookup_countHit [DecidableEq κ] (c : Cache κ ι ε) (key : κ) :
    c.countHit.lookup key = c.lookup key := rfl

/-- Counting a miss changes no cell and no key. -/
theorem lookup_countMiss [DecidableEq κ] (c : Cache κ ι ε) (key : κ) :
    c.countMiss.lookup key = c.lookup key := rfl

end Cache
end Invocation
