import Invocation.Native

/-!
# Objects

The heap of shared objects. Each object counts the handles to it: a handle is made with the object
or by retaining it, and an object whose last handle is released is gone, and releases the handles
inside it in turn. Each release takes an object from the heap or leaves one handle less to release,
so this ends, also where objects hold handles to each other.
-/

namespace Invocation

/-- Contents of objects that may hold handles to objects. -/
class HoldsHandles (α : Type) where
  handles : α → List ObjectRef

/-- An object. -/
structure HeapObject (α : Type) where
  ref : ObjectRef
  /-- The number of live handles to the object. -/
  handles : Nat
  contents : α

/-- The live objects, the newest first. -/
structure Heap (α : Type) where
  objects : List (HeapObject α)

/-- The first address of a given alignment that is not in use, counted from the alignment. Of one
address more than are in use, one is vacant. -/
def vacantAddress (alignment : Nat) (used : List Word) : Word :=
  let candidates := (List.range (used.length + 1)).map fun n ↦ BitVec.ofNat 64 (alignment * (n + 1))
  (candidates.find? fun address ↦ !used.contains address).getD 0

namespace Heap

variable {α : Type}

/-- The heap without objects. -/
def empty : Heap α := ⟨[]⟩

/-- The live object of a handle. -/
def find? (h : Heap α) (r : ObjectRef) : Option (HeapObject α) :=
  h.objects.find? fun o ↦ o.ref == r

/-- The contents of an object. -/
def contents? (h : Heap α) (r : ObjectRef) : Option α := (h.find? r).map HeapObject.contents

/-- The number of live handles to an object. -/
def handleCount (h : Heap α) (r : ObjectRef) : Nat := ((h.find? r).map HeapObject.handles).getD 0

/-- A handle for an object that is yet to be made, at an address that no live object has. -/
def vacant (h : Heap α) : ObjectRef :=
  let address := vacantAddress 16 (h.objects.map fun o ↦ o.ref.address)
  if nonzero : address = 0 then ⟨16, by decide⟩ else ⟨address, nonzero⟩

/-- Make an object with one handle. Handles inside the contents are moved into the object. -/
def insert (h : Heap α) (r : ObjectRef) (contents : α) : Heap α := ⟨⟨r, 1, contents⟩ :: h.objects⟩

/-- Change an object. -/
def update (h : Heap α) (r : ObjectRef) (f : HeapObject α → HeapObject α) : Heap α :=
  ⟨h.objects.map fun o ↦ if o.ref = r then f o else o⟩

/-- Make one more handle to an object. -/
def retain (h : Heap α) (r : ObjectRef) : Heap α :=
  h.update r fun o ↦ { o with handles := o.handles + 1 }

/-- Take an object from the heap. -/
def remove (h : Heap α) (r : ObjectRef) : Heap α := ⟨h.objects.filter fun o ↦ o.ref ≠ r⟩

/-- The heap gets smaller when a live object is taken from it. -/
theorem length_remove_lt {h : Heap α} {r : ObjectRef} {o : HeapObject α} (ho : h.find? r = some o) :
    (h.remove r).objects.length < h.objects.length := by
  have href : o.ref = r := by simpa using List.find?_some ho
  have hm : o ∈ h.objects := List.mem_of_find?_eq_some ho
  exact List.length_filter_lt_length_iff_exists.mpr ⟨o, hm, by simp [href]⟩

/-- Release handles, one after the other: the last one to an object takes it along, and the handles
inside it are released in turn. -/
def releaseAll [HoldsHandles α] : Heap α → List ObjectRef → Heap α
  | h, [] => h
  | h, r :: pending =>
    match _ho : h.find? r with
    | none => h.releaseAll pending
    | some o =>
      if 1 < o.handles then
        (h.update r fun o ↦ { o with handles := o.handles - 1 }).releaseAll pending
      else (h.remove r).releaseAll (HoldsHandles.handles o.contents ++ pending)
termination_by h pending => (h.objects.length, pending.length)
decreasing_by
  · exact Prod.Lex.right _ (Nat.lt_succ_self _)
  · simp only [update, List.length_map]
    exact Prod.Lex.right _ (Nat.lt_succ_self _)
  · exact Prod.Lex.left _ _ (length_remove_lt _ho)

/-- Release a handle. -/
def release [HoldsHandles α] (h : Heap α) (r : ObjectRef) : Heap α := h.releaseAll [r]

/-- Make one more handle if a value is one. -/
def retainValue (h : Heap α) (v : Value) : Heap α :=
  match v with
  | .object r => h.retain r
  | _ => h

/-- Release the handle if a value is one. -/
def releaseValue [HoldsHandles α] (h : Heap α) (v : Value) : Heap α :=
  match v with
  | .object r => h.release r
  | _ => h

/-- An object is found under the handle it was made with. -/
theorem find?_insert (h : Heap α) (r : ObjectRef) (contents : α) :
    (h.insert r contents).find? r = some ⟨r, 1, contents⟩ := by
  simp [insert, find?]

/-- A new object has one handle. -/
theorem handleCount_insert (h : Heap α) (r : ObjectRef) (contents : α) :
    (h.insert r contents).handleCount r = 1 := by
  simp [handleCount, find?_insert]

/-- Making an object changes nothing about the others. -/
theorem find?_insert_of_ne (h : Heap α) {r s : ObjectRef} (contents : α) (ne : s ≠ r) :
    (h.insert s contents).find? r = h.find? r := by
  simp [insert, find?, ne]

end Heap
end Invocation
