import Invocation.Binding

/-!
# Thunks

A thunk takes the arguments of one call, as a slice of value slots in memory, and either refuses
them or calls its method. The portable thunk walks the plan: it checks the number of arguments,
turns each argument into a word, and calls the method on the words.
-/

namespace Invocation

/-- The size of a value slot in bytes. -/
def slotSize : Nat := 16

/-- The largest number of bytes that one slice takes: half of the address space, less one byte. -/
def maxSliceBytes : Nat := 0x7fffffffffffffff

/-- The arguments of one call, where they stand in memory: consecutive slots from a base address.
The bytes of a slot that its value does not define hold whatever was there before. -/
structure ArgSlice where
  base : Word
  values : List Value
  padding : Word → BitVec 8
  /-- The slots fit into memory. -/
  fits : values.length * slotSize ≤ maxSliceBytes

namespace ArgSlice

/-- The slice of some values at an address, with unused bytes cleared, if they fit into memory. -/
def of? (base : Word) (values : List Value) : Option ArgSlice :=
  if h : values.length * slotSize ≤ maxSliceBytes then some ⟨base, values, fun _ ↦ 0, h⟩ else none

/-- The number of arguments. -/
def length (s : ArgSlice) : Nat := s.values.length

/-- The address of the slot at an index. -/
def slotAddress (s : ArgSlice) (index : Nat) : Word := s.base + BitVec.ofNat 64 (index * slotSize)

/-- The value in the slot that starts at an address. -/
def valueAt? (s : ArgSlice) (address : Word) : Option Value :=
  let offset := (address - s.base).toNat
  if offset % slotSize = 0 then s.values[offset / slotSize]? else none

end ArgSlice

/-- The names of the types of objects, as far as a state of the host program knows them. -/
class ObjectNames (σ : Type) where
  typeName : σ → ObjectRef → String

/-- A compiled call: from the arguments to the method's result or the reason for refusing them. -/
abbrev Thunk (σ : Type) := ArgSlice → CallM σ (Except InvokeError Value)

namespace Plan

variable {σ : Type} [ObjectNames σ]

/-- Refuse the argument at an index for its type. -/
def refuse (p : Plan) (method : String) (index : Nat) (actual : Value) :
    CallM σ InvokeError := do
  match p.typeMismatch? method index (actual.typeName (ObjectNames.typeName (← get))) with
  | some e => return e
  | none => throw (.unplannedArgument index)

end Plan

/-- The value of a native result word. -/
def ResultConversion.toValue : ResultConversion → Word → Value
  | .null, _ => .null
  | .box type, w => .box type w
  | .object, w => (RawObject.ofWord w).toValue

/-- The words of the arguments of one call: room for as many as a native method can take. -/
abbrev WordBuffer := Vector Word maxParams

namespace Portable

variable {σ : Type} [ObjectNames σ]

/-- The word an argument travels as, or nothing if it is of the wrong type. -/
def argumentWord (args : ArgSlice) (index : Nat) (v : Value) : ArgConversion → Option Word
  | .unbox type => v.unbox type
  | .passRef => some (args.slotAddress index)

/-- Fill the buffer from an index on, and stop at the first argument of the wrong type. -/
def fill (b : Binding σ) (args : ArgSlice) :
    Nat → List (ArgConversion × Value) → WordBuffer → CallM σ (Except InvokeError WordBuffer)
  | _, [], words => return .ok words
  | index, (conversion, v) :: rest, words =>
    match argumentWord args index v conversion with
    | none => return .error (← b.plan.refuse b.name index v)
    | some w =>
      if h : index < maxParams then fill b args (index + 1) rest (words.set index w h)
      else throw (.bufferFull index)

/-- The first words of a buffer, as many as there are arguments. -/
def used (words : WordBuffer) (count : Nat) : CallM σ (List Word) :=
  if count ≤ maxParams then return words.toList.take count else throw (.bufferFull maxParams)

/-- The portable thunk of a binding. -/
def thunk (b : Binding σ) : Thunk σ := fun args ↦ do
  match b.plan.checkCount b.name args.length with
  | .error e => return .error e
  | .ok () =>
    match ← fill b args 0 (b.plan.args.zip args.values) (Vector.replicate maxParams 0) with
    | .error e => return .error e
    | .ok words =>
      let w ← b.method.method.callWords args.valueAt? b.receiver (← used words args.length)
      return .ok (b.plan.ret.toValue w)

end Portable
end Invocation
