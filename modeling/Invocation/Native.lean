import Invocation.Signature
import Invocation.Text.Layout
import Invocation.Value

/-!
# Native methods

A native method is a function on decoded arguments: its type follows from its parameter list and
return type, so a method cannot disagree with its signature. It acts on the state of the host
program and cannot fail. `Native.callWords` calls it on raw machine words; it fails exactly if
there are too few words or a reference word names no live slot.
-/

namespace Invocation

/-- What goes wrong when a call breaks the contract between thunks and native code. No thunk
compiled from a valid binding raises any of these. -/
inductive Fault where
  /-- The native method has a parameter at this index, but no word was given for it. -/
  | missingWord (index : Nat)
  /-- The arguments do not fit into memory. -/
  | tooManyArguments (count : Nat)
  /-- A reference word is not the address of a live value slot. -/
  | noSuchSlot (address : Word)
  /-- There is an argument at this index, but the word buffer ends before it. -/
  | bufferFull (index : Nat)
  /-- Generated code returned a status that names no argument. -/
  | unknownStatus (status : Word)
  /-- An error was reported for an argument the plan does not have. -/
  | unplannedArgument (index : Nat)
  /-- Generated code read a register before it was written, or one of another type. -/
  | badOperand
  /-- Generated code accessed memory outside the argument slots and the result word. -/
  | unmapped (address : Word)
  /-- Generated code called an address at which there is no method of that signature. -/
  | badCallee (address : Word)
  /-- Generated code went to a block that does not exist. -/
  | noSuchBlock
  /-- Generated code ran through more blocks than it has. -/
  | endless
  deriving DecidableEq, Repr

/-- A computation on the state of the host program that keeps the state also if it faults. -/
abbrev CallM (σ : Type) := ExceptT Fault (StateM σ)

/-- A reference argument, as a native method receives it: the caller's slot and what it holds for
the duration of the call. -/
structure ValueRef where
  slot : Word
  value : Value

/-- The text of a reference argument. -/
def ValueRef.text (r : ValueRef) : String := "ValueRef(" ++ Text.address (r.slot != 0) ++ ")"

/-- A reference result, as a native method returns it: one owned handle, or null. -/
abbrev RawObject := Option ObjectRef

namespace RawObject

/-- The word of a reference result: the address of the object, or 0. -/
def toWord : RawObject → Word
  | none => 0
  | some r => r.address

/-- The reference result a word stands for. -/
def ofWord (w : Word) : RawObject :=
  if h : w = 0 then none else some ⟨w, h⟩

/-- The reference result made from a value: its handle, or null for every other value. -/
def ofValue (v : Value) : RawObject := v.object?

/-- Whether this is null. -/
def isNull (r : RawObject) : Bool := r.isNone

/-- The text of a reference result. -/
def text (r : RawObject) : String := "RawObject(" ++ Text.address (!r.isNull) ++ ")"

/-- The value that takes over a reference result. -/
def toValue : RawObject → Value
  | none => .null
  | some r => .object r

/-- A word gives back the reference result it was made from. -/
theorem ofWord_toWord (r : RawObject) : ofWord r.toWord = r := by
  cases r with
  | none => rfl
  | some r => exact dif_neg r.address_ne_zero

/-- Every word is the word of the reference result it stands for. -/
theorem toWord_ofWord (w : Word) : (ofWord w).toWord = w := by
  unfold ofWord
  split
  · next h => rw [h]; rfl
  · rfl

end RawObject

/-- What a native method receives for a parameter of each type. -/
abbrev ParamType.Arg : ParamType → Type
  | .value type => type.Payload
  | .reference => ValueRef

/-- What a native method returns for each return type. -/
abbrev ReturnType.Result : ReturnType → Type
  | .void => Unit
  | .value type => type.Payload
  | .reference => RawObject

/-- The word of a native result; no result is 0. -/
def ReturnType.encode : (ret : ReturnType) → ret.Result → Word
  | .void, _ => 0
  | .value type, x => type.encode x
  | .reference, r => r.toWord

/-- The argument a word stands for; a reference word must be the address of a live slot. -/
def ParamType.decode (slots : Word → Option Value) : (p : ParamType) → Word → Except Fault p.Arg
  | .value type, w => .ok (type.decode w)
  | .reference, w =>
    match slots w with
    | some v => .ok ⟨w, v⟩
    | none => .error (.noSuchSlot w)

/-- The decoded arguments for a list of parameters, as a tuple. -/
abbrev Args : List ParamType → Type
  | [] => Unit
  | p :: ps => p.Arg × Args ps

/-- Decode one word for each parameter, in order; words beyond the last parameter are ignored. -/
def Args.decode (slots : Word → Option Value) :
    (ps : List ParamType) → (index : Nat) → List Word → Except Fault (Args ps)
  | [], _, _ => .ok ()
  | _ :: _, index, [] => .error (.missingWord index)
  | p :: ps, index, w :: ws =>
    match p.decode slots w with
    | .error fault => .error fault
    | .ok a =>
      match Args.decode slots ps (index + 1) ws with
      | .error fault => .error fault
      | .ok rest => .ok (a, rest)

/-- A native method: what it does to the state and what it returns, given the address of its
receiver (0 for a static method) and one decoded argument for each parameter. -/
abbrev Native (σ : Type) (params : List ParamType) (ret : ReturnType) :=
  Word → Args params → StateM σ ret.Result

/-- Call a native method on raw words. Nothing is called unless every parameter has its word. -/
def Native.callWords {σ : Type} {params : List ParamType} {ret : ReturnType}
    (f : Native σ params ret) (slots : Word → Option Value) (receiver : Word) (words : List Word) :
    CallM σ Word := do
  match Args.decode slots params 0 words with
  | .error fault => throw fault
  | .ok args => return ret.encode (← f receiver args)

end Invocation
