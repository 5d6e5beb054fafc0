import Invocation.Native
import Invocation.Text.Layout

/-!
# Methods and targets

A method is a named native method with its signature and the address of its code. Methods and the
instances they are bound to are shared: many handles, one allocation. A handle carries the identity
of its allocation, which is never used again, and the address it lives at, which a later allocation
may get once this one is gone.
-/

namespace Invocation

open Text (Layout)

/-- A native method that can be compiled into an invoker. -/
structure Method (σ : Type) where
  name : String
  signature : Signature
  /-- The address of the native code. -/
  entry : Word
  native : Native σ signature.params signature.ret

/-- A handle to a shared method. -/
structure MethodHandle (σ : Type) where
  /-- The allocation, unique for all time. -/
  id : Nat
  /-- Where the method lives, unique among what is alive. -/
  address : Word
  method : Method σ

/-- A handle to a shared instance that an instance method can be bound to. -/
structure Target where
  /-- The allocation, unique for all time. -/
  id : Nat
  /-- Where the instance lives, unique among what is alive; never 0. -/
  address : Word
  type : HostType
  deriving DecidableEq, Repr

namespace Method

variable {σ : Type}

/-- A method without a receiver, made of native code that takes nothing but its arguments. -/
def function (name : String) (params : List ParamType) (ret : ReturnType) (entry : Word)
    (f : Args params → StateM σ ret.Result) : Method σ :=
  ⟨name, ⟨params, ret, .static⟩, entry, fun _ args ↦ f args⟩

/-- A method on instances of a type, made of native code that takes the address of one first. -/
def onInstance (name : String) (receiver : HostType) (params : List ParamType) (ret : ReturnType)
    (entry : Word) (f : Native σ params ret) : Method σ :=
  ⟨name, ⟨params, ret, .instance receiver⟩, entry, f⟩

/-- The number of declared parameters. -/
def arity (m : Method σ) : Nat := m.signature.arity

/-- Whether the method takes no receiver. -/
def isStatic (m : Method σ) : Bool := m.signature.kind == .static

/-- Call the native code on raw words. -/
def callWords (m : Method σ) (slots : Word → Option Value) (receiver : Word) (words : List Word) :
    CallM σ Word :=
  m.native.callWords slots receiver words

/-- The structured text of a method. -/
def layout (m : Method σ) : Layout :=
  .record "MethodDescriptor"
    [("name", .text m.name), ("signature", .leaf m.signature.text),
      ("entry", .leaf (Text.address (m.entry != 0)))]

end Method

namespace Target

/-- Two handles are to the same instance if it lives at the same address. -/
def same (a b : Target) : Bool := a.address == b.address

/-- The structured text of a target. -/
def layout (t : Target) : Layout :=
  .leaf ("Target(" ++ t.type.name ++ " @ " ++ Text.address (t.address != 0) ++ ")")

/-- The receiver word of an optional target; none is 0. -/
def receiverWord : Option Target → Word
  | none => 0
  | some t => t.address

end Target
end Invocation
