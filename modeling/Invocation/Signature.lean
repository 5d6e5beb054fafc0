import Invocation.ValueType

/-!
# Signatures

The declared types of a native method: its parameters, its result, and the type of its receiver if
it takes one. A host type is identified by a number of its own; its name is free text that serves
diagnostics only.
-/

namespace Invocation

/-- A type of the host program: what it is, and what it is called. -/
structure HostType where
  id : Nat
  name : String
  deriving DecidableEq, Repr

/-- The declared type of a parameter. -/
inductive ParamType where
  /-- Unboxed on every call; a value of any other type is refused. -/
  | value (type : ValueType)
  /-- Passed as a reference to the caller's slot, whatever it holds. -/
  | reference
  deriving DecidableEq, Repr

/-- The declared type of a result. -/
inductive ReturnType where
  /-- No result; a call gives null. -/
  | void
  /-- Boxed as a value of this type. -/
  | value (type : ValueType)
  /-- An object, or null. -/
  | reference
  deriving DecidableEq, Repr

/-- Whether a method takes a receiver, and of which type. -/
inductive MethodKind where
  | static
  | instance (receiver : HostType)
  deriving DecidableEq, Repr

namespace ParamType

/-- The name used in signatures and diagnostics. -/
def name : ParamType → String
  | .value type => type.name
  | .reference => "ref"

end ParamType

namespace ReturnType

/-- The name used in signatures and diagnostics. -/
def name : ReturnType → String
  | .void => "void"
  | .value type => type.name
  | .reference => "ref"

end ReturnType

/-- The signature of a method; the receiver is not among the parameters. -/
structure Signature where
  params : List ParamType
  ret : ReturnType
  kind : MethodKind
  deriving DecidableEq, Repr

namespace Signature

/-- The number of declared parameters. -/
def arity (s : Signature) : Nat := s.params.length

/-- The text before the parameter list: the receiver, with a comma only if parameters follow. -/
def receiverText (s : Signature) : String :=
  match s.kind with
  | .static => ""
  | .instance receiver => "&" ++ receiver.name ++ if s.params.isEmpty then "" else ", "

/-- The text of a signature: receiver, parameters in parentheses, and result. -/
def text (s : Signature) : String :=
  s.receiverText ++ "(" ++ ", ".intercalate (s.params.map ParamType.name) ++ ") -> " ++ s.ret.name

end Signature
end Invocation
