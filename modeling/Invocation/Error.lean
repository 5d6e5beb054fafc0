import Invocation.Text.Layout

/-!
# Errors

Why a method could not be compiled into an invoker, and why a call was refused before it reached
the method. Each error is its cause; the wording is in `message`, and the structured text in
`layout`.
-/

namespace Invocation

open Text (Layout)

/-- Why there is no invoker for a method and a target. -/
inductive CompileError where
  /-- An instance method without a target. -/
  | missingTarget (method receiver : String)
  /-- A static method with a target. -/
  | unexpectedTarget (method : String)
  /-- The target is of another type than the receiver. -/
  | targetTypeMismatch (method expected actual : String)
  /-- More parameters than a native call passes. -/
  | tooManyParameters (method : String) (count max : Nat)
  /-- The backend is not part of this build. -/
  | unsupportedBackend (backend : String)
  /-- The backend failed to generate code. -/
  | codegen (reason : String)
  deriving DecidableEq, Repr

/-- Why a call was refused; the method was not called. -/
inductive InvokeError where
  /-- The number of arguments differs from the number of parameters. -/
  | argumentCountMismatch (method : String) (expected actual : Nat)
  /-- The argument at an index, counted from 0, is of another type than its parameter. -/
  | argumentTypeMismatch (method : String) (index : Nat) (expected actual : String)
  deriving DecidableEq, Repr

/-- Either way to fail, for callers that compile and invoke in one go. -/
inductive ThunkError where
  | compile (cause : CompileError)
  | invoke (cause : InvokeError)
  deriving DecidableEq, Repr

namespace CompileError

/-- What is said about the error. -/
def message : CompileError → String
  | .missingTarget method receiver =>
    "Instance method " ++ method ++ " requires a target of type " ++ receiver
  | .unexpectedTarget method => "Static method " ++ method ++ " cannot be bound to a target"
  | .targetTypeMismatch method expected actual =>
    "Target type mismatch for " ++ method ++ ": expected " ++ expected ++ ", got " ++ actual
  | .tooManyParameters method count max =>
    "Method " ++ method ++ " has " ++ toString count ++ " parameters, at most " ++ toString max ++
      " are supported"
  | .unsupportedBackend backend => "Backend '" ++ backend ++ "' is not available in this build"
  | .codegen reason => "Code generation error: " ++ reason

/-- The name of the kind of error. -/
def kind : CompileError → String
  | .missingTarget .. => "MissingTarget"
  | .unexpectedTarget _ => "UnexpectedTarget"
  | .targetTypeMismatch .. => "TargetTypeMismatch"
  | .tooManyParameters .. => "TooManyParameters"
  | .unsupportedBackend _ => "UnsupportedBackend"
  | .codegen _ => "Codegen"

/-- The structured text of the error. -/
def layout (e : CompileError) : Layout :=
  match e with
  | .missingTarget method receiver =>
    .record e.kind [("method", .text method), ("receiver", .text receiver)]
  | .unexpectedTarget method => .record e.kind [("method", .text method)]
  | .targetTypeMismatch method expected actual =>
    .record e.kind
      [("method", .text method), ("expected", .text expected), ("actual", .text actual)]
  | .tooManyParameters method count max =>
    .record e.kind [("method", .text method), ("count", .number count), ("max", .number max)]
  | .unsupportedBackend backend => .tuple e.kind [.text backend]
  | .codegen reason => .tuple e.kind [.text reason]

end CompileError

namespace InvokeError

/-- What is said about the error. -/
def message : InvokeError → String
  | .argumentCountMismatch method expected actual =>
    "Invalid number of arguments. " ++ method ++ " expects " ++ toString expected ++ ", got " ++
      toString actual
  | .argumentTypeMismatch method index expected actual =>
    "Argument " ++ toString index ++ " of " ++ method ++ ": expected " ++ expected ++ ", got " ++
      actual

/-- The name of the kind of error. -/
def kind : InvokeError → String
  | .argumentCountMismatch .. => "ArgumentCountMismatch"
  | .argumentTypeMismatch .. => "ArgumentTypeMismatch"

/-- The structured text of the error. -/
def layout (e : InvokeError) : Layout :=
  match e with
  | .argumentCountMismatch method expected actual =>
    .record e.kind [("method", .text method), ("expected", .number expected),
      ("actual", .number actual)]
  | .argumentTypeMismatch method index expected actual =>
    .record e.kind
      [("method", .text method), ("index", .number index), ("expected", .text expected),
        ("actual", .text actual)]

end InvokeError

namespace ThunkError

/-- What is said about the error: the wording of its cause. -/
def message : ThunkError → String
  | .compile cause => cause.message
  | .invoke cause => cause.message

/-- The name of the phase and of the kind of error. -/
def kind : ThunkError → String
  | .compile cause => "Compile." ++ cause.kind
  | .invoke cause => "Invoke." ++ cause.kind

/-- The structured text of the error: its phase around its cause. -/
def layout : ThunkError → Layout
  | .compile cause => .tuple "Compile" [cause.layout]
  | .invoke cause => .tuple "Invoke" [cause.layout]

end ThunkError
end Invocation
