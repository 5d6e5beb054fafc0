import Invocation.Machine.ThunkCode

/-!
# Thunks of machine code

A thunk that runs generated code on the arguments of a call and turns the returned status into the
result or the error. The native method of the binding is the only code that the generated code can
call.
-/

namespace Invocation

open Machine

namespace Method

variable {σ : Type}

/-- The native code of a method: an instance method takes its receiver in the first register. -/
def nativeCode (m : Method σ) (slots : Word → Option Value) : NativeCode σ where
  signature := .native (.lower m.signature) (!m.isStatic) .i64
  call operands := do
    let (receiver, operands) ←
      match m.signature.kind, operands with
      | .static, os => pure (0, os)
      | .instance _, ⟨.i64, w⟩ :: os => pure (w, os)
      | .instance _, _ => throw .badOperand
    match Args.ofOperands slots m.signature.params operands with
    | .error fault => throw fault
    | .ok args => return m.signature.ret.toOperands (← m.native receiver args)

end Method

namespace Machine

variable {σ : Type} [ObjectNames σ]

/-- Where the result word of a running thunk lives: apart from the argument slots. -/
def resultAddress (args : ArgSlice) : Word := args.base - 8

/-- What the code of a binding can reach during a call. -/
def environment (b : Binding σ) (args : ArgSlice) : Environment σ where
  native? address :=
    if address = b.method.method.entry then some (b.method.method.nativeCode args.valueAt?)
    else none
  memory := args.byteAt?
  resultAddress := resultAddress args

/-- The result or the error that a status and a result word stand for. -/
def decodeStatus (b : Binding σ) (args : ArgSlice) (status result : Word) :
    CallM σ (Except InvokeError Value) :=
  if status = statusOk then return .ok (b.plan.ret.toValue result)
  else if status = statusArgCount then
    return .error (.argumentCountMismatch b.name b.plan.arity args.length)
  else
    let index := (status - 1).toNat
    match args.values[index]? with
    | none => throw (.unknownStatus status)
    | some v => return .error (← b.plan.refuse b.name index v)

/-- The thunk that runs given code for a binding. -/
def thunk (b : Binding σ) (code : Code ThunkLabel ThunkReg) : Thunk σ := fun args ↦ do
  let (returned, frame) ← code.run (environment b args)
    [⟨.i64, args.base⟩, ⟨.i64, BitVec.ofNat 64 args.length⟩, ⟨.i64, resultAddress args⟩]
  match returned with
  | [⟨.i64, status⟩] => decodeStatus b args status frame.result
  | _ => throw .badOperand

/-- Generate the code of a binding. -/
def generate (b : Binding σ) : Except AssemblyError (Code ThunkLabel ThunkReg) :=
  assemble (ThunkCode.directives b.plan (b.target.map Target.address) b.method.method.entry)

end Machine
end Invocation
