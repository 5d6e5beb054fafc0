import Invocation.Machine.Exec

/-!
# The code of a thunk

The machine code generated for a plan: test the number of arguments, test the tag of every argument
that is unboxed, in declaration order, and only then load the payloads, call the native code, widen
its result to a word, store it, and return. A failed test returns a status at once. Every constant
of the binding, the receiver's address and the native entry, is part of the code.
-/

namespace Invocation.Machine

/-- The status of a completed call. -/
def statusOk : Word := 0

/-- The status for a wrong number of arguments. -/
def statusArgCount : Word := BitVec.allOnes 64

/-- The status for an argument of the wrong type: its index plus one. -/
def statusTypeMismatch (index : Nat) : Word := BitVec.ofNat 64 index + 1

/-- The blocks of a thunk. -/
inductive ThunkLabel where
  | entry
  /-- The number of arguments is right; go on with the tags. -/
  | countOk
  | countFail
  /-- The tag at an index is right; go on with the next. -/
  | tagOk (index : Nat)
  | tagFail (index : Nat)
  deriving DecidableEq, Repr

/-- The registers of a thunk. -/
inductive ThunkReg where
  /-- The address of the argument slots. -/
  | args
  /-- The number of arguments. -/
  | argc
  /-- The address of the result word. -/
  | out
  | countEqual
  | tag (index : Nat)
  | tagEqual (index : Nat)
  | receiver
  | arg (index : Nat)
  | callee
  | result
  /-- The bits of a floating-point result. -/
  | bits
  /-- The result word. -/
  | word
  /-- The status a block returns. -/
  | status (block : ThunkLabel)
  deriving DecidableEq, Repr

/-- A step in writing down the code of a thunk. -/
abbrev ThunkDirective := Directive ThunkLabel ThunkReg

namespace ThunkCode

/-- Return a constant status from a block. -/
def returnStatus (block : ThunkLabel) (status : Word) : List ThunkDirective :=
  [.emit (.const (.status block) .i64 status), .finish (.ret [.status block])]

/-- Test the number of arguments and go on in `countOk`. -/
def countCheck (arity : Nat) : List ThunkDirective :=
  [.create .countOk [], .create .countFail [],
    .emit (.equalImm .countEqual .argc (BitVec.ofNat 64 arity)),
    .finish (.branch .countEqual .countOk .countFail),
    .enter .countFail] ++
  returnStatus .countFail statusArgCount ++
  [.enter .countOk]

/-- Test the tag of the argument at an index and go on in `tagOk`. -/
def tagCheck (index : Nat) (type : ValueType) : List ThunkDirective :=
  [.emit (.load (.tag index) .i8 .args (index * slotSize + tagOffset)),
    .emit (.equalImm (.tagEqual index) (.tag index) (type.tag.setWidth 64)),
    .create (.tagOk index) [], .create (.tagFail index) [],
    .finish (.branch (.tagEqual index) (.tagOk index) (.tagFail index)),
    .enter (.tagFail index)] ++
  returnStatus (.tagFail index) (statusTypeMismatch index) ++
  [.enter (.tagOk index)]

/-- Test the tags of the arguments from an index on, skipping references. -/
def tagChecks (index : Nat) : List ArgConversion → List ThunkDirective
  | [] => []
  | .unbox type :: rest => tagCheck index type ++ tagChecks (index + 1) rest
  | .passRef :: rest => tagChecks (index + 1) rest

/-- Put the argument at an index into its register: the payload, or the address of the slot. -/
def loadArgument (index : Nat) : ArgConversion → Instr ThunkReg
  | .unbox type => .load (.arg index) type.machineType .args (index * slotSize + payloadOffset)
  | .passRef => .addImm (.arg index) .args (BitVec.ofNat 64 (index * slotSize))

/-- Put the arguments from an index on into their registers. -/
def loadArguments (index : Nat) : List ArgConversion → List (Instr ThunkReg)
  | [] => []
  | conversion :: rest => loadArgument index conversion :: loadArguments (index + 1) rest

/-- The registers of the arguments from an index on. -/
def argumentRegisters (index : Nat) : List ArgConversion → List ThunkReg
  | [] => []
  | _ :: rest => .arg index :: argumentRegisters (index + 1) rest

/-- Put the receiver's address into its register, if there is a receiver. -/
def loadReceiver : Option Word → List (Instr ThunkReg)
  | none => []
  | some address => [.const .receiver .i64 address]

/-- The registers the native code is called with: receiver first, then the arguments. -/
def callRegisters (receiver : Option Word) (args : List ArgConversion) : List ThunkReg :=
  (if receiver.isSome then [.receiver] else []) ++ argumentRegisters 0 args

/-- The registers in which the native code returns its result. -/
def resultRegisters : ResultConversion → List ThunkReg
  | .null => []
  | .box _ | .object => [.result]

/-- Widen a payload in the result register to a word: the instructions, and where the word is. -/
def widen : ValueType → List (Instr ThunkReg) × ThunkReg
  | .bool | .u32 => ([.zeroExtend .word .i64 .result], .word)
  | .i32 => ([.signExtend .word .i64 .result], .word)
  | .i64 | .u64 => ([], .result)
  | .f32 => ([.bitcast .bits .i32 .result, .zeroExtend .word .i64 .bits], .word)
  | .f64 => ([.bitcast .word .i64 .result], .word)

/-- Make the result word: the instructions, and the register it is in. -/
def resultWord : ResultConversion → List (Instr ThunkReg) × ThunkReg
  | .null => ([.const .word .i64 0], .word)
  | .box type => widen type
  | .object => ([], .result)

/-- Load the arguments, call the native code, and store the result word. -/
def callNative (plan : Plan) (receiver : Option Word) (entry : Word) : List (Instr ThunkReg) :=
  loadReceiver receiver ++ loadArguments 0 plan.args ++
  [.const .callee .i64 entry,
    .call (resultRegisters plan.ret) (.native plan receiver.isSome .i64) .callee
      (callRegisters receiver plan.args)] ++
  (resultWord plan.ret).1 ++
  [.store (resultWord plan.ret).2 .out 0]

/-- The block that is open after all tags have been tested. -/
def lastBlock (block : ThunkLabel) (index : Nat) : List ArgConversion → ThunkLabel
  | [] => block
  | .unbox _ :: rest => lastBlock (.tagOk index) (index + 1) rest
  | .passRef :: rest => lastBlock block (index + 1) rest

/-- The whole thunk for a plan, a receiver and a native entry. -/
def directives (plan : Plan) (receiver : Option Word) (entry : Word) : List ThunkDirective :=
  [.create .entry [(.args, .i64), (.argc, .i64), (.out, .i64)], .enter .entry] ++
  countCheck plan.arity ++
  tagChecks 0 plan.args ++
  (callNative plan receiver entry).map .emit ++
  returnStatus (lastBlock .countOk 0 plan.args) statusOk

end ThunkCode
end Invocation.Machine
