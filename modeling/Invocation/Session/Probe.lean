import Invocation.Session.Natives
import Invocation.Text.Hex

/-!
# Probes

A probe is a native method of any signature. It records what it was called with, folds all of it
into one 64-bit digest, and makes its result from the digest, so that a result shows whether every
argument arrived as it was passed.
-/

namespace Invocation.Session.Probe

/-- A digest of a sequence of words. -/
abbrev Digest := BitVec 64

/-- The digest of nothing. -/
def Digest.start : Digest := 0xcbf29ce484222325

/-- The digest after one more word. -/
def Digest.mix (h : Digest) (w : Word) : Digest := (h ^^^ w) * 0x100000001b3

/-- The digest after the bytes of a text. -/
def Digest.mixText (h : Digest) (s : String) : Digest :=
  s.toUTF8.toList.foldl (fun h b ↦ Digest.mix h (b.toBitVec.setWidth 64)) h

/-- The word of a payload, where one pattern stands for all that are no number. -/
def payloadWord : (type : ValueType) → type.Payload → Word
  | .f32, x =>
    if FloatFormat.binary32.isNaN x.toNat then BitVec.ofNat 64 FloatFormat.binary32.quietNaN
    else ValueType.encode .f32 x
  | .f64, x =>
    if FloatFormat.binary64.isNaN x.toNat then BitVec.ofNat 64 FloatFormat.binary64.quietNaN
    else ValueType.encode .f64 x
  | type, x => type.encode x

/-- An argument as it was received. -/
inductive Received where
  | payload (type : ValueType) (x : type.Payload)
  | reference (r : ValueRef)

/-- One argument for a parameter. -/
def received : (p : ParamType) → p.Arg → Received
  | .value type, x => .payload type x
  | .reference, r => .reference r

/-- The arguments for a list of parameters. -/
def receivedAll : (ps : List ParamType) → Args ps → List Received
  | [], _ => []
  | p :: ps, (a, rest) => received p a :: receivedAll ps rest

/-- The digest after a referenced value: its tag, and its payload or the text or type of its
object. -/
def mixValue (w : World) (h : Digest) (v : Value) : Digest :=
  let tagged := h.mix (v.tag.setWidth 64)
  match v with
  | .null => tagged
  | .inline type x => tagged.mix (payloadWord type x)
  | .object r => tagged.mixText ((w.string? v).getD (w.objectTypeName r))

/-- The digest after an argument. -/
def mixArgument (w : World) (h : Digest) : Received → Digest
  | .payload type x => h.mix (payloadWord type x)
  | .reference r => mixValue w h r.value

/-- The word that stands for an instance. -/
def instanceWord : Instance (Option ObjectRef) → Word
  | .point x => x.signExtend 64
  | .scale factor => factor.setWidth 64
  | .acc base => base
  | .counter count => count
  | .holder held => if held.isSome then 1 else 0
  | .unit => 7
  | .string s => Digest.start.mixText s
  | .vector elements => elements.foldl (fun h x ↦ Digest.mix h (x.signExtend 64)) Digest.start

/-- The result for a digest. -/
def result (h : Digest) : (ret : ReturnType) → StateM World ret.Result
  | .void => return ()
  | .value .bool => return (h >>> 33).getLsbD 0
  | .value .i32 => return (h >>> 32).setWidth 32
  | .value .u32 => return (h >>> 32).setWidth 32
  | .value .i64 => return h
  | .value .u64 => return h
  | .value .f32 => return Natives.bits32 ((Int64.ofBitVec ((h >>> 40) - 0x800000)).toFloat32 / 8)
  | .value .f64 =>
    return Natives.bits64 ((Int64.ofBitVec ((h >>> 11) - 0x10000000000000)).toFloat / 1024)
  | .reference => do
    if (h >>> 33).setWidth 2 = 0 then return none
    else Natives.newString ("h:" ++ String.ofList (Text.hexPadded 16 h.toNat))

/-- An argument as it is recorded. -/
def recorded (w : World) : Received → RecordedArg
  | .payload type x => .value (.inline type x)
  | .reference r => .value (w.describe r.value)

/-- The probe of a signature. -/
def method (name : String) (number : Nat) (signature : Signature) : Method World :=
  ⟨name, signature, codeAddress number, fun address args ↦ do
    let w ← get
    let received := receivedAll signature.params args
    let receiver :=
      match signature.kind with
      | .static => none
      | .instance _ => w.instanceAt? address
    set (w.record
      ⟨"probe", received.map (recorded w), receiver.map w.describeInstance⟩)
    let start :=
      match receiver with
      | none => Digest.start
      | some i => Digest.start.mix (instanceWord i)
    result (received.foldl (mixArgument w) start) signature.ret⟩

end Invocation.Session.Probe
