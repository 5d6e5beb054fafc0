import Invocation.Method
import Invocation.Session.World

/-!
# Native methods of the host program

The native methods that can be asked for by name. Integer arithmetic wraps; a float is computed
with in its own format. A method that is bound to an instance finds it at the receiver's address.
-/

namespace Invocation.Session

/-- Where native code lives: a method has its address by its number. -/
def codeAddress (number : Nat) : Word := BitVec.ofNat 64 (0x400000 + 16 * number)

namespace Natives

/-- The native methods that take no receiver: name, types, and what is done with the arguments. -/
def static (name : String) (params : List ParamType) (ret : ReturnType)
    (f : Args params → StateM World ret.Result) : Method World :=
  .function name params ret (codeAddress 0) f

/-- The native methods that take a receiver: they get the instance and its address. Nothing is
done without an instance there. -/
def bound (name : String) (receiver : ReceiverType) (params : List ParamType) (ret : ReturnType)
    (absent : ret.Result)
    (f : Instance (Option ObjectRef) → Word → Args params → StateM World ret.Result) :
    Method World :=
  .onInstance name receiver.hostType params ret (codeAddress 0) fun address args ↦ do
    match (← get).instanceAt? address with
    | none => return absent
    | some i => f i address args

/-- Record a call without arguments. -/
def record (function : String) : StateM World Unit :=
  modify (World.record ⟨function, [], none⟩)

/-- A new string as a result. -/
def newString (s : String) : StateM World RawObject := do
  return some (← modifyGet (World.allocateString s))

/-- One more handle to the object of an argument as a result; null for other arguments. -/
def share (v : Value) : StateM World RawObject := do
  modify (World.retain v)
  return .ofValue v

/-- A 32-bit float of its bits. -/
def float32 (bits : BitVec 32) : Float32 := .ofBits (.ofBitVec bits)

/-- A 64-bit float of its bits. -/
def float64 (bits : BitVec 64) : Float := .ofBits (.ofBitVec bits)

/-- The bits of a 32-bit float. -/
def bits32 (x : Float32) : BitVec 32 := x.toBits.toBitVec

/-- The bits of a 64-bit float. -/
def bits64 (x : Float) : BitVec 64 := x.toBits.toBitVec

/-- The sign of a 64-bit float. -/
def signBit64 : BitVec 64 := 0x8000000000000000

/-- The sum of numbers of all kinds as a 64-bit float, from left to right. -/
def mixedSum (a b : BitVec 64) (c : BitVec 32) (d : BitVec 32) (e : BitVec 64) : Float :=
  (Int64.ofBitVec a).toFloat + (UInt32.ofBitVec c).toFloat + (UInt64.ofBitVec b).toFloat +
    (float32 d).toFloat + float64 e

/-- The whole part of a float as a number: the nearest there is, and 0 for what is no number. -/
def truncated (x : BitVec 32) : BitVec 64 := (float32 x).toInt64.toBitVec

/-- The name a native method says for itself. -/
def ownName : String := "raya"

/-- The native methods on numbers. -/
def arithmetic : List (Method World) :=
  [ static "add" [.value .i32, .value .i32] (.value .i32) fun (a, b, _) ↦ do
      record "add"
      return a + b,
    static "sub" [.value .i64, .value .i64] (.value .i64) fun (a, b, _) ↦ return a - b,
    static "mul" [.value .i32, .value .i32] (.value .i32) fun (a, b, _) ↦ return a * b,
    static "not" [.value .bool] (.value .bool) fun (a, _) ↦ return !a,
    static "is_neg" [.value .i64] (.value .bool) fun (a, _) ↦ return a.slt 0,
    static "negate" [.value .f64] (.value .f64) fun (a, _) ↦ return a ^^^ signBit64,
    static "halve" [.value .f32] (.value .f32) fun (a, _) ↦ return bits32 (float32 a / 2),
    static "third" [.value .f32] (.value .f32) fun (a, _) ↦ return bits32 (float32 a / 3),
    static "neg_u32" [.value .u32] (.value .u32) fun (a, _) ↦ return -a,
    static "neg_i32" [.value .i32] (.value .i32) fun (a, _) ↦ return -a,
    static "inc_u64" [.value .u64] (.value .u64) fun (a, _) ↦ return a + 1,
    static "answer" [] (.value .i32) fun _ ↦ return 42,
    static "mixed"
      [.value .bool, .value .i64, .value .u32, .value .u64, .value .f32, .value .f64]
      (.value .f64) fun (keep, a, b, c, d, e, _) ↦
        let sum := mixedSum a c b d e
        return bits64 (if keep then sum else -sum),
    static "widen" [.value .u32, .value .i32, .value .bool, .value .f32] (.value .i64)
      fun (a, b, tenfold, d, _) ↦
        let sum := a.setWidth 64 + b.signExtend 64 + truncated d
        return if tenfold then sum * 10 else sum,
    static "eight" (List.replicate 8 (.value .i64)) (.value .i64)
      fun (a, b, c, d, e, f, g, h, _) ↦
        return [a, b, c, d, e, f, g, h].foldl (fun (s x : BitVec 64) ↦ 3 * s + x) 0 ]

/-- The native methods on references. -/
def references : List (Method World) :=
  [ static "noop" [] .void fun _ ↦ record "noop",
    static "log" [.reference] .void fun (a, _) ↦ do
      let text := ((← get).string? a.value).getD "<non-string>"
      modify (World.record ⟨"log", [.text text], none⟩),
    static "echo" [.reference] .reference fun (a, _) ↦ share a.value,
    static "first_of" [.reference, .reference] .reference fun (a, _, _) ↦ share a.value,
    static "wrap" [.reference] .reference fun (a, _) ↦ do
      if a.value.isObject then share a.value
      else newString ((← get).typeName a.value),
    static "type_of" [.reference] .reference fun (a, _) ↦ do
      newString ((← get).typeName a.value),
    static "ref_debug" [.reference] .reference fun (a, _) ↦ newString a.text,
    static "handles" [.reference] (.value .u64) fun (a, _) ↦ do
      return BitVec.ofNat 64 (((← get).handleCount? a.value).getD 0),
    static "same" [.reference, .reference] (.value .bool) fun (a, b, _) ↦
      return a.value.same b.value,
    static "concat" [.reference, .reference] .reference fun (a, b, _) ↦ do
      let w ← get
      match w.string? a.value, w.string? b.value with
      | some s, some t => newString (s ++ t)
      | _, _ => return none,
    static "maybe_name" [.value .bool] .reference fun (a, _) ↦
      if a then newString ownName else return none ]

/-- The native methods on instances. -/
def onInstances : List (Method World) :=
  [ bound "Point.get_x" .point [] (.value .i32) (0 : BitVec 32) fun
      | .point x, _, _ => return x
      | _, _, _ => return (0 : BitVec 32),
    bound "Point.scaled" .point [.value .f64] (.value .f64) (0 : BitVec 64) fun
      | .point x, _, (factor, _) => return bits64 ((Int32.ofBitVec x).toFloat * float64 factor)
      | _, _, _ => return (0 : BitVec 64),
    bound "Point.translate" .point [.value .i32] .reference none fun
      | .point x, _, (dx, _) => do
        return some (← modifyGet (World.allocate (.host (.point (x + dx)))))
      | _, _, _ => return none,
    bound "Scale.apply" .scale [.value .f32] (.value .f32) (0 : BitVec 32) fun
      | .scale factor, _, (x, _) => return bits32 (float32 factor * float32 x)
      | _, _, _ => return (0 : BitVec 32),
    bound "Acc.add" .acc [.value .u32] (.value .u64) (0 : BitVec 64) fun
      | .acc base, _, (x, _) => return base + x.setWidth 64
      | _, _, _ => return (0 : BitVec 64),
    bound "Counter.bump" .counter [.value .i64] (.value .i64) (0 : BitVec 64) fun
      | .counter count, address, (x, _) => do
        modify (World.setInstance address (.counter (count + x)))
        return count + x
      | _, _, _ => return (0 : BitVec 64),
    bound "Holder.put" .holder [.reference] (.value .bool) false fun
      | .holder held, address, (a, _) => do
        modify (World.retain a.value)
        modify (World.setInstance address (.holder a.value.object?))
        modify (World.release (RawObject.toValue held))
        return held.isSome
      | _, _, _ => return false,
    bound "Holder.get" .holder [] .reference none fun
      | .holder held, _, _ => share (RawObject.toValue held)
      | _, _, _ => return none,
    bound "Holder.take" .holder [] .reference none fun
      | .holder held, address, _ => do
        modify (World.setInstance address (.holder none))
        return held
      | _, _, _ => return none,
    bound "String.len" .string [] (.value .u64) (0 : BitVec 64) fun
      | .string s, _, _ => return BitVec.ofNat 64 s.utf8ByteSize
      | _, _, _ => return (0 : BitVec 64),
    bound "Vec.at" .vector [.value .u32] (.value .i32) (0 : BitVec 32) fun
      | .vector elements, _, (i, _) => return elements[i.toNat]?.getD (-1)
      | _, _, _ => return (0 : BitVec 32),
    bound "Unit.ping" .unit [] .void () fun _ _ _ ↦ record "Unit.ping" ]

/-- All native methods that have a name, each with an address of its own. -/
def all : List (Method World) :=
  (arithmetic ++ references ++ onInstances).mapIdx fun i m ↦ { m with entry := codeAddress (i + 1) }

/-- The native method of a name. -/
def find? (name : String) : Option (Method World) := all.find? fun m ↦ m.name == name

end Natives
end Invocation.Session
