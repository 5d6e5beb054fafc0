import Invocation.Machine.Operand
import Invocation.Thunk

/-!
# Argument memory

How argument slots look in memory: sixteen bytes each, the tag of the value in the first byte, and
the payload from the eighth byte on, least significant byte first. A truth value is one byte, an
object is the address of its storage, and null has no payload. All other bytes of a slot are
padding.
-/

namespace Invocation

open Machine (MachineType Operand)

/-- The offset of the tag in a slot. -/
def tagOffset : Nat := 0

/-- The offset of the payload in a slot. -/
def payloadOffset : Nat := 8

namespace Value

/-- The payload of a value as it stands in memory, if it has one. -/
def payloadOperand : Value → Option Operand
  | .null => none
  | .inline type x => some (type.toOperand x)
  | .object r => some ⟨.i64, r.address⟩

/-- The byte of a slot at an offset, if the value in the slot defines it. -/
def slotByte (v : Value) (offset : Nat) : Option (BitVec 8) :=
  if offset = tagOffset then some v.tag
  else
    match v.payloadOperand with
    | none => none
    | some o =>
      if payloadOffset ≤ offset ∧ offset < payloadOffset + o.type.bytes then
        some (o.bits.extractLsb' (8 * (offset - payloadOffset)) 8)
      else none

end Value

namespace ArgSlice

/-- The byte at an address, if it is in one of the slots. -/
def byteAt? (s : ArgSlice) (address : Word) : Option (BitVec 8) :=
  let offset := (address - s.base).toNat
  match s.values[offset / slotSize]? with
  | none => none
  | some v => some ((v.slotByte (offset % slotSize)).getD (s.padding address))

end ArgSlice

namespace Machine

/-- Bytes as one number, the least significant first. -/
def ofBytes : List (BitVec 8) → Nat
  | [] => 0
  | b :: bs => b.toNat + 256 * ofBytes bs

/-- The bytes from an address on, if all of them are there. -/
def readBytes (memory : Word → Option (BitVec 8)) : Nat → Word → Except Fault (List (BitVec 8))
  | 0, _ => .ok []
  | n + 1, address =>
    match memory address with
    | none => .error (.unmapped address)
    | some b =>
      match readBytes memory n (address + 1) with
      | .error fault => .error fault
      | .ok bs => .ok (b :: bs)

/-- The register of a type that memory holds at an address. -/
def readOperand (memory : Word → Option (BitVec 8)) (type : MachineType) (address : Word) :
    Except Fault Operand :=
  match readBytes memory type.bytes address with
  | .error fault => .error fault
  | .ok bs => .ok ⟨type, BitVec.ofNat _ (ofBytes bs)⟩

end Machine
end Invocation
