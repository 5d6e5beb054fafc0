import Invocation.Machine.Memory
import Invocation.Proofs.Call.Response
import Mathlib.Algebra.Group.Nat.Defs

/-!
# Reading argument slots

What machine code reads from the slots of a call: the byte at the tag offset is the tag of the
value, and the bytes from the payload offset on, taken at the width of the value's type, are its
payload.
-/

namespace Invocation

/-- Types are told apart by their tags. -/
theorem ValueType.tag_inj {a b : ValueType} : a.tag = b.tag ↔ a = b := by
  cases a <;> cases b <;> decide

/-- The tag of a value is that of a type exactly if the value is of the type. -/
theorem Value.tag_eq_tag_iff (v : Value) (type : ValueType) :
    v.tag = type.tag ↔ v.type? = some type := by
  cases v with
  | null => cases type <;> simp [tag, type?, nullTag, ValueType.tag]
  | object r => cases type <;> simp [tag, type?, objectTag, ValueType.tag]
  | inline other x => simp [tag, type?, ValueType.tag_inj]

namespace ArgSlice

/-- The address of a slot is where code finds it from the base. -/
theorem base_add_ofNat (s : ArgSlice) (index k : Nat) :
    s.base + BitVec.ofNat 64 (index * slotSize + k) = s.slotAddress index + BitVec.ofNat 64 k := by
  rw [slotAddress, BitVec.ofNat_add, BitVec.add_assoc]

/-- The byte of a slot is the one its value defines there, or padding. -/
theorem byteAt?_slotAddress (s : ArgSlice) {index k : Nat} (h : index < s.length)
    (hk : k < slotSize) :
    s.byteAt? (s.slotAddress index + BitVec.ofNat 64 k) =
      some (((s.valueAt index).slotByte k).getD
        (s.padding (s.slotAddress index + BitVec.ofNat 64 k))) := by
  have hd : (index * slotSize + k) / slotSize = index := by
    simp only [slotSize] at hk ⊢
    omega
  have hm : (index * slotSize + k) % slotSize = k := by
    simp only [slotSize] at hk ⊢
    omega
  simp only [byteAt?, s.offset_slotAddress h hk, hd, hm, s.getElem?_values h]

end ArgSlice

namespace Machine

/-- Bytes that are all there are read in order. -/
theorem readBytes_eq_ok {memory : Word → Option (BitVec 8)} {n : Nat} {address : Word}
    (b : Nat → BitVec 8) (h : ∀ i < n, memory (address + BitVec.ofNat 64 i) = some (b i)) :
    readBytes memory n address = .ok ((List.range n).map b) := by
  induction n generalizing address b with
  | zero => rfl
  | succ n ih =>
    have h0 : memory address = some (b 0) := by
      have := h 0 (Nat.succ_pos n)
      rwa [BitVec.add_zero] at this
    have hs : ∀ i < n, memory (address + 1 + BitVec.ofNat 64 i) = some (b (i + 1)) := by
      intro i hi
      rw [← h (i + 1) (Nat.succ_lt_succ hi), Nat.add_comm i, BitVec.ofNat_add, BitVec.add_assoc]
      rfl
    rw [readBytes, h0]
    simp only [ih (fun i ↦ b (i + 1)) hs, List.range_succ_eq_map, List.map_cons, List.map_map]
    rfl

/-- The bytes of a number make up the number again. -/
theorem ofBytes_range (x n : Nat) :
    ofBytes ((List.range n).map fun i ↦ BitVec.ofNat 8 (x / 2 ^ (8 * i))) = x % 2 ^ (8 * n) := by
  induction n generalizing x with
  | zero => simp [ofBytes, Nat.mod_one]
  | succ n ih =>
    have hs (i : Nat) : x / 2 ^ (8 * (i + 1)) = x / 256 / 2 ^ (8 * i) := by
      rw [Nat.div_div_eq_div_mul, Nat.mul_add, Nat.pow_add, Nat.mul_comm]
    rw [List.range_succ_eq_map, List.map_cons, List.map_map, ofBytes]
    have ht : ((fun i ↦ BitVec.ofNat 8 (x / 2 ^ (8 * i))) ∘ Nat.succ) =
        fun i ↦ BitVec.ofNat 8 (x / 256 / 2 ^ (8 * i)) := by
      funext i
      exact congrArg _ (hs i)
    have hp : 2 ^ (8 * (n + 1)) = 256 * 2 ^ (8 * n) := by
      rw [Nat.mul_add, Nat.pow_add, Nat.mul_comm]
    rw [ht, ih, hp, Nat.mod_mul, BitVec.toNat_ofNat, Nat.mul_zero, Nat.pow_zero, Nat.div_one]

/-- A register is read back from the bytes it consists of. -/
theorem readOperand_eq_ok {memory : Word → Option (BitVec 8)} {address : Word} (o : Operand)
    (h : ∀ i < o.type.bytes,
      memory (address + BitVec.ofNat 64 i) = some (o.bits.extractLsb' (8 * i) 8)) :
    readOperand memory o.type address = .ok o := by
  have hb (i : Nat) : o.bits.extractLsb' (8 * i) 8 =
      BitVec.ofNat 8 (o.bits.toNat / 2 ^ (8 * i)) := by
    rw [BitVec.extractLsb', Nat.shiftRight_eq_div_pow]
  rw [readOperand, readBytes_eq_ok (fun i ↦ o.bits.extractLsb' (8 * i) 8) h]
  simp only [hb, ofBytes_range, Nat.mod_eq_of_lt o.bits.isLt, BitVec.ofNat_toNat,
    BitVec.setWidth_eq]

/-- The tag of a slot is that of its value. -/
theorem readOperand_tag (s : ArgSlice) {index : Nat} (h : index < s.length) :
    readOperand s.byteAt? .i8 (s.base + BitVec.ofNat 64 (index * slotSize + tagOffset)) =
      .ok ⟨.i8, (s.valueAt index).tag⟩ := by
  rw [s.base_add_ofNat]
  apply readOperand_eq_ok ⟨.i8, (s.valueAt index).tag⟩
  intro i hi
  obtain rfl : i = 0 := Nat.lt_one_iff.mp hi
  rw [BitVec.add_zero, s.byteAt?_slotAddress h (by decide), Value.slotByte, if_pos rfl]
  exact congrArg some BitVec.extractLsb'_eq_self.symm

/-- The payload of a slot is that of its value, at the width of its type. -/
theorem readOperand_payload (s : ArgSlice) {index : Nat} (h : index < s.length)
    {type : ValueType} {x : type.Payload} (hv : s.valueAt index = .inline type x) :
    readOperand s.byteAt? type.machineType
        (s.base + BitVec.ofNat 64 (index * slotSize + payloadOffset)) =
      .ok (type.toOperand x) := by
  rw [s.base_add_ofNat, ← type.type_toOperand x]
  apply readOperand_eq_ok
  intro i hi
  have hs : payloadOffset + i < slotSize := by
    have hm : (type.toOperand x).type.bytes ≤ 8 := by cases (type.toOperand x).type <;> decide
    simp only [payloadOffset, slotSize]
    omega
  have hn : payloadOffset + i ≠ tagOffset := by simp [payloadOffset, tagOffset]
  have hr : payloadOffset ≤ payloadOffset + i ∧
      payloadOffset + i < payloadOffset + (type.toOperand x).type.bytes := by omega
  rw [BitVec.add_assoc, ← BitVec.ofNat_add, s.byteAt?_slotAddress h hs, hv]
  simp only [Value.slotByte, if_neg hn, Value.payloadOperand, if_pos hr, Option.getD_some,
    Nat.add_sub_cancel_left]

end Machine
end Invocation
