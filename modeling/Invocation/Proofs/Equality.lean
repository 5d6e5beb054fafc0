import Invocation.Proofs.FloatFormat
import Invocation.Proofs.Ownership.Balance

/-!
# Equality of values

Equality of values is symmetric and transitive, and it is reflexive but for floats that are no
number (`Value.same_laws`). It is the equality of words for truth values and integers, the equality
of IEEE 754 for floats, where the two zeros are equal, and identity for objects.
-/

namespace Invocation

namespace ValueType

/-- A payload is a float that is no number. -/
def IsNaN : (type : ValueType) → type.Payload → Prop
  | .f32, x => FloatFormat.binary32.IsNaN x
  | .f64, x => FloatFormat.binary64.IsNaN x
  | .bool, _ | .i32, _ | .i64, _ | .u32, _ | .u64, _ => False

/-- A payload is a float zero of either sign. -/
def IsFloatZero : (type : ValueType) → type.Payload → Prop
  | .f32, x => FloatFormat.binary32.IsZero x
  | .f64, x => FloatFormat.binary64.IsZero x
  | .bool, _ | .i32, _ | .i64, _ | .u32, _ | .u64, _ => False

/-- Payloads are equal if neither is other than a number, and they are the same data or both are
float zeros. -/
theorem samePayload_iff (type : ValueType) (x y : type.Payload) :
    type.samePayload x y = true ↔
      ¬ type.IsNaN x ∧ ¬ type.IsNaN y ∧ (x = y ∨ type.IsFloatZero x ∧ type.IsFloatZero y) := by
  cases type with
  | f32 => exact FloatFormat.binary32.same_iff x y
  | f64 => exact FloatFormat.binary64.same_iff x y
  | bool | i32 | i64 | u32 | u64 => simp [samePayload, IsNaN, IsFloatZero]

/-- Only floats can be other than a number, or float zeros. -/
theorem not_isNaN_of_isFloat_eq_false {type : ValueType} (h : type.isFloat = false)
    (x : type.Payload) : ¬ type.IsNaN x ∧ ¬ type.IsFloatZero x := by
  cases type <;> simp [isFloat, IsNaN, IsFloatZero] at h ⊢

end ValueType

namespace Heap

variable {α : Type}

/-- Two handles share storage: there is one object that both are handles to. -/
def Share (h : Heap α) (r s : ObjectRef) : Prop := ∃ o ∈ h.objects, o.ref = r ∧ o.ref = s

/-- A clone of a value is the value again, and one more handle if the value is one. -/
def cloneValue (h : Heap α) (v : Value) : Value × Heap α := (v, h.retainValue v)

/-- Handles that share storage are the same. -/
theorem share_iff {h : Heap α} {r s : ObjectRef} (live : (h.find? r).isSome = true) :
    h.Share r s ↔ r = s := by
  constructor
  · rintro ⟨o, -, rfl, rfl⟩
    rfl
  · rintro rfl
    obtain ⟨o, ho⟩ := Option.isSome_iff_exists.mp live
    obtain ⟨hm, href⟩ := of_find?_eq_some ho
    exact ⟨o, hm, href, href⟩

end Heap

namespace Value

/-- A value is a float that is no number. -/
def IsNaN : Value → Prop
  | .inline type x => type.IsNaN x
  | .null | .object _ => False

/-- Values that are equal: both null, payloads of one type that are equal, or the same handle. -/
inductive Same : Value → Value → Prop
  | null : Same .null .null
  | inline {type : ValueType} {x y : type.Payload} (payloads : type.samePayload x y = true) :
    Same (.inline type x) (.inline type y)
  | object (r : ObjectRef) : Same (.object r) (.object r)

/-- Payloads of one type are equal as values exactly if they are equal as payloads. -/
theorem same_inline (type : ValueType) (x y : type.Payload) :
    (Value.inline type x).same (.inline type y) = type.samePayload x y := by
  simp [same]

/-- Equality finds the values that are equal. -/
theorem same_iff (a b : Value) : a.same b = true ↔ Same a b := by
  constructor
  · intro h
    cases a with
    | null =>
      cases b with
      | null => exact .null
      | inline other y => cases h
      | object s => cases h
    | inline type x =>
      cases b with
      | null => cases h
      | object s => cases h
      | inline other y =>
        by_cases ht : type = other
        · subst ht
          rw [same_inline] at h
          exact .inline h
        · simp [same, ht] at h
    | object r =>
      cases b with
      | null => cases h
      | inline other y => cases h
      | object s =>
        obtain rfl : r = s := by simpa [same] using h
        exact .object r
  · rintro (_ | ⟨h⟩ | r)
    · rfl
    · rwa [same_inline]
    · simp [same]

/-- Equal values are equal the other way round. -/
theorem Same.symm {a b : Value} (h : Same a b) : Same b a := by
  cases h with
  | null => exact .null
  | object r => exact .object r
  | inline h =>
    rw [ValueType.samePayload_iff] at h
    obtain ⟨hx, hy, h⟩ := h
    refine .inline ((ValueType.samePayload_iff _ _ _).mpr ⟨hy, hx, ?_⟩)
    exact h.imp Eq.symm And.symm

/-- Values that equal the same value are equal. -/
theorem Same.trans {a b c : Value} (hab : Same a b) (hbc : Same b c) : Same a c := by
  cases hab with
  | null => exact hbc
  | object r => exact hbc
  | inline h =>
    cases hbc with
    | inline h' =>
      rw [ValueType.samePayload_iff] at h h'
      obtain ⟨hx, -, hxy⟩ := h
      obtain ⟨-, hz, hyz⟩ := h'
      refine .inline ((ValueType.samePayload_iff _ _ _).mpr ⟨hx, hz, ?_⟩)
      rcases hxy with rfl | ⟨hx0, hy0⟩
      · exact hyz
      · rcases hyz with rfl | ⟨-, hz0⟩
        · exact .inr ⟨hx0, hy0⟩
        · exact .inr ⟨hx0, hz0⟩

/-- All values equal themselves but floats that are no number. -/
theorem same_self_iff (a : Value) : a.same a = true ↔ ¬ a.IsNaN := by
  cases a with
  | null => simp [same, IsNaN]
  | object r => simp [same, IsNaN]
  | inline type x =>
    rw [same_inline, ValueType.samePayload_iff, IsNaN]
    simp

/-- Equal values have the same tag. -/
theorem Same.tag_eq {a b : Value} (h : Same a b) : a.tag = b.tag := by
  cases h <;> rfl

/-- Payloads of a type without floats are equal exactly if their words are. -/
theorem same_inline_iff_of_isFloat_eq_false {type : ValueType} (h : type.isFloat = false)
    (x y : type.Payload) :
    (Value.inline type x).same (.inline type y) = true ↔ type.encode x = type.encode y := by
  obtain ⟨hx, hx0⟩ := type.not_isNaN_of_isFloat_eq_false h x
  obtain ⟨hy, -⟩ := type.not_isNaN_of_isFloat_eq_false h y
  rw [same_inline, ValueType.samePayload_iff]
  constructor
  · rintro ⟨-, -, heq | ⟨hzero, -⟩⟩
    · rw [heq]
    · exact absurd hzero hx0
  · intro heq
    exact ⟨hx, hy, .inl (ValueType.encode_inj.mp heq)⟩

/-- Objects are equal exactly if they share storage. -/
theorem same_object_iff {α : Type} {h : Heap α} {r s : ObjectRef}
    (live : (h.find? r).isSome = true) :
    (Value.object r).same (.object s) = true ↔ h.Share r s := by
  rw [Heap.share_iff live]
  simp [same]

/-- A clone of an object shares its storage. -/
theorem exists_cloneValue_object {α : Type} {h : Heap α} {r : ObjectRef}
    (live : (h.find? r).isSome = true) :
    ∃ s, (h.cloneValue (.object r)).1 = .object s ∧ (h.cloneValue (.object r)).2.Share r s := by
  refine ⟨r, rfl, (Heap.share_iff ?_).mpr rfl⟩
  show ((h.retain r).find? r).isSome = true
  rw [Heap.retain, Heap.find?_update h r r (f := fun o ↦ { o with handles := o.handles + 1 })
    fun _ ↦ rfl, Option.isSome_map, live]

/-- An object made anew is not equal to an object that was there before, whatever is in them. -/
theorem same_insert {α : Type} {h : Heap α} {r s : ObjectRef} (x : α)
    (new : h.find? r = none) (live : (h.find? s).isSome = true) :
    ¬ (h.insert r x).Share r s ∧ (Value.object r).same (.object s) = false := by
  have made : ((h.insert r x).find? r).isSome = true := by
    rw [Heap.find?_insert, Option.isSome_some]
  have apart : ¬ (h.insert r x).Share r s := by
    rintro ⟨o, -, rfl, rfl⟩
    rw [new] at live
    cases live
  refine ⟨apart, ?_⟩
  rwa [← same_object_iff made, Bool.not_eq_true] at apart

/-- Equality is symmetric and transitive, and reflexive but for floats that are no number. Equal
values have the same tag. Among payloads of one type it is equality of words, except that floats are
unequal if one is no number, and equal if both are zeros: floats are equal as the numbers that they
stand for. Null equals null, and an object equals what shares its storage, such as its clones, and
no other object, whatever is in them. -/
theorem same_laws {α : Type} (h : Heap α) (a b c : Value) :
    (a.same b = true → b.same a = true) ∧
    (a.same b = true → b.same c = true → a.same c = true) ∧
    (a.same a = true ↔ ¬ a.IsNaN) ∧
    (a.same (h.cloneValue a).1 = true ↔ ¬ a.IsNaN) ∧
    (a.same b = true → a.tag = b.tag) ∧
    Value.null.same .null = true ∧
    (∀ (type : ValueType) (x y : type.Payload), type.isFloat = false →
      ((Value.inline type x).same (.inline type y) = true ↔ type.encode x = type.encode y)) ∧
    (∀ (type : ValueType) (x y : type.Payload), type.isFloat = true →
      ((Value.inline type x).same (.inline type y) = true ↔ ¬ type.IsNaN x ∧ ¬ type.IsNaN y ∧
        (type.encode x = type.encode y ∨ type.IsFloatZero x ∧ type.IsFloatZero y))) ∧
    (∀ x y : BitVec 32, (Value.inline .f32 x).same (.inline .f32 y) = true ↔
      ¬ ValueType.f32.IsNaN x ∧ ¬ ValueType.f32.IsNaN y ∧
        FloatFormat.binary32.number x.toNat = FloatFormat.binary32.number y.toNat) ∧
    (∀ x y : BitVec 64, (Value.inline .f64 x).same (.inline .f64 y) = true ↔
      ¬ ValueType.f64.IsNaN x ∧ ¬ ValueType.f64.IsNaN y ∧
        FloatFormat.binary64.number x.toNat = FloatFormat.binary64.number y.toNat) ∧
    (∀ r s, (h.find? r).isSome = true →
      ((Value.object r).same (.object s) = true ↔ h.Share r s)) ∧
    (∀ r, (h.find? r).isSome = true →
      ∃ s, (h.cloneValue (.object r)).1 = .object s ∧ (h.cloneValue (.object r)).2.Share r s) ∧
    ∀ r s x, h.find? r = none → (h.find? s).isSome = true →
      ¬ (h.insert r x).Share r s ∧ (Value.object r).same (.object s) = false := by
  refine ⟨?_, ?_, same_self_iff a, same_self_iff a, ?_, rfl, ?_, ?_, ?_, ?_, ?_, ?_, ?_⟩
  · rw [same_iff, same_iff]
    exact Same.symm
  · rw [same_iff, same_iff, same_iff]
    exact Same.trans
  · rw [same_iff]
    exact Same.tag_eq
  · exact fun _ x y hf ↦ same_inline_iff_of_isFloat_eq_false hf x y
  · intro type x y _
    rw [same_inline, ValueType.samePayload_iff, ValueType.encode_inj]
  · intro x y
    rw [same_inline]
    exact FloatFormat.binary32.same_iff_number_eq rfl (by decide) x y
  · intro x y
    rw [same_inline]
    exact FloatFormat.binary64.same_iff_number_eq rfl (by decide) x y
  · exact fun _ _ live ↦ same_object_iff live
  · exact fun _ live ↦ exists_cloneValue_object live
  · exact fun _ _ x new live ↦ same_insert x new live

/-- The two zeros are equal, and the pattern next to an infinity is not equal to itself. -/
example :
    (Value.inline .f32 (0#32 : BitVec 32)).same (.inline .f32 (0x80000000#32 : BitVec 32)) = true ∧
    (Value.inline .f32 (0x7f800001#32 : BitVec 32)).same
      (.inline .f32 (0x7f800001#32 : BitVec 32)) = false := by
  decide

end Value
end Invocation
