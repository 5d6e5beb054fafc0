import Mathlib.Data.Set.Function
import Invocation.Proofs.Machine.NativeCall

/-!
# The word codec

Payloads of a type and the canonical words of the type are the same thing (`bijOn_encode`): every
word is decoded, and encoding what it was decoded to leaves exactly the canonical words as they are
(`encode_decode_eq_iff`). Values are unboxed and boxed through that codec, and generated code widens
the result of native code to the word that unboxing gives (`codec_bijective`).
-/

namespace Invocation.ValueType

/-- The words that are a sign-extended half are those whose high bits all are its sign. -/
private theorem signExtend_setWidth_eq_iff (w : Word) :
    (w.setWidth 32).signExtend 64 = w ↔
      ∀ k : Nat, 32 ≤ k → k < 64 → w.getLsbD k = w.getLsbD 31 := by
  have bits (k : Nat) (hk : k < 64) : ((w.setWidth 32).signExtend 64).getLsbD k =
      if k < 32 then w.getLsbD k else w.getLsbD 31 := by
    rw [BitVec.getLsbD_signExtend, BitVec.msb_setWidth]
    by_cases hlow : k < 32 <;> simp [hk, hlow]
  constructor
  · intro h k hlow hk
    have hb := bits k hk
    rw [h, if_neg (by omega)] at hb
    exact hb
  · intro h
    apply BitVec.eq_of_getLsbD_eq
    intro k hk
    rw [bits k hk]
    split
    · rfl
    · next hlow => exact (h k (by omega) hk).symm

/-- The words that are a zero-extended half are those without high bits. -/
private theorem setWidth_setWidth_eq_iff (w : Word) :
    (w.setWidth 32).setWidth 64 = w ↔ ∀ k : Nat, 32 ≤ k → k < 64 → w.getLsbD k = false := by
  constructor
  · intro h k hlow hk
    rw [← h, BitVec.getLsbD_setWidth, BitVec.getLsbD_setWidth]
    simp [show ¬ k < 32 by omega]
  · intro h
    apply BitVec.eq_of_getLsbD_eq
    intro k hk
    rw [BitVec.getLsbD_setWidth, BitVec.getLsbD_setWidth]
    by_cases hlow : k < 32
    · simp [hlow, hk]
    · simp [hlow, h k (by omega) hk]

/-- Decoding and encoding again leaves a word as it is exactly if the word is canonical. -/
theorem encode_decode_eq_iff (type : ValueType) (w : Word) :
    type.encode (type.decode w) = w ↔ type.Canonical w := by
  cases type with
  | bool =>
    show (if w != 0 then 1 else 0) = w ↔ w = 0 ∨ w = 1
    by_cases h : w = 0
    · simp [h]
    · rw [if_pos (bne_iff_ne.mpr h)]
      exact ⟨fun hw ↦ .inr hw.symm, fun hw ↦ (hw.resolve_left h).symm⟩
  | i32 => exact signExtend_setWidth_eq_iff w
  | u32 | f32 => exact setWidth_setWidth_eq_iff w
  | i64 | u64 | f64 => exact iff_of_true rfl trivial

/-- The word of a payload is canonical. -/
theorem canonical_encode (type : ValueType) (x : type.Payload) :
    type.Canonical (type.encode x) := by
  rw [← encode_decode_eq_iff, decode_encode]

/-- Encoding is a bijection between the payloads of a type and its canonical words. -/
theorem bijOn_encode (type : ValueType) :
    Set.BijOn type.encode Set.univ {w | type.Canonical w} := by
  refine ⟨fun x _ ↦ type.canonical_encode x, fun x _ y _ ↦ encode_inj.mp, fun w hw ↦ ?_⟩
  exact ⟨type.decode w, trivial, (type.encode_decode_eq_iff w).mpr hw⟩

/-- A value is unboxed exactly if it is of the type. -/
theorem isSome_unbox_iff (type : ValueType) (v : Value) :
    (v.unbox type).isSome = true ↔ v.type? = some type := by
  have h := Value.payload?_eq_none_iff type v
  rw [Value.unbox, Option.isSome_map]
  cases hv : v.payload? type with
  | none => simpa [hv] using h
  | some x => simpa [hv] using h

/-- An inline value is unboxed to the word of its payload. -/
theorem unbox_inline (type : ValueType) (x : type.Payload) :
    (Value.inline type x).unbox type = some (type.encode x) := by
  rw [Value.unbox, Value.payload?_inline, Option.map_some]

/-- Boxing the word that a value was unboxed to gives the value back. -/
theorem box_of_unbox_eq_some {type : ValueType} {v : Value} {w : Word}
    (h : v.unbox type = some w) : Value.box type w = v := by
  obtain ⟨x, hx, rfl⟩ := Option.map_eq_some_iff.mp h
  rw [Value.box_encode, (Value.payload?_eq_some_iff type v x).mp hx]

/-- The codec is a bijection between payloads and canonical words, for values on their way through
boxes, and generated code widens a native result to the very word that its value is unboxed to. -/
theorem codec_bijective {σ : Type} (type : ValueType) :
    (∀ v : Value, ((v.unbox type).isSome = true ↔ v.type? = some type) ∧
      ∀ w, v.unbox type = some w → Value.box type w = v) ∧
    Set.BijOn type.encode Set.univ {w | type.Canonical w} ∧
    (∀ w : Word, (Value.box type w).type? = some type ∧
      ∃ c, (Value.box type w).unbox type = some c ∧ (Value.box type c).unbox type = some c ∧
        (c = w ↔ type.Canonical w)) ∧
    ∀ (env : Machine.Environment σ) (f : Machine.Frame Machine.ThunkReg) (x : type.Payload),
      ∃ g w, (Value.inline type x).unbox type = some w ∧
        Machine.runBody env (Machine.ThunkCode.widen type).1 (f.set .result (type.toOperand x)) =
          pure g ∧
        g.registers (Machine.ThunkCode.widen type).2 = some ⟨.i64, w⟩ := by
  refine ⟨fun v ↦ ⟨type.isSome_unbox_iff v, fun w ↦ box_of_unbox_eq_some⟩, type.bijOn_encode,
    fun w ↦ ⟨rfl, type.encode (type.decode w), type.unbox_inline _, ?_,
      type.encode_decode_eq_iff w⟩, fun env f x ↦ ?_⟩
  · rw [Value.box_encode, unbox_inline]
  · have hresult := f.registers_set_self .result (type.toOperand x)
    obtain ⟨g, hrun, hword, -⟩ := Machine.ThunkCode.runBody_widen hresult
    exact ⟨g, type.encode x, type.unbox_inline x, hrun, hword⟩

/-- A negative integer fills its high bits, an unsigned one of the same bits does not, and a truth
value of 2 is not canonical. -/
example : i32.encode (BitVec.ofNat 32 0x80000000) = 0xffffffff80000000 ∧
    u32.encode (BitVec.ofNat 32 0x80000000) = 0x80000000 ∧ bool.encode (bool.decode 2) = 1 := by
  decide

end Invocation.ValueType
