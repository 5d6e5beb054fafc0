import Mathlib.Algebra.Order.Ring.Nat
import Invocation.FloatFormat

/-!
# Equality of floats

What is no number, and what is a zero, is read off the bits of a float (`isNaN_iff`, `isZero_iff`).
Floats are equal if both are numbers and these are the same (`same_iff_number_eq`): but for the sign
of zero, different bit patterns stand for different numbers.
-/

namespace Invocation.FloatFormat

section Bits

/-- A bit pattern is no number: all bits of the exponent are set, and some bit of the fraction. -/
def IsNaN {w : Nat} (f : FloatFormat) (x : BitVec w) : Prop :=
  (∀ k < f.exponentBits, x.getLsbD (k + f.fractionBits) = true) ∧
    ∃ k < f.fractionBits, x.getLsbD k = true

/-- A bit pattern is a zero of either sign: no bit of the exponent or of the fraction is set. -/
def IsZero {w : Nat} (f : FloatFormat) (x : BitVec w) : Prop :=
  (∀ k < f.exponentBits, x.getLsbD (k + f.fractionBits) = false) ∧
    ∀ k < f.fractionBits, x.getLsbD k = false

/-- The bits of the fraction field. -/
theorem testBit_fraction (f : FloatFormat) (bits k : Nat) :
    (f.fraction bits).testBit k = (decide (k < f.fractionBits) && bits.testBit k) :=
  Nat.testBit_mod_two_pow bits f.fractionBits k

/-- The bits of the exponent field. -/
theorem testBit_exponent (f : FloatFormat) (bits k : Nat) :
    (f.exponent bits).testBit k =
      (decide (k < f.exponentBits) && bits.testBit (k + f.fractionBits)) := by
  rw [← Nat.testBit_div_two_pow]
  exact Nat.testBit_mod_two_pow _ f.exponentBits k

/-- The exponent of what is not finite has all its bits set. -/
theorem testBit_specialExponent (f : FloatFormat) (k : Nat) :
    f.specialExponent.testBit k = decide (k < f.exponentBits) :=
  Nat.testBit_two_pow_sub_one f.exponentBits k

/-- A field equals one whose bits are all alike exactly if its own bits are so. -/
private theorem eq_iff_of_testBit {m n width : Nat} {bit : Nat → Bool} {b : Bool}
    (hm : ∀ k, m.testBit k = (decide (k < width) && bit k))
    (hn : ∀ k, n.testBit k = (decide (k < width) && b)) : m = n ↔ ∀ k < width, bit k = b := by
  constructor
  · intro h k hk
    have hbit := hm k
    rw [h, hn k] at hbit
    simpa [hk] using hbit.symm
  · intro h
    apply Nat.eq_of_testBit_eq
    intro k
    rw [hm, hn]
    by_cases hk : k < width
    · rw [h k hk]
    · simp [hk]

/-- The fraction is zero exactly if none of its bits is set. -/
theorem fraction_eq_zero_iff {w : Nat} (f : FloatFormat) (x : BitVec w) :
    f.fraction x.toNat = 0 ↔ ∀ k < f.fractionBits, x.getLsbD k = false :=
  eq_iff_of_testBit (f.testBit_fraction x.toNat) fun k ↦ by simp

/-- The exponent is zero exactly if none of its bits is set. -/
theorem exponent_eq_zero_iff {w : Nat} (f : FloatFormat) (x : BitVec w) :
    f.exponent x.toNat = 0 ↔ ∀ k < f.exponentBits, x.getLsbD (k + f.fractionBits) = false :=
  eq_iff_of_testBit (f.testBit_exponent x.toNat) fun k ↦ by simp

/-- The exponent is that of what is not finite exactly if all its bits are set. -/
theorem exponent_eq_specialExponent_iff {w : Nat} (f : FloatFormat) (x : BitVec w) :
    f.exponent x.toNat = f.specialExponent ↔
      ∀ k < f.exponentBits, x.getLsbD (k + f.fractionBits) = true :=
  eq_iff_of_testBit (f.testBit_exponent x.toNat) fun k ↦ by simp [testBit_specialExponent]

/-- What is no number is told by the bits. -/
theorem isNaN_iff {w : Nat} (f : FloatFormat) (x : BitVec w) :
    f.isNaN x.toNat = true ↔ f.IsNaN x := by
  have hfraction : f.fraction x.toNat ≠ 0 ↔ ∃ k < f.fractionBits, x.getLsbD k = true := by
    simp [fraction_eq_zero_iff]
  rw [isNaN, Bool.and_eq_true, beq_iff_eq, bne_iff_ne, exponent_eq_specialExponent_iff, hfraction]
  rfl

/-- What is a zero is told by the bits. -/
theorem isZero_iff {w : Nat} (f : FloatFormat) (x : BitVec w) :
    f.isZero x.toNat = true ↔ f.IsZero x := by
  rw [isZero, Bool.and_eq_true, beq_iff_eq, beq_iff_eq, exponent_eq_zero_iff, fraction_eq_zero_iff]
  rfl

/-- Floats are equal if both are numbers, and their bits are the same or both are zeros. -/
theorem same_iff {w : Nat} (f : FloatFormat) (x y : BitVec w) :
    f.same x y = true ↔ ¬ f.IsNaN x ∧ ¬ f.IsNaN y ∧ (x = y ∨ f.IsZero x ∧ f.IsZero y) := by
  simp only [← isNaN_iff, ← isZero_iff, same, Bool.and_eq_true, Bool.or_eq_true, Bool.not_eq_true',
    Bool.not_eq_true, beq_iff_eq, and_assoc]

end Bits

section Numbers

/-- The distance of a finite number from zero, in units of the smallest positive number. -/
def units (f : FloatFormat) (bits : Nat) : Nat :=
  f.significand bits * Nat.pow 2 (f.exponent bits - 1)

/-- What a bit pattern stands for if it is a number. -/
inductive Number where
  /-- A multiple of the smallest positive number. -/
  | finite (units : Int)
  | infinite (negative : Bool)
  deriving DecidableEq, Repr

/-- The number that a bit pattern stands for. -/
def number (f : FloatFormat) (bits : Nat) : Number :=
  if f.isInfinite bits then .infinite (f.isNegative bits)
  else .finite (if f.isNegative bits then -(f.units bits : Int) else f.units bits)

variable (f : FloatFormat)

/-- The sign is the bit above exponent and fraction. -/
theorem isNegative_eq {w : Nat} (x : BitVec w) :
    f.isNegative x.toNat = x.getLsbD (f.fractionBits + f.exponentBits) := by
  rw [← BitVec.testBit_toNat, Nat.testBit_eq_decide_div_mod_eq]
  rfl

/-- Bit patterns with the same fields are the same. -/
theorem eq_of_fields {w : Nat} (hw : w = f.fractionBits + f.exponentBits + 1) {x y : BitVec w}
    (sign : f.isNegative x.toNat = f.isNegative y.toNat)
    (exponent : f.exponent x.toNat = f.exponent y.toNat)
    (fraction : f.fraction x.toNat = f.fraction y.toNat) : x = y := by
  apply BitVec.eq_of_getLsbD_eq
  intro k hk
  by_cases hfraction : k < f.fractionBits
  · have hx := f.testBit_fraction x.toNat k
    rw [fraction, testBit_fraction, BitVec.testBit_toNat, BitVec.testBit_toNat] at hx
    simpa [hfraction] using hx.symm
  · obtain ⟨j, rfl⟩ := Nat.exists_eq_add_of_le' (Nat.le_of_not_lt hfraction)
    by_cases hexponent : j < f.exponentBits
    · have hx := f.testBit_exponent x.toNat j
      rw [exponent, testBit_exponent, BitVec.testBit_toNat, BitVec.testBit_toNat] at hx
      simpa [hexponent] using hx.symm
    · have hj : j + f.fractionBits = f.fractionBits + f.exponentBits := by omega
      rwa [hj, ← isNegative_eq, ← isNegative_eq]

/-- A finite number is less than the least one of the next exponent. -/
theorem units_lt (bits : Nat) :
    f.units bits < Nat.pow 2 f.fractionBits * Nat.pow 2 (f.exponent bits) := by
  have hfraction : f.fraction bits < Nat.pow 2 f.fractionBits := Nat.mod_lt _ (Nat.two_pow_pos _)
  by_cases h : f.exponent bits = 0
  · rw [units, significand, if_pos h, h]
    simpa using hfraction
  · have hpow : Nat.pow 2 (f.exponent bits) = 2 * Nat.pow 2 (f.exponent bits - 1) := by
      obtain ⟨e, he⟩ := Nat.exists_eq_succ_of_ne_zero h
      rw [he]
      exact Nat.pow_succ'
    have hpos : 0 < Nat.pow 2 (f.exponent bits - 1) := Nat.two_pow_pos _
    rw [units, significand, if_neg h, hpow, ← Nat.mul_assoc]
    exact Nat.mul_lt_mul_of_pos_right (by omega) hpos

/-- A finite number is no less than the least one of its exponent, which is not zero. -/
theorem le_units {bits : Nat} (h : f.exponent bits ≠ 0) :
    Nat.pow 2 f.fractionBits * Nat.pow 2 (f.exponent bits - 1) ≤ f.units bits := by
  rw [units, significand, if_neg h]
  exact Nat.mul_le_mul_right _ (Nat.le_add_right ..)

/-- Finite numbers with a smaller exponent are less. -/
theorem units_lt_units {bits other : Nat} (h : f.exponent bits < f.exponent other) :
    f.units bits < f.units other := by
  have hpow : Nat.pow 2 (f.exponent bits) ≤ Nat.pow 2 (f.exponent other - 1) :=
    Nat.pow_le_pow_right Nat.two_pos (by omega)
  calc f.units bits
      < Nat.pow 2 f.fractionBits * Nat.pow 2 (f.exponent bits) := f.units_lt bits
    _ ≤ Nat.pow 2 f.fractionBits * Nat.pow 2 (f.exponent other - 1) := Nat.mul_le_mul_left _ hpow
    _ ≤ f.units other := f.le_units (by omega)

/-- Different exponents and fractions are different numbers. -/
theorem fields_eq_of_units_eq {bits other : Nat} (h : f.units bits = f.units other) :
    f.exponent bits = f.exponent other ∧ f.fraction bits = f.fraction other := by
  have hexponent : f.exponent bits = f.exponent other := by
    rcases Nat.lt_trichotomy (f.exponent bits) (f.exponent other) with hlt | heq | hlt
    · exact absurd h (Nat.ne_of_lt (f.units_lt_units hlt))
    · exact heq
    · exact absurd h.symm (Nat.ne_of_lt (f.units_lt_units hlt))
  refine ⟨hexponent, ?_⟩
  have hpos : 0 < Nat.pow 2 (f.exponent other - 1) := Nat.two_pow_pos _
  rw [units, units, hexponent] at h
  have hsignificand := Nat.eq_of_mul_eq_mul_right hpos h
  rw [significand, significand, hexponent] at hsignificand
  split at hsignificand
  · exact hsignificand
  · exact Nat.add_left_cancel hsignificand

/-- The number zero has two bit patterns, and these are zeros. -/
theorem isZero_iff_units_eq_zero {w : Nat} (x : BitVec w) :
    f.IsZero x ↔ f.units x.toNat = 0 := by
  rw [← isZero_iff, isZero, Bool.and_eq_true, beq_iff_eq, beq_iff_eq]
  constructor
  · rintro ⟨hexponent, hfraction⟩
    rw [units, significand, if_pos hexponent, hfraction, Nat.zero_mul]
  · intro h
    have hexponent : f.exponent x.toNat = 0 := by
      by_contra hne
      have hpos : 0 < Nat.pow 2 f.fractionBits * Nat.pow 2 (f.exponent x.toNat - 1) :=
        Nat.mul_pos (Nat.two_pow_pos _) (Nat.two_pow_pos _)
      have hle := f.le_units hne
      omega
    rw [units, significand, if_pos hexponent, hexponent] at h
    exact ⟨hexponent, by simpa using h⟩

/-- A zero stands for the number zero, whatever its sign. -/
theorem number_of_isZero {w : Nat} (he : 0 < f.exponentBits) {x : BitVec w} (h : f.IsZero x) :
    f.number x.toNat = .finite 0 := by
  have hexponent : f.exponent x.toNat = 0 := (f.exponent_eq_zero_iff x).mpr h.1
  have hspecial : f.specialExponent ≠ 0 := by
    have hpow : 1 < Nat.pow 2 f.exponentBits := Nat.one_lt_two_pow (by omega)
    rw [specialExponent]
    omega
  have hfinite : f.isInfinite x.toNat = false := by simp [isInfinite, hexponent, hspecial.symm]
  rw [number, hfinite, (f.isZero_iff_units_eq_zero x).mp h]
  simp

/-- Bit patterns that stand for the same number are the same, but for the sign of zero. -/
theorem number_eq_iff {w : Nat} (hw : w = f.fractionBits + f.exponentBits + 1)
    (he : 0 < f.exponentBits) (x y : BitVec w) :
    f.number x.toNat = f.number y.toNat ↔ x = y ∨ f.IsZero x ∧ f.IsZero y := by
  constructor
  · intro h
    unfold number at h
    by_cases hx : f.isInfinite x.toNat <;> by_cases hy : f.isInfinite y.toNat
    · rw [if_pos hx, if_pos hy, Number.infinite.injEq] at h
      simp only [isInfinite, Bool.and_eq_true, beq_iff_eq] at hx hy
      exact .inl (f.eq_of_fields hw h (hx.1.trans hy.1.symm) (hx.2.trans hy.2.symm))
    · rw [if_pos hx, if_neg hy] at h
      cases h
    · rw [if_neg hx, if_pos hy] at h
      cases h
    · rw [if_neg hx, if_neg hy, Number.finite.injEq] at h
      -- Numbers of different signs are the same only if both are zero.
      by_cases hsign : f.isNegative x.toNat = f.isNegative y.toNat
      · have hunits : f.units x.toNat = f.units y.toNat := by
          rw [hsign] at h
          split at h <;> omega
        obtain ⟨hexponent, hfraction⟩ := f.fields_eq_of_units_eq hunits
        exact .inl (f.eq_of_fields hw hsign hexponent hfraction)
      · have hunits : f.units x.toNat = 0 ∧ f.units y.toNat = 0 := by
          split at h
          · next hnx =>
            split at h
            · next hny => exact absurd (hnx.trans hny.symm) hsign
            · omega
          · next hnx =>
            split at h
            · omega
            · next hny => exact absurd (by rw [Bool.eq_false_of_not_eq_true hnx,
                Bool.eq_false_of_not_eq_true hny]) hsign
        exact .inr ⟨(f.isZero_iff_units_eq_zero x).mpr hunits.1,
          (f.isZero_iff_units_eq_zero y).mpr hunits.2⟩
  · rintro (rfl | ⟨hx, hy⟩)
    · rfl
    · rw [f.number_of_isZero he hx, f.number_of_isZero he hy]

/-- Floats are equal if both are numbers, and the same number. -/
theorem same_iff_number_eq {w : Nat} (hw : w = f.fractionBits + f.exponentBits + 1)
    (he : 0 < f.exponentBits) (x y : BitVec w) :
    f.same x y = true ↔
      ¬ f.IsNaN x ∧ ¬ f.IsNaN y ∧ f.number x.toNat = f.number y.toNat := by
  rw [same_iff, number_eq_iff f hw he]

end Numbers

end Invocation.FloatFormat
