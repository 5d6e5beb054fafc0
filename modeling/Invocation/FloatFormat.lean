/-!
# Floating-point bit patterns

An IEEE 754 binary format and what its bit patterns mean: sign, not-a-number, infinity, and a
finite number as an integer significand times a power of two. Everything is integer arithmetic on
the bits; nothing here computes with floating-point numbers.
-/

namespace Invocation

/-- A binary interchange format, by the widths of its exponent and fraction fields. -/
structure FloatFormat where
  exponentBits : Nat
  fractionBits : Nat
  deriving DecidableEq, Repr

namespace FloatFormat

/-- The 32-bit format. -/
def binary32 : FloatFormat := ⟨8, 23⟩

/-- The 64-bit format. -/
def binary64 : FloatFormat := ⟨11, 52⟩

/-- The fraction field of a bit pattern. -/
def fraction (f : FloatFormat) (bits : Nat) : Nat := bits % Nat.pow 2 f.fractionBits

/-- The biased exponent field of a bit pattern. -/
def exponent (f : FloatFormat) (bits : Nat) : Nat :=
  bits / Nat.pow 2 f.fractionBits % Nat.pow 2 f.exponentBits

/-- Whether the sign bit is set. -/
def isNegative (f : FloatFormat) (bits : Nat) : Bool :=
  bits / Nat.pow 2 (f.fractionBits + f.exponentBits) % 2 == 1

/-- The exponent field of infinities and of patterns that are no number. -/
def specialExponent (f : FloatFormat) : Nat := Nat.pow 2 f.exponentBits - 1

/-- Whether a bit pattern is no number. -/
def isNaN (f : FloatFormat) (bits : Nat) : Bool :=
  f.exponent bits == f.specialExponent && f.fraction bits != 0

/-- Whether a bit pattern is an infinity. -/
def isInfinite (f : FloatFormat) (bits : Nat) : Bool :=
  f.exponent bits == f.specialExponent && f.fraction bits == 0

/-- Whether a bit pattern is a zero of either sign. -/
def isZero (f : FloatFormat) (bits : Nat) : Bool := f.exponent bits == 0 && f.fraction bits == 0

/-- The integer significand of a finite number, with the implicit leading bit of a normal one. -/
def significand (f : FloatFormat) (bits : Nat) : Nat :=
  if f.exponent bits = 0 then f.fraction bits else Nat.pow 2 f.fractionBits + f.fraction bits

/-- The exponent of the power of two that scales `significand`. -/
def scale (f : FloatFormat) (bits : Nat) : Int :=
  (max 1 (f.exponent bits) : Nat) - (Nat.pow 2 (f.exponentBits - 1) - 1 + f.fractionBits : Nat)

/-- Whether the next smaller magnitude is only half as far away as the next larger one. -/
def isBinadeStart (f : FloatFormat) (bits : Nat) : Bool :=
  f.fraction bits == 0 && f.exponent bits > 1

/-- The quiet pattern without sign that stands for every pattern that is no number. -/
def quietNaN (f : FloatFormat) : Nat :=
  f.specialExponent * Nat.pow 2 f.fractionBits + Nat.pow 2 (f.fractionBits - 1)

/-- Equality as IEEE 754 defines it: nothing equals what is no number, and the two zeros are
equal. -/
def same {w : Nat} (f : FloatFormat) (x y : BitVec w) : Bool :=
  !f.isNaN x.toNat && !f.isNaN y.toNat && (x == y || (f.isZero x.toNat && f.isZero y.toNat))

end FloatFormat
end Invocation
