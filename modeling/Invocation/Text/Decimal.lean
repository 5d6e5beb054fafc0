import Invocation.FloatFormat

/-!
# Shortest decimal text

The fewest decimal digits that read back as a given floating-point number, and their positional
text. The number is an integer significand times a power of two; its neighbours in the format bound
the interval of reals that read back as it, which includes its ends exactly if the significand is
even. For each count of digits the two grid points around the number are tested in exact integer
arithmetic, and the first grid with a point in the interval wins.
-/

namespace Invocation.Text.Decimal

/-- A finite decimal: digits times a power of ten. -/
structure Scaled where
  digits : Nat
  exponent : Int
  deriving DecidableEq, Repr

/-- A nonnegative rational number with a positive denominator, not necessarily in lowest terms. -/
structure Ratio where
  num : Nat
  den : Nat
  deriving Repr

namespace Ratio

/-- An integer times a power of two. -/
def ofBinary (m : Nat) (e : Int) : Ratio :=
  match e with
  | .ofNat n => ⟨m * Nat.pow 2 n, 1⟩
  | .negSucc n => ⟨m, Nat.pow 2 (n + 1)⟩

/-- An integer times a power of ten. -/
def ofDecimal (d : Scaled) : Ratio :=
  match d.exponent with
  | .ofNat n => ⟨d.digits * Nat.pow 10 n, 1⟩
  | .negSucc n => ⟨d.digits, Nat.pow 10 (n + 1)⟩

/-- Strictly smaller. -/
def lt (a b : Ratio) : Bool := a.num * b.den < b.num * a.den

/-- Smaller or equal. -/
def le (a b : Ratio) : Bool := a.num * b.den ≤ b.num * a.den

/-- The whole part of the ratio divided by a power of ten. -/
def floorAt (a : Ratio) (e : Int) : Nat :=
  match e with
  | .ofNat n => a.num / (a.den * Nat.pow 10 n)
  | .negSucc n => a.num * Nat.pow 10 (n + 1) / a.den

/-- The sum of two ratios. -/
def add (a b : Ratio) : Ratio := ⟨a.num * b.den + b.num * a.den, a.den * b.den⟩

end Ratio

/-- The reals that read back as one floating-point number, and the number itself. -/
structure Interval where
  value : Ratio
  low : Ratio
  high : Ratio
  closed : Bool

namespace Interval

/-- The interval of a positive finite bit pattern: half-way to either neighbour. Below a power of
two the neighbour is only half as far. -/
def ofBits (f : FloatFormat) (bits : Nat) : Interval :=
  let m := f.significand bits
  let e := f.scale bits
  let below := if f.isBinadeStart bits then 1 else 2
  { value := .ofBinary m e
    low := .ofBinary (4 * m - below) (e - 2)
    high := .ofBinary (4 * m + 2) (e - 2)
    closed := m % 2 == 0 }

/-- Whether a decimal reads back as the number. -/
def contains (i : Interval) (d : Scaled) : Bool :=
  let r := Ratio.ofDecimal d
  if i.closed then i.low.le r && r.le i.high else i.low.lt r && r.lt i.high

/-- The better of the grid points next to the number at one power of ten: one that reads back,
the nearer of two, and of two equally near ones the larger. -/
def atExponent (i : Interval) (e : Int) : Option Scaled :=
  let below : Scaled := ⟨i.value.floorAt e, e⟩
  let above : Scaled := ⟨i.value.floorAt e + 1, e⟩
  match i.contains below, i.contains above with
  | true, true =>
    let twice := i.value.add i.value
    if ((Ratio.ofDecimal below).add (Ratio.ofDecimal above)).le twice then some above
    else some below
  | true, false => some below
  | false, true => some above
  | false, false => none

/-- The first hit on ever finer grids, from the given power of ten downwards. -/
def search (i : Interval) : Nat → Int → Option Scaled
  | 0, _ => none
  | n + 1, e =>
    match i.atExponent e with
    | some d => some d
    | none => i.search n (e - 1)

end Interval

/-- The number of decimal digits of a natural number; 0 has one. -/
def digitCount (n : Nat) : Nat := (Nat.toDigits 10 n).length

/-- The power of ten of the leading digit of a positive ratio. -/
def leadingExponent (r : Ratio) : Int :=
  let whole := r.num / r.den
  if whole ≠ 0 then digitCount whole - 1
  else
    -- Below one: scale up by enough powers of ten to see the leading digit.
    let shift := digitCount (r.den / r.num) + 1
    (digitCount (r.num * Nat.pow 10 shift / r.den) : Int) - 1 - shift

/-- A decimal without zeros at the end of its digits. -/
def strip : Nat → Scaled → Scaled
  | 0, d => d
  | n + 1, d =>
    if d.digits ≠ 0 && d.digits % 10 == 0 then strip n ⟨d.digits / 10, d.exponent + 1⟩ else d

/-- Seventeen significant digits always read back, in either format. -/
def maxDigits : Nat := 17

/-- The decimal with the fewest digits that reads back as a positive finite bit pattern. -/
def shortest (f : FloatFormat) (bits : Nat) : Scaled :=
  let i := Interval.ofBits f bits
  match i.search (maxDigits + 1) (leadingExponent i.value) with
  | some d => strip maxDigits d
  | none => ⟨0, 0⟩

/-- The positional text of a decimal: digits, zeros and a point, never an exponent. -/
def positional (d : Scaled) : List Char :=
  let digits := Nat.toDigits 10 d.digits
  match d.exponent with
  | .ofNat n => digits ++ List.replicate n '0'
  | .negSucc n =>
    let places := n + 1
    let padded := List.replicate (places + 1 - digits.length) '0' ++ digits
    padded.take (padded.length - places) ++ ['.'] ++ padded.drop (padded.length - places)

/-- The text of a bit pattern: a minus sign also before a zero, no point in a whole number. -/
def ofBits (f : FloatFormat) (bits : Nat) : String :=
  if f.isNaN bits then "NaN"
  else
    let sign := if f.isNegative bits then "-" else ""
    if f.isInfinite bits then sign ++ "inf"
    else if f.isZero bits then sign ++ "0"
    else sign ++ String.ofList (positional (shortest f bits))

end Invocation.Text.Decimal
