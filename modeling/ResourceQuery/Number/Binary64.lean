import ResourceQuery.Number.Decimal
import ResourceQuery.Number.Power

/-! Floating-point numbers of 64 bits, as exact values. Every finite one is a whole multiple of
the smallest positive one, so it is kept as its sign and that multiple; no machine arithmetic is
involved. Rounding goes to the nearest such number and from the middle to the one with the even
last bit. -/

namespace ResourceQuery.Number

/-- A quotient rounded to the nearest whole number, from the middle to the even one. -/
def roundHalfEven (numerator denominator : Nat) : Nat :=
  let whole := numerator / denominator
  let twice := 2 * (numerator % denominator)
  if twice < denominator then whole
  else if denominator < twice then whole + 1
  else whole + whole % 2

/-- A floating-point number. Zero has a sign. -/
inductive Binary64 where
  /-- The value is `± units · 2 ^ -1074`. -/
  | finite (negative : Bool) (units : Nat)
  | infinite (negative : Bool)
  | notANumber
  deriving DecidableEq

namespace Binary64

/-- The number one in units of the smallest positive number. -/
def unitsPerOne : Nat := twoTo 1074

/-- The first power of two that is too large, in units of the smallest positive number. -/
def unitsLimit : Nat := twoTo 2098

/-- How far neighbours are apart where the value is so many units. A number has 53 bits, so below
`2 ^ 53` units every multiple is a number. -/
def gap (units : Nat) : Nat := twoTo (units.log2 - 52)

/-- The nearest number to a quotient. -/
def ofQuotient (negative : Bool) (numerator denominator : Nat) : Binary64 :=
  let scaled := numerator * unitsPerOne
  let step := gap (scaled / denominator)
  let units := roundHalfEven scaled (denominator * step) * step
  if units < unitsLimit then finite negative units else infinite negative

/-- The nearest number to a whole number. -/
def ofInt (value : Int) : Binary64 :=
  ofQuotient (decide (value < 0)) value.natAbs 1

/-- The nearest number to a decimal. Exponents far beyond the range are settled without computing
the power: from `10 ^ 400` on everything is infinite, and below `10 ^ -400` everything is zero. -/
def ofDecimal (value : Decimal) : Binary64 :=
  if value.digits = 0 then finite value.negative 0
  else if 400 ≤ value.exponent then infinite value.negative
  else if value.exponent + (value.digits.log2 / 3 + 1 : Nat) < -400 then finite value.negative 0
  else match value.exponent with
    | .ofNat power => ofQuotient value.negative (value.digits * tenTo power) 1
    | .negSucc power => ofQuotient value.negative value.digits (tenTo (power + 1))

theorem ofQuotient_number (negative : Bool) (numerator denominator : Nat) :
    ofQuotient negative numerator denominator ≠ notANumber := by
  unfold ofQuotient
  dsimp only
  split <;> simp

/-- A decimal is always rounded to a number. -/
theorem ofDecimal_number (value : Decimal) : ofDecimal value ≠ notANumber := by
  unfold ofDecimal
  split
  · simp
  split
  · simp
  split
  · simp
  split <;> exact ofQuotient_number _ _ _

/-- The number that a floating-point text stands for. -/
def ofText : FloatText → Binary64
  | .decimal value => ofDecimal value
  | .infinity negative => infinite negative
  | .notANumber => notANumber

/-- The whole number that a number is equal to. -/
def toInt? : Binary64 → Option Int
  | finite negative units =>
    if units % unitsPerOne = 0 then
      let value : Int := (units / unitsPerOne : Nat)
      some (if negative then -value else value)
    else none
  | _ => none

/-- Equality of numbers: zeros of either sign are equal, and what is no number equals nothing. -/
def same : Binary64 → Binary64 → Bool
  | finite n u, finite m v => u == v && (n == m || u == 0)
  | infinite n, infinite m => n == m
  | _, _ => false

/-- The sign, the exponent and the fraction, packed into 64 bits. -/
def toBits : Binary64 → Nat
  | finite negative units =>
    let exponent := units.log2 - 52
    let magnitude :=
      if units < twoTo 52 then units
      else (exponent + 1) * twoTo 52 + (units / twoTo exponent - twoTo 52)
    (if negative then twoTo 63 else 0) + magnitude
  | infinite negative => (if negative then twoTo 63 else 0) + 0x7FF * twoTo 52
  | notANumber => 0x7FF * twoTo 52 + twoTo 51

end Binary64

end ResourceQuery.Number
