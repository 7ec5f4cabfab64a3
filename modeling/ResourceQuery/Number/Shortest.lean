import ResourceQuery.Number.Binary64

/-! The shortest decimal that reads back as a given floating-point number. On the grid of decimals
with one digit, then two, and so on, the two neighbours of the number are read back; the first
grid on which one of them returns the number has the answer, and of two such neighbours the nearer
is it. -/

namespace ResourceQuery.Number

namespace Shortest

/-- The exponent of the leading digit of so many units, which are not zero. The smallest unit is
larger than `10 ^ -324`, so the scaled value has a whole part. -/
def leadingExponent (units : Nat) : Int :=
  (Nat.toDigits 10 (units * tenTo 324 / Binary64.unitsPerOne)).length - 325

/-- The value of so many units in steps of a power of ten, as a quotient. -/
def inSteps (units : Nat) : Int → Nat × Nat
  | .ofNat power => (units, Binary64.unitsPerOne * tenTo power)
  | .negSucc power => (units * tenTo (power + 1), Binary64.unitsPerOne)

/-- Whether the decimal reads back as so many units. -/
def readsBack (units digits : Nat) (exponent : Int) : Bool :=
  Binary64.ofDecimal ⟨false, digits, exponent⟩ == .finite false units

/-- The decimal with the given exponent that reads back as so many units and is nearest to them.
-/
def onGrid? (units : Nat) (exponent : Int) : Option Nat :=
  let (numerator, denominator) := inSteps units exponent
  let below := numerator / denominator
  let nearest := roundHalfEven numerator denominator
  let other := if nearest = below then below + 1 else below
  if readsBack units nearest exponent then some nearest
  else if readsBack units other exponent then some other
  else none

/-- The digits and the exponent of the shortest decimal for so many units. Seventeen digits are
always enough; the exact expansion closes the case that they are not. -/
def decimal (units : Nat) : Nat × Int :=
  let leading := leadingExponent units
  let grids := (List.range 17).map fun (more : Nat) => leading - more
  let found := grids.findSome? fun exponent =>
    (onGrid? units exponent).map fun digits => (digits, exponent)
  found.getD (units * (tenTo 1074 / Binary64.unitsPerOne), -1074)

end Shortest

end ResourceQuery.Number
