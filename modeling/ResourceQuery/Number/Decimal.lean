import ResourceQuery.Number.Integer

/-! Decimal fractions with an exponent, as exact values, and the texts that spell them. -/

namespace ResourceQuery.Number

/-- The number `± digits · 10 ^ exponent`. One number has many such forms. -/
structure Decimal where
  negative : Bool
  digits : Nat
  exponent : Int
  deriving DecidableEq

/-- A text that a floating-point number can be read from. -/
inductive FloatText where
  | decimal (value : Decimal)
  | infinity (negative : Bool)
  | notANumber
  deriving DecidableEq

/-- The exponent behind the letter `e`: at least one digit, and maybe a sign before it. -/
def exponent? (cs : List Char) : Option Int :=
  let (negative, digits) := splitSign cs
  if digits.isEmpty then none
  else (digits? 10 digits).map fun value => if negative then -(value : Int) else value

/-- The exponent that what follows the digits spells. No text at all spells the exponent zero. -/
def scale? : List Char → Option Int
  | [] => some 0
  | 'e' :: cs | 'E' :: cs => exponent? cs
  | _ => none

/-- Splits off the digits behind a dot, if there is a dot. -/
def splitPoint : List Char → List Char × List Char
  | '.' :: cs => (cs.takeWhile Char.isDigit, cs.dropWhile Char.isDigit)
  | cs => ([], cs)

/-- Digits with at most one dot among, before or behind them, then an optional exponent. -/
def decimal? (negative : Bool) (cs : List Char) : Option Decimal :=
  let whole := cs.takeWhile Char.isDigit
  let (fraction, rest) := splitPoint (cs.dropWhile Char.isDigit)
  if (whole ++ fraction).isEmpty then none
  else do
    let digits ← digits? 10 (whole ++ fraction)
    let exponent ← scale? rest
    return ⟨negative, digits, exponent - fraction.length⟩

/-- A floating-point text: a decimal, or one of the words for what is no number, in any case, each
behind at most one sign. -/
def FloatText.read? (cs : List Char) : Option FloatText :=
  let (negative, unsigned) := splitSign cs
  let word := String.ofList (unsigned.map Char.toLower)
  if word = "inf" ∨ word = "infinity" then some (.infinity negative)
  else if word = "nan" then some .notANumber
  else (decimal? negative unsigned).map .decimal

end ResourceQuery.Number
