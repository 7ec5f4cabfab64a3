import ResourceQuery.Number.Digits

/-! Whole numbers as a statement spells them: in base sixteen, eight or two behind the prefixes
0x, 0o and 0b, in base eight also behind a bare zero, and in base ten otherwise. A spelled value
counts only if it fits into 64 bits, with or without a sign. -/

namespace ResourceQuery.Number

/-- Splits the digits of an unsigned spelling from what announces their base. -/
def splitBase : List Char → Nat × List Char
  | '0' :: 'x' :: cs | '0' :: 'X' :: cs => (16, cs)
  | '0' :: 'o' :: cs | '0' :: 'O' :: cs => (8, cs)
  | '0' :: 'b' :: cs | '0' :: 'B' :: cs => (2, cs)
  | '0' :: c :: cs => (8, c :: cs)
  | cs => (10, cs)

/-- The value that an unsigned spelling stands for, however large. -/
def magnitude? (cs : List Char) : Option Nat :=
  let (base, digits) := splitBase cs
  if digits.isEmpty then none else digits? base digits

/-- Splits a sign from what it applies to, and says whether it makes it negative. -/
def splitSign : List Char → Bool × List Char
  | '-' :: cs => (true, cs)
  | '+' :: cs => (false, cs)
  | cs => (false, cs)

/-- The value that a spelling with at most one sign stands for, however large. -/
def integer? (cs : List Char) : Option Int :=
  let (negative, unsigned) := splitSign cs
  (magnitude? unsigned).map fun value => if negative then -(value : Int) else value

/-- The whole numbers of 64 bits with a sign: from `-2 ^ 63` up to, and without, `2 ^ 63`. -/
def fitsSigned (value : Int) : Bool :=
  decide (-9223372036854775808 ≤ value) && decide (value < 9223372036854775808)

/-- The whole numbers of 64 bits without a sign: from zero up to, and without, `2 ^ 64`. -/
def fitsUnsigned (value : Int) : Bool :=
  decide (0 ≤ value) && decide (value < 18446744073709551616)

end ResourceQuery.Number
