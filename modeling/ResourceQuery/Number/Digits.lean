/-! Digits of a base up to sixteen, and the whole numbers that rows of them spell. -/

namespace ResourceQuery.Number

/-- The value of a hexadecimal digit. Letters count in either case. -/
def hexValue? (c : Char) : Option Nat :=
  if c.isDigit then some (c.toNat - '0'.toNat)
  else if 'a' ≤ c ∧ c ≤ 'f' then some (c.toNat - 'a'.toNat + 10)
  else if 'A' ≤ c ∧ c ≤ 'F' then some (c.toNat - 'A'.toNat + 10)
  else none

/-- The value of a digit of the base. -/
def digit? (base : Nat) (c : Char) : Option Nat :=
  (hexValue? c).filter fun value => decide (value < base)

/-- The value of a row of digits of the base, the most significant first. The empty row is zero; a
character that is no digit spoils the row. -/
def digits? (base : Nat) (cs : List Char) : Option Nat :=
  cs.foldlM (fun value c => (digit? base c).map fun digit => value * base + digit) 0

theorem digit?_lt {base digit : Nat} {c : Char} (found : digit? base c = some digit) :
    digit < base := by
  simpa using (Option.filter_eq_some_iff.mp found).2

end ResourceQuery.Number
