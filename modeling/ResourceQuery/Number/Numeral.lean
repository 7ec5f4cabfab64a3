import ResourceQuery.Fault
import ResourceQuery.Number.Binary64

/-! Number literals. A numeral keeps its spelling and carries every form that can hold its value.
Whole numbers are tried first; a text that only a floating-point number can be read from is
accepted if it is written with a dot or an exponent. -/

namespace ResourceQuery

open Number

/-- A number literal: how it is written, and its value as a signed and an unsigned whole number of
64 bits and as a floating-point number, as far as these can hold it. -/
structure Numeral where
  text : String
  int : Option Int
  uint : Option Nat
  float : Option Binary64
  deriving DecidableEq

namespace Numeral

/-- Whether the text is written as a fraction or with an exponent. -/
def isFractional (text : String) : Bool :=
  text.toList.any fun c => c == '.' || c == 'e' || c == 'E'

/-- The signed form of a spelled whole number. -/
def signed? (text : String) : Option Int :=
  (integer? text.toList).filter fitsSigned

/-- The unsigned form of a spelled whole number. No sign may be written, except before a zero. -/
def unsigned? (text : String) : Option Nat :=
  if signed? text = some 0 then some 0
  else (magnitude? text.toList).filter fun value => fitsUnsigned value

/-- The numeral of a floating-point number, with the whole number that it is equal to, if any. -/
def ofFloat (text : String) (value : Binary64) : Numeral where
  text := text
  int := value.toInt?.filter fitsSigned
  uint := (value.toInt?.filter fitsUnsigned).map Int.toNat
  float := some value

/-- Reads a text that spells no whole number in range. A decimal too large for any number is
illegal. -/
def readFloat (text : String) : Except LiteralFault Numeral :=
  match FloatText.read? text.toList with
  | none => .error (.illegalNumber text)
  | some spelled =>
    match spelled, Binary64.ofText spelled with
    | .decimal _, .infinite _ => .error (.illegalNumber text)
    | _, value =>
      if isFractional text then .ok (ofFloat text value) else .error (.integerOverflow text)

/-- Reads a number literal. The floating-point form of a whole number is the nearest to it. -/
def read (text : String) : Except LiteralFault Numeral :=
  let int := signed? text
  let uint := unsigned? text
  match int, uint with
  | some value, _ => .ok ⟨text, int, uint, some (.ofInt value)⟩
  | none, some value => .ok ⟨text, int, uint, some (.ofInt value)⟩
  | none, none => readFloat text

end Numeral

end ResourceQuery
