import ResourceQuery.Number.Shortest

/-! JSON values and how they are written. There are two layouts, a compact one and an indented
one, which differ in the space between the tokens only. -/

namespace ResourceQuery

/-- A JSON value. The members of an object are written in the order in which they stand. -/
inductive Json where
  | null
  | bool (value : Bool)
  | integer (value : Int)
  | float (value : Number.Binary64)
  | string (text : String)
  | array (values : List Json)
  | object (members : List (String × Json))

namespace Json

/-! ## Numbers -/

/-- The digits without the zeros at their end, and the exponent that makes up for these. -/
def trimZeros (digits : List Char) (exponent : Int) : List Char × Int :=
  let zeros := (digits.reverse.takeWhile (· == '0')).length
  (digits.take (digits.length - zeros), exponent + zeros)

/-- A decimal that is not zero. From `10 ^ -5` up to `10 ^ 16` it is written out, with a point and
at least one digit on either side of it; beyond, with one digit before the point and an exponent
that has a sign. -/
def decimalText (digits : Nat) (exponent : Int) : List Char :=
  let (row, exponent) := trimZeros (Nat.toDigits 10 digits) exponent
  let point := exponent + row.length
  if -5 < point ∧ point ≤ 16 then
    if point ≤ 0 then ['0', '.'] ++ List.replicate (-point).toNat '0' ++ row
    else if exponent < 0 then row.take point.toNat ++ '.' :: row.drop point.toNat
    else row ++ List.replicate exponent.toNat '0' ++ ['.', '0']
  else
    let fraction := if row.length ≤ 1 then [] else '.' :: row.drop 1
    let sign := if point ≤ 0 then '-' else '+'
    row.take 1 ++ fraction ++ ['e', sign] ++ Nat.toDigits 10 (point - 1).natAbs

/-- The shortest text that reads back as the number. What is no finite number has no text in JSON.
-/
def floatText : Number.Binary64 → List Char
  | .finite negative units =>
    let magnitude :=
      if units = 0 then ['0', '.', '0']
      else
        let (digits, exponent) := Number.Shortest.decimal units
        decimalText digits exponent
    if negative then '-' :: magnitude else magnitude
  | _ => "null".toList

/-! ## Strings -/

/-- A control character without a short escape, as four hexadecimal digits. -/
def unicodeEscape (c : Char) : List Char :=
  let digits := Nat.toDigits 16 c.toNat
  ['\\', 'u'] ++ List.replicate (4 - digits.length) '0' ++ digits

/-- One character of a string. Quotes, backslashes and control characters below the space are
escaped, and everything else stands as it is. -/
def stringChar (c : Char) : List Char :=
  if c = '"' then ['\\', '"']
  else if c = '\\' then ['\\', '\\']
  else if c = '\x08' then ['\\', 'b']
  else if c = '\x0c' then ['\\', 'f']
  else if c = '\n' then ['\\', 'n']
  else if c = '\r' then ['\\', 'r']
  else if c = '\t' then ['\\', 't']
  else if c < ' ' then unicodeEscape c
  else [c]

def stringText (text : String) : List Char :=
  '"' :: text.toList.flatMap stringChar ++ ['"']

/-! ## Layouts -/

/-- How much space is put between the tokens. -/
inductive Layout where
  /-- None. -/
  | compact
  /-- Every element and member is on a line of its own, indented by two spaces per level. -/
  | indented
  deriving DecidableEq

/-- The space before an element at the given level. -/
def Layout.lineBreak : Layout → Nat → List Char
  | compact, _ => []
  | indented, level => '\n' :: List.replicate (2 * level) ' '

/-- The space behind a member's colon. -/
def Layout.colonSpace : Layout → List Char
  | compact => []
  | indented => [' ']

mutual

/-- The text of a value that stands at the given level. -/
def chars (layout : Layout) (level : Nat) : Json → List Char
  | null => "null".toList
  | bool true => "true".toList
  | bool false => "false".toList
  | integer value => (toString value).toList
  | float value => floatText value
  | string text => stringText text
  | array [] => ['[', ']']
  | array (value :: values) =>
    '[' :: layout.lineBreak (level + 1) ++ elements layout (level + 1) (value :: values) ++
      layout.lineBreak level ++ [']']
  | object [] => ['\x7b', '\x7d']
  | object (member :: members) =>
    '\x7b' :: layout.lineBreak (level + 1) ++ fields layout (level + 1) (member :: members) ++
      layout.lineBreak level ++ ['\x7d']

/-- The elements of an array, with commas between them. -/
def elements (layout : Layout) (level : Nat) : List Json → List Char
  | [] => []
  | [value] => chars layout level value
  | value :: values =>
    chars layout level value ++ ',' :: layout.lineBreak level ++ elements layout level values

/-- The members of an object, with commas between them. -/
def fields (layout : Layout) (level : Nat) : List (String × Json) → List Char
  | [] => []
  | [(key, value)] => stringText key ++ ':' :: layout.colonSpace ++ chars layout level value
  | (key, value) :: members =>
    stringText key ++ ':' :: layout.colonSpace ++ chars layout level value ++
      ',' :: layout.lineBreak level ++ fields layout level members

end

/-- The text of a value in the given layout. -/
def render (layout : Layout) (value : Json) : String :=
  String.ofList (value.chars layout 0)

end Json

end ResourceQuery
