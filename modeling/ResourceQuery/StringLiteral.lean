import ResourceQuery.Fault
import ResourceQuery.Number.Digits

/-! String literals. Between its quotes a literal is a sequence of items: plain characters and
escapes. Each item stands for some bytes, and all of them together have to be a text in UTF-8. -/

namespace ResourceQuery

/-- A string literal: how it is written, quotes included, and the text that it stands for. -/
structure StringLiteral where
  quoted : String
  text : String
  deriving DecidableEq

namespace StringLiteral

/-- The byte of an escape that is a backslash and one character. -/
def shortEscape? : Char → Option UInt8
  | 'a' => some 0x07
  | 'b' => some 0x08
  | 'f' => some 0x0C
  | 'n' => some 0x0A
  | 'r' => some 0x0D
  | 't' => some 0x09
  | 'v' => some 0x0B
  | '\\' => some 0x5C
  | '"' => some 0x22
  | _ => none

/-- The value of exactly so many digits of the base, and the characters behind them. -/
def fixedDigits? (base count : Nat) (cs : List Char) : Option (Nat × List Char) :=
  if cs.length < count then none
  else (Number.digits? base (cs.take count)).map fun value => (value, cs.drop count)

/-- The character of a number, unless it is a surrogate or beyond the last character. -/
def scalar? (value : Nat) : Option Char :=
  if value.isValidChar then some (Char.ofNat value) else none

/-- The bytes of the escape behind a backslash, and the characters behind it. -/
def escape? : List Char → Option (List UInt8 × List Char)
  | [] => none
  | c :: cs =>
    match shortEscape? c with
    | some byte => some ([byte], cs)
    | none =>
      if c = 'x' then
        (fixedDigits? 16 2 cs).map fun (value, rest) => ([value.toUInt8], rest)
      else if c = 'u' ∨ c = 'U' then do
        let (value, rest) ← fixedDigits? 16 (if c = 'u' then 4 else 8) cs
        let char ← scalar? value
        return (String.utf8EncodeChar char, rest)
      else do
        let (value, rest) ← fixedDigits? 8 3 (c :: cs)
        if value ≤ 255 then return ([value.toUInt8], rest) else none

/-- The bytes of the first item, and the characters behind it. A quote and a newline are no items.
-/
def item? : List Char → Option (List UInt8 × List Char)
  | [] => none
  | c :: cs =>
    if c = '"' ∨ c = '\n' then none
    else if c = '\\' then escape? cs
    else some (String.utf8EncodeChar c, cs)

theorem fixedDigits?_length {base count value : Nat} {cs rest : List Char}
    (found : fixedDigits? base count cs = some (value, rest)) :
    rest.length + count = cs.length := by
  unfold fixedDigits? at found
  split at found
  · contradiction
  · obtain ⟨_, _, eq⟩ := Option.map_eq_some_iff.mp found
    obtain ⟨_, rfl⟩ := Prod.mk.inj eq
    simp only [List.length_drop]
    omega

theorem escape?_length {bytes : List UInt8} {cs rest : List Char}
    (found : escape? cs = some (bytes, rest)) : rest.length < cs.length := by
  cases cs with
  | nil => contradiction
  | cons c cs =>
    simp only [escape?] at found
    split at found
    · simp_all
    · split at found
      · obtain ⟨⟨value, behind⟩, digits, eq⟩ := Option.map_eq_some_iff.mp found
        have := fixedDigits?_length digits
        simp_all only [Prod.mk.injEq, List.length_cons]
        omega
      · split at found
        · simp only [Option.bind_eq_bind, Option.bind_eq_some_iff, Option.pure_def,
            Option.some.injEq, Prod.mk.injEq, Prod.exists] at found
          obtain ⟨_, behind, digits, _, _, _, rfl⟩ := found
          have := fixedDigits?_length digits
          simp only [List.length_cons]
          omega
        · simp only [Option.bind_eq_bind, Option.bind_eq_some_iff, Prod.exists] at found
          obtain ⟨_, behind, digits, last⟩ := found
          have := fixedDigits?_length digits
          split at last
          · simp_all only [Option.pure_def, Option.some.injEq, Prod.mk.injEq, List.length_cons]
            omega
          · contradiction

/-- An item takes at least one character. -/
theorem item?_length {bytes : List UInt8} {cs rest : List Char}
    (found : item? cs = some (bytes, rest)) : rest.length < cs.length := by
  cases cs with
  | nil => contradiction
  | cons c cs =>
    simp only [item?] at found
    split at found
    · contradiction
    · split at found
      · exact Nat.lt_succ_of_lt (escape?_length found)
      · simp_all

/-- The bytes of a sequence of items. -/
def bytes? (cs : List Char) : Option (List UInt8) :=
  if cs.isEmpty then some []
  else match _found : item? cs with
    | none => none
    | some (bytes, rest) => (bytes? rest).map (bytes ++ ·)
termination_by cs.length
decreasing_by exact item?_length _found

theorem bytes?_nil : bytes? [] = some [] := by
  rw [bytes?]
  rfl

/-- The bytes of a sequence are those of its first item, then those of the items behind it. -/
theorem bytes?_of_item {cs rest : List Char} {bytes : List UInt8}
    (found : item? cs = some (bytes, rest)) : bytes? cs = (bytes? rest).map (bytes ++ ·) := by
  cases cs with
  | nil => contradiction
  | cons c cs =>
    rw [bytes?]
    split
    · contradiction
    · split <;> simp_all

/-- The characters between an opening and a closing quote. -/
def inner? : List Char → Option (List Char)
  | '"' :: cs => if cs.getLast? = some '"' then some cs.dropLast else none
  | _ => none

/-- The text that a quoted spelling stands for. -/
def text? (quoted : String) : Option String := do
  let bytes ← bytes? (← inner? quoted.toList)
  String.fromUTF8? bytes.toByteArray

/-- Reads a string literal. Any departure from the rules makes the whole spelling invalid. -/
def read (quoted : String) : Except LiteralFault StringLiteral :=
  match text? quoted with
  | some text => .ok ⟨quoted, text⟩
  | none => .error (.invalidString quoted)

end StringLiteral

end ResourceQuery
