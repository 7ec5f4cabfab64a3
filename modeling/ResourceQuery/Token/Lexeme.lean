import ResourceQuery.Token
import ResourceQuery.Unicode.DecimalDigit
import ResourceQuery.Unicode.Letter

/-! Lexemes: where one token ends and what it is. Reading a lexeme splits the characters ahead
into those that belong to it and those behind it, and looks at most one character past its end. No
character is lost (`taken_append_rest`), and every lexeme but a final one takes at least one
character (`length_rest_lt`), so reading lexeme after lexeme comes to an end. -/

namespace ResourceQuery

/-! ## Classes of characters -/

/-- The characters that may stand between any two tokens. A carriage return is not one of them. -/
def isBlank (c : Char) : Bool :=
  c == ' ' || c == '\t' || c == '\n'

/-- The characters of names: letters and decimal digits of every script, underscores and dots. -/
def isNameChar (c : Char) : Bool :=
  c == '_' || c == '.' || Unicode.isLetter c || Unicode.isDecimalDigit c

/-- The characters that may follow a word. -/
def endsWord (c : Char) : Bool :=
  isBlank c || c == ',' || c == '(' || c == ')'

/-- The characters that a number starts with: a digit, a sign or a dot. -/
def startsNumber (c : Char) : Bool :=
  c.isDigit || c == '.' || c == '+' || c == '-'

/-! ## One lexeme -/

/-- What a lexeme is, its characters, and the characters behind it. -/
structure Lexeme where
  kind : TokenKind
  taken : List Char
  rest : List Char
  deriving DecidableEq

namespace Lexeme

/-- The lexeme with some characters put before its own. -/
def prepend (cs : List Char) (lexeme : Lexeme) : Lexeme :=
  { lexeme with taken := cs ++ lexeme.taken }

/-- Blanks go together as far as they reach. -/
def readBlank (cs : List Char) : Lexeme :=
  ⟨.blank, cs.takeWhile isBlank, cs.dropWhile isBlank⟩

/-- A word reaches as far as name characters do. What follows has to end it. -/
def readWord (cs : List Char) : Lexeme :=
  let word := cs.takeWhile isNameChar
  let rest := cs.dropWhile isNameChar
  match rest with
  | [] => ⟨.ofWord (String.ofList word), word, rest⟩
  | c :: _ =>
    if endsWord c then ⟨.ofWord (String.ofList word), word, rest⟩
    else ⟨.fault (.misplaced c), word, rest⟩

/-- Splits off a sign, if there is one. -/
def splitSign : List Char → List Char × List Char
  | '+' :: cs => (['+'], cs)
  | '-' :: cs => (['-'], cs)
  | cs => ([], cs)

/-- Splits off a dot and the digits behind it, if there is a dot. -/
def splitFraction : List Char → List Char × List Char
  | '.' :: cs => ('.' :: cs.takeWhile Char.isDigit, cs.dropWhile Char.isDigit)
  | cs => ([], cs)

/-- The longest beginning that consists of a sign, digits, a dot and digits again, each of which
may be missing, and what is behind it. -/
def splitNumber (cs : List Char) : List Char × List Char :=
  let (sign, unsigned) := splitSign cs
  let whole := unsigned.takeWhile Char.isDigit
  let (fraction, rest) := splitFraction (unsigned.dropWhile Char.isDigit)
  (sign ++ whole ++ fraction, rest)

/-- A number must not run into a name. If it does, the first character of the name counts as part
of the fault. -/
def readNumber (cs : List Char) : Lexeme :=
  match splitNumber cs with
  | (number, []) => ⟨.number, number, []⟩
  | (number, c :: rest) =>
    if isNameChar c then
      ⟨.fault (.malformedNumber (String.ofList (number ++ [c]))), number ++ [c], rest⟩
    else ⟨.number, number, c :: rest⟩

/-- The rest of a string behind its opening quote. A backslash takes the next character with it,
so a quote behind a backslash does not close the string. No newline may come before the closing
quote, not even behind a backslash. -/
def readString : List Char → Lexeme
  | [] => ⟨.fault .unterminatedString, [], []⟩
  | '"' :: cs => ⟨.string, ['"'], cs⟩
  | '\n' :: cs => ⟨.fault .unterminatedString, ['\n'], cs⟩
  | ['\\'] => ⟨.fault .unterminatedString, ['\\'], []⟩
  | '\\' :: '\n' :: cs => ⟨.fault .unterminatedString, ['\\', '\n'], cs⟩
  | '\\' :: c :: cs => (readString cs).prepend ['\\', c]
  | c :: cs => (readString cs).prepend [c]

/-- The first lexeme of the characters ahead, where so many parentheses are open. -/
def read (depth : Nat) : List Char → Lexeme
  | [] => ⟨if depth = 0 then .finish else .fault .unfinished, [], []⟩
  | c :: cs =>
    if isBlank c then readBlank (c :: cs)
    else if c = '"' then (readString cs).prepend ['"']
    else if startsNumber c then readNumber (c :: cs)
    else if c = '(' then ⟨.leftParen, ['('], cs⟩
    else if c = ')' then
      ⟨if depth = 0 then .fault .unmatchedParenthesis else .rightParen, [')'], cs⟩
    else if c = ',' then ⟨.comma, [','], cs⟩
    else if isNameChar c then readWord (c :: cs)
    else ⟨.fault (.unrecognized c), [c], cs⟩

/-! ## No character is lost, and reading goes on -/

theorem splitSign_append (cs : List Char) : (splitSign cs).1 ++ (splitSign cs).2 = cs := by
  unfold splitSign
  split <;> rfl

theorem splitFraction_append (cs : List Char) :
    (splitFraction cs).1 ++ (splitFraction cs).2 = cs := by
  unfold splitFraction
  split <;> simp

theorem splitNumber_append (cs : List Char) :
    (splitNumber cs).1 ++ (splitNumber cs).2 = cs := by
  simp only [splitNumber, List.append_assoc, splitFraction_append, List.takeWhile_append_dropWhile,
    splitSign_append]

theorem readWord_append (cs : List Char) : (readWord cs).taken ++ (readWord cs).rest = cs := by
  unfold readWord
  dsimp only
  split
  · exact List.takeWhile_append_dropWhile
  · split <;> exact List.takeWhile_append_dropWhile

theorem readNumber_append (cs : List Char) :
    (readNumber cs).taken ++ (readNumber cs).rest = cs := by
  have whole := splitNumber_append cs
  unfold readNumber
  split
  · rename_i number split_eq
    simpa [split_eq] using whole
  · rename_i number c rest split_eq
    rw [split_eq] at whole
    split
    · simpa using whole
    · exact whole

theorem readString_append (cs : List Char) :
    (readString cs).taken ++ (readString cs).rest = cs := by
  fun_induction readString cs <;> simp_all [prepend]

/-- The characters of a lexeme and those behind it are the characters that were ahead. -/
theorem taken_append_rest (depth : Nat) (cs : List Char) :
    (read depth cs).taken ++ (read depth cs).rest = cs := by
  cases cs with
  | nil => rfl
  | cons c cs =>
    unfold read
    repeat' split
    all_goals
      simp_all [readBlank, prepend, readString_append, readNumber_append, readWord_append]

theorem splitNumber_ne_nil {c : Char} {cs : List Char} (starts : startsNumber c = true) :
    (splitNumber (c :: cs)).1 ≠ [] := by
  by_cases plus : c = '+'
  · simp [splitNumber, splitSign, plus]
  by_cases minus : c = '-'
  · simp [splitNumber, splitSign, minus]
  by_cases dot : c = '.'
  · simp [splitNumber, splitSign, splitFraction, dot]
  · have digit : c.isDigit = true := by simpa [startsNumber, plus, minus, dot] using starts
    simp [splitNumber, splitSign, plus, minus, digit]

theorem readNumber_taken_ne_nil {c : Char} {cs : List Char} (starts : startsNumber c = true) :
    (readNumber (c :: cs)).taken ≠ [] := by
  have number : (splitNumber (c :: cs)).1 ≠ [] := splitNumber_ne_nil starts
  unfold readNumber
  split
  · rename_i split_eq
    simpa [split_eq] using number
  · rename_i split_eq
    split
    · simp
    · simpa [split_eq] using number

theorem readWord_taken_ne_nil {c : Char} {cs : List Char} (name : isNameChar c = true) :
    (readWord (c :: cs)).taken ≠ [] := by
  unfold readWord
  dsimp only
  split
  · simp [name]
  · split <;> simp [name]

/-- Every lexeme but a final one takes at least one character. -/
theorem taken_ne_nil {depth : Nat} {cs : List Char} (more : (read depth cs).kind.isFinal = false) :
    (read depth cs).taken ≠ [] := by
  cases cs with
  | nil =>
    revert more
    simp only [read]
    split <;> simp [TokenKind.isFinal]
  | cons c cs =>
    simp only [read]
    repeat' split
    all_goals
      simp_all [readBlank, prepend, readNumber_taken_ne_nil, readWord_taken_ne_nil]

/-- Fewer characters are ahead behind a lexeme that is not final. -/
theorem length_rest_lt {depth : Nat} {cs : List Char}
    (more : (read depth cs).kind.isFinal = false) : (read depth cs).rest.length < cs.length := by
  have whole := congrArg List.length (taken_append_rest depth cs)
  have positive := List.length_pos_iff.mpr (taken_ne_nil more)
  simp only [List.length_append] at whole
  omega

end Lexeme

end ResourceQuery
