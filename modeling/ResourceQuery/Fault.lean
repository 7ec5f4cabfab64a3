import ResourceQuery.Text.Quoted

/-! What can be wrong with a statement. A fault is a cause; its wording is one function per family
of faults. Faults are found by the stage of reading whose rules they break. -/

namespace ResourceQuery

/-- Whether the character is a control character, which a message names by its number alone. -/
def isControl (c : Char) : Bool :=
  c.toNat < 0x20 || (0x7F ≤ c.toNat && c.toNat ≤ 0x9F)

/-- The number of a character, in at least four upper-case hexadecimal digits. -/
def codePointName (c : Char) : String :=
  let digits := (Text.hexDigits c.toNat).map Char.toUpper
  "U+" ++ String.ofList (List.replicate (4 - digits.length) '0' ++ digits)

/-- A character as messages name it: its number and, unless it is a control character, the
character itself. -/
def characterName (c : Char) : String :=
  if isControl c then codePointName c
  else codePointName c ++ " '" ++ String.singleton c ++ "'"

/-- The text is no sequence of tokens. -/
inductive LexicalFault where
  /-- No token starts with this character. -/
  | unrecognized (c : Char)
  /-- A word runs into a character that cannot follow a word. -/
  | misplaced (c : Char)
  /-- A number runs into a name; the text ends with the first character of the name. -/
  | malformedNumber (text : String)
  /-- A string has no closing quote on its line. -/
  | unterminatedString
  /-- A right parenthesis closes nothing. -/
  | unmatchedParenthesis
  /-- The text ends inside parentheses. -/
  | unfinished
  deriving DecidableEq

def LexicalFault.message : LexicalFault → String
  | unrecognized c => "unrecognized character in statement: " ++ characterName c
  | misplaced c => "bad character " ++ characterName c
  | malformedNumber text => "bad number syntax: " ++ Text.quoted text
  | unterminatedString => "unterminated quoted string"
  | unmatchedParenthesis => "unexpected right paren " ++ characterName ')'
  | unfinished => "unexpected end of statement"

/-- The tokens form no statement. -/
inductive GrammarFault where
  /-- A token stands where the rules want something else. -/
  | unexpected (found context : String)
  /-- A token stands where the statement has to be over. -/
  | trailing (found : String)
  /-- One list more is opened than may be open at a time. -/
  | tooDeep (limit : Nat)
  deriving DecidableEq

def GrammarFault.message : GrammarFault → String
  | unexpected found context => "unexpected " ++ found ++ " in " ++ context
  | trailing found => "unexpected token after operator: " ++ found
  | tooDeep limit => "statement nested deeper than " ++ toString limit ++ " levels"

/-- A literal has the right form and yet no value. The text is its spelling. -/
inductive LiteralFault where
  | illegalNumber (text : String)
  /-- A whole number fits neither of the two 64-bit ranges. -/
  | integerOverflow (text : String)
  | invalidString (text : String)
  deriving DecidableEq

def LiteralFault.message : LiteralFault → String
  | illegalNumber text => "illegal number syntax: " ++ Text.quoted text
  | integerOverflow text => "integer overflow: " ++ Text.quoted text
  | invalidString text => "invalid string literal: " ++ text

/-- The stage of reading that finds a fault. -/
inductive Category where
  | lexical
  | grammar
  | literal
  deriving DecidableEq

def Category.name : Category → String
  | lexical => "lexical"
  | grammar => "syntax"
  | literal => "literal"

/-- Anything that can be wrong with a statement. -/
inductive Fault where
  | lexical (fault : LexicalFault)
  | grammar (fault : GrammarFault)
  | literal (fault : LiteralFault)
  deriving DecidableEq

namespace Fault

def category : Fault → Category
  | lexical _ => .lexical
  | grammar _ => .grammar
  | literal _ => .literal

def message : Fault → String
  | lexical fault => fault.message
  | grammar fault => fault.message
  | literal fault => fault.message

end Fault

end ResourceQuery
