import ResourceQuery.Fault
import ResourceQuery.Operator
import ResourceQuery.Text.Excerpt

/-! Tokens: the units that the characters of a statement form. -/

namespace ResourceQuery

/-- What a token is. -/
inductive TokenKind where
  /-- The name of a field. -/
  | identifier
  /-- A string literal, from quote to quote. -/
  | string
  | bool
  | number
  | null
  | leftParen
  | rightParen
  | comma
  /-- A run of spaces, tabs and newlines. -/
  | blank
  | operator (operator : Operator)
  /-- The text ends here, and nothing is left open. -/
  | finish
  /-- No token starts here. -/
  | fault (fault : LexicalFault)
  deriving DecidableEq

namespace TokenKind

/-- Whether no token comes after a token of this kind. -/
def isFinal : TokenKind → Bool
  | finish | fault _ => true
  | _ => false

def isOperator : TokenKind → Bool
  | operator _ => true
  | _ => false

/-- The kind of a whole word: a reserved word, an operator, or else a name. -/
def ofWord (word : String) : TokenKind :=
  if word = "null" then null
  else if word = "true" ∨ word = "false" then bool
  else match Operator.ofKeyword? word with
    | some op => operator op
    | none => identifier

/-- The name of the kind in a token listing. -/
def name : TokenKind → String
  | identifier => "identifier"
  | string => "string"
  | bool => "boolean"
  | number => "number"
  | null => "null"
  | leftParen => "("
  | rightParen => ")"
  | comma => ","
  | blank => "whitespace"
  | operator op => op.keyword
  | finish => "EOF"
  | fault _ => "error"

end TokenKind

/-- A token, the characters it consists of, and where they start: a byte offset and a line. The
text of a fault is what had to be read to find it. -/
structure Token where
  kind : TokenKind
  text : String
  pos : Nat
  line : Nat
  deriving DecidableEq

namespace Token

/-- The longest token text that a message shows whole, in characters. -/
def displayLimit : Nat := 10

/-- The token as messages show it: reserved words in angle brackets, a fault as its own message,
and any other text quoted, its beginning only if it is long. -/
def describe (token : Token) : String :=
  match token.kind with
  | .finish => "EOF"
  | .fault fault => fault.message
  | .operator _ | .null => "<" ++ token.text ++ ">"
  | _ =>
    if token.text.toList.length ≤ displayLimit then Text.quoted token.text
    else Text.quoted (String.ofList (token.text.toList.take displayLimit)) ++ "..."

end Token

end ResourceQuery
