import ResourceQuery.Token.Stream

/-! Reading tokens on demand. A lexer hands out the tokens of a text one at a time. There are two
ways to ask: one repeats the last token for ever, the other says that there is nothing more. A lexer
reads whole lexemes; the machine that finds them byte by byte is a scanner. -/

namespace ResourceQuery

/-- A text that has been read up to a mark. Once the last token has been handed out, it is kept.
-/
structure Lexer where
  mark : Mark
  ahead : List Char
  ended : Option Token

namespace Lexer

/-- Nothing of the text has been read. -/
def ofText (text : String) : Lexer :=
  ⟨Mark.start, text.toList, none⟩

/-- Reads one token, wherever the lexer stands. -/
def advance (lexer : Lexer) : Token × Lexer :=
  let lexeme := Lexeme.read lexer.mark.depth lexer.ahead
  let token := lexer.mark.token lexeme
  (token,
    { mark := lexer.mark.after lexeme
      ahead := lexeme.rest
      ended := if token.kind.isFinal then some token else none })

/-- The next token, or the last one again. -/
def nextToken (lexer : Lexer) : Token × Lexer :=
  match lexer.ended with
  | some token => (token, lexer)
  | none => lexer.advance

/-- The next token, or nothing behind the last one. -/
def next? (lexer : Lexer) : Option Token × Lexer :=
  match lexer.ended with
  | some _ => (none, lexer)
  | none =>
    let (token, lexer) := lexer.advance
    (some token, lexer)

/-- A way to ask for a token. -/
inductive Call where
  /-- The last token is repeated. -/
  | repeating
  /-- Nothing follows the last token. -/
  | ending
  deriving DecidableEq

/-- One answer and the lexer behind it. -/
def call (lexer : Lexer) : Call → Option Token × Lexer
  | .repeating =>
    let (token, lexer) := lexer.nextToken
    (some token, lexer)
  | .ending => lexer.next?

/-- The answers to a sequence of calls on one lexer. -/
def answers (lexer : Lexer) : List Call → List (Option Token)
  | [] => []
  | call :: calls =>
    let (answer, lexer) := lexer.call call
    answer :: lexer.answers calls

end Lexer

end ResourceQuery
