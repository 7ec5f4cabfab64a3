import ResourceQuery.Text.Offset
import ResourceQuery.Token.Lexeme

/-! Token streams. A stream is what becomes of a text when lexeme after lexeme is read: tokens
without fault, and one last token, which is the end of the text or the first fault. -/

namespace ResourceQuery

/-- What reading has to know about the characters behind it: how many bytes they take, how many
parentheses they leave open, and the line they end on. -/
structure Mark where
  offset : Nat
  depth : Nat
  line : Nat
  deriving DecidableEq

namespace Mark

/-- The mark at the beginning of every text. -/
def start : Mark := ⟨0, 0, 1⟩

/-- How many parentheses are open behind a token of the kind. -/
def depthAfter (depth : Nat) : TokenKind → Nat
  | .leftParen => depth + 1
  | .rightParen => depth - 1
  | _ => depth

/-- The mark behind a lexeme. -/
def after (mark : Mark) (lexeme : Lexeme) : Mark where
  offset := mark.offset + Text.utf8Length lexeme.taken
  depth := depthAfter mark.depth lexeme.kind
  line := mark.line + lexeme.taken.count '\n'

/-- The token that a lexeme becomes where the mark stands. -/
def token (mark : Mark) (lexeme : Lexeme) : Token where
  kind := lexeme.kind
  text := String.ofList lexeme.taken
  pos := mark.offset
  line := mark.line

end Mark

/-- The tokens of a text: those after which more follow, and the last one. -/
structure Stream where
  body : List Token
  last : Token
  deriving DecidableEq

namespace Stream

/-- All tokens, in the order of the text. -/
def tokens (stream : Stream) : List Token :=
  stream.body ++ [stream.last]

/-- The stream with one more token before its first. -/
def cons (token : Token) (stream : Stream) : Stream :=
  ⟨token :: stream.body, stream.last⟩

@[simp] theorem tokens_cons (token : Token) (stream : Stream) :
    (stream.cons token).tokens = token :: stream.tokens := rfl

/-- The stream of the characters ahead of a mark. Each lexeme but the last takes a character, so
there are fewer ahead each time. -/
def read (mark : Mark) (cs : List Char) : Stream :=
  let lexeme := Lexeme.read mark.depth cs
  if _ : lexeme.kind.isFinal = false then
    (read (mark.after lexeme) lexeme.rest).cons (mark.token lexeme)
  else ⟨[], mark.token lexeme⟩
termination_by cs.length
decreasing_by exact Lexeme.length_rest_lt (by assumption)

/-- A final lexeme is the whole stream. -/
theorem read_of_final {mark : Mark} {cs : List Char} {lexeme : Lexeme}
    (first : Lexeme.read mark.depth cs = lexeme) (final : lexeme.kind.isFinal = true) :
    read mark cs = ⟨[], mark.token lexeme⟩ := by
  subst first
  rw [read]
  simp [final]

/-- Any other lexeme is followed by the stream of the characters behind it. -/
theorem read_of_more {mark : Mark} {cs : List Char} {lexeme : Lexeme}
    (first : Lexeme.read mark.depth cs = lexeme) (more : lexeme.kind.isFinal = false) :
    read mark cs = (read (mark.after lexeme) lexeme.rest).cons (mark.token lexeme) := by
  subst first
  rw [read]
  simp [more]

/-- The stream of a whole text. -/
def ofText (text : String) : Stream :=
  read Mark.start text.toList

/-- The tokens that count for the statement, which are all but the blanks. -/
def significant (stream : Stream) : List Token :=
  stream.tokens.filter (·.kind != .blank)

end Stream

end ResourceQuery
