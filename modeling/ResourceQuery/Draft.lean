import ResourceQuery.Node
import ResourceQuery.Token

/-! Drafts: statements of which the first tokens have been read. A draft knows what may come next,
and taking a token either gives the next draft or says what is wrong, so the first token that no
statement could have at its place is the one that is reported. Blanks change nothing. The rules are

    statement  one operation, or nothing
    operation  an operator, then a list
    list       `(`, then values with commas between them, maybe one more comma, then `)`
    value      an identifier, a literal, an operation or a list
-/

namespace ResourceQuery

/-- An operator that has been read, and where it stands. -/
structure Keyword where
  operator : Operator
  pos : Nat
  deriving DecidableEq

/-- The head of an operation whose list starts at the given offset. Nothing in a draft belongs to
a source yet. -/
def Keyword.head (keyword : Keyword) (list : Nat) : Head :=
  ⟨.detached keyword.pos, keyword.operator, .detached list⟩

/-- A list that has been opened and not closed, with the elements read so far, the last one first,
and with everything that is open around it. -/
inductive OpenList where
  /-- The operands of the statement's own operation. -/
  | outermost (keyword : Keyword) (pos : Nat) (read : List Node)
  /-- The operands of an operation that is itself an element. -/
  | operands (around : OpenList) (keyword : Keyword) (pos : Nat) (read : List Node)
  /-- A list that is itself an element. -/
  | nested (around : OpenList) (pos : Nat) (read : List Node)

/-- The beginning of a statement. -/
inductive Draft where
  /-- Nothing but blanks. -/
  | start
  /-- It ends in an operator, which wants its list: the statement's own, or one of an element. -/
  | operator (keyword : Keyword) (around : Option OpenList)
  /-- It ends in a left parenthesis or a comma. -/
  | value (list : OpenList)
  /-- It ends in an element of a list. -/
  | separator (list : OpenList)
  /-- It is a whole operation. -/
  | finished (head : Head) (operands : List Node)

namespace OpenList

/-- The number of lists that are open. -/
def depth : OpenList → Nat
  | outermost _ _ _ => 1
  | operands around _ _ _ => around.depth + 1
  | nested around _ _ => around.depth + 1

/-- The list with one more element read. -/
def push (node : Node) : OpenList → OpenList
  | outermost keyword pos read => outermost keyword pos (node :: read)
  | operands around keyword pos read => operands around keyword pos (node :: read)
  | nested around pos read => nested around pos (node :: read)

/-- The draft behind the parenthesis that closes the list. -/
def close : OpenList → Draft
  | outermost keyword pos read => .finished (keyword.head pos) read.reverse
  | operands around keyword pos read =>
    .separator (around.push (.operation (keyword.head pos) read.reverse))
  | nested around pos read => .separator (around.push (.list (.detached pos) read.reverse))

end OpenList

/-- The atom that a token stands for, if it stands for one. A literal may turn out to have no
value. -/
def Token.atom? (token : Token) : Option (Except LiteralFault Atom) :=
  match token.kind with
  | .identifier => some (.ok (.identifier token.text))
  | .null => some (.ok .null)
  | .bool => some (.ok (.bool (token.text == "true")))
  | .string => some ((StringLiteral.read token.text).map .string)
  | .number => some ((Numeral.read token.text).map .number)
  | _ => none

/-- The fault of a token that stands where something else is wanted. -/
def Token.unexpectedIn (token : Token) (context : String) : Fault :=
  .grammar (.unexpected token.describe context)

/-- The fault of a token behind the end of the statement. -/
def Token.trailing (token : Token) : Fault :=
  .grammar (.trailing token.describe)

namespace Draft

/-- How many lists may be open at a time. -/
def depthLimit : Nat := 128

/-- The draft behind a parenthesis that opens a list, where so many are open already. -/
def enter (depth : Nat) (list : OpenList) : Except Fault Draft :=
  if depth < depthLimit then .ok (.value list) else .error (.grammar (.tooDeep depthLimit))

/-- What a token does at the beginning of a statement. -/
def takeFirst (token : Token) : Except Fault Draft :=
  match token.kind with
  | .operator op => .ok (.operator ⟨op, token.pos⟩ none)
  | _ => .error token.trailing

/-- What a token does behind an operator. -/
def takeList (keyword : Keyword) (around : Option OpenList) (token : Token) :
    Except Fault Draft :=
  match token.kind, around with
  | .leftParen, none => enter 0 (.outermost keyword token.pos [])
  | .leftParen, some list => enter list.depth (.operands list keyword token.pos [])
  | _, _ => .error (token.unexpectedIn "left parentheses")

/-- What a token does where a value may stand. -/
def takeValue (list : OpenList) (token : Token) : Except Fault Draft :=
  match token.kind with
  | .operator op => .ok (.operator ⟨op, token.pos⟩ (some list))
  | .leftParen => enter list.depth (.nested list token.pos [])
  | .rightParen => .ok list.close
  | _ =>
    match token.atom? with
    | some (.ok atom) => .ok (.separator (list.push (.atom (.detached token.pos) atom)))
    | some (.error fault) => .error (.literal fault)
    | none => .error (token.unexpectedIn "value")

/-- What a token does behind an element of a list. -/
def takeSeparator (list : OpenList) (token : Token) : Except Fault Draft :=
  match token.kind with
  | .comma => .ok (.value list)
  | .rightParen => .ok list.close
  | _ => .error (token.unexpectedIn "comma or right parentheses")

/-- The draft behind one more token, or what is wrong with the token. -/
def accept (draft : Draft) (token : Token) : Except Fault Draft :=
  match token.kind with
  | .blank => .ok draft
  | .fault fault => .error (.lexical fault)
  | _ =>
    match draft with
    | start => takeFirst token
    | operator keyword around => takeList keyword around token
    | value list => takeValue list token
    | separator list => takeSeparator list token
    | finished _ _ => .error token.trailing

/-- The statement that a draft is, if it ends with the given last token. Every statement starts at
the first byte of its text, whatever stands there. -/
def conclude (draft : Draft) (token : Token) : Except Fault Node :=
  match token.kind, draft with
  | .finish, start => .ok (.blankStatement (.detached 0))
  | .finish, finished head operands => .ok (.statement (.detached 0) head operands)
  | .fault fault, _ => .error (.lexical fault)
  | _, start | _, finished _ _ => .error token.trailing
  | _, operator _ _ => .error (token.unexpectedIn "left parentheses")
  | _, value _ => .error (token.unexpectedIn "value")
  | _, separator _ => .error (token.unexpectedIn "comma or right parentheses")

end Draft

end ResourceQuery
