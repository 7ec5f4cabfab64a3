import ResourceQuery.Reading
import ResourceQuery.Token.Lexer

/-! Reading by descent. There is one procedure for each rule of the language, and a procedure that
has consumed a token which another one wants to see pushes it back. What is pushed back stays in a
buffer in front of the lexer. Every call to the buffer is put on record, together with the buffer
that it found, and nothing else about the buffer ever changes.

A loop takes one step for each round, and has as many of them as tokens may be ahead. -/

namespace ResourceQuery.Descent

/-! ## The buffer -/

/-- How many tokens the buffer has room for. -/
abbrev capacity : Nat := 3

/-- A lexer, and the tokens that have been pushed back. These are in the first slots, and the last
of them is the next to be consumed. Behind them may be tokens that are not pushed back. -/
structure Buffer where
  lexer : Lexer
  /-- What has been put into each slot, if anything has. -/
  slots : Vector (Option Token) capacity
  pushed : Nat
  pushed_le : pushed ≤ capacity

namespace Buffer

/-- A buffer in front of a text. -/
def ofText (text : String) : Buffer where
  lexer := .ofText text
  slots := .replicate capacity none
  pushed := 0
  pushed_le := Nat.zero_le _

/-- The buffer with the lexer's next token in its first slot. -/
def fetch (buffer : Buffer) : Buffer :=
  { buffer with
    lexer := buffer.lexer.nextToken.2
    slots := buffer.slots.set 0 (some buffer.lexer.nextToken.1) }

/-- What is in the slot of the next token, and the buffer behind that token. -/
def next (buffer : Buffer) : Option Token × Buffer :=
  match _ : buffer.pushed with
  | 0 => (buffer.fetch.slots[0], buffer.fetch)
  | pushed + 1 =>
    have room : pushed < capacity := Nat.lt_of_succ_le (by simpa [*] using buffer.pushed_le)
    (buffer.slots[pushed], { buffer with pushed, pushed_le := Nat.le_of_lt room })

/-- The buffer with one more token pushed back, if there is room for it. It is the one in the slot
behind those that have been. -/
def backup? (buffer : Buffer) : Option Buffer :=
  if room : buffer.pushed < capacity then
    some { buffer with pushed := buffer.pushed + 1, pushed_le := room }
  else none

/-- What is in the slot of the next token, and the buffer in front of that token. -/
def peek (buffer : Buffer) : Option Token × Buffer :=
  match _ : buffer.pushed with
  | 0 => (buffer.fetch.slots[0], { buffer.fetch with pushed := 1, pushed_le := by decide })
  | pushed + 1 =>
    have room : pushed < capacity := Nat.lt_of_succ_le (by simpa [*] using buffer.pushed_le)
    (buffer.slots[pushed], buffer)

/-- More tokens than the buffer can hand out before the text ends. -/
def bound (buffer : Buffer) : Nat := buffer.lexer.ahead.length + buffer.pushed + 1

end Buffer

/-- The ways to use a buffer. -/
inductive Call where
  | next
  | backup
  | peek
  deriving DecidableEq

/-- A call, and the buffer that it found. -/
structure Event where
  call : Call
  before : Buffer

/-! ## Runs -/

/-- A run so far: its buffer, the number of lists that are open, and all calls, in their order. -/
structure Parser where
  buffer : Buffer
  depth : Nat
  events : List Event

/-- A parser in front of a text. -/
def Parser.ofText (text : String) : Parser := ⟨.ofText text, 0, []⟩

/-- The parser with one more call on record, and the buffer behind it. -/
def Parser.record (parser : Parser) (call : Call) (after : Buffer) : Parser :=
  { parser with buffer := after, events := parser.events ++ [⟨call, parser.buffer⟩] }

/-- Why a run stops early. -/
inductive Halt where
  | refused (refusal : Refusal)
  /-- A token was to be pushed back, and there was no room for it. -/
  | overflow
  /-- A loop had no steps left. -/
  | endless
  deriving DecidableEq

/-- A part of a run. -/
abbrev Parsing := ExceptT Halt (StateM Parser)

namespace Parsing

/-- What a part of a run comes to. -/
def runFrom {α : Type} (parsing : Parsing α) (parser : Parser) : Except Halt α × Parser :=
  parsing.run.run parser

/-- What a slot reads as into which nothing has been put. -/
def unfilled : Token := ⟨.finish, "", 0, 0⟩

def next : Parsing Token := do
  let parser ← get
  set (parser.record .next parser.buffer.next.2)
  return parser.buffer.next.1.getD unfilled

def backup : Parsing Unit := do
  let parser ← get
  match parser.buffer.backup? with
  | some buffer => set (parser.record .backup buffer)
  | none => throw .overflow

def peek : Parsing Token := do
  let parser ← get
  set (parser.record .peek parser.buffer.peek.2)
  return parser.buffer.peek.1.getD unfilled

def refuse {α : Type} (token : Token) (fault : Fault) : Parsing α :=
  throw (.refused ⟨token, fault⟩)

/-- Consumes tokens up to one that is no blank, but no more than the steps. -/
def nextSolidWithin : Nat → Parsing Token
  | 0 => throw .endless
  | steps + 1 => do
    let token ← next
    match token.kind with
    | .blank => nextSolidWithin steps
    | .fault fault => refuse token (.lexical fault)
    | _ => return token

/-- Consumes tokens up to one that is no blank. -/
def nextSolid : Parsing Token := do
  let parser ← get
  nextSolidWithin parser.buffer.bound

/-- The next token that is no blank. The blanks in front of it are consumed. -/
def peekSolid : Parsing Token := do
  let token ← nextSolid
  backup
  return token

/-- Consumes a token that has to be of the given kind. -/
def expect (kind : TokenKind) (context : String) : Parsing Token := do
  let token ← nextSolid
  if token.kind = kind then return token
  else refuse token (token.unexpectedIn context)

/-! ## The rules of the language -/

/-- A list that has been read. -/
structure Row where
  pos : Nat
  elements : List Node

/-- An operation that has been read. -/
structure Operation where
  head : Head
  operands : List Node

/-- What comes in front of an element or at the end of a list. Behind another element that is a
comma, unless the list is over. -/
def separator (behindElement : Bool) : Parsing Unit :=
  if behindElement then do
    let token ← nextSolid
    match token.kind with
    | .comma => return
    | .rightParen => backup
    | _ => refuse token (token.unexpectedIn "comma or right parentheses")
  else return

/-- A parenthesis, and then elements up to the one that closes it. -/
def list (elements : Parsing (List Node)) : Parsing Row := do
  let opening ← expect .leftParen "left parentheses"
  let parser ← get
  if parser.depth < Draft.depthLimit then do
    set { parser with depth := parser.depth + 1 }
    let nodes ← elements
    modify fun parser => { parser with depth := parser.depth - 1 }
    return ⟨opening.pos, nodes⟩
  else refuse opening (.grammar (.tooDeep Draft.depthLimit))

/-- An operator, and then its list. -/
def operation (elements : Parsing (List Node)) : Parsing Operation := do
  let token ← nextSolid
  match token.kind with
  | .operator operator => do
    let row ← list elements
    return ⟨Keyword.head ⟨operator, token.pos⟩ row.pos, row.elements⟩
  | _ => refuse token (token.unexpectedIn "operator")

/-- The elements of a list, of which some have been read already, the last one first. Those of a
list inside are read with one step fewer, and so are those behind it. -/
def elements : Nat → Bool → List Node → Parsing (List Node)
  | 0, _, _ => throw .endless
  | steps + 1, behindElement, read => do
    separator behindElement
    let token ← nextSolid
    match token.kind with
    | .operator _ => do
      backup
      let inner ← operation (elements steps false [])
      elements steps true (.operation inner.head inner.operands :: read)
    | .leftParen => do
      backup
      let inner ← list (elements steps false [])
      elements steps true (.list (.detached inner.pos) inner.elements :: read)
    | .rightParen => return read.reverse
    | _ =>
      match token.atom? with
      | some (.ok atom) => elements steps true (.atom (.detached token.pos) atom :: read)
      | some (.error fault) => refuse token (.literal fault)
      | none => refuse token (token.unexpectedIn "value")

/-- An operation, unless something else comes first. -/
def operation? : Parsing (Option Operation) := do
  let leading ← peekSolid
  if leading.kind.isOperator then do
    let parser ← get
    let operation ← operation (elements parser.buffer.bound false [])
    return some operation
  else return none

/-- The statement with the given start that an operation is, or nothing. -/
def asStatement (start : Nat) : Option Operation → Node
  | some operation => .statement (.detached start) operation.head operation.operands
  | none => .blankStatement (.detached start)

/-- The statement, if its text ends here. -/
def ending (start : Nat) (operation : Option Operation) : Parsing Node := do
  let token ← nextSolid
  if token.kind = .finish then return asStatement start operation
  else refuse token token.trailing

/-- A whole statement, which starts where the first token does. -/
def statement : Parsing Node := do
  let first ← peek
  let operation ← operation?
  ending first.pos operation

end Parsing

/-- Reads a whole text as a statement. -/
def parse (text : String) : Except Halt Node × Parser :=
  Parsing.statement.runFrom (.ofText text)

end ResourceQuery.Descent
