import ResourceQuery.Text.Slice
import ResourceQuery.Token.Lexer

/-! The machine that finds tokens. It goes over the bytes of a text one character at a time, and it
makes its tokens out of slices of the text. What it does depends on its phase. A phase either gets a
token ready or hands over to another phase, and the machine runs phases until it has a token to hand
out.

Nothing here is certain to come to a result: a slice may have its ends inside characters, more bytes
may be given back than were read, and each loop has as many rounds as bytes are ahead of it, and one
more. That none of this ever happens is for proofs to say. -/

namespace ResourceQuery

/-- What a scanner is in the middle of. -/
inductive Phase where
  /-- No token has begun. -/
  | between
  /-- The first blank has been read. -/
  | blank
  | word
  | number
  /-- The opening quote has been read. -/
  | string

/-- The state of the machine. -/
structure Scanner where
  input : String
  /-- What to do next. Nothing is to be done behind the last token. -/
  phase : Option Phase
  /-- Where the token that is being read starts. -/
  start : Nat
  /-- How far the text has been read. -/
  position : Nat
  /-- How many bytes the last character took that was read. It can be given back once. -/
  width : Nat
  depth : Nat
  /-- The line on which the next token starts. -/
  line : Nat
  /-- A token that is ready and has not been handed out yet. -/
  pending : Option Token
  /-- The last token, once it has been handed out. -/
  terminal : Option Token

namespace Scanner

/-- Nothing of the text has been read. -/
def ofText (text : String) : Scanner where
  input := text
  phase := some .between
  start := 0
  position := 0
  width := 0
  depth := 0
  line := 1
  pending := none
  terminal := none

/-- The scanner behind the character that comes next. At the end nothing is passed. -/
def pass (scanner : Scanner) : Option Char → Scanner
  | some c => { scanner with position := scanner.position + c.utf8Size, width := c.utf8Size }
  | none => { scanner with width := 0 }

/-- More rounds than a loop can take that reads a character in each of them. -/
def rounds (scanner : Scanner) : Nat := scanner.input.utf8ByteSize - scanner.position + 1

end Scanner

/-- Why the machine breaks down. -/
inductive Panic where
  /-- There is no such slice of the text. -/
  | slice
  /-- More bytes were given back than had been read. -/
  | underflow
  /-- A loop had no rounds left. -/
  | endless
  deriving DecidableEq

/-- A part of what the machine does. -/
abbrev Scan := StateT Scanner (Except Panic)

namespace Scan

/-! ## Characters -/

/-- The slice of the text between two bytes. -/
def slice (start stop : Nat) : Scan String := do
  let scanner ← get
  match Text.slice? scanner.input start stop with
  | some text => return text
  | none => throw .slice

/-- The text that has been read of the token so far. -/
def current : Scan String := do
  let scanner ← get
  slice scanner.start scanner.position

/-- The next character, which stays ahead. -/
def peekChar : Scan (Option Char) := do
  let scanner ← get
  let ahead ← slice scanner.position scanner.input.utf8ByteSize
  return ahead.toList.head?

/-- The next character, which is read. -/
def nextChar : Scan (Option Char) := do
  let next ← peekChar
  modify fun scanner => scanner.pass next
  return next

/-- Gives back the character that was read last. -/
def backupChar : Scan Unit := do
  let scanner ← get
  if scanner.width ≤ scanner.position then
    set { scanner with position := scanner.position - scanner.width, width := 0 }
  else throw .underflow

/-- Reads the next character if it is in a class, and says whether it is. -/
def accept (p : Char → Bool) : Scan Bool := do
  let next ← peekChar
  if next.any p then do
    let _ ← nextChar
    return true
  else return false

/-- Reads characters as long as they are in a class, in so many rounds. -/
def acceptWhileWithin (p : Char → Bool) : Nat → Scan Unit
  | 0 => throw .endless
  | rounds + 1 => do
    if ← accept p then acceptWhileWithin p rounds else return

/-- Reads characters as long as they are in a class. -/
def acceptWhile (p : Char → Bool) : Scan Unit := do
  let scanner ← get
  acceptWhileWithin p scanner.rounds

/-! ## Tokens -/

/-- Gets a token ready. The next one starts behind it. Newlines are counted in blanks and in strings
only. -/
def emit (kind : TokenKind) : Scan Unit := do
  let text ← current
  modify fun scanner =>
    { scanner with
      line :=
        if kind = .blank ∨ kind = .string then scanner.line + text.toList.count '\n'
        else scanner.line
      pending := some ⟨kind, text, scanner.start, scanner.line⟩
      start := scanner.position }

/-- Gets a fault ready, behind which nothing is left to do. -/
def fail (fault : LexicalFault) : Scan (Option Phase) := do
  let text ← current
  modify fun scanner =>
    { scanner with pending := some ⟨.fault fault, text, scanner.start, scanner.line⟩ }
  return none

/-! ## Phases -/

/-- The text ends here. No parenthesis may be open. -/
def finish : Scan (Option Phase) := do
  let scanner ← get
  if scanner.depth > 0 then fail .unfinished
  else do
    emit .finish
    return none

/-- An opening parenthesis has been read. -/
def leftParen : Scan (Option Phase) := do
  modify fun scanner => { scanner with depth := scanner.depth + 1 }
  emit .leftParen
  return some .between

/-- A closing parenthesis has been read. One has to be open. -/
def rightParen : Scan (Option Phase) := do
  let scanner ← get
  if scanner.depth = 0 then fail .unmatchedParenthesis
  else do
    set { scanner with depth := scanner.depth - 1 }
    emit .rightParen
    return some .between

/-- Gives back the first character of a token to a phase that reads it among the others. -/
def handBack (phase : Phase) : Scan (Option Phase) := do
  backupChar
  return some phase

/-- The character that has been read tells what begins. -/
def begins (c : Char) : Scan (Option Phase) :=
  if isBlank c then return some .blank
  else if c = '"' then return some .string
  else if startsNumber c then handBack .number
  else if c = '(' then leftParen
  else if c = ')' then rightParen
  else if c = ',' then do
    emit .comma
    return some .between
  else if isNameChar c then handBack .word
  else fail (.unrecognized c)

/-- What begins here. -/
def between : Scan (Option Phase) := do
  match ← nextChar with
  | none => finish
  | some c => begins c

/-- Blanks as far as they reach. -/
def blank : Scan (Option Phase) := do
  acceptWhile isBlank
  emit .blank
  return some .between

/-- The characters that are taken as the end of a word. A dot is one of them, although it cannot
come first behind a word. -/
def isTerminator (c : Char) : Bool := endsWord c || c == '.'

/-- A word as far as it reaches. -/
def word : Scan (Option Phase) := do
  acceptWhile isNameChar
  let next ← peekChar
  match next.filter fun c => !isTerminator c with
  | some c => fail (.misplaced c)
  | none => do
    let word ← current
    emit (.ofWord word)
    return some .between

def isSign (c : Char) : Bool := c == '+' || c == '-'

/-- A dot and the digits behind it, if there is a dot. -/
def fraction : Scan Unit := do
  if ← accept (· == '.') then acceptWhile Char.isDigit else return

/-- A number as far as it reaches. It must not run into a name. -/
def number : Scan (Option Phase) := do
  let _ ← accept isSign
  acceptWhile Char.isDigit
  fraction
  let next ← peekChar
  if next.any isNameChar then do
    let _ ← nextChar
    let text ← current
    fail (.malformedNumber text)
  else do
    emit .number
    return some .between

/-- A string up to its closing quote, in so many rounds. -/
def stringWithin : Nat → Scan (Option Phase)
  | 0 => throw .endless
  | rounds + 1 => do
    match ← nextChar with
    | some '\\' =>
      match ← nextChar with
      | none | some '\n' => fail .unterminatedString
      | some _ => stringWithin rounds
    | none | some '\n' => fail .unterminatedString
    | some '"' => do
      emit .string
      return some .between
    | some _ => stringWithin rounds

/-- A string up to its closing quote. -/
def string : Scan (Option Phase) := do
  let scanner ← get
  stringWithin scanner.rounds

/-- What is done in a phase, and the phase behind it. -/
def step : Phase → Scan (Option Phase)
  | .between => between
  | .blank => blank
  | .word => word
  | .number => number
  | .string => string

/-! ## Asking for tokens -/

/-- One round of the loop that looks for a token. A token that is ready is handed out, and the last
one over and over. Otherwise a phase is run. If there were no phase left to run, an end would be
made up. -/
def turn : Scan (Option Token) := do
  let scanner ← get
  match scanner.pending with
  | some token => do
    set { scanner with
      pending := none
      terminal := if token.kind.isFinal then some token else scanner.terminal }
    return some token
  | none =>
    match scanner.terminal with
    | some token => return some token
    | none =>
      match scanner.phase with
      | some phase => do
        let next ← step phase
        modify fun scanner => { scanner with phase := next }
        return none
      | none => do
        let finish : Token := ⟨.finish, "", scanner.position, scanner.line⟩
        set { scanner with terminal := some finish }
        return some finish

/-- The next token, if it is found in so many rounds. -/
def nextTokenWithin : Nat → Scan Token
  | 0 => throw .endless
  | rounds + 1 => do
    match ← turn with
    | some token => return token
    | none => nextTokenWithin rounds

/-- The next token, or the last one again. A phase may hand over to another, that one gets a token
ready, and then the token is handed out. -/
def nextToken : Scan Token := nextTokenWithin 3

/-- The next token, or nothing behind the last one. -/
def next? : Scan (Option Token) := do
  let scanner ← get
  if scanner.terminal.isSome && scanner.pending.isNone then return none
  else do
    let token ← nextToken
    return some token

/-- One answer. -/
def call : Lexer.Call → Scan (Option Token)
  | .repeating => do
    let token ← nextToken
    return some token
  | .ending => next?

/-- The answers to a sequence of calls. -/
def answers : List Lexer.Call → Scan (List (Option Token))
  | [] => return []
  | first :: calls => do
    let answer ← call first
    let others ← answers calls
    return answer :: others

end Scan

/-- What a scanner of a text answers to a sequence of calls. -/
def Scanner.answers (text : String) (calls : List Lexer.Call) :
    Except Panic (List (Option Token)) :=
  (Scan.answers calls).run' (.ofText text)

end ResourceQuery
