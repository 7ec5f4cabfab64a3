import ResourceQuery.Text.Offset

/-! Lines and columns. A byte offset is turned into a location only when a message needs one, by
walking over the characters before it. -/

namespace ResourceQuery.Text

/-- A place in a text. Lines and columns count from one; a column counts the bytes since the start
of its line. -/
structure Location where
  line : Nat
  column : Nat
  deriving DecidableEq

namespace Location

/-- Where every text begins. -/
def start : Location := ⟨1, 1⟩

/-- The place behind a character that stands here. Only a newline starts a new line. -/
def after (here : Location) (c : Char) : Location :=
  if c = '\n' then ⟨here.line + 1, 1⟩ else ⟨here.line, here.column + c.utf8Size⟩

/-- The place that is reached from here by passing as many whole characters as fit into so many
bytes. -/
def advance (here : Location) : Nat → List Char → Location
  | _, [] => here
  | bytes, c :: cs =>
    if c.utf8Size ≤ bytes then (here.after c).advance (bytes - c.utf8Size) cs else here

/-- The location of a byte offset. An offset inside a character stands for the start of that
character, and one past the end stands for the end of the text. -/
def resolve (text : String) (offset : Nat) : Location :=
  start.advance offset text.toList

/-- The line and the column with a colon between them. -/
def render (location : Location) : String :=
  toString location.line ++ ":" ++ toString location.column

end Location

end ResourceQuery.Text
