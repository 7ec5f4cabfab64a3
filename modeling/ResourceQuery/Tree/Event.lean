import ResourceQuery.Text.Quoted
import ResourceQuery.Tree

/-! What is logged about the reading of a statement, for those who ask for it: that it begins, and
how it ends. -/

namespace ResourceQuery

/-- Something that is logged. -/
inductive Event where
  /-- The statement is about to be read. -/
  | begins (name : String) (bytes : Nat)
  /-- The statement has been read, and may ask for nothing. -/
  | succeeds (name : String) (blank : Bool)
  /-- The text is no statement. -/
  | fails (diagnostic : Diagnostic)
  deriving DecidableEq

/-- The event as it is logged: what happens, and what is known about it. -/
def Event.line : Event → String
  | begins name bytes =>
    "parsing statement statement=" ++ Text.quoted name ++ " len=" ++ toString bytes
  | succeeds name blank =>
    "parsed statement statement=" ++ Text.quoted name ++ " empty=" ++ toString blank
  | fails d =>
    "parse aborted statement=" ++ Text.quoted d.name ++ " category=" ++ d.fault.category.name ++
      " pos=" ++ toString d.pos ++ " error=" ++ d.fault.message

namespace Tree

/-- Whether the statement has no operation. -/
def isBlank (tree : Tree) : Bool :=
  match tree.root with
  | .statement _ _ _ => false
  | _ => true

/-- How reading ends. -/
def outcomeEvent (name : String) : Except Diagnostic Tree → Event
  | .ok tree => .succeeds name tree.isBlank
  | .error diagnostic => .fails diagnostic

/-- What is logged while a text is read under a name. -/
def log (name text : String) : List Event :=
  [.begins name text.utf8ByteSize, outcomeEvent name (parse 0 name text)]

end Tree

end ResourceQuery
