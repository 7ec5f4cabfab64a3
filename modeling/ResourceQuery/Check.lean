import ResourceQuery.Manual
import ResourceQuery.Tree.Json

/-! Checking a statement and showing what was found. How it is shown never changes whether the
check succeeds, nor what is said if it fails. -/

namespace ResourceQuery

/-- Why a command has no result. -/
inductive Failure where
  | diagnostic (diagnostic : Diagnostic)
  /-- The input is no text in UTF-8. -/
  | undecodable
  /-- There is no statement. -/
  | noInput
  /-- The manual has no such category. -/
  | unknownCategory (name : String)
  deriving DecidableEq

/-- What is wrong, in words. -/
def Failure.message : Failure → String
  | diagnostic d => d.message
  | undecodable => "IO error: stream did not contain valid UTF-8"
  | noInput => "No statement provided. Pass one as an argument or pipe it to stdin."
  | unknownCategory name =>
    "Unknown category: '" ++ name ++ "'\nRun 'rql docs' to see available categories."

/-- What is shown of a statement that has been read. -/
inductive View where
  /-- That it is a statement. -/
  | verdict
  /-- Its canonical form. -/
  | canonical
  /-- Its tree as JSON. -/
  | json (layout : Json.Layout)
  deriving DecidableEq

/-- The view that three wishes together ask for. The wish for the verdict alone wins over the
others, and the wish for the indented layout counts only together with the one for JSON. -/
def View.ofWishes (json indented verdictOnly : Bool) : View :=
  if verdictOnly then .verdict
  else if json then .json (if indented then .indented else .compact)
  else .canonical

/-- What a view shows. -/
inductive Finding where
  | valid
  | canonical (text : String)
  | json (text : String)
  deriving DecidableEq

/-- The finding as it is printed. -/
def Finding.text : Finding → String
  | valid => "Syntax is valid"
  | canonical text => text
  | json text => text

/-- What the view shows of a tree. -/
def View.show (tree : Tree) : View → Finding
  | verdict => .valid
  | canonical => .canonical tree.canonical
  | json layout => .json (tree.renderJson layout)

/-- Checks a statement, if there is one, under a name. -/
def check (view : View) (name : String) (statement : Option String) : Except Failure Finding :=
  match statement with
  | none => .error .noInput
  | some text =>
    match Tree.parse 0 name text with
    | .ok tree => .ok (view.show tree)
    | .error diagnostic => .error (.diagnostic diagnostic)

/-- The page of the manual with the given name. -/
def Manual.page (name : String) : Except Failure String :=
  match Category.ofName? name with
  | some category => .ok category.page
  | none => .error (.unknownCategory name)

end ResourceQuery
