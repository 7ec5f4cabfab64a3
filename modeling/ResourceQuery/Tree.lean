import ResourceQuery.Node.Alike
import ResourceQuery.Reading
import ResourceQuery.Text.Excerpt
import ResourceQuery.Text.Location

/-! Trees: statements that have been read, with the source that they were read from. A tree exists
only for a text that is a statement; for any other text there is one diagnostic, which is about
the first token that is wrong. -/

namespace ResourceQuery

/-- A fault, the token that has it, and that token's place in a named text. -/
structure Diagnostic where
  name : String
  line : Nat
  column : Nat
  pos : Nat
  fault : Fault
  deriving DecidableEq

namespace Diagnostic

/-- The diagnostic of a refusal of a token of the source. -/
def ofRefusal (source : Source) (refusal : Refusal) : Diagnostic where
  name := source.name
  line := refusal.token.line
  column := (Text.Location.resolve source.text refusal.token.pos).column
  pos := refusal.token.pos
  fault := refusal.fault

/-- The name, the line and what is wrong. -/
def message (diagnostic : Diagnostic) : String :=
  "statement: " ++ diagnostic.name ++ ":" ++ toString diagnostic.line ++ ": " ++
    diagnostic.fault.message

/-- The name and the place. -/
def location (diagnostic : Diagnostic) : String :=
  diagnostic.name ++ ":" ++ (Text.Location.mk diagnostic.line diagnostic.column).render

end Diagnostic

/-- Where a node stands in a source, and the beginning of its canonical form. -/
def Source.context (source : Source) (node : Node) : String × String :=
  (source.name ++ ":" ++ (Text.Location.resolve source.text node.pos).render,
    Text.excerpt node.canonical)

/-- A statement and its source. -/
structure Tree where
  source : Source
  root : Node

namespace Tree

/-- Reads the statement of a source. Every node of the tree belongs to the source. -/
def ofSource (source : Source) : Except Diagnostic Tree :=
  match readStatement source.text with
  | .ok statement => .ok ⟨source, statement.bind source⟩
  | .error refusal => .error (.ofRefusal source refusal)

/-- Reads a text under a name, as a source with the given handle. -/
def parse (handle : Nat) (name text : String) : Except Diagnostic Tree :=
  ofSource ⟨handle, name, text⟩

/-- The tree's canonical form. -/
def canonical (tree : Tree) : String :=
  tree.root.canonical

/-- Whether the statement asks for nothing. -/
def isEmpty (tree : Tree) : Bool :=
  tree.root.isEmpty

/-- An equal tree over a source of its own, which has the given handle. -/
def copy (tree : Tree) (handle : Nat) : Tree :=
  let source := { tree.source with handle := handle }
  ⟨source, tree.root.bind source⟩

/-- Whether the node belongs to this very tree. -/
def owns (tree : Tree) (node : Node) : Bool :=
  node.source.any tree.source.isSame

/-- Where a node stands and how it begins. A node that belongs to a source is looked up in that
source, whichever tree is asked; a detached one is looked up in the tree's own. -/
def context (tree : Tree) (node : Node) : String × String :=
  (node.source.getD tree.source).context node

/-- Equality by value. -/
def alike (a b : Tree) : Bool :=
  a.source.alike b.source && a.root.alike b.root

end Tree

end ResourceQuery
