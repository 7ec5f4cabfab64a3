import ResourceQuery.Number.Numeral
import ResourceQuery.Operator
import ResourceQuery.Source
import ResourceQuery.StringLiteral

/-! Nodes: the parts of a statement. A statement holds at most one operation; an operation is an
operator with a list of operands; an operand is an atom, a list, or an operation again. Nodes that
are built by hand may put anything into a list, a statement included. -/

namespace ResourceQuery

/-- A part without parts of its own: the name of a field, or a literal. -/
inductive Atom where
  | identifier (name : String)
  | null
  | bool (value : Bool)
  | string (literal : StringLiteral)
  | number (numeral : Numeral)
  deriving DecidableEq

/-- What an operation is made of besides its operands: its operator, and where it and its list of
operands stand. -/
structure Head where
  origin : Origin
  operator : Operator
  list : Origin
  deriving DecidableEq

/-- A statement or a part of one. -/
inductive Node where
  | atom (origin : Origin) (atom : Atom)
  | list (origin : Origin) (nodes : List Node)
  | operation (head : Head) (operands : List Node)
  /-- A statement that asks for nothing. -/
  | blankStatement (origin : Origin)
  | statement (origin : Origin) (head : Head) (operands : List Node)

/-- The kinds of nodes. -/
inductive NodeKind where
  | statement
  | operator
  | list
  | identifier
  | null
  | bool
  | string
  | number
  deriving DecidableEq

def NodeKind.name : NodeKind → String
  | statement => "statement"
  | operator => "operator"
  | list => "list"
  | identifier => "identifier"
  | null => "null"
  | bool => "bool"
  | string => "string"
  | number => "number"

namespace Atom

def kind : Atom → NodeKind
  | identifier _ => .identifier
  | null => .null
  | bool _ => .bool
  | string _ => .string
  | number _ => .number

/-- How the atom is written. Literals keep the spelling that they were read from. -/
def spelling : Atom → String
  | identifier name => name
  | null => "null"
  | bool true => "true"
  | bool false => "false"
  | string literal => literal.quoted
  | number numeral => numeral.text

/-- A name without characters is no content; a literal always is, even an empty one. -/
def isEmpty : Atom → Bool
  | identifier name => name.isEmpty
  | _ => false

end Atom

/-- The operation's list of operands, as a node of its own. -/
def Head.operandList (head : Head) (operands : List Node) : Node :=
  .list head.list operands

namespace Node

def kind : Node → NodeKind
  | atom _ a => a.kind
  | list _ _ => .list
  | operation _ _ => .operator
  | blankStatement _ | statement _ _ _ => .statement

def origin : Node → Origin
  | atom o _ | list o _ | blankStatement o | statement o _ _ => o
  | operation head _ => head.origin

/-- The byte offset that the node starts at. -/
def pos (node : Node) : Nat := node.origin.pos

/-- The source that the node belongs to. -/
def source (node : Node) : Option Source := node.origin.source

/-! ## Canonical form -/

mutual

/-- The node's canonical form: no blanks, one comma between two operands, and every literal as it
was written. -/
def spelling : Node → List Char
  | atom _ a => a.spelling.toList
  | list _ nodes => '(' :: spellings nodes ++ [')']
  | operation head operands => head.operator.keyword.toList ++ '(' :: spellings operands ++ [')']
  | blankStatement _ => []
  | statement _ head operands =>
    head.operator.keyword.toList ++ '(' :: spellings operands ++ [')']

/-- The canonical forms of a row of nodes, with commas between them. -/
def spellings : List Node → List Char
  | [] => []
  | [node] => node.spelling
  | node :: nodes => node.spelling ++ ',' :: spellings nodes

end

/-- The node's canonical form as a text. -/
def canonical (node : Node) : String :=
  String.ofList node.spelling

/-! ## Emptiness -/

mutual

/-- Whether the node holds nothing but space. A list without elements is content, while a list
whose elements are all empty is not; an operation is as empty as its operands. -/
def isEmpty : Node → Bool
  | atom _ a => a.isEmpty
  | list _ nodes => !nodes.isEmpty && allEmpty nodes
  | operation _ operands => !operands.isEmpty && allEmpty operands
  | blankStatement _ => true
  | statement _ _ operands => !operands.isEmpty && allEmpty operands

/-- Whether every node of the row is empty. -/
def allEmpty : List Node → Bool
  | [] => true
  | node :: nodes => node.isEmpty && allEmpty nodes

end

/-! ## Origins -/

mutual

/-- The same node with every origin in it changed, at any depth. -/
def mapOrigins (f : Origin → Origin) : Node → Node
  | atom o a => atom (f o) a
  | list o nodes => list (f o) (mapAllOrigins f nodes)
  | operation head operands =>
    operation ⟨f head.origin, head.operator, f head.list⟩ (mapAllOrigins f operands)
  | blankStatement o => blankStatement (f o)
  | statement o head operands =>
    statement (f o) ⟨f head.origin, head.operator, f head.list⟩ (mapAllOrigins f operands)

/-- The same row of nodes with every origin in it changed, at any depth. -/
def mapAllOrigins (f : Origin → Origin) : List Node → List Node
  | [] => []
  | node :: nodes => node.mapOrigins f :: mapAllOrigins f nodes

end

/-- A copy of the node that belongs to the source, with everything in it. -/
def bind (source : Source) (node : Node) : Node :=
  node.mapOrigins (Origin.bind source)

end Node

end ResourceQuery
