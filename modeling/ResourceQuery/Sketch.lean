import ResourceQuery.Node

/-! Sketches: nodes written down by hand, with literals given by their spelling. A sketch becomes
a detached node unless one of its literals has no value. -/

namespace ResourceQuery

/-- An atom whose literal is still a spelling. -/
inductive AtomSketch where
  | identifier (name : String)
  | null
  | bool (value : Bool)
  | string (quoted : String)
  | number (text : String)
  deriving DecidableEq

/-- The atom that is sketched. -/
def AtomSketch.build : AtomSketch → Except LiteralFault Atom
  | identifier name => .ok (.identifier name)
  | null => .ok .null
  | bool value => .ok (.bool value)
  | string quoted => (StringLiteral.read quoted).map .string
  | number text => (Numeral.read text).map .number

/-- An operator with the offsets of itself and of its list of operands. -/
structure HeadSketch where
  pos : Nat
  operator : Operator
  listPos : Nat
  deriving DecidableEq

/-- The head that is sketched, in no source. -/
def HeadSketch.build (head : HeadSketch) : Head :=
  ⟨.detached head.pos, head.operator, .detached head.listPos⟩

/-- A node with offsets in place of origins. -/
inductive Sketch where
  | atom (pos : Nat) (atom : AtomSketch)
  | list (pos : Nat) (nodes : List Sketch)
  | operation (head : HeadSketch) (operands : List Sketch)
  | blankStatement (pos : Nat)
  | statement (pos : Nat) (head : HeadSketch) (operands : List Sketch)

namespace Sketch

mutual

/-- The node that is sketched. The first literal without a value is the one that is reported. -/
def build : Sketch → Except LiteralFault Node
  | atom pos a => do return .atom (.detached pos) (← a.build)
  | list pos nodes => do return .list (.detached pos) (← buildAll nodes)
  | operation head operands => do return .operation head.build (← buildAll operands)
  | blankStatement pos => .ok (.blankStatement (.detached pos))
  | statement pos head operands => do
    return .statement (.detached pos) head.build (← buildAll operands)

/-- The nodes that are sketched in a row. -/
def buildAll : List Sketch → Except LiteralFault (List Node)
  | [] => .ok []
  | sketch :: sketches => do return (← sketch.build) :: (← buildAll sketches)

end

end Sketch

end ResourceQuery
