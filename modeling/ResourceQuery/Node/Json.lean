import ResourceQuery.Json
import ResourceQuery.Node

/-! Nodes as JSON. Every node is an object with its kind and its position, and members in
ascending order of their keys. -/

namespace ResourceQuery

/-- A member for a form of a number, if the number has the form. -/
def formMember (key : String) : Option Json → List (String × Json)
  | some value => [(key, value)]
  | none => []

/-- A number carries those of its forms that can hold it. -/
def Numeral.toJson (numeral : Numeral) (pos : Nat) : Json :=
  .object <|
    formMember "float" (numeral.float.map .float) ++ formMember "int" (numeral.int.map .integer) ++
    [("kind", .string "number"), ("pos", .integer pos), ("text", .string numeral.text)] ++
    formMember "uint" (numeral.uint.map fun value => .integer value)

def Atom.toJson (pos : Nat) : Atom → Json
  | identifier name =>
    .object [("kind", .string "identifier"), ("name", .string name), ("pos", .integer pos)]
  | null => .object [("kind", .string "null"), ("pos", .integer pos)]
  | bool value => .object [("kind", .string "bool"), ("pos", .integer pos), ("value", .bool value)]
  | string literal =>
    .object [("kind", .string "string"), ("pos", .integer pos), ("quoted", .string literal.quoted),
      ("text", .string literal.text)]
  | number numeral => numeral.toJson pos

/-- An operation, with the JSON of its operands. The list of operands is no object of its own. -/
def Head.toJson (head : Head) (operands : List Json) : Json :=
  .object [("kind", .string "operator"), ("logical", .bool head.operator.isLogical),
    ("operands", .array operands), ("operator", .string head.operator.keyword),
    ("pos", .integer head.origin.pos)]

namespace Node

mutual

/-- The node as a JSON value. -/
def toJson : Node → Json
  | atom o a => a.toJson o.pos
  | list o nodes =>
    .object [("kind", .string "list"), ("nodes", .array (allToJson nodes)), ("pos", .integer o.pos)]
  | operation head operands => head.toJson (allToJson operands)
  | blankStatement o =>
    .object [("kind", .string "statement"), ("operator", .null), ("pos", .integer o.pos)]
  | statement o head operands =>
    .object [("kind", .string "statement"), ("operator", head.toJson (allToJson operands)),
      ("pos", .integer o.pos)]

/-- A row of nodes as JSON values. -/
def allToJson : List Node → List Json
  | [] => []
  | node :: nodes => node.toJson :: allToJson nodes

end

end Node

end ResourceQuery
