import ResourceQuery.Node

/-! Equality of nodes by value. Two nodes are alike if everything that can be seen of them is
equal: positions, names and texts of sources, spellings and values. Only the identity of sources
does not count, and floating-point values are compared as numbers. -/

namespace ResourceQuery

def Numeral.alike (a b : Numeral) : Bool :=
  a.text == b.text && a.int == b.int && a.uint == b.uint &&
    match a.float, b.float with
    | some x, some y => x.same y
    | none, none => true
    | _, _ => false

def Atom.alike : Atom → Atom → Bool
  | number a, number b => a.alike b
  | a, b => a == b

def Head.alike (a b : Head) : Bool :=
  a.origin.alike b.origin && a.operator == b.operator && a.list.alike b.list

namespace Node

mutual

/-- Whether the nodes are equal by value. -/
def alike : Node → Node → Bool
  | atom o a, atom p b => o.alike p && a.alike b
  | list o xs, list p ys => o.alike p && allAlike xs ys
  | operation h xs, operation k ys => h.alike k && allAlike xs ys
  | blankStatement o, blankStatement p => o.alike p
  | statement o h xs, statement p k ys => o.alike p && h.alike k && allAlike xs ys
  | _, _ => false

/-- Whether the rows have equally many nodes, and these are equal by value one by one. -/
def allAlike : List Node → List Node → Bool
  | [], [] => true
  | x :: xs, y :: ys => x.alike y && allAlike xs ys
  | _, _ => false

end

end Node

end ResourceQuery
