/-! The operators of the language. Each has one lower-case keyword, and no other word is an
operator. -/

namespace ResourceQuery

/-- What a statement, or a part of it, asks for. -/
inductive Operator where
  /-- All operands hold. -/
  | conjunction
  /-- At least one operand holds. -/
  | disjunction
  | equal
  | notEqual
  | less
  | greater
  | atMost
  | atLeast
  /-- The first operand is among the remaining ones. -/
  | member
  deriving DecidableEq

namespace Operator

/-- Every operator, in the order of their documentation. -/
def all : List Operator :=
  [conjunction, disjunction, equal, notEqual, less, greater, atMost, atLeast, member]

/-- The word that stands for the operator. -/
def keyword : Operator → String
  | conjunction => "and"
  | disjunction => "or"
  | equal => "eq"
  | notEqual => "ne"
  | less => "lt"
  | greater => "gt"
  | atMost => "le"
  | atLeast => "ge"
  | member => "in"

/-- The operator that a word stands for. Case matters. -/
def ofKeyword? (word : String) : Option Operator :=
  all.find? fun operator => operator.keyword == word

/-- The place of the operator among all operators, counted from zero. -/
def index (operator : Operator) : Nat :=
  all.idxOf operator

/-- Whether the operator combines whole predicates instead of comparing values. -/
def isLogical : Operator → Bool
  | conjunction | disjunction => true
  | _ => false

theorem mem_all (operator : Operator) : operator ∈ all := by
  cases operator <;> decide

theorem ofKeyword?_keyword (operator : Operator) : ofKeyword? operator.keyword = some operator := by
  cases operator <;> decide

theorem keyword_of_ofKeyword? {word : String} {operator : Operator}
    (found : ofKeyword? word = some operator) : operator.keyword = word := by
  have := List.find?_some found
  simpa using this

end Operator

end ResourceQuery
