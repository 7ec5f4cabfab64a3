/-! The manual: an overview of its categories, and one page for each. -/

namespace ResourceQuery

namespace Manual

/-- The subjects that the manual has a page for. -/
inductive Category where
  | grammar
  | operators
  | literals
  | errors
  deriving DecidableEq

/-- The names that a category goes by. -/
def Category.names : Category → List String
  | grammar => ["syntax", "grammar"]
  | operators => ["operators", "ops"]
  | literals => ["literals", "values", "types"]
  | errors => ["errors", "diagnostics"]

/-- Every category, in the order of the overview. -/
def Category.all : List Category :=
  [grammar, operators, literals, errors]

/-- A name as it is compared: in lower case, and with underscores for hyphens. Only the letters A
to Z have to be lowered, because no name of a category holds the lower case of any other letter.
-/
def foldName (name : String) : String :=
  String.ofList (name.toList.map fun c => if c = '-' then '_' else c.toLower)

/-- The category with the given name. -/
def Category.ofName? (name : String) : Option Category :=
  all.find? fun category => category.names.contains (foldName name)

/-- The list of categories. -/
def overview : String :=
"RQL DOCUMENTATION

RQL is a resource query language for filter predicates. Statements are
written in prefix form: an operator followed by a parenthesized operand list.

DOCUMENTATION CATEGORIES

  syntax            Statement structure, lists, and whitespace
  operators         The nine operator keywords and their operands
  literals          Identifiers, strings, numbers, booleans, and null
  errors            How parse errors are reported

QUICK REFERENCE

  eq(id,12)                         Comparison
  and(eq(a,1),or(lt(b,2),gt(b,9)))  Nesting
  in(name,(\"Jason\",\"Kevin\"))        Membership with a value list

Run 'rql doc <category>' for detailed documentation.
"

/-- How statements are built. -/
def grammarPage : String :=
"SYNTAX - Statement Structure

STATEMENT
  statement := operator? EOF
    A statement is a single operator, or nothing at all. Empty and
    whitespace-only statements are valid and have no operator.

OPERATOR
  operator := OPERATOR '(' list ')'

    Example:
      eq(id,12)

LIST
  list := (value (',' value)*)? ','?
    Values are separated by commas. A trailing comma before ')' is allowed.
    An operator may have no operands at all: and()

VALUE
  value := IDENT | STRING | NUMBER | BOOL | NULL | operator | '(' list ')'
    A parenthesized list not preceded by an operator is a value list:
      in(id,(1,2,3))

WHITESPACE
    Spaces, tabs, and newlines may appear between any two tokens and are
    ignored. Carriage returns are not whitespace.

NESTING
    At most 128 lists may be open at once. Operator operand lists and
    value lists both count.

CANONICAL FORM
    'rql check' prints statements without whitespace and with bare commas:
      and( eq(id, 12) )   ->   and(eq(id,12))
"

/-- What each operator asks for. -/
def operatorsPage : String :=
"OPERATORS

LOGICAL
  and(p1, p2, ...)    All predicates hold
  or(p1, p2, ...)     At least one predicate holds

COMPARISON
  eq(field, value)    Equal
  ne(field, value)    Not equal
  lt(field, value)    Less than
  gt(field, value)    Greater than
  le(field, value)    Less than or equal
  ge(field, value)    Greater than or equal

MEMBERSHIP
  in(field, (v1, v2, ...))
    Operand 0 is the field; the remaining operands form the candidate set.

Operator keywords are lowercase and case-sensitive.
"

/-- How values are written. -/
def literalsPage : String :=
"LITERALS

IDENTIFIERS
  first_name   user.age   _id
    Letters, digits, '_' and '.'. Must not start with a digit or '.'.

STRINGS
  \"Jason\"   \"say \\\"hi\\\"\"   \"tab\\there\"
    Double quotes only. Escapes: \\a \\b \\f \\n \\r \\t \\v \\\\ \\\" \\xHH \\NNN
    \\uHHHH \\UHHHHHHHH. A raw newline inside a string is an error.

NUMBERS
  12   -12.3   +1.2   .50   073
    Optional sign, digits, optional fraction. Each number is stored as
    every representation that holds it exactly: 100 is int, uint and
    float; -73 has no uint form; 18446744073709551615 only fits uint.
    A leading 0 means octal. An integer too large for 64 bits is an error
    unless written with a fraction.

BOOLEANS AND NULL
  true   false   null
"

/-- What is reported about a text that is no statement. -/
def errorsPage : String :=
"ERRORS

The first problem aborts the parse. Errors print as

  statement: <name>:<line>: <message>

followed by the location <name>:<line>:<column> of the offending token.

CATEGORIES
  lexical   unrecognized character, unterminated string, bad number,
            unbalanced parentheses
  syntax    a token in a position the grammar does not allow, a token
            after the operator, lists nested deeper than 128 levels
  literal   number that fits no representation, bad string escape

EXAMPLE
  $ rql check 'eq(id 12)'
  statement: root:1: unexpected \"12\" in comma or right parentheses
    at root:1:7

  $ rql check 'eq(id,12) x'
  statement: root:1: unexpected token after operator: \"x\"
    at root:1:11
"

/-- The page of a category. -/
def Category.page : Category → String
  | grammar => grammarPage
  | operators => operatorsPage
  | literals => literalsPage
  | errors => errorsPage

end Manual

end ResourceQuery
