import Mathlib.Data.List.Basic
import ResourceQuery.Node
import ResourceQuery.Proofs.LexemeSpelling

/-! The grammar of statements, over tokens without blanks, and the tree that a derivation stands
for. Nothing here mentions how statements are read.

    statement := operation? EOF
    operation := OPERATOR '(' list ')'
    list      := empty | value (',' value)* ','?
    value     := IDENT | STRING | NUMBER | BOOL | NULL | operation | '(' list ')'

A derivation holds the tokens at its leaves, each of the kind that its place wants. No two
derivations have the same tokens (`statement_unique`), and how deep its lists nest is how many
parentheses its tokens leave open at most (`statement_nests`). -/
namespace ResourceQuery.Grammar
open LexemeSpelling (isLeaf)

/-- A token of the kind. -/
abbrev Terminal (kind : TokenKind) := { token : Token // token.kind = kind }

mutual

/-- `IDENT | STRING | NUMBER | BOOL | NULL | operation | '(' list ')'` -/
inductive Value where
  | leaf (token : Token) (kind : isLeaf token.kind = true)
  | operation (operation : Operation)
  | list (opening : Terminal .leftParen) (row : Row) (closing : Terminal .rightParen)

/-- `OPERATOR '(' list ')'` -/
inductive Operation where
  | mk (operator : Operator) (keyword : Terminal (.operator operator))
      (opening : Terminal .leftParen) (row : Row) (closing : Terminal .rightParen)

/-- `empty | value (',' value)* ','?` -/
inductive Row where
  | empty
  | values (value : Value) (rest : Rest)

/-- `(',' value)* ','?` -/
inductive Rest where
  | done
  | trailing (comma : Terminal .comma)
  | next (comma : Terminal .comma) (value : Value) (rest : Rest)

end

/-- `operation? EOF` -/
structure Statement where
  operation : Option Operation
  finish : Terminal .finish

/-! ## Tokens -/

mutual

/-- The tokens of a derivation, in order. -/
def Value.yield : Value → List Token
  | .leaf token _ => [token]
  | .operation operation => operation.yield
  | .list opening row closing => opening.val :: (row.yield ++ [closing.val])

def Operation.yield : Operation → List Token
  | .mk _ keyword opening row closing =>
    keyword.val :: opening.val :: (row.yield ++ [closing.val])

def Row.yield : Row → List Token
  | .empty => []
  | .values value rest => value.yield ++ rest.yield

def Rest.yield : Rest → List Token
  | .done => []
  | .trailing comma => [comma.val]
  | .next comma value rest => comma.val :: (value.yield ++ rest.yield)

end

def Statement.yield (statement : Statement) : List Token :=
  (statement.operation.map Operation.yield).getD [] ++ [statement.finish.val]

/-! ## Trees -/

/-- The atom that a token stands for has the token's spelling and the value that this spells. -/
inductive Leaf : Token → Atom → Prop where
  | identifier (kind : token.kind = .identifier) : Leaf token (.identifier token.text)
  | null (kind : token.kind = .null) (text : token.text = "null") : Leaf token .null
  | bool (kind : token.kind = .bool) (text : token.text = if value then "true" else "false") :
      Leaf token (.bool value)
  | string (kind : token.kind = .string) (value : StringLiteral.read token.text = .ok literal) :
      Leaf token (.string literal)
  | number (kind : token.kind = .number) (value : Numeral.read token.text = .ok numeral) :
      Leaf token (.number numeral)

section
variable (place : Nat → Origin)

mutual

/-- The node of a value. It stands where its first token does; the commas, and the parentheses that
close lists, leave no trace. -/
inductive Value.Builds : Value → Node → Prop where
  | leaf (spells : Leaf token atom) :
      Value.Builds (.leaf token kind) (.atom (place token.pos) atom)
  | operation (operation : Operation.Builds derivation head operands) :
      Value.Builds (.operation derivation) (.operation head operands)
  | list (elements : Row.Builds row nodes) :
      Value.Builds (.list opening row closing) (.list (place opening.val.pos) nodes)

inductive Operation.Builds : Operation → Head → List Node → Prop where
  | mk (elements : Row.Builds row operands) :
      Operation.Builds (.mk operator keyword opening row closing)
        ⟨place keyword.val.pos, operator, place opening.val.pos⟩ operands

/-- The nodes of a list, one for each value, in order. -/
inductive Row.Builds : Row → List Node → Prop where
  | empty : Row.Builds .empty []
  | values (first : Value.Builds value node) (others : Rest.Builds rest nodes) :
      Row.Builds (.values value rest) (node :: nodes)

inductive Rest.Builds : Rest → List Node → Prop where
  | done : Rest.Builds .done []
  | trailing : Rest.Builds (.trailing comma) []
  | next (first : Value.Builds value node) (others : Rest.Builds rest nodes) :
      Rest.Builds (.next comma value rest) (node :: nodes)

end

/-- The node of a statement, which stands at the first byte. -/
inductive Statement.Builds : Statement → Node → Prop where
  | blank : Statement.Builds ⟨none, ending⟩ (.blankStatement (place 0))
  | operation (operation : Operation.Builds place derivation head operands) :
      Statement.Builds ⟨some derivation, ending⟩ (.statement (place 0) head operands)

end

/-! ## No two derivations have the same tokens -/

theorem terminal_ext {kind : TokenKind} {one other : Terminal kind} (same : one.val = other.val) :
    one = other := Subtype.ext same

theorem terminal_kind {kind kind' : TokenKind} {one : Terminal kind} {other : Terminal kind'}
    (same : one.val = other.val) : kind = kind' := by
  rw [← one.property, same, other.property]

theorem terminal_leaf {token : Token} {kind : TokenKind} {other : Terminal kind}
    (leaf : isLeaf token.kind = true) (same : token = other.val) : isLeaf kind = true := by
  rw [← other.property, ← same]
  exact leaf

/-- No value starts with the parenthesis that closes a list. -/
theorem value_head (value : Value) (closing : Terminal .rightParen) (rest others : List Token) :
    value.yield ++ rest ≠ closing.val :: others := by
  intro same
  cases value with
  | leaf token leaf => cases terminal_leaf leaf (List.cons.inj same).1
  | operation operation =>
    obtain ⟨operator, keyword, opening, row, closing'⟩ := operation
    cases terminal_kind (List.cons.inj same).1
  | list opening row closing' => cases terminal_kind (List.cons.inj same).1

mutual

/-- Two values at the beginning of the same tokens are the same value, with the same tokens behind
it. -/
theorem value_unique (one other : Value) (rest rest' : List Token)
    (same : one.yield ++ rest = other.yield ++ rest') : one = other ∧ rest = rest' := by
  cases one with
  | leaf token leaf =>
    cases other with
    | leaf token' leaf' =>
      obtain ⟨rfl, rfl⟩ := List.cons.inj same
      exact ⟨rfl, rfl⟩
    | operation operation' =>
      obtain ⟨operator, keyword, opening, row, closing⟩ := operation'
      cases terminal_leaf leaf (List.cons.inj same).1
    | list opening row closing => cases terminal_leaf leaf (List.cons.inj same).1
  | operation operation =>
    cases other with
    | leaf token leaf =>
      obtain ⟨operator, keyword, opening, row, closing⟩ := operation
      cases terminal_leaf leaf (List.cons.inj same).1.symm
    | operation operation' =>
      obtain ⟨rfl, rfl⟩ := operation_unique operation operation' rest rest' same
      exact ⟨rfl, rfl⟩
    | list opening' row' closing' =>
      obtain ⟨operator, keyword, opening, row, closing⟩ := operation
      cases terminal_kind (List.cons.inj same).1
  | list opening row closing =>
    cases other with
    | leaf token leaf => cases terminal_leaf leaf (List.cons.inj same).1.symm
    | operation operation' =>
      obtain ⟨operator', keyword', opening', row', closing'⟩ := operation'
      cases terminal_kind (List.cons.inj same).1
    | list opening' row' closing' =>
      simp only [Value.yield, List.cons_append, List.append_assoc, List.cons.injEq] at same
      obtain ⟨rfl, rfl, rfl⟩ := row_unique row row' closing closing' rest rest' same.2
      rw [terminal_ext same.1]
      exact ⟨rfl, rfl⟩
termination_by structural one

theorem operation_unique (one other : Operation) (rest rest' : List Token)
    (same : one.yield ++ rest = other.yield ++ rest') : one = other ∧ rest = rest' := by
  obtain ⟨operator, keyword, opening, row, closing⟩ := one
  obtain ⟨operator', keyword', opening', row', closing'⟩ := other
  simp only [Operation.yield, List.cons_append, List.append_assoc, List.cons.injEq] at same
  obtain ⟨first, second, behind⟩ := same
  obtain ⟨rfl, rfl, rfl⟩ := row_unique row row' closing closing' rest rest' behind
  cases terminal_kind first
  rw [terminal_ext first, terminal_ext second]
  exact ⟨rfl, rfl⟩
termination_by structural one

/-- The parenthesis behind a list decides where the list ends. -/
theorem row_unique (one other : Row) (closing closing' : Terminal .rightParen)
    (rest rest' : List Token)
    (same : one.yield ++ closing.val :: rest = other.yield ++ closing'.val :: rest') :
    one = other ∧ closing = closing' ∧ rest = rest' := by
  cases one with
  | empty =>
    cases other with
    | empty =>
      obtain ⟨first, rfl⟩ := List.cons.inj same
      exact ⟨rfl, terminal_ext first, rfl⟩
    | values value' others' =>
      simp only [Row.yield, List.append_assoc, List.nil_append] at same
      exact absurd same.symm (value_head value' closing _ _)
  | values value others =>
    simp only [Row.yield, List.append_assoc] at same
    cases other with
    | empty => exact absurd same (value_head value closing' _ _)
    | values value' others' =>
      simp only [Row.yield, List.append_assoc] at same
      obtain ⟨rfl, behind⟩ := value_unique value value' _ _ same
      obtain ⟨rfl, rfl, rfl⟩ := rest_unique others others' closing closing' rest rest' behind
      exact ⟨rfl, rfl, rfl⟩
termination_by structural one

theorem rest_unique (one other : Rest) (closing closing' : Terminal .rightParen)
    (rest rest' : List Token)
    (same : one.yield ++ closing.val :: rest = other.yield ++ closing'.val :: rest') :
    one = other ∧ closing = closing' ∧ rest = rest' := by
  cases one with
  | done =>
    cases other with
    | done =>
      obtain ⟨first, rfl⟩ := List.cons.inj same
      exact ⟨rfl, terminal_ext first, rfl⟩
    | trailing comma' | next comma' value' others' => cases terminal_kind (List.cons.inj same).1
  | trailing comma =>
    cases other with
    | done => cases terminal_kind (List.cons.inj same).1
    | trailing comma' =>
      obtain ⟨first, behind⟩ := List.cons.inj same
      obtain ⟨second, rfl⟩ := List.cons.inj behind
      rw [terminal_ext first, terminal_ext second]
      exact ⟨rfl, rfl, rfl⟩
    | next comma' value' others' =>
      simp only [Rest.yield, List.cons_append, List.append_assoc, List.cons.injEq] at same
      exact absurd same.2.symm (value_head value' closing _ _)
  | next comma value others =>
    simp only [Rest.yield, List.cons_append, List.append_assoc] at same
    cases other with
    | done => cases terminal_kind (List.cons.inj same).1
    | trailing comma' => exact absurd (List.cons.inj same).2 (value_head value closing' _ _)
    | next comma' value' others' =>
      simp only [Rest.yield, List.cons_append, List.append_assoc, List.cons.injEq] at same
      obtain ⟨rfl, behind⟩ := value_unique value value' _ _ same.2
      obtain ⟨rfl, rfl, rfl⟩ := rest_unique others others' closing closing' rest rest' behind
      rw [terminal_ext same.1]
      exact ⟨rfl, rfl, rfl⟩
termination_by structural one

end

/-- The grammar is unambiguous. -/
theorem statement_unique {one other : Statement} (same : one.yield = other.yield) :
    one = other := by
  obtain ⟨operation, ending⟩ := one
  obtain ⟨operation', ending'⟩ := other
  cases operation with
  | none =>
    cases operation' with
    | none =>
      obtain rfl : ending = ending' := terminal_ext (List.cons.inj same).1
      rfl
    | some operation' =>
      obtain ⟨operator', keyword', opening', row', closing'⟩ := operation'
      cases terminal_kind (List.cons.inj same).1
  | some operation =>
    cases operation' with
    | none =>
      obtain ⟨operator, keyword, opening, row, closing⟩ := operation
      cases terminal_kind (List.cons.inj same).1
    | some operation' =>
      obtain ⟨rfl, last⟩ := operation_unique operation operation' _ _ same
      obtain rfl : ending = ending' := terminal_ext (List.cons.inj last).1
      rfl

/-! ## Nesting -/

mutual

/-- How many lists of the derivation are open at a time, at most. -/
def Value.height : Value → Nat
  | .leaf _ _ => 0
  | .operation operation => operation.height
  | .list _ row _ => row.height + 1

def Operation.height : Operation → Nat
  | .mk _ _ _ row _ => row.height + 1

def Row.height : Row → Nat
  | .empty => 0
  | .values value rest => max value.height rest.height

def Rest.height : Rest → Nat
  | .done | .trailing _ => 0
  | .next _ value rest => max value.height rest.height

end

def Statement.height (statement : Statement) : Nat :=
  (statement.operation.map Operation.height).getD 0

def opened (tokens : List Token) : Nat := (tokens.map Token.kind).count .leftParen

def closed (tokens : List Token) : Nat := (tokens.map Token.kind).count .rightParen

/-- Where so many parentheses are open already, no beginning of the tokens leaves more open than the
limit. -/
def Within (limit depth : Nat) (tokens : List Token) : Prop :=
  ∀ read, read <+: tokens → depth + opened read ≤ closed read + limit

/-- At no point are more parentheses open than the limit. -/
def NeverDeeper (limit : Nat) (tokens : List Token) : Prop :=
  ∀ read, read <+: tokens → opened read ≤ closed read + limit

variable {limit depth : Nat}

theorem opened_append (front back : List Token) :
    opened (front ++ back) = opened front + opened back := by
  simp [opened, List.count_append]

theorem closed_append (front back : List Token) :
    closed (front ++ back) = closed front + closed back := by
  simp [closed, List.count_append]

def Balanced (tokens : List Token) : Prop := opened tokens = closed tokens

theorem balanced_append {front back : List Token} (first : Balanced front) (last : Balanced back) :
    Balanced (front ++ back) := by
  unfold Balanced at *
  rw [opened_append, closed_append, first, last]

/-- A token that is no parenthesis. -/
theorem balanced_plain {token : Token} (left : token.kind ≠ .leftParen)
    (right : token.kind ≠ .rightParen) : Balanced [token] := by
  simp [Balanced, opened, closed, left, right]

theorem balanced_enclosed {inside : List Token} (balanced : Balanced inside)
    (opening : Terminal .leftParen) (closing : Terminal .rightParen) :
    Balanced (opening.val :: (inside ++ [closing.val])) := by
  unfold Balanced opened closed at *
  simp [List.count_append, opening.property, closing.property, balanced]

theorem within_nil : Within limit depth [] ↔ depth ≤ limit := by
  simp [Within, opened, closed]

theorem within_depth {tokens : List Token} (within : Within limit depth tokens) :
    depth ≤ limit := by
  simpa [opened, closed] using within [] List.nil_prefix

theorem within_single {token : Token} (left : token.kind ≠ .leftParen) :
    Within limit depth [token] ↔ depth ≤ limit := by
  refine ⟨within_depth, fun fits read start => ?_⟩
  obtain rfl | ⟨rest, rfl, nothing⟩ := List.prefix_cons_iff.mp start
  · simpa [opened, closed] using fits
  · obtain rfl := List.prefix_nil.mp nothing
    have none : opened [token] = 0 := by simp [opened, left]
    omega

theorem within_opening (opening : Terminal .leftParen) (tokens : List Token) :
    Within limit depth (opening.val :: tokens) ↔ Within limit (depth + 1) tokens := by
  have first (read : List Token) : opened (opening.val :: read) = opened read + 1 ∧
      closed (opening.val :: read) = closed read := by
    simp [opened, closed, opening.property]
  constructor
  · intro within read start
    have reached := within (opening.val :: read) (List.cons_prefix_cons.mpr ⟨rfl, start⟩)
    rw [(first read).1, (first read).2] at reached
    omega
  · intro within read start
    obtain rfl | ⟨rest, rfl, behind⟩ := List.prefix_cons_iff.mp start
    · have fits := within_depth within
      simp [opened, closed]
      omega
    · have reached := within rest behind
      rw [(first rest).1, (first rest).2]
      omega

theorem within_append {front back : List Token} (balanced : Balanced front) :
    Within limit depth (front ++ back) ↔
      Within limit depth front ∧ Within limit depth back := by
  unfold Balanced at balanced
  constructor
  · intro within
    refine ⟨fun read start => within read (start.trans (List.prefix_append front back)), ?_⟩
    intro read start
    have reached := within (front ++ read) ((List.prefix_append_right_inj front).mpr start)
    rw [opened_append, closed_append] at reached
    omega
  · rintro ⟨first, last⟩ read ⟨behind, split⟩
    obtain ⟨middle, rfl, -⟩ | ⟨middle, rfl, rfl⟩ := List.append_eq_append_iff.mp split
    · exact first read (List.prefix_append read middle)
    · have reached := last middle (List.prefix_append middle behind)
      rw [opened_append, closed_append]
      omega

theorem within_enclosed {inside : List Token} (balanced : Balanced inside)
    (opening : Terminal .leftParen) (closing : Terminal .rightParen) :
    Within limit depth (opening.val :: (inside ++ [closing.val])) ↔
      Within limit (depth + 1) inside := by
  have left : closing.val.kind ≠ .leftParen := by
    rw [closing.property]
    decide
  rw [within_opening, within_append balanced, within_single left]
  exact ⟨And.left, fun within => ⟨within, within_depth within⟩⟩

theorem leaf_plain {kind : TokenKind} (leaf : isLeaf kind = true) :
    kind ≠ .leftParen ∧ kind ≠ .rightParen := by
  constructor <;> rintro rfl <;> cases leaf

theorem terminal_plain {kind : TokenKind} (terminal : Terminal kind)
    (plain : kind ≠ .leftParen ∧ kind ≠ .rightParen) :
    terminal.val.kind ≠ .leftParen ∧ terminal.val.kind ≠ .rightParen := by
  rw [terminal.property]
  exact plain

mutual

theorem value_balanced (value : Value) : Balanced value.yield := by
  cases value with
  | leaf token leaf => exact balanced_plain (leaf_plain leaf).1 (leaf_plain leaf).2
  | operation operation => exact operation_balanced operation
  | list opening row closing => exact balanced_enclosed (row_balanced row) opening closing
termination_by structural value

theorem operation_balanced (operation : Operation) : Balanced operation.yield := by
  obtain ⟨operator, keyword, opening, row, closing⟩ := operation
  have plain := terminal_plain keyword (by simp)
  exact balanced_append (balanced_plain plain.1 plain.2)
    (balanced_enclosed (row_balanced row) opening closing)
termination_by structural operation

theorem row_balanced (row : Row) : Balanced row.yield := by
  cases row with
  | empty => rfl
  | values value rest => exact balanced_append (value_balanced value) (rest_balanced rest)
termination_by structural row

theorem rest_balanced (rest : Rest) : Balanced rest.yield := by
  cases rest with
  | done => rfl
  | trailing comma =>
    have plain := terminal_plain comma (by simp)
    exact balanced_plain plain.1 plain.2
  | next comma value rest =>
    have plain := terminal_plain comma (by simp)
    exact balanced_append (balanced_plain plain.1 plain.2)
      (balanced_append (value_balanced value) (rest_balanced rest))
termination_by structural rest

end

mutual

theorem value_within (value : Value) (depth : Nat) :
    Within limit depth value.yield ↔ depth + value.height ≤ limit := by
  cases value with
  | leaf token leaf => exact within_single (leaf_plain leaf).1
  | operation operation => exact operation_within operation depth
  | list opening row closing =>
    rw [Value.yield, within_enclosed (row_balanced row), row_within row (depth + 1), Value.height]
    omega
termination_by structural value

theorem operation_within (operation : Operation) (depth : Nat) :
    Within limit depth operation.yield ↔ depth + operation.height ≤ limit := by
  obtain ⟨operator, keyword, opening, row, closing⟩ := operation
  have plain := terminal_plain keyword (by simp)
  rw [Operation.yield, ← List.singleton_append,
    within_append (balanced_plain plain.1 plain.2), within_single plain.1,
    within_enclosed (row_balanced row), row_within row (depth + 1), Operation.height]
  omega
termination_by structural operation

theorem row_within (row : Row) (depth : Nat) :
    Within limit depth row.yield ↔ depth + row.height ≤ limit := by
  cases row with
  | empty => exact within_nil
  | values value rest =>
    rw [Row.yield, within_append (value_balanced value), value_within value depth,
      rest_within rest depth, Row.height]
    omega
termination_by structural row

theorem rest_within (rest : Rest) (depth : Nat) :
    Within limit depth rest.yield ↔ depth + rest.height ≤ limit := by
  cases rest with
  | done => exact within_nil
  | trailing comma => exact within_single (terminal_plain comma (by simp)).1
  | next comma value rest =>
    have plain := terminal_plain comma (by simp)
    rw [Rest.yield, ← List.singleton_append, within_append (balanced_plain plain.1 plain.2),
      within_single plain.1, within_append (value_balanced value), value_within value depth,
      rest_within rest depth, Rest.height]
    omega
termination_by structural rest

end

/-- How deep the lists of a statement nest shows in its tokens. -/
theorem statement_nests (statement : Statement) :
    NeverDeeper limit statement.yield ↔ statement.height ≤ limit := by
  have unopened : NeverDeeper limit statement.yield ↔ Within limit 0 statement.yield := by
    simp only [NeverDeeper, Within, Nat.zero_add]
  obtain ⟨operation, ending⟩ := statement
  have plain := terminal_plain ending (by simp)
  cases operation with
  | none => exact unopened.trans (within_single plain.1)
  | some operation =>
    have whole : Statement.yield ⟨some operation, ending⟩ = operation.yield ++ [ending.val] := rfl
    have height : Statement.height ⟨some operation, ending⟩ = operation.height := rfl
    rw [unopened, whole, height, within_append (operation_balanced operation),
      operation_within operation 0, within_single plain.1]
    omega

end ResourceQuery.Grammar
