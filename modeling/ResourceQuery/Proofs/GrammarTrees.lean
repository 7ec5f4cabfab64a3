import ResourceQuery.Draft
import ResourceQuery.Proofs.Grammar

/-! Which derivations stand for a tree, and for how many. A derivation stands for one exactly if all
of its literals have values (`statement_builds_iff`), and never for two (`statement_builds_unique`).
Where the nodes are said to stand changes nothing but their origins. -/
namespace ResourceQuery.Grammar
open LexemeSpelling (isLeaf Fits)

/-- Every number and every string among the tokens has a value. -/
def Convert (tokens : List Token) : Prop :=
  ∀ token ∈ tokens, (token.kind = .number → ∃ numeral, Numeral.read token.text = .ok numeral) ∧
    (token.kind = .string → ∃ literal, StringLiteral.read token.text = .ok literal)

/-- The text of every token is one that its kind allows. -/
def AllFit (tokens : List Token) : Prop := ∀ token ∈ tokens, Fits token.kind token.text

variable {place : Nat → Origin}

/-! ## Leaves -/

variable {token : Token} {atom other : Atom}

theorem literal_quoted {text : String} {literal : StringLiteral}
    (value : StringLiteral.read text = .ok literal) : literal.quoted = text := by
  unfold StringLiteral.read at value
  split at value <;> cases value
  rfl

theorem numeral_text {text : String} {numeral : Numeral}
    (value : Numeral.read text = .ok numeral) : numeral.text = text := by
  unfold Numeral.read at value
  dsimp only at value
  split at value
  · cases value
    rfl
  · cases value
    rfl
  · unfold Numeral.readFloat at value
    repeat' split at value
    all_goals cases value
    rfl

/-- The atom of a leaf is spelled as the token is. -/
theorem leaf_spelling (leaf : Leaf token atom) : atom.spelling = token.text := by
  cases leaf with
  | identifier kind => rfl
  | null kind text => exact text.symm
  | @bool value _ kind text => cases value <;> exact text.symm
  | string kind value => exact literal_quoted value
  | number kind value => exact numeral_text value

theorem leaf_kind (leaf : Leaf token atom) : isLeaf token.kind = true := by
  cases leaf with
  | identifier kind | null kind | bool kind | string kind | number kind => rw [kind]; rfl

/-- The token of a leaf is taken for the leaf's atom. -/
theorem atom_of_leaf (leaf : Leaf token atom) : token.atom? = some (.ok atom) := by
  cases leaf with
  | identifier kind | null kind => simp [Token.atom?, kind]
  | @bool value _ kind text => cases value <;> simp [Token.atom?, kind, text]
  | string kind value | number kind value => simp [Token.atom?, kind, value, Except.map]

/-- And no token is taken for anything else. -/
theorem leaf_of_atom (fits : Fits token.kind token.text) (spells : token.atom? = some (.ok atom)) :
    Leaf token atom := by
  unfold Token.atom? at spells
  split at spells
  · cases spells
    exact .identifier ‹_›
  · rename_i kind
    cases spells
    rw [kind] at fits
    exact .null kind fits
  · rename_i kind
    cases spells
    rw [kind] at fits
    refine .bool kind ?_
    rcases fits with text | text <;> simp [text]
  · rename_i kind
    cases value : StringLiteral.read token.text with
    | error fault => rw [value] at spells; cases spells
    | ok literal =>
      rw [value] at spells
      cases spells
      exact .string kind value
  · rename_i kind
    cases value : Numeral.read token.text with
    | error fault => rw [value] at spells; cases spells
    | ok numeral =>
      rw [value] at spells
      cases spells
      exact .number kind value
  · cases spells

theorem leaf_unique (one : Leaf token atom) (second : Leaf token other) : atom = other := by
  have same := (atom_of_leaf one).symm.trans (atom_of_leaf second)
  injection same with same
  injection same

/-- A leaf has an atom exactly if it has a value where it needs one. -/
theorem leaf_iff (fits : Fits token.kind token.text) (leaf : isLeaf token.kind = true) :
    (∃ atom, Leaf token atom) ↔ Convert [token] := by
  constructor
  · rintro ⟨atom, leaf⟩ token' member
    obtain rfl := List.mem_singleton.mp member
    cases leaf with
    | identifier kind | null kind | bool kind => simp [kind]
    | string kind value | number kind value => simp [kind, value]
  · intro convert
    obtain ⟨number, string⟩ := convert token (List.mem_singleton_self token)
    cases kind : token.kind with
    | identifier => exact ⟨_, .identifier kind⟩
    | null => exact ⟨_, .null kind (by simpa [kind, Fits] using fits)⟩
    | bool =>
      rw [kind] at fits
      rcases fits with text | text
      · exact ⟨.bool true, .bool kind text⟩
      · exact ⟨.bool false, .bool kind text⟩
    | string =>
      obtain ⟨literal, value⟩ := string kind
      exact ⟨_, .string kind value⟩
    | number =>
      obtain ⟨numeral, value⟩ := number kind
      exact ⟨_, .number kind value⟩
    | leftParen | rightParen | comma | blank | finish | operator | fault =>
      rw [kind] at leaf
      cases leaf

/-! ## Derivations with values for all their literals -/

variable {front back : List Token}

theorem convert_nil : Convert [] := fun _ member => absurd member List.not_mem_nil

theorem convert_append : Convert (front ++ back) ↔ Convert front ∧ Convert back :=
  List.forall_mem_append

theorem convert_cons {tokens : List Token} :
    Convert (token :: tokens) ↔ Convert [token] ∧ Convert tokens := by
  rw [← List.singleton_append, convert_append]

/-- Only numbers and strings have to be converted. -/
theorem convert_terminal {kind : TokenKind} (terminal : Terminal kind)
    (other : kind ≠ .number ∧ kind ≠ .string) : Convert [terminal.val] := by
  intro token member
  obtain rfl := List.mem_singleton.mp member
  rw [terminal.property]
  exact ⟨fun number => absurd number other.1, fun string => absurd string other.2⟩

theorem allFit_append : AllFit (front ++ back) ↔ AllFit front ∧ AllFit back :=
  List.forall_mem_append

mutual

theorem value_builds_iff (value : Value) (fits : AllFit value.yield) :
    (∃ node, value.Builds place node) ↔ Convert value.yield := by
  cases value with
  | leaf token leaf =>
    rw [Value.yield, ← leaf_iff (fits token (List.mem_singleton_self token)) leaf]
    constructor
    · rintro ⟨node, built⟩
      cases built with
      | leaf spells => exact ⟨_, spells⟩
    · rintro ⟨atom, spells⟩
      exact ⟨_, .leaf spells⟩
  | operation operation =>
    rw [Value.yield, ← operation_builds_iff operation fits]
    constructor
    · rintro ⟨node, built⟩
      cases built with
      | operation built => exact ⟨_, _, built⟩
    · rintro ⟨head, operands, built⟩
      exact ⟨_, .operation built⟩
  | list opening row closing =>
    have inside := (allFit_append.mp (List.forall_mem_cons.mp fits).2).1
    rw [Value.yield, convert_cons, convert_append, ← row_builds_iff row inside]
    constructor
    · rintro ⟨node, built⟩
      cases built with
      | list elements =>
        exact ⟨convert_terminal opening (by simp), ⟨_, elements⟩,
          convert_terminal closing (by simp)⟩
    · rintro ⟨-, ⟨nodes, elements⟩, -⟩
      exact ⟨_, .list elements⟩
termination_by structural value

theorem operation_builds_iff (operation : Operation) (fits : AllFit operation.yield) :
    (∃ head operands, operation.Builds place head operands) ↔ Convert operation.yield := by
  obtain ⟨operator, keyword, opening, row, closing⟩ := operation
  have behind := (List.forall_mem_cons.mp (List.forall_mem_cons.mp fits).2).2
  have fixed : Convert [keyword.val] ∧ Convert [opening.val] ∧ Convert [closing.val] :=
    ⟨convert_terminal keyword (by simp), convert_terminal opening (by simp),
      convert_terminal closing (by simp)⟩
  have inside : Convert (Operation.mk operator keyword opening row closing).yield ↔
      Convert row.yield := by
    rw [Operation.yield, convert_cons, @convert_cons opening.val, convert_append]
    exact ⟨fun all => all.2.2.1, fun inside => ⟨fixed.1, fixed.2.1, inside, fixed.2.2⟩⟩
  rw [inside, ← row_builds_iff row (allFit_append.mp behind).1]
  constructor
  · rintro ⟨head, operands, built⟩
    cases built with
    | mk elements => exact ⟨_, elements⟩
  · rintro ⟨nodes, elements⟩
    exact ⟨_, _, .mk elements⟩
termination_by structural operation

theorem row_builds_iff (row : Row) (fits : AllFit row.yield) :
    (∃ nodes, row.Builds place nodes) ↔ Convert row.yield := by
  cases row with
  | empty => exact ⟨fun _ => convert_nil, fun _ => ⟨[], .empty⟩⟩
  | values value rest =>
    have parts := allFit_append.mp fits
    rw [Row.yield, convert_append, ← value_builds_iff value parts.1, ← rest_builds_iff rest parts.2]
    constructor
    · rintro ⟨nodes, built⟩
      cases built with
      | values first others => exact ⟨⟨_, first⟩, _, others⟩
    · rintro ⟨⟨node, first⟩, nodes, others⟩
      exact ⟨_, .values first others⟩
termination_by structural row

theorem rest_builds_iff (rest : Rest) (fits : AllFit rest.yield) :
    (∃ nodes, rest.Builds place nodes) ↔ Convert rest.yield := by
  cases rest with
  | done => exact ⟨fun _ => convert_nil, fun _ => ⟨[], .done⟩⟩
  | trailing comma => exact ⟨fun _ => convert_terminal comma (by simp), fun _ => ⟨[], .trailing⟩⟩
  | next comma value rest =>
    have parts := allFit_append.mp (List.forall_mem_cons.mp fits).2
    rw [Rest.yield, convert_cons, convert_append, ← value_builds_iff value parts.1,
      ← rest_builds_iff rest parts.2]
    constructor
    · rintro ⟨nodes, built⟩
      cases built with
      | next first others => exact ⟨convert_terminal comma (by simp), ⟨_, first⟩, _, others⟩
    · rintro ⟨-, ⟨node, first⟩, nodes, others⟩
      exact ⟨_, .next first others⟩
termination_by structural rest

end

/-- A derivation stands for a tree exactly if all of its literals have values. -/
theorem statement_builds_iff (statement : Statement) (fits : AllFit statement.yield) :
    (∃ node, statement.Builds place node) ↔ Convert statement.yield := by
  obtain ⟨operation, ending⟩ := statement
  have plain := convert_terminal ending (by simp)
  cases operation with
  | none => exact ⟨fun _ => plain, fun _ => ⟨_, .blank⟩⟩
  | some operation =>
    have whole : Statement.yield ⟨some operation, ending⟩ = operation.yield ++ [ending.val] := rfl
    rw [whole] at fits ⊢
    rw [convert_append, ← operation_builds_iff operation (allFit_append.mp fits).1]
    constructor
    · rintro ⟨node, built⟩
      cases built with
      | operation built => exact ⟨⟨_, _, built⟩, plain⟩
    · rintro ⟨⟨head, operands, built⟩, -⟩
      exact ⟨_, .operation built⟩

/-! ## No derivation stands for two trees -/

mutual

theorem value_builds_unique (value : Value) {node node' : Node} (one : value.Builds place node)
    (second : value.Builds place node') : node = node' := by
  cases one with
  | leaf spells =>
    cases second with
    | leaf spells' => rw [leaf_unique spells spells']
  | operation built =>
    cases second with
    | operation built' =>
      obtain ⟨rfl, rfl⟩ := operation_builds_unique _ built built'
      rfl
  | list elements =>
    cases second with
    | list elements' => rw [row_builds_unique _ elements elements']
termination_by structural value

theorem operation_builds_unique (operation : Operation) {head head' : Head}
    {operands operands' : List Node} (one : operation.Builds place head operands)
    (second : operation.Builds place head' operands') : head = head' ∧ operands = operands' := by
  cases one with
  | mk elements =>
    cases second with
    | mk elements' => exact ⟨rfl, row_builds_unique _ elements elements'⟩
termination_by structural operation

theorem row_builds_unique (row : Row) {nodes nodes' : List Node} (one : row.Builds place nodes)
    (second : row.Builds place nodes') : nodes = nodes' := by
  cases one with
  | empty => cases second with
    | empty => rfl
  | values first others =>
    cases second with
    | values first' others' =>
      rw [value_builds_unique _ first first', rest_builds_unique _ others others']
termination_by structural row

theorem rest_builds_unique (rest : Rest) {nodes nodes' : List Node} (one : rest.Builds place nodes)
    (second : rest.Builds place nodes') : nodes = nodes' := by
  cases one with
  | done => cases second with
    | done => rfl
  | trailing => cases second with
    | trailing => rfl
  | next first others =>
    cases second with
    | next first' others' =>
      rw [value_builds_unique _ first first', rest_builds_unique _ others others']
termination_by structural rest

end

theorem statement_builds_unique {statement : Statement} {node node' : Node}
    (one : statement.Builds place node) (second : statement.Builds place node') : node = node' := by
  cases one with
  | blank => cases second with
    | blank => rfl
  | operation built =>
    cases second with
    | operation built' =>
      obtain ⟨rfl, rfl⟩ := operation_builds_unique _ built built'
      rfl

/-! ## Other origins -/

variable {change : Origin → Origin}

mutual

theorem value_builds_map (value : Value) {node : Node} (built : value.Builds place node) :
    value.Builds (fun pos => change (place pos)) (node.mapOrigins change) := by
  cases built with
  | leaf spells => exact .leaf spells
  | operation built => exact .operation (operation_builds_map _ built)
  | list elements => exact .list (row_builds_map _ elements)
termination_by structural value

theorem operation_builds_map (operation : Operation) {head : Head} {operands : List Node}
    (built : operation.Builds place head operands) :
    operation.Builds (fun pos => change (place pos))
      ⟨change head.origin, head.operator, change head.list⟩
      (Node.mapAllOrigins change operands) := by
  cases built with
  | mk elements => exact .mk (row_builds_map _ elements)
termination_by structural operation

theorem row_builds_map (row : Row) {nodes : List Node} (built : row.Builds place nodes) :
    row.Builds (fun pos => change (place pos)) (Node.mapAllOrigins change nodes) := by
  cases built with
  | empty => exact .empty
  | values first others => exact .values (value_builds_map _ first) (rest_builds_map _ others)
termination_by structural row

theorem rest_builds_map (rest : Rest) {nodes : List Node} (built : rest.Builds place nodes) :
    rest.Builds (fun pos => change (place pos)) (Node.mapAllOrigins change nodes) := by
  cases built with
  | done => exact .done
  | trailing => exact .trailing
  | next first others => exact .next (value_builds_map _ first) (rest_builds_map _ others)
termination_by structural rest

end

/-- Where the tokens are said to stand decides nothing but the origins of the nodes. -/
theorem statement_builds_map (change : Origin → Origin) {statement : Statement} {node : Node}
    (built : statement.Builds place node) :
    statement.Builds (fun pos => change (place pos)) (node.mapOrigins change) := by
  cases built with
  | blank => exact .blank
  | operation built => exact .operation (operation_builds_map _ built)

end ResourceQuery.Grammar
