import ResourceQuery.Proofs.CanonicalTokens
import ResourceQuery.Proofs.StringSpellings

/-! Statements that nobody read: nodes put together by hand, at any origins. Their canonical form is
read as the same statement as long as it can be, which is when their names and numbers are tokens by
themselves, no statement stands inside, and no more lists nest than a reader opens
(`hand_built_reparses`). Nothing is asked of the strings but that they have a value. The proof makes
up the tokens that the statement would have been read from, and takes its derivation from them. -/

namespace ResourceQuery.HandBuilt
open Draft (depthLimit)
open CanonicalRoundTrip Grammar GrammarExactness LexemeSpelling StringSpellings

/-! ## What can be built -/

/-- The text is one token of the kind, and nothing else. -/
def IsToken (kind : TokenKind) (text : String) : Prop :=
  ∃ token finish, Stream.ofText text = ⟨[token], finish⟩ ∧ token.kind = kind ∧
    finish.kind = .finish

/-- An operand without a statement in it, of which the literals have values and the names and the
numbers are tokens, at any depth. Its parts may come from anywhere. -/
inductive Operand : Node → Prop where
  | identifier (token : IsToken .identifier name) : Operand (.atom origin (.identifier name))
  | null : Operand (.atom origin .null)
  | bool : Operand (.atom origin (.bool value))
  | string (value : StringLiteral.read quoted = .ok literal) :
      Operand (.atom origin (.string literal))
  | number (token : IsToken .number text) (value : Numeral.read text = .ok numeral) :
      Operand (.atom origin (.number numeral))
  | list (operands : ∀ node ∈ nodes, Operand node) : Operand (.list origin nodes)
  | operation (operands : ∀ node ∈ nodes, Operand node) : Operand (.operation head nodes)

mutual

/-- How many lists nest in the node at most. The operands of an operation are a list. -/
def nesting : Node → Nat
  | .atom _ _ | .blankStatement _ => 0
  | .list _ nodes | .operation _ nodes | .statement _ _ nodes => nestingAll nodes + 1

def nestingAll : List Node → Nat
  | [] => 0
  | node :: nodes => max (nesting node) (nestingAll nodes)

end

/-- A statement that was built from such operands, and nests no deeper than can be read. -/
inductive Built : Node → Prop where
  | blank : Built (.blankStatement origin)
  | operation (operands : ∀ node ∈ nodes, Operand node)
      (nests : nesting (.operation head nodes) ≤ 128) : Built (.statement origin head nodes)

/-! ## Tokens by themselves -/

variable {kind : TokenKind} {text : String} {node other : Node} {nodes : List Node}

theorem isToken_standalone (token : IsToken kind text) (leaf : isLeaf kind = true) :
    Standalone kind text.toList := by
  obtain ⟨token, finish, stream, rfl, ends⟩ := token
  have tokens : (Stream.ofText text).tokens = [token, finish] := by rw [stream]; rfl
  have inside (part : Token) (member : part ∈ [token, finish]) :
      part ∈ (Stream.ofText text).tokens := tokens ▸ member
  obtain ⟨rest, whole, nothing⟩ := StreamTiling.read_spelled Mark.start text.toList
  have own : token.text.toList = text.toList := by
    have empty : finish.text = "" :=
      CanonicalTokens.finish_text (inside finish (by simp)) ends
    have all : StreamTiling.spelled (Stream.ofText text).tokens ++ rest = text.toList := whole
    rw [nothing (by rw [← ends]; exact congrArg (·.last.kind) stream), tokens] at all
    simpa [empty] using all
  obtain ⟨depth, ahead, lexeme, first, same, taken⟩ :=
    StreamTiling.token_first (inside token (by simp))
  rw [same] at leaf ⊢
  have alone := first_standalone first leaf
  rwa [← own, taken, String.toList_ofList]

theorem reserved_standalone (read : Lexeme.read 0 text.toList = ⟨kind, text.toList, []⟩)
    (leaf : isLeaf kind = true) : Standalone kind text.toList := by
  have first := read_first 0 text.toList
  rw [read] at first
  exact first_standalone first leaf

/-! ## Derivations from made-up tokens -/

/-- A token of the kind that stands nowhere. -/
def madeUp (kind : TokenKind) : Terminal kind := ⟨⟨kind, "", 0, 0⟩, rfl⟩

/-- The derivation stands for the node, without its origins, and can be read again. -/
structure Derives (value : Value) (node : Node) : Prop where
  builds : value.Builds (fun _ => .detached 0) (shape node)
  independent : Independent value.yield
  height : value.height = nesting node

theorem leaf_derives (token : Token) {atom : Atom} {origin : Origin} (leaf : Leaf token atom)
    (standalone : Standalone token.kind token.text.toList) :
    ∃ value, Derives value (.atom origin atom) := by
  refine ⟨.leaf token (leaf_kind leaf), .leaf leaf, ?_, rfl⟩
  intro other member _
  obtain rfl := List.mem_singleton.mp member
  exact standalone

theorem independent_terminal {terminal : Terminal kind} {tokens : List Token}
    (plain : isLeaf kind = false) (others : Independent tokens) :
    Independent (terminal.val :: tokens) := by
  refine List.forall_mem_cons.mpr ⟨fun leaf => ?_, others⟩
  rw [terminal.property, plain] at leaf
  cases leaf

theorem rest_derives (derive : ∀ node ∈ nodes, ∃ value, Derives value node) :
    ∃ rest : Rest, rest.Builds (fun _ => .detached 0) (shapes nodes) ∧ Independent rest.yield ∧
      rest.height = nestingAll nodes := by
  induction nodes with
  | nil => exact ⟨.done, .done, fun _ member => absurd member List.not_mem_nil, rfl⟩
  | cons node nodes ih =>
    obtain ⟨here, others⟩ := List.forall_mem_cons.mp derive
    obtain ⟨value, first⟩ := here
    obtain ⟨rest, built, independent, height⟩ := ih others
    exact ⟨.next (madeUp .comma) value rest, .next first.builds built,
      independent_terminal rfl (independent_append.mpr ⟨first.independent, independent⟩),
      congrArg₂ max first.height height⟩

theorem row_derives (derive : ∀ node ∈ nodes, ∃ value, Derives value node) :
    ∃ row : Row, row.Builds (fun _ => .detached 0) (shapes nodes) ∧ Independent row.yield ∧
      row.height = nestingAll nodes := by
  cases nodes with
  | nil => exact ⟨.empty, .empty, fun _ member => absurd member List.not_mem_nil, rfl⟩
  | cons node nodes =>
    obtain ⟨here, others⟩ := List.forall_mem_cons.mp derive
    obtain ⟨value, first⟩ := here
    obtain ⟨rest, built, independent, height⟩ := rest_derives others
    exact ⟨.values value rest, .values first.builds built,
      independent_append.mpr ⟨first.independent, independent⟩, congrArg₂ max first.height height⟩

/-- The tokens of a row in parentheses. -/
theorem enclosed_independent {row : Row} (independent : Independent row.yield) :
    Independent ((madeUp .leftParen).val :: (row.yield ++ [(madeUp .rightParen).val])) :=
  independent_terminal rfl (independent_append.mpr ⟨independent,
    independent_terminal rfl fun _ member => absurd member List.not_mem_nil⟩)

theorem operation_derives (head : Head) (derive : ∀ node ∈ nodes, ∃ value, Derives value node) :
    ∃ operation : Operation,
      operation.Builds (fun _ => .detached 0) ⟨.detached 0, head.operator, .detached 0⟩
        (shapes nodes) ∧
      Independent operation.yield ∧ operation.height = nestingAll nodes + 1 := by
  obtain ⟨row, built, independent, height⟩ := row_derives derive
  exact ⟨.mk head.operator (madeUp _) (madeUp _) row (madeUp _), .mk built,
    independent_terminal rfl (enclosed_independent independent), congrArg (· + 1) height⟩

/-- Every operand could have been read. -/
theorem operand_derives (operand : Operand node) : ∃ value, Derives value node := by
  induction operand with
  | @identifier name origin token =>
    exact leaf_derives ⟨.identifier, name, 0, 0⟩ (.identifier rfl)
      (isToken_standalone token rfl)
  | null =>
    exact leaf_derives ⟨.null, "null", 0, 0⟩ (.null rfl rfl)
      (reserved_standalone (by decide +kernel) rfl)
  | @bool origin value =>
    cases value with
    | true =>
      exact leaf_derives ⟨.bool, "true", 0, 0⟩ (.bool rfl rfl)
        (reserved_standalone (by decide +kernel) rfl)
    | false =>
      exact leaf_derives ⟨.bool, "false", 0, 0⟩ (.bool rfl rfl)
        (reserved_standalone (by decide +kernel) rfl)
  | @string quoted literal origin value =>
    exact leaf_derives ⟨.string, quoted, 0, 0⟩ (.string rfl value)
      (read_standalone value)
  | @number text numeral origin token value =>
    exact leaf_derives ⟨.number, text, 0, 0⟩ (.number rfl value)
      (isToken_standalone token rfl)
  | list operands ih =>
    obtain ⟨row, built, independent, height⟩ := row_derives ih
    exact ⟨.list (madeUp _) row (madeUp _), .list built, enclosed_independent independent,
      congrArg (· + 1) height⟩
  | operation operands ih =>
    obtain ⟨operation, built, independent, height⟩ := operation_derives _ ih
    exact ⟨.operation operation, .operation built, independent, height⟩

/-! ## Reading it -/

/-- Its canonical form is read as the statement. -/
theorem hand_built_read (built : Built node) (handle : Nat) (name : String) :
    ∃ tree, Tree.parse handle name node.canonical = .ok tree ∧ shape tree.root = shape node := by
  obtain ⟨again, made, same⟩ : ∃ again,
      (Stream.ofText node.canonical).statement = .ok again ∧ shape again = shape node := by
    cases built with
    | blank => exact ⟨_, blank_made _, rfl⟩
    | @operation nodes head origin operands nests =>
      obtain ⟨operation, built, independent, height⟩ :=
        operation_derives head fun node member => operand_derives (operands node member)
      obtain ⟨again, elements, made, same⟩ :=
        operation_made_again built independent (height.trans_le nests)
      have canonical : (shape (.operation head nodes)).canonical =
          (Node.operation head nodes).canonical := canonical_of_shape (shape_mapOrigins _)
      have text := congrArg (fun text => (Stream.ofText text).statement) canonical
      refine ⟨_, text.symm.trans made, ?_⟩
      have whole := same.trans (shape_mapOrigins (.operation head nodes))
      simp only [shape, Node.mapOrigins, Node.operation.injEq] at whole ⊢
      rw [whole.1, whole.2]
  refine ⟨_, parse_ok_iff.mpr ⟨again, made, rfl⟩, ?_⟩
  rw [← same]
  exact shape_mapOrigins again

/-- **What was built by hand is read back.** Its canonical form is accepted under any name, and the
tree is the built statement in all but its origins; so no other statement that was built has the
same canonical form. -/
theorem hand_built_reparses (built : Built node) :
    (∀ handle name, ∃ tree, Tree.parse handle name node.canonical = .ok tree ∧
      shape tree.root = shape node) ∧
    ∀ other, Built other → other.canonical = node.canonical → shape other = shape node := by
  refine ⟨hand_built_read built, fun other built' same => ?_⟩
  obtain ⟨tree, read, shaped⟩ := hand_built_read built 0 "root"
  obtain ⟨tree', read', shaped'⟩ := hand_built_read built' 0 "root"
  rw [same, read] at read'
  rw [← shaped, ← shaped', Except.ok.inj read']

/-- A detached statement, which holds a list that belongs to a source. -/
theorem hand_built_reparses_mixed :
    let source : Source := ⟨3, "other", "true"⟩
    let literal : StringLiteral := ⟨"\"x\\ty\"", "x\ty"⟩
    let numeral : Numeral := ⟨"+007", some 7, none, some (.ofInt 7)⟩
    let list := Node.list ⟨2, some source⟩ [.atom (.detached 0) (.string literal),
      .atom ⟨0, some source⟩ (.number numeral), .atom (.detached 5) (.bool true)]
    let node := Node.statement (.detached 7) ⟨.detached 7, .member, .detached 0⟩
      [.atom (.detached 0) (.identifier "a.b"), list]
    Built node ∧ node.canonical = "in(a.b,(\"x\\ty\",+007,true))" ∧
      ∃ tree, Tree.parse 0 "root" node.canonical = .ok tree ∧ shape tree.root = shape node := by
  intro source literal numeral list node
  have string : StringLiteral.read "\"x\\ty\"" = .ok literal := by decide +kernel
  have number : Numeral.read "+007" = .ok numeral := by decide +kernel
  have name : IsToken .identifier "a.b" :=
    ⟨⟨.identifier, "a.b", 0, 1⟩, ⟨.finish, "", 3, 1⟩, by decide +kernel, rfl, rfl⟩
  have token : IsToken .number "+007" :=
    ⟨⟨.number, "+007", 0, 1⟩, ⟨.finish, "", 4, 1⟩, by decide +kernel, rfl, rfl⟩
  have built : Built node := by
    refine .operation ?_ (by decide)
    simp only [List.forall_mem_cons, List.not_mem_nil, IsEmpty.forall_iff, implies_true, and_true]
    refine ⟨.identifier name, .list ?_⟩
    simp only [List.forall_mem_cons, List.not_mem_nil, IsEmpty.forall_iff, implies_true, and_true]
    exact ⟨.string string, .number token number, .bool⟩
  exact ⟨built, by decide +kernel, (hand_built_reparses built).1 0 "root"⟩

end ResourceQuery.HandBuilt
