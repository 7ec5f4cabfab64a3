import ResourceQuery.Proofs.GrammarExactness

/-! The canonical form of a tree that was read is read again, and as the same tree. What is written
has other neighbours than it had in the first text, so the proof starts from tokens that read the
same wherever they are delimited, and goes over the derivation of the first text: the canonical form
of each of its parts is read as a derivation of the same height, which stands for the same nodes. -/
namespace ResourceQuery.CanonicalRoundTrip
open Draft (depthLimit)
open DraftRuns GrammarExactness Grammar LexemeSpelling

/-! ## Nodes without their origins -/

/-- The node with nothing known of where its parts come from. -/
def shape (node : Node) : Node := node.mapOrigins fun _ => .detached 0

def shapes (nodes : List Node) : List Node := Node.mapAllOrigins (fun _ => .detached 0) nodes

variable {change : Origin → Origin}

mutual

theorem spelling_mapOrigins (node : Node) : (node.mapOrigins change).spelling = node.spelling := by
  cases node with
  | atom origin atom => rfl
  | list origin nodes =>
    simp only [Node.mapOrigins, Node.spelling, spellings_mapAllOrigins nodes]
  | operation head operands =>
    simp only [Node.mapOrigins, Node.spelling, spellings_mapAllOrigins operands]
  | blankStatement origin => rfl
  | statement origin head operands =>
    simp only [Node.mapOrigins, Node.spelling, spellings_mapAllOrigins operands]

theorem spellings_mapAllOrigins (nodes : List Node) :
    Node.spellings (Node.mapAllOrigins change nodes) = Node.spellings nodes := by
  match nodes with
  | [] => rfl
  | [node] => simp only [Node.mapAllOrigins, Node.spellings, spelling_mapOrigins node]
  | node :: next :: nodes =>
    have others := spellings_mapAllOrigins (next :: nodes)
    simp only [Node.mapAllOrigins, Node.spellings, spelling_mapOrigins node] at others ⊢
    rw [others]

end

mutual

theorem shape_mapOrigins (node : Node) : shape (node.mapOrigins change) = shape node := by
  cases node with
  | atom origin atom => rfl
  | list origin nodes => exact congrArg (Node.list _) (shapes_mapAllOrigins nodes)
  | operation head operands => exact congrArg (Node.operation _) (shapes_mapAllOrigins operands)
  | blankStatement origin => rfl
  | statement origin head operands =>
    exact congrArg (Node.statement _ _) (shapes_mapAllOrigins operands)

theorem shapes_mapAllOrigins (nodes : List Node) :
    shapes (Node.mapAllOrigins change nodes) = shapes nodes := by
  cases nodes with
  | nil => rfl
  | cons node nodes =>
    exact congrArg₂ List.cons (shape_mapOrigins node) (shapes_mapAllOrigins nodes)

end

theorem canonical_of_shape {node node' : Node} (same : shape node = shape node') :
    node.canonical = node'.canonical := by
  have spelled := congrArg Node.spelling same
  simp only [shape, spelling_mapOrigins] at spelled
  rw [Node.canonical, Node.canonical, spelled]

/-! ## Streams that begin with some tokens -/

/-- The stream begins with the tokens, and goes on as it would from the later mark. -/
def Reads (mark : Mark) (cs : List Char) (tokens : List Token) (later : Mark) (rest : List Char) :
    Prop :=
  Stream.read mark cs =
    ⟨tokens ++ (Stream.read later rest).body, (Stream.read later rest).last⟩

variable {mark later latest : Mark} {cs rest rest' : List Char} {front back : List Token}

theorem reads_nil : Reads mark cs [] mark cs := rfl

theorem reads_append (first : Reads mark cs front later rest)
    (second : Reads later rest back latest rest') : Reads mark cs (front ++ back) latest rest' := by
  unfold Reads at *
  rw [first, second, List.append_assoc]

/-- A token that is read is the first of the stream. -/
theorem reads_token {kind : TokenKind} {chars : List Char}
    (first : Lexeme.read mark.depth cs = ⟨kind, chars, rest⟩) (more : kind.isFinal = false) :
    ∃ (token : Terminal kind) (later : Mark), token.val.text = String.ofList chars ∧
      later.depth = Mark.depthAfter mark.depth kind ∧ Reads mark cs [token.val] later rest := by
  refine ⟨⟨mark.token ⟨kind, chars, rest⟩, rfl⟩, mark.after ⟨kind, chars, rest⟩, rfl, rfl, ?_⟩
  rw [Reads, Stream.read_of_more first more]
  rfl

theorem read_rightParen {depth : Nat} (opened : depth ≠ 0) (rest : List Char) :
    Lexeme.read depth (')' :: rest) = ⟨.rightParen, [')'], rest⟩ := by
  have plain : Lexeme.read depth (')' :: rest) =
      ⟨if depth = 0 then .fault .unmatchedParenthesis else .rightParen, [')'], rest⟩ := rfl
  rw [plain, if_neg opened]

/-! ## Parts of a statement -/

/-- The names and the literals among the tokens read the same wherever they are delimited. -/
def Independent (tokens : List Token) : Prop :=
  ∀ token ∈ tokens, isLeaf token.kind = true → Standalone token.kind token.text.toList

theorem independent_append : Independent (front ++ back) ↔ Independent front ∧ Independent back :=
  List.forall_mem_append

theorem independent_cons {token : Token} {tokens : List Token}
    (independent : Independent (token :: tokens)) : Independent tokens :=
  (List.forall_mem_cons.mp independent).2

/-- What stands behind the first node of a row in its canonical form. -/
def followers : List Node → List Char
  | [] => []
  | node :: nodes => ',' :: Node.spellings (node :: nodes)

theorem spellings_cons (node : Node) (nodes : List Node) :
    Node.spellings (node :: nodes) = node.spelling ++ followers nodes := by
  cases nodes with
  | nil => exact (List.append_nil _).symm
  | cons next nodes => rfl

theorem followers_delimited (nodes : List Node) (rest : List Char) :
    Delimited (followers nodes ++ ')' :: rest) := by
  cases nodes with
  | nil => exact delimited_rightParen rest
  | cons node nodes => exact delimited_comma _

/-- A leaf has the same atom wherever its token stands. -/
theorem leaf_elsewhere {token other : Token} {atom : Atom} (leaf : Leaf token atom)
    (kind : other.kind = token.kind) (text : other.text = token.text) : Leaf other atom := by
  cases leaf with
  | identifier named =>
    rw [← text]
    exact .identifier (kind.trans named)
  | null named spelled => exact .null (kind.trans named) (text.trans spelled)
  | bool named spelled => exact .bool (kind.trans named) (text.trans spelled)
  | string named value => exact .string (kind.trans named) (by rwa [text])
  | number named value => exact .number (kind.trans named) (by rwa [text])

theorem leaf_more {kind : TokenKind} (leaf : isLeaf kind = true) :
    kind.isFinal = false ∧ ∀ depth, Mark.depthAfter depth kind = depth := by
  cases kind <;> first | exact ⟨rfl, fun _ => rfl⟩ | cases leaf

variable {place : Nat → Origin}

theorem leaf_rereads {token : Token} {atom : Atom} (leaf : Leaf token atom)
    (independent : Independent [token]) (mark : Mark) (rest : List Char)
    (delimited : Delimited rest) : ∃ (other : Token) (later : Mark),
      Reads mark (atom.spelling.toList ++ rest) [other] later rest ∧ later.depth = mark.depth ∧
        Leaf other atom := by
  have kind := leaf_kind leaf
  have standalone := independent token (List.mem_singleton_self token) kind
  rw [leaf_spelling leaf]
  obtain ⟨other, later, text, depth, reads⟩ :=
    reads_token (standalone mark.depth rest delimited) (leaf_more kind).1
  refine ⟨other.val, later, reads, depth.trans ((leaf_more kind).2 _), ?_⟩
  exact leaf_elsewhere leaf other.property (text.trans String.ofList_toList)

/-- An operator is read again in front of a parenthesis. -/
theorem keyword_rereads (operator : Operator) (mark : Mark) (rest : List Char) :
    ∃ (keyword : Terminal (.operator operator)) (later : Mark),
      Reads mark (operator.keyword.toList ++ '(' :: rest) [keyword.val] later ('(' :: rest) ∧
        later.depth = mark.depth := by
  obtain ⟨keyword, later, -, depth, reads⟩ :=
    reads_token (keyword_standalone operator mark.depth _ (delimited_leftParen rest)) rfl
  exact ⟨keyword, later, reads, depth⟩

/-- A row is read again between parentheses that are read again. -/
theorem enclosed_rereads {chars : List Char} {Copy : Row → List Node → Prop} (mark : Mark)
    (rest : List Char)
    (inside : ∀ mark : Mark, ∃ (row : Row) (nodes : List Node) (later : Mark),
      Reads mark (chars ++ ')' :: rest) row.yield later (')' :: rest) ∧
        later.depth = mark.depth ∧ Copy row nodes) :
    ∃ (opening : Terminal .leftParen) (row : Row) (closing : Terminal .rightParen)
      (nodes : List Node) (later : Mark),
      Reads mark ('(' :: (chars ++ ')' :: rest)) (opening.val :: (row.yield ++ [closing.val])) later
        rest ∧ later.depth = mark.depth ∧ Copy row nodes := by
  have opens : Lexeme.read mark.depth ('(' :: (chars ++ ')' :: rest)) =
      ⟨.leftParen, ['('], chars ++ ')' :: rest⟩ := rfl
  obtain ⟨opening, behind, -, deeper, first⟩ := reads_token opens rfl
  obtain ⟨row, nodes, before, elements, same, copy⟩ := inside behind
  have higher : behind.depth = mark.depth + 1 := deeper
  have opened : before.depth ≠ 0 := by omega
  obtain ⟨closing, later, -, shallower, last⟩ := reads_token (read_rightParen opened rest) rfl
  have lower : later.depth = before.depth - 1 := shallower
  exact ⟨opening, row, closing, nodes, later, reads_append first (reads_append elements last),
    by omega, copy⟩

mutual

theorem value_rereads (value : Value) (node : Node) (built : value.Builds place node)
    (independent : Independent value.yield) (mark : Mark) (rest : List Char)
    (delimited : Delimited rest) : ∃ (copy : Value) (again : Node) (later : Mark),
      Reads mark (node.spelling ++ rest) copy.yield later rest ∧ later.depth = mark.depth ∧
        copy.height = value.height ∧ copy.Builds .detached again ∧ shape again = shape node := by
  cases built with
  | @leaf token atom kind leaf =>
    obtain ⟨other, later, reads, depth, leaf⟩ :=
      leaf_rereads leaf independent mark rest delimited
    exact ⟨.leaf other (leaf_kind leaf), _, later, reads, depth, rfl, .leaf leaf, rfl⟩
  | @operation operation head operands built =>
    obtain ⟨copy, again, elements, later, reads, depth, height, built, same⟩ :=
      operation_rereads operation head operands built independent mark rest
    exact ⟨.operation copy, _, later, reads, depth, height, .operation built, same⟩
  | @list row nodes opening closing elements =>
    obtain ⟨opening, copy, closing, again, later, reads, depth, height, built, same⟩ :=
      enclosed_rereads mark rest
        (row_rereads row nodes elements (independent_append.mp (independent_cons independent)).1
          · rest)
    refine ⟨.list opening copy closing, _, later, ?_, depth, ?_, .list built, ?_⟩
    · simpa [Node.spelling, Value.yield] using reads
    · rw [Value.height, Value.height, height]
    · exact congrArg (Node.list _) same
termination_by structural value

theorem operation_rereads (operation : Operation) (head : Head) (operands : List Node)
    (built : operation.Builds place head operands) (independent : Independent operation.yield)
    (mark : Mark) (rest : List Char) :
    ∃ (copy : Operation) (again : Head) (elements : List Node) (later : Mark),
      Reads mark ((Node.operation head operands).spelling ++ rest) copy.yield later rest ∧
        later.depth = mark.depth ∧ copy.height = operation.height ∧
        copy.Builds .detached again elements ∧
        shape (.operation again elements) = shape (.operation head operands) := by
  cases built with
  | @mk row operands operator keyword opening closing elements =>
    have inside := (independent_append.mp (independent_cons (independent_cons independent))).1
    obtain ⟨keyword', middle, first, depth⟩ := keyword_rereads operator mark
      (Node.spellings operands ++ ')' :: rest)
    obtain ⟨opening, copy, closing, again, later, reads, depth', height, built, same⟩ :=
      enclosed_rereads middle rest (row_rereads row operands elements inside · rest)
    refine ⟨.mk operator keyword' opening copy closing, _, again, later, ?_, depth'.trans depth, ?_,
      .mk built, ?_⟩
    · simpa [Node.spelling, Operation.yield] using reads_append first reads
    · rw [Operation.height, Operation.height, height]
    · exact congrArg (Node.operation _) same
termination_by structural operation

theorem row_rereads (row : Row) (nodes : List Node) (built : row.Builds place nodes)
    (independent : Independent row.yield) (mark : Mark) (rest : List Char) :
    ∃ (copy : Row) (again : List Node) (later : Mark),
      Reads mark (Node.spellings nodes ++ ')' :: rest) copy.yield later (')' :: rest) ∧
        later.depth = mark.depth ∧ copy.height = row.height ∧ copy.Builds .detached again ∧
        shapes again = shapes nodes := by
  cases built with
  | empty => exact ⟨.empty, [], mark, reads_nil, rfl, rfl, .empty, rfl⟩
  | @values value node rest' nodes first others =>
    have parts := independent_append.mp independent
    obtain ⟨copy, again, middle, reads, depth, height, built, same⟩ :=
      value_rereads value node first parts.1 mark (followers nodes ++ ')' :: rest)
        (followers_delimited nodes rest)
    obtain ⟨copies, againAll, later, readsAll, depthAll, heightAll, builtAll, sameAll⟩ :=
      rest_rereads rest' nodes others parts.2 middle rest
    refine ⟨.values copy copies, _, later, ?_, depthAll.trans depth, ?_, .values built builtAll, ?_⟩
    · rw [spellings_cons, List.append_assoc]
      exact reads_append reads readsAll
    · rw [Row.height, Row.height, height, heightAll]
    · exact congrArg₂ List.cons same sameAll
termination_by structural row

/-- A comma at the end of a list is not written again. -/
theorem rest_rereads (others : Rest) (nodes : List Node) (built : others.Builds place nodes)
    (independent : Independent others.yield) (mark : Mark) (rest : List Char) :
    ∃ (copy : Rest) (again : List Node) (later : Mark),
      Reads mark (followers nodes ++ ')' :: rest) copy.yield later (')' :: rest) ∧
        later.depth = mark.depth ∧ copy.height = others.height ∧ copy.Builds .detached again ∧
        shapes again = shapes nodes := by
  cases built with
  | done | trailing => exact ⟨.done, [], mark, reads_nil, rfl, rfl, .done, rfl⟩
  | @next value node others' nodes comma first more =>
    have parts := independent_append.mp (independent_cons independent)
    have separates : Lexeme.read mark.depth (followers (node :: nodes) ++ ')' :: rest) =
        ⟨.comma, [','], Node.spellings (node :: nodes) ++ ')' :: rest⟩ := rfl
    obtain ⟨comma, before, -, level, separator⟩ := reads_token separates rfl
    obtain ⟨copy, again, middle, reads, depth, height, built, same⟩ :=
      value_rereads value node first parts.1 before (followers nodes ++ ')' :: rest)
        (followers_delimited nodes rest)
    obtain ⟨copies, againAll, later, readsAll, depthAll, heightAll, builtAll, sameAll⟩ :=
      rest_rereads others' nodes more parts.2 middle rest
    refine ⟨.next comma copy copies, _, later, ?_, depthAll.trans (depth.trans level), ?_,
      .next built builtAll, ?_⟩
    · rw [spellings_cons, List.append_assoc] at separator
      exact reads_append separator (reads_append reads readsAll)
    · rw [Rest.height, Rest.height, height, heightAll]
    · exact congrArg₂ List.cons same sameAll
termination_by structural others

end

/-! ## Statements -/

/-- Behind the whole statement nothing is left, and nothing is open. -/
theorem read_end (closed : mark.depth = 0) :
    Stream.read mark [] = ⟨[], mark.token ⟨.finish, [], []⟩⟩ := by
  have first : Lexeme.read mark.depth [] = ⟨.finish, [], []⟩ := by
    rw [closed]
    rfl
  exact Stream.read_of_final first rfl

variable {text : String}

theorem significant_independent (text : String) : Independent (Stream.ofText text).significant := by
  intro token member leaf
  obtain ⟨depth, ahead, lexeme, first, kind, taken⟩ :=
    StreamTiling.token_first (List.mem_of_mem_filter member)
  rw [kind] at leaf ⊢
  rw [taken, String.toList_ofList]
  exact first_standalone first leaf

theorem operation_made_again {operation : Operation} {head : Head} {operands : List Node}
    (built : operation.Builds place head operands) (independent : Independent operation.yield)
    (high : operation.height ≤ depthLimit) : ∃ (again : Head) (elements : List Node),
      (Stream.ofText (Node.operation head operands).canonical).statement =
          .ok (.statement (.detached 0) again elements) ∧
        shape (.operation again elements) = shape (.operation head operands) := by
  obtain ⟨copy, again, elements, later, reads, depth, height, built, same⟩ :=
    operation_rereads operation head operands built independent Mark.start []
  have run := operation_runs_alone copy built (height.trans_le high)
  have stream : Stream.ofText (Node.operation head operands).canonical =
      ⟨copy.yield, later.token ⟨.finish, [], []⟩⟩ := by
    have read := reads
    rw [Reads, read_end depth] at read
    simpa [Stream.ofText, Node.canonical] using read
  refine ⟨again, elements, statement_ok_iff.mpr ?_, same⟩
  rw [stream]
  exact ⟨rfl, _, by rwa [run_counts run], .operation⟩

/-- No characters at all are read as the statement that asks for nothing. -/
theorem blank_made (origin : Origin) :
    (Stream.ofText (Node.blankStatement origin).canonical).statement =
      .ok (.blankStatement (.detached 0)) := by
  have stream : Stream.ofText (Node.blankStatement origin).canonical =
      ⟨[], Mark.start.token ⟨.finish, [], []⟩⟩ := read_end rfl
  rw [statement_ok_iff, stream]
  exact ⟨rfl, .start, .done, .blank⟩

theorem made_again {node : Node} (made : (Stream.ofText text).statement = .ok node) :
    ∃ again, (Stream.ofText node.canonical).statement = .ok again ∧ shape again = shape node := by
  obtain ⟨finish, ⟨operation, ending⟩, tokens, high, built⟩ := statement_made_iff.mp made
  have independent := significant_independent text
  rw [← tokens] at independent
  cases built with
  | blank => exact ⟨_, blank_made _, rfl⟩
  | operation built =>
    obtain ⟨again, elements, read, same⟩ :=
      operation_made_again built (independent_append.mp independent).1 high
    refine ⟨_, read, ?_⟩
    simp only [shape, Node.mapOrigins, Node.operation.injEq] at same ⊢
    rw [same.1, same.2]

/-- **The canonical form is canonical.** The canonical form of a tree that was read is read again,
and the tree is then the same in all but its origins. So its canonical form is the text that it was
read from. -/
theorem canonical_reparses {handle : Nat} {name text : String} {tree : Tree}
    (accepted : Tree.parse handle name text = .ok tree) (other : Nat) :
    ∃ again, Tree.parse other name tree.canonical = .ok again ∧
      again.source = ⟨other, name, tree.canonical⟩ ∧ again.canonical = tree.canonical ∧
      shape again.root = shape tree.root := by
  obtain ⟨node, made, rfl⟩ := parse_ok_iff.mp accepted
  obtain ⟨again, read, same⟩ := made_again made
  have canonical : (node.bind ⟨handle, name, text⟩).canonical = node.canonical :=
    canonical_of_shape (shape_mapOrigins node)
  have whole : shape (again.bind ⟨other, name, node.canonical⟩) =
      shape (node.bind ⟨handle, name, text⟩) := by
    rw [Node.bind, Node.bind, shape_mapOrigins, shape_mapOrigins, same]
  refine ⟨⟨⟨other, name, node.canonical⟩, again.bind ⟨other, name, node.canonical⟩⟩, ?_, ?_,
    canonical_of_shape whole, whole⟩
  · rw [Tree.canonical, canonical]
    exact parse_ok_iff.mpr ⟨again, read, rfl⟩
  · rw [Tree.canonical, canonical]

theorem canonical_reparses_nested : ∃ tree again,
    Tree.parse 0 "root" "and( eq(a, +1.50 ,), in(b,(\"x\\ty\" ,null),) )" = .ok tree ∧
      tree.canonical = "and(eq(a,+1.50),in(b,(\"x\\ty\",null)))" ∧
      Tree.parse 1 "root" tree.canonical = .ok again ∧ again.canonical = tree.canonical ∧
      shape again.root = shape tree.root := by
  have canonical : (Tree.parse 0 "root"
      "and( eq(a, +1.50 ,), in(b,(\"x\\ty\" ,null),) )").toOption.map Tree.canonical =
        some "and(eq(a,+1.50),in(b,(\"x\\ty\",null)))" := by
    decide +kernel
  cases parsed : Tree.parse 0 "root" "and( eq(a, +1.50 ,), in(b,(\"x\\ty\" ,null),) )" with
  | error diagnostic =>
    rw [parsed] at canonical
    cases canonical
  | ok tree =>
    rw [parsed] at canonical
    obtain ⟨again, read, -, same, equal⟩ := canonical_reparses parsed 1
    exact ⟨tree, again, rfl, Option.some.inj canonical, read, same, equal⟩

end ResourceQuery.CanonicalRoundTrip
