import Mathlib.Data.List.Forall2
import ResourceQuery.Node.Walk
import ResourceQuery.Proofs.GrammarExactness

/-! Every node of a statement stands at a token of its own. Going through the nodes, each before its
own parts, passes the tokens that a node can start with, in the order of the text and without
leaving one out. Which node comes next is decided by the derivation, so the two rows are compared
part by part. -/
namespace ResourceQuery.NodePlaces
open GrammarExactness Grammar LexemeSpelling StreamTiling

/-- The tokens that a node starts with: operators, left parentheses, names and literals. -/
def startsNode (token : Token) : Bool :=
  token.kind.isOperator || token.kind == .leftParen || isLeaf token.kind

/-- The node starts with the token: it is of the token's kind, spelled as the token is, and stands
where the token does. A list has no spelling of its own, it stands at its parenthesis. -/
inductive StartsWith : Token → Node → Prop where
  | operation (kind : token.kind = .operator head.operator)
      (spelling : head.operator.keyword = token.text) (pos : head.origin.pos = token.pos) :
      StartsWith token (.operation head operands)
  | list (kind : token.kind = .leftParen) (pos : origin.pos = token.pos) :
      StartsWith token (.list origin nodes)
  | atom (leaf : Leaf token atom) (spelling : atom.spelling = token.text)
      (pos : origin.pos = token.pos) : StartsWith token (.atom origin atom)

theorem starts_pos {token : Token} {node : Node} (starts : StartsWith token node) :
    node.pos = token.pos := by
  cases starts with
  | operation kind spelling pos | list kind pos | atom leaf spelling pos => exact pos

/-! ## Derivations -/

/-- The node and everything in it, one after the other. -/
def nodesFrom (depth : Nat) (node : Node) : List Node := (node.walkFrom depth).map Prod.snd

def nodesOfRow (depth : Nat) (nodes : List Node) : List Node :=
  (Node.walkAllFrom depth nodes).map Prod.snd

theorem nodesOfRow_cons (depth : Nat) (node : Node) (nodes : List Node) :
    nodesOfRow depth (node :: nodes) = nodesFrom depth node ++ nodesOfRow depth nodes :=
  List.map_append

theorem starting_append (front back : List Token) :
    (front ++ back).filter startsNode = front.filter startsNode ++ back.filter startsNode :=
  List.filter_append ..

/-- Commas, parentheses that close lists and the end of the text start no node. -/
theorem starting_silent {kind : TokenKind} (terminal : Terminal kind)
    (silent : kind = .comma ∨ kind = .rightParen ∨ kind = .finish) :
    [terminal.val].filter startsNode = [] := by
  have other : startsNode terminal.val = false := by
    rw [startsNode, terminal.property]
    rcases silent with rfl | rfl | rfl <;> rfl
  rw [List.filter_cons_of_neg (by simp [other]), List.filter_nil]

theorem starting_counts {token : Token} {tokens : List Token} (starts : startsNode token = true) :
    (token :: tokens).filter startsNode = token :: tokens.filter startsNode :=
  List.filter_cons_of_pos starts

/-- A left parenthesis starts a list, with the nodes of the row behind it. -/
theorem enclosed_starts {place : Nat → Origin} (here : ∀ pos, (place pos).pos = pos)
    (opening : Terminal .leftParen) (closing : Terminal .rightParen) {row : Row}
    {nodes inside : List Node}
    (elements : List.Forall₂ StartsWith (row.yield.filter startsNode) inside) :
    List.Forall₂ StartsWith ((opening.val :: (row.yield ++ [closing.val])).filter startsNode)
      (.list (place opening.val.pos) nodes :: inside) := by
  have starts : startsNode opening.val = true := by
    rw [startsNode, opening.property]
    rfl
  rw [starting_counts starts, starting_append, starting_silent closing (by simp), List.append_nil]
  exact .cons (.list opening.property (here _)) elements

variable {place : Nat → Origin}

mutual

theorem value_starts (here : ∀ pos, (place pos).pos = pos) (value : Value) (node : Node)
    (built : value.Builds place node) (fits : AllFit value.yield) (depth : Nat) :
    List.Forall₂ StartsWith (value.yield.filter startsNode) (nodesFrom depth node) := by
  cases built with
  | @leaf token atom kind spells =>
    have starts : startsNode token = true := by simp [startsNode, kind]
    rw [Value.yield, starting_counts starts]
    exact .cons (.atom spells (leaf_spelling spells) (here _)) .nil
  | @operation operation head operands built =>
    exact operation_starts here operation head operands built fits (depth + 2)
  | @list row nodes opening closing elements =>
    have inside := (allFit_append.mp (List.forall_mem_cons.mp fits).2).1
    exact enclosed_starts here opening closing
      (row_starts here row nodes elements inside (depth + 1))
termination_by structural value

theorem operation_starts (here : ∀ pos, (place pos).pos = pos) (operation : Operation)
    (head : Head) (operands : List Node) (built : operation.Builds place head operands)
    (fits : AllFit operation.yield) (depth : Nat) :
    List.Forall₂ StartsWith (operation.yield.filter startsNode)
      (.operation head operands :: head.operandList operands :: nodesOfRow depth operands) := by
  cases built with
  | @mk row operands operator keyword opening closing elements =>
    obtain ⟨named, rest⟩ := List.forall_mem_cons.mp fits
    have inside := (allFit_append.mp (List.forall_mem_cons.mp rest).2).1
    have starts : startsNode keyword.val = true := by
      rw [startsNode, keyword.property]
      rfl
    have text : keyword.val.text = operator.keyword := by
      rwa [keyword.property] at named
    rw [Operation.yield, starting_counts starts]
    refine .cons (.operation keyword.property text.symm (here _)) ?_
    exact enclosed_starts here opening closing (row_starts here row operands elements inside depth)
termination_by structural operation

theorem row_starts (here : ∀ pos, (place pos).pos = pos) (row : Row) (nodes : List Node)
    (built : row.Builds place nodes) (fits : AllFit row.yield) (depth : Nat) :
    List.Forall₂ StartsWith (row.yield.filter startsNode) (nodesOfRow depth nodes) := by
  cases built with
  | empty => exact .nil
  | @values value node rest nodes first others =>
    obtain ⟨own, later⟩ := allFit_append.mp fits
    rw [Row.yield, starting_append, nodesOfRow_cons]
    exact List.rel_append (value_starts here value node first own depth)
      (rest_starts here rest nodes others later depth)
termination_by structural row

theorem rest_starts (here : ∀ pos, (place pos).pos = pos) (rest : Rest) (nodes : List Node)
    (built : rest.Builds place nodes) (fits : AllFit rest.yield) (depth : Nat) :
    List.Forall₂ StartsWith (rest.yield.filter startsNode) (nodesOfRow depth nodes) := by
  cases built with
  | done => exact .nil
  | @trailing comma =>
    rw [Rest.yield, starting_silent comma (by simp)]
    exact .nil
  | @next value node rest nodes comma first others =>
    obtain ⟨own, later⟩ := allFit_append.mp (List.forall_mem_cons.mp fits).2
    rw [Rest.yield, ← List.singleton_append, starting_append, starting_silent comma (by simp),
      List.nil_append, starting_append, nodesOfRow_cons]
    exact List.rel_append (value_starts here value node first own depth)
      (rest_starts here rest nodes others later depth)
termination_by structural rest

end

/-! ## Statements -/

variable {text : String}

/-- The tokens that start a node all count. -/
theorem starting_significant (text : String) :
    (Stream.ofText text).significant.filter startsNode =
      (Stream.ofText text).tokens.filter startsNode := by
  rw [Stream.significant, List.filter_filter]
  refine List.filter_congr fun token _ => ?_
  cases kind : token.kind <;> simp [startsNode, kind, TokenKind.isOperator, isLeaf]

/-- The nodes below a statement start with the tokens of its derivation. -/
theorem statement_starts (here : ∀ pos, (place pos).pos = pos) {statement : Grammar.Statement}
    {root : Node} (built : statement.Builds place root) (fits : AllFit statement.yield) :
    root.pos = 0 ∧ ∃ below, root.parts = root :: below ∧
      List.Forall₂ StartsWith (statement.yield.filter startsNode) below := by
  cases built with
  | @blank ending =>
    refine ⟨here 0, [], rfl, ?_⟩
    have nothing : Grammar.Statement.yield ⟨none, ending⟩ = [ending.val] := rfl
    rw [nothing, starting_silent ending (by simp)]
    exact .nil
  | @operation operation head operands ending built =>
    refine ⟨here 0, .operation head operands :: head.operandList operands :: nodesOfRow 3 operands,
      rfl, ?_⟩
    have whole : Grammar.Statement.yield ⟨some operation, ending⟩ =
      operation.yield ++ [ending.val] := rfl
    rw [whole] at fits ⊢
    rw [starting_append, starting_silent ending (by simp), List.append_nil]
    exact operation_starts here operation head operands built (allFit_append.mp fits).1 3

/-- Nodes that start with the tokens of a row have the places of these tokens. -/
theorem starts_places {tokens : List Token} {nodes : List Node}
    (starts : List.Forall₂ StartsWith tokens nodes) :
    nodes.map Node.pos = tokens.map Token.pos := by
  induction starts with
  | nil => rfl
  | cons first others ih => rw [List.map_cons, List.map_cons, starts_pos first, ih]

/-- The tokens that start a node do not stand at the end of the text. -/
theorem starting_inside {token : Token} (member : token ∈ (Stream.ofText text).tokens)
    (starts : startsNode token = true) : token.pos < text.utf8ByteSize := by
  have more : token ∈ (Stream.ofText text).body := by
    rcases List.mem_append.mp member with inside | last
    · exact inside
    · obtain rfl := List.mem_singleton.mp last
      rcases (stream_tiles text).last_final with finish | ⟨fault, kind⟩
      · simp [startsNode, finish, TokenKind.isOperator, isLeaf] at starts
      · simp [startsNode, kind, TokenKind.isOperator, isLeaf] at starts
  have nonempty := (stream_tiles text).body_nonempty token more
  have size : token.text.utf8ByteSize ≠ 0 := by
    rwa [Ne, String.utf8ByteSize_eq_zero_iff]
  have bound := (token_spans member).inside
  rw [stop] at bound
  omega

/-- **Nodes and tokens match one to one.** The nodes below the root, each before its own parts,
start with the operators, left parentheses, names and literals of the text, one with each and in the
same order. So no two nodes stand at the same byte, and each stands at a character of the text. The
root stands at the first byte whatever is there. -/
theorem nodes_match_tokens {handle : Nat} {name : String} {tree : Tree}
    (accepted : Tree.parse handle name text = .ok tree) :
    tree.root.pos = 0 ∧ ∃ below, tree.root.parts = tree.root :: below ∧
      List.Forall₂ StartsWith ((Stream.ofText text).tokens.filter startsNode) below ∧
      (below.Pairwise fun one next => one.pos < next.pos) ∧
      ∀ node ∈ below, node.pos < text.utf8ByteSize ∧
        (⟨node.pos⟩ : String.Pos.Raw).IsValid text := by
  obtain ⟨node, made, rfl⟩ := parse_ok_iff.mp accepted
  obtain ⟨-, statement, tokens, -, built⟩ := statement_made_iff.mp made
  have fits := significant_fits text
  rw [← tokens] at fits
  have bound := statement_builds_map (Origin.bind ⟨handle, name, text⟩) built
  obtain ⟨first, below, parts, starts⟩ := statement_starts (fun _ => rfl) bound fits
  rw [tokens, starting_significant] at starts
  have places := starts_places starts
  refine ⟨first, below, parts, starts, ?_, ?_⟩
  · have increasing := (tokens_increasing text).filter startsNode
    rw [← List.pairwise_map, ← places, List.pairwise_map] at increasing
    exact increasing
  · intro node member
    have taken : node.pos ∈ below.map Node.pos := List.mem_map_of_mem member
    rw [places] at taken
    obtain ⟨token, found, pos⟩ := List.mem_map.mp taken
    obtain ⟨inside, starts⟩ := List.mem_filter.mp found
    rw [← pos]
    exact ⟨starting_inside inside starts, (token_spans inside).starts⟩

/-- The blank in front, the commas and the closing parentheses are passed over. -/
theorem nodes_match_tokens_nested : ∃ tree,
    Tree.parse 0 "root" " and( in(é,(-1.50 ,null)),)" = .ok tree ∧ tree.root.pos = 0 ∧
      ∃ below, tree.root.parts = tree.root :: below ∧
        below.map Node.pos = [1, 4, 6, 8, 9, 12, 13, 20] := by
  have places : ((Stream.ofText " and( in(é,(-1.50 ,null)),)").tokens.filter startsNode).map
      Token.pos = [1, 4, 6, 8, 9, 12, 13, 20] := by
    decide +kernel
  have read : (Tree.parse 0 "root" " and( in(é,(-1.50 ,null)),)").toOption.isSome = true := by
    decide +kernel
  cases parsed : Tree.parse 0 "root" " and( in(é,(-1.50 ,null)),)" with
  | error diagnostic =>
    rw [parsed] at read
    cases read
  | ok tree =>
    obtain ⟨first, below, parts, starts, -, -⟩ := nodes_match_tokens parsed
    exact ⟨tree, rfl, first, below, parts, by rw [starts_places starts, places]⟩

end ResourceQuery.NodePlaces
