import ResourceQuery.Proofs.CanonicalRoundTrip

/-! The canonical form is made of what the text says. It is the texts of the tokens that count, in
their order and without a change, less the commas that stand at the end of a list. The tree that the
form is written from holds no parenthesis, no comma and no reserved word, so each of these is shown
to be written where the token stood. -/
namespace ResourceQuery.CanonicalTokens
open CanonicalRoundTrip GrammarExactness Grammar StreamTiling LexemeSpelling

/-- The tokens that the canonical form shows: all but the commas in front of a parenthesis that
closes a list. -/
def written : List Token → List Token
  | [] => []
  | token :: tokens =>
    if token.kind = .comma ∧ tokens.head?.map Token.kind = some .rightParen then written tokens
    else token :: written tokens

variable {place : Nat → Origin} {token : Token} {tokens : List Token}

theorem written_other (other : token.kind ≠ .comma) :
    written (token :: tokens) = token :: written tokens := by
  simp [written, other]

theorem written_trailing (comma : Terminal .comma) (closing : Terminal .rightParen) :
    written (comma.val :: closing.val :: tokens) = written (closing.val :: tokens) := by
  simp [written, comma.property, closing.property]

/-- A comma in front of a value is kept, for no value starts with a closing parenthesis. -/
theorem written_separator (comma : Terminal .comma) (value : Value) (behind : List Token) :
    written (comma.val :: (value.yield ++ behind)) =
      comma.val :: written (value.yield ++ behind) := by
  have kept : (value.yield ++ behind).head?.map Token.kind ≠ some .rightParen := by
    intro closes
    cases first : value.yield ++ behind with
    | nil =>
      rw [first] at closes
      cases closes
    | cons token tokens =>
      rw [first] at closes
      exact value_head value ⟨token, Option.some.inj closes⟩ behind tokens first
  rw [written, if_neg]
  exact fun both => kept both.2

theorem terminal_fits {kind : TokenKind} (terminal : Terminal kind)
    (fits : Fits terminal.val.kind terminal.val.text) : Fits kind terminal.val.text := by
  rwa [terminal.property] at fits

/-- A token of any kind but a comma is written as it is. -/
theorem terminal_written {kind : TokenKind} (terminal : Terminal kind) (other : kind ≠ .comma)
    (behind : List Token) : spelled (written (terminal.val :: behind)) =
      terminal.val.text.toList ++ spelled (written behind) := by
  rw [← terminal.property] at other
  rw [written_other other, spelled_cons]

theorem closing_written (closing : Terminal .rightParen) (fits : AllFit [closing.val])
    (behind : List Token) :
    spelled (written (closing.val :: behind)) = ')' :: spelled (written behind) := by
  have text : closing.val.text = ")" :=
    terminal_fits closing (fits closing.val (List.mem_singleton_self _))
  rw [terminal_written closing (by simp), text]
  rfl

/-- What is between parentheses is written between parentheses. -/
theorem enclosed_written {row : Row} {nodes : List Node} (opening : Terminal .leftParen)
    (closing : Terminal .rightParen) (fits : Fits opening.val.kind opening.val.text)
    (behind : List Token) (inside : spelled (written (row.yield ++ closing.val :: behind)) =
      Node.spellings nodes ++ ')' :: spelled (written behind)) :
    spelled (written (opening.val :: (row.yield ++ [closing.val]) ++ behind)) =
      '(' :: (Node.spellings nodes ++ ')' :: spelled (written behind)) := by
  have text : opening.val.text = "(" := terminal_fits opening fits
  rw [List.cons_append, List.append_assoc, List.singleton_append,
    terminal_written opening (by simp), text, inside]
  rfl

mutual

theorem value_written (value : Value) (node : Node) (built : value.Builds place node)
    (fits : AllFit value.yield) (behind : List Token) :
    spelled (written (value.yield ++ behind)) = node.spelling ++ spelled (written behind) := by
  cases built with
  | @leaf token atom kind spells =>
    have other : token.kind ≠ .comma := by
      intro comma
      rw [comma] at kind
      cases kind
    rw [Value.yield, List.singleton_append, written_other other, spelled_cons, Node.spelling,
      leaf_spelling spells]
  | @operation operation head operands built =>
    exact operation_written operation head operands built fits behind
  | @list row nodes opening closing elements =>
    obtain ⟨opens, inside⟩ := List.forall_mem_cons.mp fits
    have row := row_written row nodes elements closing inside behind
    rw [Value.yield, enclosed_written opening closing opens behind row]
    simp [Node.spelling]
termination_by structural value

theorem operation_written (operation : Operation) (head : Head) (operands : List Node)
    (built : operation.Builds place head operands) (fits : AllFit operation.yield)
    (behind : List Token) : spelled (written (operation.yield ++ behind)) =
      (Node.operation head operands).spelling ++ spelled (written behind) := by
  cases built with
  | @mk row operands operator keyword opening closing elements =>
    obtain ⟨named, rest⟩ := List.forall_mem_cons.mp fits
    obtain ⟨opens, inside⟩ := List.forall_mem_cons.mp rest
    have text : keyword.val.text = operator.keyword := terminal_fits keyword named
    have row := row_written row operands elements closing inside behind
    rw [Operation.yield, List.cons_append, terminal_written keyword (by simp), text,
      enclosed_written opening closing opens behind row]
    simp [Node.spelling]
termination_by structural operation

theorem row_written (row : Row) (nodes : List Node) (built : row.Builds place nodes)
    (closing : Terminal .rightParen) (fits : AllFit (row.yield ++ [closing.val]))
    (behind : List Token) : spelled (written (row.yield ++ closing.val :: behind)) =
      Node.spellings nodes ++ ')' :: spelled (written behind) := by
  cases built with
  | empty => exact closing_written closing fits behind
  | @values value node rest nodes first others =>
    rw [Row.yield, List.append_assoc] at fits
    obtain ⟨own, later⟩ := allFit_append.mp fits
    rw [Row.yield, List.append_assoc, value_written value node first own,
      rest_written rest nodes others closing later, spellings_cons, List.append_assoc]
termination_by structural row

theorem rest_written (rest : Rest) (nodes : List Node) (built : rest.Builds place nodes)
    (closing : Terminal .rightParen) (fits : AllFit (rest.yield ++ [closing.val]))
    (behind : List Token) : spelled (written (rest.yield ++ closing.val :: behind)) =
      followers nodes ++ ')' :: spelled (written behind) := by
  cases built with
  | done => exact closing_written closing fits behind
  | @trailing comma =>
    obtain ⟨-, last⟩ := List.forall_mem_cons.mp fits
    rw [Rest.yield, List.singleton_append, written_trailing]
    exact closing_written closing last behind
  | @next value node rest nodes comma first others =>
    rw [Rest.yield, List.cons_append, List.append_assoc] at fits
    obtain ⟨separates, values⟩ := List.forall_mem_cons.mp fits
    obtain ⟨own, later⟩ := allFit_append.mp values
    have text : comma.val.text = "," := terminal_fits comma separates
    rw [Rest.yield, List.cons_append, List.append_assoc, written_separator, spelled_cons, text,
      value_written value node first own, rest_written rest nodes others closing later, followers,
      spellings_cons, List.cons_append, List.append_assoc]
    rfl
termination_by structural rest

end

/-! ## Statements -/

variable {text : String}

/-- The end of a text is a token without characters. -/
theorem finish_text (member : token ∈ (Stream.ofText text).tokens) (finish : token.kind = .finish) :
    token.text = "" := by
  obtain ⟨depth, ahead, lexeme, first, kind, taken⟩ := token_first member
  rw [kind] at finish
  obtain rfl := first_finish first finish
  rw [taken]
  cases first with
  | ending => rfl

theorem statement_written {node : Node} (made : (Stream.ofText text).statement = .ok node) :
    spelled (written (Stream.ofText text).significant) = node.spelling := by
  obtain ⟨-, ⟨operation, ending⟩, tokens, -, built⟩ := statement_made_iff.mp made
  have fits := significant_fits text
  have member : ending.val ∈ (Stream.ofText text).significant := by
    rw [← tokens, Grammar.Statement.yield]
    simp
  have nothing : spelled (written [ending.val]) = [] := by
    have empty := finish_text (List.mem_of_mem_filter member) ending.property
    rw [terminal_written ending (by simp), empty]
    rfl
  rw [← tokens] at fits ⊢
  cases built with
  | blank => exact nothing
  | @operation operation head operands _ built =>
    have whole := operation_written operation head operands built (allFit_append.mp fits).1
      [ending.val]
    rw [nothing, List.append_nil] at whole
    exact whole

/-- **The canonical form is the text of the tokens.** It is the texts of all tokens that count, one
after the other, but for the commas whose next token closes a list. -/
theorem canonical_is_token_text {handle : Nat} {name text : String} {tree : Tree}
    (accepted : Tree.parse handle name text = .ok tree) : tree.canonical =
      String.join ((written (Stream.ofText text).significant).map Token.text) := by
  obtain ⟨node, made, rfl⟩ := parse_ok_iff.mp accepted
  have same : (node.bind ⟨handle, name, text⟩).canonical = node.canonical :=
    canonical_of_shape (shape_mapOrigins node)
  rw [Tree.canonical, same, Node.canonical, ← statement_written made, ofList_spelled]

/-- Both commas in front of closing parentheses are left out, and the spelling of the number is
kept. -/
theorem canonical_is_token_text_nested : ∃ tree,
    Tree.parse 0 "root" "and( in(b,(+1.50 ,\"x\")\n,),)" = .ok tree ∧
      tree.canonical = "and(in(b,(+1.50,\"x\")))" := by
  have texts : (written (Stream.ofText "and( in(b,(+1.50 ,\"x\")\n,),)").significant).map
      Token.text = ["and", "(", "in", "(", "b", ",", "(", "+1.50", ",", "\"x\"", ")", ")", ")",
        ""] := by
    decide +kernel
  have read : (Tree.parse 0 "root" "and( in(b,(+1.50 ,\"x\")\n,),)").toOption.isSome = true := by
    decide +kernel
  cases parsed : Tree.parse 0 "root" "and( in(b,(+1.50 ,\"x\")\n,),)" with
  | error diagnostic =>
    rw [parsed] at read
    cases read
  | ok tree =>
    refine ⟨tree, rfl, ?_⟩
    rw [canonical_is_token_text parsed, texts]
    rfl

end ResourceQuery.CanonicalTokens
