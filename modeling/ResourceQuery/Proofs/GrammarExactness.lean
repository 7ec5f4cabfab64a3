import ResourceQuery.Proofs.DraftRuns
import ResourceQuery.Proofs.GrammarTrees
import ResourceQuery.Proofs.StreamTiling
import ResourceQuery.Tree

/-! Reading accepts exactly the texts whose tokens derive from the grammar, and makes the tree of
the derivation. For the one direction, a run follows a derivation part by part; for the other, a run
that starts inside a list is cut where that list closes, and what was read up to there is a row. -/
namespace ResourceQuery.GrammarExactness
open Draft (depthLimit)
open DraftRuns LexemeSpelling Grammar

/-! ## Lists with several elements more -/

/-- The list with more elements read, the first of them first. -/
def pushAll (list : OpenList) (nodes : List Node) : OpenList :=
  nodes.foldl (fun list node => list.push node) list

@[simp] theorem pushAll_nil (list : OpenList) : pushAll list [] = list := rfl

@[simp] theorem pushAll_cons (list : OpenList) (node : Node) (nodes : List Node) :
    pushAll list (node :: nodes) = pushAll (list.push node) nodes := rfl

@[simp] theorem depth_push (list : OpenList) (node : Node) :
    (list.push node).depth = list.depth := by
  cases list <;> rfl

theorem close_outermost (keyword : Keyword) (pos : Nat) (read nodes : List Node) :
    (pushAll (.outermost keyword pos read) nodes).close =
      .finished (keyword.head pos) (read.reverse ++ nodes) := by
  induction nodes generalizing read with
  | nil => simp [OpenList.close]
  | cons node nodes ih => simp [OpenList.push, ih]

theorem close_operands (around : OpenList) (keyword : Keyword) (pos : Nat)
    (read nodes : List Node) : (pushAll (.operands around keyword pos read) nodes).close =
      .separator (around.push (.operation (keyword.head pos) (read.reverse ++ nodes))) := by
  induction nodes generalizing read with
  | nil => simp [OpenList.close]
  | cons node nodes ih => simp [OpenList.push, ih]

theorem close_nested (around : OpenList) (pos : Nat) (read nodes : List Node) :
    (pushAll (.nested around pos read) nodes).close =
      .separator (around.push (.list (.detached pos) (read.reverse ++ nodes))) := by
  induction nodes generalizing read with
  | nil => simp [OpenList.close]
  | cons node nodes ih => simp [OpenList.push, ih]

/-! ## Runs follow derivations -/

mutual

/-- A value is one element more. -/
theorem value_runs (value : Value) (list : OpenList) (node : Node)
    (builds : value.Builds .detached node) (room : list.depth + value.height ≤ depthLimit) :
    Run (.value list) value.yield (.separator (list.push node)) := by
  cases builds with
  | leaf spells => exact run_single (.atom (atom_of_leaf spells))
  | @operation operation head operands built =>
    exact operation_runs operation list head operands built room
  | @list row nodes opening closing elements =>
    rw [Value.height] at room
    have inside := row_runs row (.nested list opening.val.pos []) nodes closing elements
      (by simp only [OpenList.depth]; omega)
    rw [close_nested] at inside
    exact .step (.nested opening.property (by omega)) inside
termination_by structural value

theorem operation_runs (operation : Operation) (list : OpenList) (head : Head)
    (operands : List Node) (builds : operation.Builds .detached head operands)
    (room : list.depth + operation.height ≤ depthLimit) :
    Run (.value list) operation.yield (.separator (list.push (.operation head operands))) := by
  obtain ⟨operator, keyword, opening, row, closing⟩ := operation
  rw [Operation.height] at room
  cases builds with
  | mk elements =>
    have inside := row_runs row
      (.operands list ⟨operator, keyword.val.pos⟩ opening.val.pos []) operands closing elements
      (by simp only [OpenList.depth]; omega)
    rw [close_operands] at inside
    exact .step (.operator keyword.property) (.step (.operands opening.property (by omega)) inside)
termination_by structural operation

/-- A row is so many elements more, and the parenthesis behind it closes the list. -/
theorem row_runs (row : Row) (list : OpenList) (nodes : List Node)
    (closing : Terminal .rightParen) (builds : row.Builds .detached nodes)
    (room : list.depth + row.height ≤ depthLimit) :
    Run (.value list) (row.yield ++ [closing.val]) (pushAll list nodes).close := by
  cases builds with
  | empty => exact run_single (.closeValue closing.property)
  | @values value node rest nodes first others =>
    rw [Row.height] at room
    have one := value_runs value list node first (by omega)
    have more := rest_runs rest (list.push node) nodes closing others (by rw [depth_push]; omega)
    rw [Row.yield, List.append_assoc]
    exact run_append one more
termination_by structural row

theorem rest_runs (rest : Rest) (list : OpenList) (nodes : List Node)
    (closing : Terminal .rightParen) (builds : rest.Builds .detached nodes)
    (room : list.depth + rest.height ≤ depthLimit) :
    Run (.separator list) (rest.yield ++ [closing.val]) (pushAll list nodes).close := by
  cases builds with
  | done => exact run_single (.closeSeparator closing.property)
  | @trailing comma =>
    exact .step (.comma comma.property) (run_single (.closeValue closing.property))
  | @next value node rest nodes comma first others =>
    rw [Rest.height] at room
    have one := value_runs value list node first (by omega)
    have more := rest_runs rest (list.push node) nodes closing others (by rw [depth_push]; omega)
    rw [Rest.yield, List.cons_append, List.append_assoc]
    exact .step (.comma comma.property) (run_append one more)
termination_by structural rest

end

/-! ## Runs are cut into derivations -/

variable {list : OpenList} {tokens : List Token} {head : Head} {operands : List Node}

/-- A run begins with the tokens of a part of a list, which are these elements and nest no deeper
than they may, and with the parenthesis that closes the list behind them. -/
def Begins (list : OpenList) (part : List Token) (height : Nat) (nodes : List Node)
    (tokens : List Token) (last : Draft) : Prop :=
  list.depth + height ≤ depthLimit ∧ ∃ (closing : Terminal .rightParen) (behind : List Token),
    tokens = part ++ closing.val :: behind ∧ Run (pushAll list nodes).close behind last

theorem begins_value {value : Value} {rest : Rest} {node : Node} {nodes : List Node}
    {behind : List Token} {last : Draft} (whole : tokens = value.yield ++ behind)
    (high : list.depth + value.height ≤ depthLimit)
    (others : Begins (list.push node) rest.yield rest.height nodes behind last) :
    Begins list (Row.values value rest).yield (Row.values value rest).height (node :: nodes) tokens
      last := by
  obtain ⟨higher, closing, outside, rfl, run⟩ := others
  rw [depth_push] at higher
  refine ⟨?_, closing, outside, ?_, run⟩
  · rw [Row.height]
    omega
  · rw [whole, Row.yield, List.append_assoc]

mutual

/-- What is read from where a value may stand begins with a row, if the list is closed at all. -/
theorem row_of_run (list : OpenList) (tokens : List Token) (room : list.depth ≤ depthLimit)
    (fits : AllFit tokens) (run : Run (.value list) tokens (.finished head operands)) :
    ∃ (row : Row) (nodes : List Node), row.Builds .detached nodes ∧
      Begins list row.yield row.height nodes tokens (.finished head operands) := by
  cases run with
  | @step _ token _ tokens _ first others =>
    have rest_fits : AllFit tokens := (List.forall_mem_cons.mp fits).2
    cases first with
    | @operator _ _ operator kind =>
      cases others with
      | @step _ opening _ tokens _ second others =>
        cases second with
        | operands opens deeper =>
          -- The inner list ends before the outer one goes on, so both rests are shorter.
          obtain ⟨inner, elements, built, high, closing, behind, rfl, outside⟩ :=
            row_of_run (.operands list ⟨operator, token.pos⟩ opening.pos []) tokens deeper
              (List.forall_mem_cons.mp rest_fits).2 others
          rw [close_operands] at outside
          obtain ⟨rest, nodes, more, cut⟩ := rest_of_run _ behind (by rwa [depth_push])
            (fun token member => rest_fits token (by simp [member])) outside
          have higher : list.depth + 1 + inner.height ≤ depthLimit := high
          refine ⟨.values (.operation (.mk operator ⟨token, kind⟩ ⟨opening, opens⟩ inner closing))
            rest, _, .values (.operation (.mk built)) more, begins_value ?_ ?_ cut⟩
          · simp only [Value.yield, Operation.yield, List.cons_append, List.append_assoc,
              List.nil_append]
          · rw [Value.height, Operation.height]
            omega
    | nested kind deeper =>
      obtain ⟨inner, elements, built, high, closing, behind, rfl, outside⟩ :=
        row_of_run (.nested list token.pos []) tokens deeper rest_fits others
      rw [close_nested] at outside
      obtain ⟨rest, nodes, more, cut⟩ := rest_of_run _ behind (by rwa [depth_push])
        (fun token member => rest_fits token (by simp [member])) outside
      have higher : list.depth + 1 + inner.height ≤ depthLimit := high
      refine ⟨.values (.list ⟨token, kind⟩ inner closing) rest, _, .values (.list built) more,
        begins_value ?_ ?_ cut⟩
      · simp only [Value.yield, List.cons_append, List.append_assoc, List.nil_append]
      · rw [Value.height]
        omega
    | atom spells =>
      have leaf := leaf_of_atom (fits token List.mem_cons_self) spells
      obtain ⟨rest, nodes, more, cut⟩ := rest_of_run _ tokens (by rwa [depth_push]) rest_fits others
      exact ⟨.values (.leaf token (leaf_kind leaf)) rest, _, .values (.leaf leaf) more,
        begins_value rfl room cut⟩
    | closeValue kind => exact ⟨.empty, [], .empty, room, ⟨token, kind⟩, tokens, rfl, others⟩
termination_by tokens.length

theorem rest_of_run (list : OpenList) (tokens : List Token) (room : list.depth ≤ depthLimit)
    (fits : AllFit tokens) (run : Run (.separator list) tokens (.finished head operands)) :
    ∃ (rest : Rest) (nodes : List Node), rest.Builds .detached nodes ∧
      Begins list rest.yield rest.height nodes tokens (.finished head operands) := by
  cases run with
  | @step _ token _ tokens _ first others =>
    have rest_fits : AllFit tokens := (List.forall_mem_cons.mp fits).2
    cases first with
    | comma kind =>
      -- Behind a comma a draft cannot tell a row from nothing; a comma before nothing is trailing.
      obtain ⟨row, nodes, elements, high, closing, behind, rfl, outside⟩ :=
        row_of_run list tokens room rest_fits others
      cases elements with
      | empty => exact ⟨.trailing ⟨token, kind⟩, _, .trailing, high, closing, behind, rfl, outside⟩
      | values first more =>
        exact ⟨.next ⟨token, kind⟩ _ _, _, .next first more, high, closing, behind, rfl, outside⟩
    | closeSeparator kind =>
      exact ⟨.done, [], .done, room, ⟨token, kind⟩, tokens, rfl, others⟩
termination_by tokens.length

end

/-! ## Statements -/

/-- The operation of a statement is read from the beginning. -/
theorem operation_runs_alone (operation : Operation)
    (builds : operation.Builds .detached head operands) (room : operation.height ≤ depthLimit) :
    Run .start operation.yield (.finished head operands) := by
  obtain ⟨operator, keyword, opening, row, closing⟩ := operation
  rw [Operation.height] at room
  cases builds with
  | mk elements =>
    have inside := row_runs row (.outermost ⟨operator, keyword.val.pos⟩ opening.val.pos []) _
      closing elements (by simp only [OpenList.depth]; omega)
    rw [close_outermost] at inside
    exact .step (.first keyword.property) (.step (.outermost opening.property) inside)

/-- A whole operation is read exactly from the tokens of one that does not nest too deep. -/
theorem operation_run_iff (fits : AllFit tokens) :
    Run .start tokens (.finished head operands) ↔ ∃ operation : Operation,
      operation.yield = tokens ∧ operation.height ≤ depthLimit ∧
        operation.Builds .detached head operands := by
  constructor
  · intro run
    cases run with
    | @step _ token _ tokens _ first others =>
      have rest_fits : AllFit tokens := (List.forall_mem_cons.mp fits).2
      cases first with
      | @first _ operator kind =>
        cases others with
        | @step _ opening _ tokens _ second others =>
          cases second with
          | outermost opens =>
            obtain ⟨row, nodes, built, high, closing, behind, rfl, outside⟩ :=
              row_of_run (.outermost ⟨operator, token.pos⟩ opening.pos []) tokens
                (by simp [OpenList.depth, depthLimit])
                (List.forall_mem_cons.mp rest_fits).2 others
            rw [close_outermost] at outside
            have higher : 1 + row.height ≤ depthLimit := high
            cases outside with
            | done =>
              refine ⟨.mk operator ⟨token, kind⟩ ⟨opening, opens⟩ row closing, rfl, ?_, .mk built⟩
              rw [Operation.height]
              omega
            | step first others => cases first
  · rintro ⟨operation, rfl, high, built⟩
    exact operation_runs_alone operation built high

variable {text : String} {node : Node}

theorem significant_fits (text : String) : AllFit (Stream.ofText text).significant :=
  fun _ member => StreamTiling.token_fits (List.mem_of_mem_filter member)

theorem significant_finish (finish : (Stream.ofText text).last.kind = .finish) :
    (Stream.ofText text).significant =
      (Stream.ofText text).body.filter (·.kind != .blank) ++ [(Stream.ofText text).last] := by
  rw [Stream.significant, Stream.tokens, List.filter_append]
  simp [finish]

/-- A text makes a node exactly if its tokens derive a statement that does not nest too deep, and
the node is the one that the derivation stands for. -/
theorem statement_made_iff : (Stream.ofText text).statement = .ok node ↔
    (Stream.ofText text).last.kind = .finish ∧ ∃ statement : Grammar.Statement,
      statement.yield = (Stream.ofText text).significant ∧ statement.height ≤ depthLimit ∧
        statement.Builds .detached node := by
  rw [statement_ok_iff]
  refine and_congr_right fun finish => ?_
  have whole := significant_finish finish
  have fits := significant_fits text
  rw [whole] at fits ⊢
  have body_fits : AllFit ((Stream.ofText text).body.filter (·.kind != .blank)) :=
    (allFit_append.mp fits).1
  constructor
  · rintro ⟨draft, run, ends⟩
    cases ends with
    | blank =>
      have nothing := run_start run rfl
      exact ⟨⟨none, ⟨_, finish⟩⟩, by rw [nothing]; rfl, Nat.zero_le _, .blank⟩
    | operation =>
      obtain ⟨operation, tokens, high, built⟩ := (operation_run_iff body_fits).mp run
      exact ⟨⟨some operation, ⟨_, finish⟩⟩, by rw [← tokens]; rfl, high, .operation built⟩
  · rintro ⟨⟨operation, ending⟩, tokens, high, built⟩
    obtain ⟨body, -⟩ := List.append_inj' tokens rfl
    cases built with
    | blank => exact ⟨.start, by rw [← body]; exact .done, .blank⟩
    | operation built =>
      exact ⟨_, (operation_run_iff body_fits).mpr ⟨_, body, high, built⟩, .operation⟩

/-! ## Trees -/

variable {handle : Nat} {name : String} {tree : Tree}

theorem parse_ok_iff : Tree.parse handle name text = .ok tree ↔ ∃ node,
    (Stream.ofText text).statement = .ok node ∧
      tree = ⟨⟨handle, name, text⟩, node.bind ⟨handle, name, text⟩⟩ := by
  rw [← readStatement_eq_statement]
  unfold Tree.parse Tree.ofSource
  cases readStatement text <;> simp [eq_comm]

/-- The tokens of a text that is no fault to its end hold no fault. -/
theorem faultless (finish : (Stream.ofText text).last.kind = .finish) :
    ∀ token ∈ (Stream.ofText text).tokens, ∀ fault, token.kind ≠ .fault fault := by
  intro token member
  rcases List.mem_append.mp member with inside | last
  · exact ((StreamTiling.stream_tiles text).body_more token inside).2
  · rw [List.mem_singleton.mp last, finish]
    simp

/-- **Reading is exact.** A text is read exactly if its tokens end in the end of the text without a
fault, derive a statement once the blanks are left out, give every literal a value, and never leave
more than 128 parentheses open. The derivation is then the only one, and the root is the one tree
that it stands for. -/
theorem parse_exact (handle : Nat) (name text : String) :
    ((∃ tree, Tree.parse handle name text = .ok tree) ↔
      ((Stream.ofText text).last.kind = .finish ∧
        ∀ token ∈ (Stream.ofText text).tokens, ∀ fault, token.kind ≠ .fault fault) ∧
      (∃ statement : Grammar.Statement, statement.yield = (Stream.ofText text).significant) ∧
      Convert (Stream.ofText text).significant ∧
      NeverDeeper 128 (Stream.ofText text).significant) ∧
    ∀ tree, Tree.parse handle name text = .ok tree →
      tree.source = ⟨handle, name, text⟩ ∧
      ∃ statement : Grammar.Statement, statement.yield = (Stream.ofText text).significant ∧
        (∀ other : Grammar.Statement, other.yield = (Stream.ofText text).significant →
          other = statement) ∧
        ∀ root, statement.Builds (fun pos => ⟨pos, some ⟨handle, name, text⟩⟩) root ↔
          root = tree.root := by
  refine ⟨⟨?_, ?_⟩, ?_⟩
  · rintro ⟨tree, parsed⟩
    obtain ⟨node, made, -⟩ := parse_ok_iff.mp parsed
    obtain ⟨finish, statement, tokens, high, built⟩ := statement_made_iff.mp made
    have fits := significant_fits text
    rw [← tokens] at fits ⊢
    exact ⟨⟨finish, faultless finish⟩, ⟨statement, rfl⟩,
      (statement_builds_iff statement fits).mp ⟨node, built⟩, (statement_nests statement).mpr high⟩
  · rintro ⟨⟨finish, -⟩, ⟨statement, tokens⟩, convert, shallow⟩
    have fits := significant_fits text
    rw [← tokens] at fits convert shallow
    obtain ⟨node, built⟩ := (statement_builds_iff statement fits).mpr convert
    have high := (statement_nests statement).mp shallow
    exact ⟨_, parse_ok_iff.mpr
      ⟨node, statement_made_iff.mpr ⟨finish, statement, tokens, high, built⟩, rfl⟩⟩
  · intro tree parsed
    obtain ⟨node, made, rfl⟩ := parse_ok_iff.mp parsed
    obtain ⟨finish, statement, tokens, high, built⟩ := statement_made_iff.mp made
    have bound : statement.Builds (fun pos => ⟨pos, some ⟨handle, name, text⟩⟩)
        (node.bind ⟨handle, name, text⟩) :=
      statement_builds_map (Origin.bind ⟨handle, name, text⟩) built
    refine ⟨rfl, statement, tokens, ?_, ?_⟩
    · exact fun other same => statement_unique (same.trans tokens.symm)
    · intro root
      constructor
      · exact fun built => statement_builds_unique built bound
      · rintro rfl
        exact bound

/-- The comma behind the last operand leaves no trace in the tree. -/
theorem parse_exact_trailing_comma : ∃ tree, Tree.parse 0 "root" "eq(id, 12,)" = .ok tree ∧
    tree.canonical = "eq(id,12)" ∧ tree.source = ⟨0, "root", "eq(id, 12,)"⟩ ∧
    ∃ statement : Grammar.Statement,
      statement.yield = (Stream.ofText "eq(id, 12,)").significant ∧
      statement.Builds (fun pos => ⟨pos, some ⟨0, "root", "eq(id, 12,)"⟩⟩) tree.root := by
  have canonical : (Tree.parse 0 "root" "eq(id, 12,)").toOption.map Tree.canonical =
      some "eq(id,12)" := by
    decide +kernel
  cases parsed : Tree.parse 0 "root" "eq(id, 12,)" with
  | error diagnostic =>
    rw [parsed] at canonical
    cases canonical
  | ok tree =>
    rw [parsed] at canonical
    obtain ⟨source, statement, tokens, -, built⟩ :=
      (parse_exact 0 "root" "eq(id, 12,)").2 tree parsed
    exact ⟨tree, rfl, Option.some.inj canonical, source, statement, tokens, (built _).mpr rfl⟩

end ResourceQuery.GrammarExactness
