import ResourceQuery.Proofs.GrammarFaults
import ResourceQuery.Proofs.HandBuilt

/-! How deep lists may nest. What the grammar lets come behind a draft is the same whatever the
limit (`Continues`): a step takes the first token of it, and it takes every first token but a
literal without a value and a parenthesis for which there is no room. So a text is refused for its
nesting just where the grammar allows a list, nothing was wrong before, and 128 lists are open
(`nesting_limit_exact`). -/

namespace ResourceQuery.NestingLimit
open Draft (depthLimit)
open DraftRuns DiagnosticFidelity LexemeSpelling Refusals ViablePrefix GrammarFaults
open CanonicalRoundTrip HandBuilt GrammarExactness Grammar

/-! ## What may come behind a draft -/

/-- What may come behind a value where so many lists are open: the rest of each list, and the
parenthesis that closes it. -/
inductive Follows : Nat → List Token → Prop where
  | nil : Follows 0 []
  | list (rest : Rest) (closing : Terminal .rightParen) (outside : Follows depth tokens) :
      Follows (depth + 1) (rest.yield ++ closing.val :: tokens)

/-- What the grammar lets come behind the tokens of a draft to make an operation of them. -/
inductive Continues : Draft → List Token → Prop where
  | start (operation : Operation) : Continues .start operation.yield
  | operator (opening : Terminal .leftParen) (row : Row) (closing : Terminal .rightParen)
      (outside : Follows (openLists (.operator keyword around)) tokens) :
      Continues (.operator keyword around) (opening.val :: (row.yield ++ closing.val :: tokens))
  | value (row : Row) (closing : Terminal .rightParen) (depth : list.depth = around + 1)
      (outside : Follows around tokens) :
      Continues (.value list) (row.yield ++ closing.val :: tokens)
  | separator (outside : Follows list.depth tokens) : Continues (.separator list) tokens
  | finished : Continues (.finished head operands) []

variable {draft next last : Draft} {token : Token} {tokens before more : List Token}
  {list : OpenList} {around : Nat}

theorem depth_succ (list : OpenList) : ∃ around, list.depth = around + 1 :=
  Nat.exists_eq_add_one.mpr (depth_pos list)

theorem follows_some (depth : Nat) : ∃ tokens, Follows depth tokens := by
  induction depth with
  | zero => exact ⟨[], .nil⟩
  | succ depth ih =>
    obtain ⟨tokens, follows⟩ := ih
    exact ⟨_, .list .done (madeUp .rightParen) follows⟩

/-- Behind a list that is closed the list around it goes on, if there is one. -/
theorem continues_close (depth : list.depth = around + 1) :
    Continues list.close tokens ↔ Follows around tokens := by
  rcases close_cases list with ⟨single, head, operands, closed⟩ | ⟨outer, closed, nested⟩
  · obtain rfl : around = 0 := by omega
    rw [closed]
    constructor
    · rintro (_ | _)
      exact .nil
    · rintro (_ | _)
      exact .finished
  · obtain rfl : around = outer.depth := by omega
    rw [closed]
    constructor
    · rintro (_ | _ | _ | outside)
      exact outside
    · exact .separator

/-- Where a value may come, it comes in front of what may come behind it. -/
theorem continues_value (value : Value) (outside : Follows list.depth tokens) :
    Continues (.value list) (value.yield ++ tokens) := by
  obtain ⟨around, depth⟩ := depth_succ list
  rw [depth] at outside
  cases outside with
  | list rest closing outside =>
    rw [← List.append_assoc]
    exact .value (.values value rest) closing depth outside

/-! ## Steps -/

/-- A step leaves the grammar nothing that it did not have before. -/
theorem step_back (step : Step draft token next) (continues : Continues next more) :
    Continues draft (token :: more) := by
  cases step with
  | first kind =>
    cases continues with
    | operator opening row closing outside =>
      cases outside with
      | nil => exact .start (.mk _ ⟨token, kind⟩ opening row closing)
  | outermost kind | operands kind =>
    cases continues with
    | value row closing depth outside =>
      obtain rfl := Nat.succ.inj depth
      exact .operator ⟨token, kind⟩ row closing outside
  | operator kind =>
    cases continues with
    | operator opening row closing outside =>
      have value := continues_value (.operation (.mk _ ⟨token, kind⟩ opening row closing)) outside
      simpa [Value.yield, Operation.yield] using value
  | nested kind =>
    cases continues with
    | value row closing depth outside =>
      obtain rfl := Nat.succ.inj depth
      have value := continues_value (.list ⟨token, kind⟩ row closing) outside
      simpa [Value.yield] using value
  | atom spells =>
    cases continues with
    | separator outside =>
      rw [depth_push] at outside
      exact continues_value (.leaf token (atom_leaf spells)) outside
  | closeValue kind =>
    rename_i list
    obtain ⟨around, depth⟩ := depth_succ list
    exact .value .empty ⟨token, kind⟩ depth ((continues_close depth).mp continues)
  | comma kind =>
    cases continues with
    | value row closing depth outside =>
      refine .separator ?_
      rw [depth]
      cases row with
      | empty => exact .list (.trailing ⟨token, kind⟩) closing outside
      | values value rest =>
        have follows := Follows.list (.next ⟨token, kind⟩ value rest) closing outside
        simpa [Rest.yield, Row.yield] using follows
  | closeSeparator kind =>
    rename_i list
    obtain ⟨around, depth⟩ := depth_succ list
    refine .separator ?_
    rw [depth]
    exact .list .done ⟨token, kind⟩ ((continues_close depth).mp continues)

/-- Where a value may come, a draft takes its first token. -/
theorem value_on (value : Value) (whole : token :: more = value.yield ++ tokens)
    (outside : Follows list.depth tokens) (fits : Fits token.kind token.text)
    (convert : Convert [token]) (room : token.kind = .leftParen → list.depth < depthLimit) :
    ∃ next, Step (.value list) token next ∧ Continues next more := by
  cases value with
  | leaf token leaf =>
    obtain ⟨rfl, rfl⟩ := List.cons.inj whole
    obtain ⟨atom, spells⟩ := (leaf_iff fits leaf).mpr convert
    refine ⟨_, .atom (atom_of_leaf spells), .separator ?_⟩
    rwa [depth_push]
  | operation operation =>
    obtain ⟨operator, keyword, opening, inner, inside⟩ := operation
    simp only [Value.yield, Operation.yield, List.cons_append, List.append_assoc,
      List.nil_append] at whole
    obtain ⟨rfl, rfl⟩ := List.cons.inj whole
    exact ⟨_, .operator keyword.property, .operator opening inner inside outside⟩
  | list opening inner inside =>
    simp only [Value.yield, List.cons_append, List.append_assoc, List.nil_append] at whole
    obtain ⟨rfl, rfl⟩ := List.cons.inj whole
    exact ⟨_, .nested opening.property (room opening.property), .value inner inside rfl outside⟩

/-- Behind a value a draft takes whatever the lists that are open go on with. -/
theorem separator_on (outside : Follows list.depth (token :: more)) :
    ∃ next, Step (.separator list) token next ∧ Continues next more := by
  obtain ⟨around, depth⟩ := depth_succ list
  rw [depth] at outside
  generalize whole : token :: more = tokens at outside
  cases outside with
  | list rest closing outside =>
    cases rest with
    | done =>
      obtain ⟨rfl, rfl⟩ := List.cons.inj whole
      exact ⟨_, .closeSeparator closing.property, (continues_close depth).mpr outside⟩
    | trailing comma =>
      obtain ⟨rfl, rfl⟩ := List.cons.inj whole
      exact ⟨_, .comma comma.property, .value .empty closing depth outside⟩
    | next comma value rest =>
      obtain ⟨rfl, rfl⟩ := List.cons.inj whole
      exact ⟨_, .comma comma.property, .value (.values value rest) closing depth outside⟩

/-- A draft takes every token that the grammar lets come next, unless it is a literal without a
value or a parenthesis for which there is no room. -/
theorem step_on (continues : Continues draft (token :: more)) (fits : Fits token.kind token.text)
    (convert : Convert [token]) (room : token.kind = .leftParen → openLists draft < depthLimit) :
    ∃ next, Step draft token next ∧ Continues next more := by
  generalize whole : token :: more = tokens at continues
  cases continues with
  | start operation =>
    obtain ⟨operator, keyword, opening, row, closing⟩ := operation
    obtain ⟨rfl, rfl⟩ := List.cons.inj whole
    exact ⟨_, .first keyword.property, .operator opening row closing .nil⟩
  | @operator keyword around tokens opening row closing outside =>
    obtain ⟨rfl, rfl⟩ := List.cons.inj whole
    cases around with
    | none => exact ⟨_, .outermost opening.property, .value row closing rfl outside⟩
    | some list =>
      exact ⟨_, .operands opening.property (room opening.property), .value row closing rfl outside⟩
  | @value around tokens list row closing depth outside =>
    cases row with
    | empty =>
      obtain ⟨rfl, rfl⟩ := List.cons.inj whole
      exact ⟨_, .closeValue closing.property, (continues_close depth).mpr outside⟩
    | values value rest =>
      have behind : Follows list.depth (rest.yield ++ closing.val :: tokens) := by
        rw [depth]
        exact .list rest closing outside
      rw [Row.yield, List.append_assoc] at whole
      exact value_on value whole behind fits convert room
  | separator outside =>
    rw [← whole] at outside
    exact separator_on outside
  | finished => cases whole

/-! ## Runs -/

theorem run_back (run : Run draft tokens last) (continues : Continues last more) :
    Continues draft (tokens ++ more) := by
  induction run with
  | done => exact continues
  | step first others ih => exact step_back first (ih continues)

theorem run_on (continues : Continues draft (tokens ++ more)) (fits : AllFit tokens)
    (convert : Convert tokens) (within : Within depthLimit (openLists draft) tokens) :
    ∃ last, Run draft tokens last ∧ Continues last more := by
  induction tokens generalizing draft with
  | nil => exact ⟨draft, .done, continues⟩
  | cons token tokens ih =>
    obtain ⟨own, others⟩ := convert_cons.mp convert
    obtain ⟨own_fits, other_fits⟩ := List.forall_mem_cons.mp fits
    have room : token.kind = .leftParen → openLists draft < depthLimit := by
      intro kind
      have reached := within [token] ⟨tokens, rfl⟩
      rw [(opened_single kind).1, (opened_single kind).2] at reached
      omega
    obtain ⟨next, step, continues⟩ := step_on continues own_fits own room
    have lists := step_opens step
    obtain ⟨last, run, continues⟩ := ih continues other_fits others fun read start => by
      have reached := within ([token] ++ read) (List.cons_prefix_cons.mpr ⟨rfl, start⟩)
      rw [opened_append, closed_append] at reached
      omega
    exact ⟨last, .step step run, continues⟩

theorem step_converts (step : Step draft token next) (fits : Fits token.kind token.text) :
    Convert [token] := by
  cases step with
  | atom spells =>
    have leaf := leaf_of_atom fits spells
    exact (leaf_iff fits (leaf_kind leaf)).mp ⟨_, leaf⟩
  | first kind | outermost kind | operands kind | operator kind | nested kind | closeValue kind
  | comma kind | closeSeparator kind => exact convert_terminal ⟨token, kind⟩ (by simp)

theorem run_converts (run : Run draft tokens last) (fits : AllFit tokens) : Convert tokens := by
  induction run with
  | done => exact convert_nil
  | step first others ih =>
    obtain ⟨own, more⟩ := List.forall_mem_cons.mp fits
    exact convert_cons.mpr ⟨step_converts first own, ih more⟩

theorem run_shallow (run : Run .start tokens last) : NeverDeeper depthLimit tokens := by
  rintro read ⟨behind, rfl⟩
  obtain ⟨middle, earlier, -⟩ := run_append_iff.mp run
  have lists := run_opens earlier
  have room := run_room earlier (Nat.zero_le _)
  have nothing : openLists .start = 0 := rfl
  omega

/-! ## Refusals -/

/-- No draft but one that a list may come next behind goes on with a left parenthesis. -/
theorem continues_opens (continues : Continues draft (token :: more))
    (opens : token.kind = .leftParen) :
    (∃ keyword around, draft = .operator keyword around) ∨ ∃ list, draft = .value list := by
  generalize whole : token :: more = tokens at continues
  cases continues with
  | start operation =>
    obtain ⟨operator, keyword, opening, row, closing⟩ := operation
    obtain ⟨rfl, -⟩ := List.cons.inj whole
    cases keyword.property.symm.trans opens
  | operator => exact .inl ⟨_, _, rfl⟩
  | value => exact .inr ⟨_, rfl⟩
  | separator outside =>
    rw [← whole] at outside
    obtain ⟨next, step, -⟩ := separator_on outside
    cases step with
    | comma kind | closeSeparator kind => cases kind.symm.trans opens
  | finished => cases whole

theorem enter_full {depth limit : Nat} :
    Draft.enter depth list = .error (.grammar (.tooDeep limit)) ↔
      depthLimit ≤ depth ∧ limit = depthLimit := by
  unfold Draft.enter
  split
  · simp only [reduceCtorEq, false_iff]
    omega
  · simp only [Except.error.injEq, Fault.grammar.injEq, GrammarFault.tooDeep.injEq]
    omega

variable {limit : Nat}

/-- Only where a list may start is a token refused for its depth. -/
theorem accept_deep (refused : draft.accept token = .error (.grammar (.tooDeep limit))) :
    limit = depthLimit ∧ depthLimit ≤ openLists draft ∧ token.kind = .leftParen ∧
      ((∃ keyword around, draft = .operator keyword around) ∨ ∃ list, draft = .value list) := by
  unfold Draft.accept at refused
  split at refused
  · cases refused
  · cases refused
  cases draft with
  | start =>
    change Draft.takeFirst token = _ at refused
    unfold Draft.takeFirst at refused
    split at refused <;> cases refused
  | operator keyword around =>
    change Draft.takeList keyword around token = _ at refused
    unfold Draft.takeList at refused
    split at refused
    · exact absurd (enter_full.mp refused).1 (by decide)
    · obtain ⟨full, same⟩ := enter_full.mp refused
      exact ⟨same, full, ‹_›, .inl ⟨_, _, rfl⟩⟩
    · cases refused
  | value list =>
    change Draft.takeValue list token = _ at refused
    unfold Draft.takeValue at refused
    split at refused
    · cases refused
    · obtain ⟨full, same⟩ := enter_full.mp refused
      exact ⟨same, full, ‹_›, .inr ⟨_, rfl⟩⟩
    · cases refused
    · split at refused <;> cases refused
  | separator list =>
    change Draft.takeSeparator list token = _ at refused
    unfold Draft.takeSeparator at refused
    split at refused <;> cases refused
  | finished head operands => cases refused

/-- A draft refuses a token for its depth just if the token is a left parenthesis that the grammar
allows, and so many lists are open already. -/
theorem accept_deep_iff : draft.accept token = .error (.grammar (.tooDeep limit)) ↔
    limit = depthLimit ∧ depthLimit ≤ openLists draft ∧ token.kind = .leftParen ∧
      ∃ more, Continues draft (token :: more) := by
  constructor
  · intro refused
    obtain ⟨same, full, opens, wants⟩ := accept_deep refused
    refine ⟨same, full, opens, ?_⟩
    rcases wants with ⟨keyword, around, rfl⟩ | ⟨list, rfl⟩
    · obtain ⟨tokens, outside⟩ := follows_some (openLists (.operator keyword around))
      exact ⟨_, .operator ⟨token, opens⟩ .empty (madeUp .rightParen) outside⟩
    · obtain ⟨tokens, outside⟩ := follows_some list.depth
      exact ⟨_, continues_value (.list ⟨token, opens⟩ .empty (madeUp .rightParen)) outside⟩
  · rintro ⟨rfl, full, opens, more, continues⟩
    rcases continues_opens continues opens with ⟨keyword, around, rfl⟩ | ⟨list, rfl⟩
    · cases around with
      | none => exact absurd (Nat.le_zero.mp full) (by decide)
      | some list =>
        have deep : depthLimit ≤ list.depth := full
        simp [Draft.accept, opens, Draft.takeList, enter_full, deep]
    · have deep : depthLimit ≤ list.depth := full
      simp [Draft.accept, opens, Draft.takeValue, enter_full, deep]

/-- The token is a left parenthesis that the grammar allows behind the tokens in front of it. These
break no rule themselves, and they leave as many lists open as may be. -/
structure Overflows (before : List Token) (token : Token) : Prop where
  opens : token.kind = .leftParen
  allowed : ∃ statement : Grammar.Statement, before ++ [token] <+: statement.yield
  convert : Convert before
  shallow : NeverDeeper 128 before
  full : opened before = closed before + 128

/-- A statement that goes on with a parenthesis has an operation that does. -/
theorem operation_allows (opens : token.kind = .leftParen) {statement : Grammar.Statement}
    (allowed : before ++ [token] <+: statement.yield) :
    ∃ more, Continues .start (before ++ token :: more) := by
  obtain ⟨operation, finish⟩ := statement
  obtain ⟨behind, whole⟩ := allowed
  have last : token ≠ finish.val := by
    rintro rfl
    cases opens.symm.trans finish.property
  rcases List.eq_nil_or_concat behind with rfl | ⟨more, other, rfl⟩
  · rw [List.append_nil, Statement.yield] at whole
    obtain ⟨-, same⟩ := List.append_inj' whole rfl
    exact absurd (List.singleton_inj.mp same) last
  · rw [List.concat_eq_append, ← List.append_assoc, Statement.yield] at whole
    obtain ⟨same, -⟩ := List.append_inj' whole rfl
    cases operation with
    | none => simp at same
    | some operation =>
      refine ⟨more, ?_⟩
      rw [← List.singleton_append, ← List.append_assoc, same]
      exact .start operation

theorem overflows_iff (fits : AllFit before) : Overflows before token ↔ ∃ draft,
    Run .start before draft ∧ draft.accept token = .error (.grammar (.tooDeep depthLimit)) := by
  have nothing : openLists .start = 0 := rfl
  constructor
  · rintro ⟨opens, ⟨statement, allowed⟩, convert, shallow, full⟩
    obtain ⟨more, continues⟩ := operation_allows opens allowed
    have within : Within depthLimit (openLists .start) before := by
      intro read start
      rw [nothing, Nat.zero_add]
      exact shallow read start
    obtain ⟨draft, run, continues⟩ := run_on continues fits convert within
    have lists := run_opens run
    have deep : depthLimit ≤ openLists draft := by
      rw [depthLimit]
      omega
    exact ⟨draft, run, accept_deep_iff.mpr ⟨rfl, deep, opens, more, continues⟩⟩
  · rintro ⟨draft, run, refused⟩
    obtain ⟨-, full, opens, more, continues⟩ := accept_deep_iff.mp refused
    have lists := run_opens run
    have room : openLists draft ≤ depthLimit := run_room run (Nat.zero_le _)
    have back := run_back run continues
    generalize whole : before ++ token :: more = tokens at back
    cases back with
    | start operation =>
      refine ⟨opens, ⟨⟨some operation, madeUp .finish⟩, ?_⟩, run_converts run fits,
        run_shallow run, ?_⟩
      · refine ⟨more ++ [(madeUp .finish).val], ?_⟩
        change _ = operation.yield ++ _
        rw [← whole]
        simp
      · rw [depthLimit] at full room
        omega

variable {text name : String} {handle : Nat} {refusal : Refusal}

theorem refuses_deep_iff : Refuses draft token (.grammar (.tooDeep limit)) ↔
    draft.accept token = .error (.grammar (.tooDeep limit)) := by
  constructor
  · intro refuses
    unfold Refuses at refuses
    split at refuses
    · cases conclude_misfit refuses ‹_›
    · exact refuses
  · intro refused
    obtain ⟨-, -, opens, -⟩ := accept_deep refused
    rwa [Refuses, opens, if_neg (by decide)]

/-- A text is refused at one of the tokens that count, by the draft that those in front of it make.
-/
theorem refused_run_iff : (Stream.ofText text).statement = .error refusal ↔
    ∃ before behind draft, (Stream.ofText text).significant = before ++ refusal.token :: behind ∧
      Run .start before draft ∧ Refuses draft refusal.token refusal.fault := by
  refine (refused_iff Mark.start text.toList).trans ?_
  constructor
  · rintro ⟨front, back, draft, split, run, refuses⟩
    have counts := refuses_counts refuses
    refine ⟨_, back.filter (·.kind != .blank), draft, ?_, run_iff.mp run, refuses⟩
    rw [Stream.significant, Stream.ofText, split, List.filter_append,
      List.filter_cons_of_pos (by simpa using counts)]
  · rintro ⟨before, behind, draft, split, run, refuses⟩
    obtain ⟨front, back, whole, rfl, last⟩ := List.filter_eq_append_iff.mp split
    obtain ⟨blanks, back, rfl, all, -, -⟩ := List.filter_eq_cons_iff.mp last
    have none : blanks.filter (·.kind != .blank) = [] := List.filter_eq_nil_iff.mpr all
    refine ⟨front ++ blanks, back, draft, ?_, ?_, refuses⟩
    · rw [List.append_assoc]
      exact whole
    · rw [run_iff, List.filter_append, none, List.append_nil]
      exact run

/-- A text is refused for its nesting where there is one list too many, and only there. -/
theorem statement_deep_iff : (Stream.ofText text).statement =
      .error ⟨token, .grammar (.tooDeep limit)⟩ ↔
    limit = depthLimit ∧ ∃ before behind,
      (Stream.ofText text).significant = before ++ token :: behind ∧ Overflows before token := by
  have fits := significant_fits text
  rw [refused_run_iff]
  constructor
  · rintro ⟨before, behind, draft, split, run, refuses⟩
    have refused := refuses_deep_iff.mp refuses
    obtain ⟨rfl, -⟩ := accept_deep refused
    rw [split] at fits
    exact ⟨rfl, before, behind, split,
      (overflows_iff (allFit_append.mp fits).1).mpr ⟨draft, run, refused⟩⟩
  · rintro ⟨rfl, before, behind, split, overflows⟩
    rw [split] at fits
    obtain ⟨draft, run, refused⟩ := (overflows_iff (allFit_append.mp fits).1).mp overflows
    exact ⟨before, behind, draft, split, run, refuses_deep_iff.mpr refused⟩

/-! ## Trees -/

variable {place : Nat → Origin} {node : Node}

mutual

/-- The lists of a derivation are those of its node. -/
theorem value_nesting (value : Value) {node : Node} (built : value.Builds place node) :
    nesting node = value.height := by
  cases built with
  | leaf => rfl
  | operation built => exact operation_nesting _ built
  | list elements => exact congrArg (· + 1) (row_nesting _ elements)
termination_by structural value

theorem operation_nesting (operation : Operation) {head : Head} {operands : List Node}
    (built : operation.Builds place head operands) :
    nestingAll operands + 1 = operation.height := by
  cases built with
  | mk elements => exact congrArg (· + 1) (row_nesting _ elements)
termination_by structural operation

theorem row_nesting (row : Row) {nodes : List Node} (built : row.Builds place nodes) :
    nestingAll nodes = row.height := by
  cases built with
  | empty => rfl
  | values first others => exact congrArg₂ max (value_nesting _ first) (rest_nesting _ others)
termination_by structural row

theorem rest_nesting (rest : Rest) {nodes : List Node} (built : rest.Builds place nodes) :
    nestingAll nodes = rest.height := by
  cases built with
  | done | trailing => rfl
  | next first others => exact congrArg₂ max (value_nesting _ first) (rest_nesting _ others)
termination_by structural rest

end

theorem statement_nesting {statement : Grammar.Statement} (built : statement.Builds place node) :
    nesting node = statement.height := by
  cases built with
  | blank => rfl
  | operation built => exact operation_nesting _ built

mutual

theorem nesting_mapOrigins (change : Origin → Origin) (node : Node) :
    nesting (node.mapOrigins change) = nesting node := by
  cases node with
  | atom | blankStatement => rfl
  | list origin nodes | operation head nodes | statement origin head nodes =>
    exact congrArg (· + 1) (nestingAll_mapOrigins change nodes)

theorem nestingAll_mapOrigins (change : Origin → Origin) (nodes : List Node) :
    nestingAll (Node.mapAllOrigins change nodes) = nestingAll nodes := by
  cases nodes with
  | nil => rfl
  | cons node nodes =>
    exact congrArg₂ max (nesting_mapOrigins change node) (nestingAll_mapOrigins change nodes)

end

/-- **The nesting limit is exact.** A text is refused for its nesting just if the tokens break no
rule up to a left parenthesis that the grammar allows while 128 lists are open, and it is this
parenthesis that is reported. So lists that stand side by side do not count, and whatever nests no
deeper is read. No more lists than these nest in a tree, and no draft on the way there has more
of them open. -/
theorem nesting_limit_exact (handle : Nat) (name text : String) :
    (∀ pos, (∃ diagnostic, Tree.parse handle name text = .error diagnostic ∧
        diagnostic.fault = .grammar (.tooDeep 128) ∧ diagnostic.pos = pos) ↔
      ∃ before token behind, (Stream.ofText text).significant = before ++ token :: behind ∧
        Overflows before token ∧ token.pos = pos) ∧
    (∀ diagnostic limit, Tree.parse handle name text = .error diagnostic →
      diagnostic.fault = .grammar (.tooDeep limit) →
        limit = 128 ∧ ¬ NeverDeeper 128 (Stream.ofText text).significant) ∧
    (∀ node, Built node → ∃ tree, Tree.parse handle name node.canonical = .ok tree ∧
      nesting tree.root = nesting node) ∧
    (∀ tree, Tree.parse handle name text = .ok tree → nesting tree.root ≤ 128) ∧
    ∀ front back draft, (Stream.ofText text).tokens = front ++ back →
      front.foldlM Draft.take .start = .ok draft →
        openLists draft + closed front = opened front ∧ openLists draft ≤ 128 := by
  refine ⟨fun pos => ⟨?_, ?_⟩, ?_, ?_, ?_, ?_⟩
  · rintro ⟨diagnostic, refused, deep, rfl⟩
    obtain ⟨⟨token, fault⟩, failed, rfl⟩ := parse_error refused
    obtain rfl : fault = .grammar (.tooDeep 128) := deep
    obtain ⟨-, before, behind, split, overflows⟩ := statement_deep_iff.mp failed
    exact ⟨before, token, behind, split, overflows, rfl⟩
  · rintro ⟨before, token, behind, split, overflows, rfl⟩
    have failed := statement_deep_iff.mpr ⟨rfl, before, behind, split, overflows⟩
    exact ⟨_, parse_refused failed, rfl, rfl⟩
  · intro diagnostic limit refused deep
    obtain ⟨⟨token, fault⟩, failed, rfl⟩ := parse_error refused
    obtain rfl : fault = .grammar (.tooDeep limit) := deep
    obtain ⟨same, before, behind, split, overflows⟩ := statement_deep_iff.mp failed
    refine ⟨same, fun shallow => ?_⟩
    have reached := shallow (before ++ [token]) ⟨behind, by rw [split]; simp⟩
    have full := overflows.full
    rw [opened_append, closed_append, (opened_single overflows.opens).1,
      (opened_single overflows.opens).2] at reached
    omega
  · intro node built
    obtain ⟨tree, read, same⟩ := hand_built_read built handle name
    have nests := congrArg nesting same
    rw [shape, shape, nesting_mapOrigins, nesting_mapOrigins] at nests
    exact ⟨tree, read, nests⟩
  · intro tree read
    obtain ⟨node, made, rfl⟩ := parse_ok_iff.mp read
    obtain ⟨-, statement, -, high, built⟩ := statement_made_iff.mp made
    rw [Node.bind, nesting_mapOrigins, statement_nesting built]
    exact high
  · intro front back draft _ taken
    have run := run_iff.mp taken
    have lists := run_opens run
    rw [(counts_significant front).1, (counts_significant front).2] at lists
    exact ⟨lists.trans (Nat.zero_add _), run_room run (Nat.zero_le _)⟩

/-- One list behind the name is the operands' own, so the last of 128 more is too many. -/
theorem nesting_limit_exact_lists :
    let text := String.ofList ("in(id,".toList ++ List.replicate 128 '(')
    ∃ diagnostic before token behind, Tree.parse 0 "deep" text = .error diagnostic ∧
      diagnostic.fault = .grammar (.tooDeep 128) ∧ diagnostic.pos = 133 ∧
      (Stream.ofText text).significant = before ++ token :: behind ∧ Overflows before token ∧
      token.pos = 133 := by
  intro text
  have found : (match Tree.parse 0 "deep" text with
      | .ok _ => none
      | .error diagnostic => some (diagnostic.fault, diagnostic.pos)) =
        some (.grammar (.tooDeep 128), 133) := by
    decide +kernel
  cases refused : Tree.parse 0 "deep" text with
  | ok tree =>
    rw [refused] at found
    cases found
  | error diagnostic =>
    rw [refused] at found
    obtain ⟨deep, pos⟩ := Prod.mk.inj (Option.some.inj found)
    obtain ⟨before, token, behind, split, overflows, place⟩ :=
      ((nesting_limit_exact 0 "deep" text).1 133).mp ⟨diagnostic, refused, deep, pos⟩
    exact ⟨diagnostic, before, token, behind, rfl, deep, pos, split, overflows, place⟩

end ResourceQuery.NestingLimit
