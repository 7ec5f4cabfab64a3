import ResourceQuery.Proofs.TokenForms

/-! What is wrong with a sequence of tokens is told by the tokens in front of the one that is
reported: whether they end in an operator, where a value may start, or behind a value, and whether a
list is open. The draft that they make knows the same, so it is enough to say what each draft
refuses (`refuses_misfit`) and what the tokens of each draft end in (`run_behind`). The lexer counts
the same lists as the draft, so neither the end of the text inside a list nor a parenthesis that
closes nothing ever comes as far as a draft. -/
namespace ResourceQuery.GrammarFaults
open Draft (depthLimit)
open DraftRuns DiagnosticFidelity StreamTiling LookAhead LexemeSpelling Refusals ViablePrefix
open TokenForms (Lexes read_lexes lexes_read seam_nil form_more)
open GrammarExactness Grammar

/-! ## What tokens end in -/

/-- There is a last token, and its kind is one of these. -/
def EndsIn (p : TokenKind → Prop) (tokens : List Token) : Prop :=
  ∃ front token, tokens = front ++ [token] ∧ p token.kind

/-- The last token is an operator. -/
def EndsInOperator : List Token → Prop := EndsIn fun kind => ∃ operator, kind = .operator operator

/-- The last token is a left parenthesis or a comma, so a value may come next. -/
def AwaitsValue : List Token → Prop := EndsIn fun kind => kind = .leftParen ∨ kind = .comma

/-- The last token is one that a value may end with. -/
def EndsValue : List Token → Prop := EndsIn fun kind => isLeaf kind = true ∨ kind = .rightParen

/-- The last token is an operator, where a statement or a value may start. -/
def BehindOperator (tokens : List Token) : Prop :=
  ∃ front token operator, tokens = front ++ [token] ∧ token.kind = .operator operator ∧
    (front = [] ∨ AwaitsValue front)

/-- The last tokens are a whole value, where a value may start. -/
def BehindValue (tokens : List Token) : Prop :=
  ∃ front, ∃ value : Value, tokens = front ++ value.yield ∧ AwaitsValue front

/-- What is known of the tokens that have made a draft. -/
inductive Behind : List Token → Draft → Prop where
  | start : Behind [] .start
  | statement (token : Token) (kind : token.kind = .operator operator) :
      Behind [token] (.operator keyword none)
  | operator (front : List Token) (token : Token) (kind : token.kind = .operator operator)
      (awaits : AwaitsValue front) : Behind (front ++ [token]) (.operator keyword (some around))
  | value (awaits : AwaitsValue tokens) : Behind tokens (.value list)
  | separator (behind : BehindValue tokens) : Behind tokens (.separator list)
  | finished (ends : EndsValue tokens) : Behind tokens (.finished head operands)

/-- Which tokens a draft refuses for their place, and how. The end of the text is refused behind a
draft that has open lists as well, but it is not read there. -/
inductive Misfit : Draft → Token → GrammarFault → Prop where
  | start (other : ∀ operator, token.kind ≠ .operator operator) (more : token.kind ≠ .finish) :
      Misfit .start token (.trailing token.describe)
  | operator (other : token.kind ≠ .leftParen) :
      Misfit (.operator keyword around) token (.unexpected token.describe "left parentheses")
  | value (comma : token.kind = .comma ∨ token.kind = .finish) :
      Misfit (.value list) token (.unexpected token.describe "value")
  | separator (more : token.kind ≠ .comma) (closes : token.kind ≠ .rightParen) :
      Misfit (.separator list) token (.unexpected token.describe "comma or right parentheses")
  | finished (more : token.kind ≠ .finish) :
      Misfit (.finished head operands) token (.trailing token.describe)

variable {draft next last : Draft} {token : Token} {tokens front back : List Token}
  {list : OpenList} {p q : TokenKind → Prop}

theorem endsIn_single (kind : p token.kind) : EndsIn p [token] := ⟨[], token, rfl, kind⟩

theorem endsIn_append (lead : List Token) (ends : EndsIn p tokens) : EndsIn p (lead ++ tokens) := by
  obtain ⟨front, token, rfl, kind⟩ := ends
  exact ⟨lead ++ front, token, (List.append_assoc ..).symm, kind⟩

theorem endsIn_back (ends : EndsIn p (front ++ back)) : back = [] ∨ EndsIn p back := by
  obtain ⟨init, token, split, kind⟩ := ends
  rcases List.eq_nil_or_concat back with rfl | ⟨middle, other, rfl⟩
  · exact .inl rfl
  · rw [List.concat_eq_append, ← List.append_assoc] at split
    obtain ⟨-, same⟩ := List.append_inj' split rfl
    obtain rfl := List.singleton_inj.mp same
    exact .inr ⟨middle, other, List.concat_eq_append, kind⟩

/-- There is only one last token. -/
theorem endsIn_apart (apart : ∀ kind, p kind → ¬ q kind) (ends : EndsIn p tokens) :
    ¬ EndsIn q tokens := by
  rintro ⟨front', other, same, kind'⟩
  obtain ⟨front, token, rfl, kind⟩ := ends
  obtain ⟨-, same⟩ := List.append_inj' same rfl
  obtain rfl := List.singleton_inj.mp same
  exact apart token.kind kind kind'

theorem operator_apart (ends : EndsInOperator tokens) :
    ¬ AwaitsValue tokens ∧ ¬ EndsValue tokens := by
  constructor <;> refine endsIn_apart ?_ ends <;> rintro kind ⟨operator, rfl⟩ <;> simp [isLeaf]

theorem awaits_apart (awaits : AwaitsValue tokens) :
    ¬ EndsInOperator tokens ∧ ¬ EndsValue tokens := by
  refine ⟨fun ends => (operator_apart ends).1 awaits, endsIn_apart ?_ awaits⟩
  rintro kind (rfl | rfl) <;> simp [isLeaf]

theorem value_apart (ends : EndsValue tokens) : ¬ EndsInOperator tokens ∧ ¬ AwaitsValue tokens :=
  ⟨fun operator => (operator_apart operator).2 ends, fun awaits => (awaits_apart awaits).2 ends⟩

theorem behindOperator_ends (behind : BehindOperator tokens) : EndsInOperator tokens := by
  obtain ⟨front, token, operator, whole, kind, -⟩ := behind
  exact ⟨front, token, whole, operator, kind⟩

theorem behindValue_append (lead : List Token) (behind : BehindValue tokens) :
    BehindValue (lead ++ tokens) := by
  obtain ⟨front, value, rfl, awaits⟩ := behind
  exact ⟨lead ++ front, value, (List.append_assoc ..).symm, endsIn_append lead awaits⟩

/-! ## Beginnings of a derivation -/

/-- The last tokens are a whole value, which is all there is or stands where a value may start. -/
def Complete (tokens : List Token) : Prop :=
  (∃ value : Value, tokens = value.yield) ∨ BehindValue tokens

theorem complete_append (awaits : AwaitsValue front) (complete : Complete back) :
    BehindValue (front ++ back) := by
  rcases complete with ⟨value, rfl⟩ | behind
  · exact ⟨front, value, rfl, awaits⟩
  · exact behindValue_append front behind

theorem awaits_terminal {kind : TokenKind} (terminal : Terminal kind)
    (opens : kind = .leftParen ∨ kind = .comma) : AwaitsValue [terminal.val] :=
  endsIn_single (terminal.property.symm ▸ opens)

/-- A token that no value ends with has others behind it where a value ends. -/
theorem endsValue_cons {kind : TokenKind} {first : Terminal kind} {rest : List Token}
    (plain : isLeaf kind = false ∧ kind ≠ .rightParen) (whole : first.val :: rest = front ++ back)
    (ends : EndsValue front) :
    ∃ tail, front = first.val :: tail ∧ rest = tail ++ back ∧ EndsValue tail := by
  obtain ⟨init, token, rfl, kinds⟩ := ends
  cases init with
  | nil =>
    obtain ⟨rfl, -⟩ := List.cons.inj whole
    rw [first.property, plain.1] at kinds
    simp [plain.2] at kinds
  | cons one init =>
    obtain ⟨rfl, rest⟩ := List.cons.inj whole
    exact ⟨init ++ [token], rfl, rest, init, token, rfl, kinds⟩

/-- Where a value ends between parentheses, it ends inside them or they are its own. -/
theorem enclosed_split {inside : List Token} (opening : Terminal .leftParen)
    (closing : Terminal .rightParen)
    (split : ∀ part rest, inside = part ++ rest → EndsValue part → Complete part)
    (whole : opening.val :: (inside ++ [closing.val]) = front ++ back) (ends : EndsValue front) :
    back = [] ∨ BehindValue front := by
  obtain ⟨tail, rfl, rest, ends⟩ := endsValue_cons (by simp [isLeaf]) whole ends
  rcases List.eq_nil_or_concat back with rfl | ⟨middle, last, rfl⟩
  · exact .inl rfl
  · rw [List.concat_eq_append, ← List.append_assoc] at rest
    obtain ⟨same, -⟩ := List.append_inj' rest rfl
    exact .inr (complete_append (awaits_terminal opening (.inl rfl)) (split tail middle same ends))

/-- Where a value ends in a row of them, it is the first or one behind it. -/
theorem values_split {value : Value} {others : List Token}
    (first : ∀ part rest, value.yield = part ++ rest → EndsValue part → Complete part)
    (more : ∀ part rest, others = part ++ rest → EndsValue part → BehindValue part)
    (whole : value.yield ++ others = front ++ back) (ends : EndsValue front) : Complete front := by
  rcases List.append_eq_append_iff.mp whole with ⟨middle, rfl, behind⟩ | ⟨middle, inside, -⟩
  · rcases endsIn_back ends with rfl | ends
    · exact .inl ⟨value, List.append_nil _⟩
    · exact .inr (behindValue_append value.yield (more middle back behind ends))
  · exact first front middle inside ends

mutual

/-- A beginning of a value ends in a value if its last token may. -/
theorem value_split (value : Value) (front back : List Token)
    (whole : value.yield = front ++ back) (ends : EndsValue front) : Complete front := by
  cases value with
  | leaf token leaf =>
    obtain ⟨init, last, rfl, kinds⟩ := ends
    cases init with
    | nil =>
      obtain ⟨rfl, -⟩ := List.cons.inj whole
      exact .inl ⟨.leaf token leaf, rfl⟩
    | cons one init => simp [Value.yield] at whole
  | operation operation => exact operation_split operation front back whole ends
  | list opening row closing =>
    rcases enclosed_split opening closing (row_split row) whole ends with rfl | behind
    · exact .inl ⟨.list opening row closing, (List.append_nil front).symm.trans whole.symm⟩
    · exact .inr behind
termination_by structural value

theorem operation_split (operation : Operation) (front back : List Token)
    (whole : operation.yield = front ++ back) (ends : EndsValue front) : Complete front := by
  obtain ⟨operator, keyword, opening, row, closing⟩ := operation
  obtain ⟨tail, rfl, rest, ends⟩ := endsValue_cons (by simp [isLeaf]) whole ends
  rcases enclosed_split opening closing (row_split row) rest ends with rfl | behind
  · refine .inl ⟨.operation (.mk operator keyword opening row closing), ?_⟩
    rw [List.append_nil] at rest
    rw [← rest]
    rfl
  · exact .inr (behindValue_append [keyword.val] behind)
termination_by structural operation

theorem row_split (row : Row) (front back : List Token) (whole : row.yield = front ++ back)
    (ends : EndsValue front) : Complete front := by
  cases row with
  | empty =>
    obtain ⟨init, token, rfl, -⟩ := ends
    simp [Row.yield] at whole
  | values value rest => exact values_split (value_split value) (rest_split rest) whole ends
termination_by structural row

theorem rest_split (rest : Rest) (front back : List Token) (whole : rest.yield = front ++ back)
    (ends : EndsValue front) : BehindValue front := by
  cases rest with
  | done =>
    obtain ⟨init, token, rfl, -⟩ := ends
    simp [Rest.yield] at whole
  | trailing comma =>
    obtain ⟨tail, rfl, nothing, init, token, rfl, -⟩ :=
      endsValue_cons (by simp [isLeaf]) whole ends
    simp at nothing
  | next comma value rest =>
    obtain ⟨tail, rfl, others, ends⟩ := endsValue_cons (by simp [isLeaf]) whole ends
    exact complete_append (awaits_terminal comma (.inr rfl))
      (values_split (value_split value) (rest_split rest) others ends)
termination_by structural rest

end

/-- What a value ends with. -/
theorem yield_ends (value : Value) : EndsValue value.yield := by
  cases value with
  | leaf token leaf => exact endsIn_single (.inl leaf)
  | operation operation =>
    obtain ⟨operator, keyword, opening, row, closing⟩ := operation
    exact ⟨keyword.val :: opening.val :: row.yield, closing.val, rfl, .inr closing.property⟩
  | list opening row closing =>
    exact ⟨opening.val :: row.yield, closing.val, rfl, .inr closing.property⟩

theorem behindValue_ends (behind : BehindValue tokens) : EndsValue tokens := by
  obtain ⟨front, value, rfl, -⟩ := behind
  exact endsIn_append front (yield_ends value)

/-! ## What the tokens of a draft end in -/

theorem atom_leaf {result : Except LiteralFault Atom} (spells : token.atom? = some result) :
    isLeaf token.kind = true := by
  unfold Token.atom? at spells
  cases kind : token.kind <;> simp_all [isLeaf]

/-- The last token tells what the draft behind it wants. -/
theorem step_lands (step : Step draft token next) :
    (∃ operator, token.kind = .operator operator) ∧
        (∃ keyword around, next = .operator keyword around) ∨
      (token.kind = .leftParen ∨ token.kind = .comma) ∧ (∃ list, next = .value list) ∨
      (isLeaf token.kind = true ∨ token.kind = .rightParen) ∧
        ((∃ list, next = .separator list) ∨ ∃ head operands, next = .finished head operands) := by
  cases step with
  | first kind | operator kind => exact .inl ⟨⟨_, kind⟩, _, _, rfl⟩
  | outermost kind | operands kind | nested kind => exact .inr (.inl ⟨.inl kind, _, rfl⟩)
  | comma kind => exact .inr (.inl ⟨.inr kind, _, rfl⟩)
  | atom spells => exact .inr (.inr ⟨.inl (atom_leaf spells), .inl ⟨_, rfl⟩⟩)
  | closeValue kind | closeSeparator kind =>
    rename_i list
    refine .inr (.inr ⟨.inr kind, ?_⟩)
    rcases close_cases list with ⟨-, ended⟩ | ⟨around, closed, -⟩
    · exact .inr ended
    · exact .inl ⟨around, closed⟩

/-- The parentheses that would close all open lists make an operation of a draft behind a value. So
the tokens of the draft begin one. -/
theorem separator_behindValue (fits : AllFit tokens) (ends : EndsValue tokens)
    (run : Run .start tokens (.separator list)) : BehindValue tokens := by
  have room : list.depth ≤ depthLimit := run_room run (Nat.zero_le _)
  have positive := depth_pos list
  let closing : Token := ⟨.rightParen, ")", 0, 0⟩
  obtain ⟨more, depth⟩ : ∃ more, list.depth = more + 1 := ⟨list.depth - 1, by omega⟩
  obtain ⟨head, operands, closes⟩ : ∃ head operands,
      Run list.close (List.replicate more closing) (.finished head operands) :=
    run_closed (fun token member => by rw [List.eq_of_mem_replicate member])
      (by rw [List.length_replicate, depth])
  have whole : Run .start (tokens ++ closing :: List.replicate more closing)
      (.finished head operands) := run_append run (.step (.closeSeparator rfl) closes)
  have all_fit : AllFit (tokens ++ closing :: List.replicate more closing) := by
    refine allFit_append.mpr ⟨fits, fun token member => ?_⟩
    rw [← List.replicate_succ] at member
    rw [List.eq_of_mem_replicate member]
    rfl
  obtain ⟨operation, yield, -⟩ := (operation_run_iff all_fit).mp whole
  rcases operation_split operation _ _ yield ends with ⟨value, rfl⟩ | behind
  · -- A value that stands alone has closed its own lists.
    have lists := run_opens run
    have balanced : opened value.yield = closed value.yield := value_balanced value
    simp only [openLists] at lists
    omega
  · exact behind

theorem run_behind (fits : AllFit tokens) (run : Run .start tokens draft) :
    Behind tokens draft := by
  induction tokens using List.reverseRecOn generalizing draft with
  | nil =>
    cases run
    exact .start
  | append_singleton front token ih =>
    obtain ⟨middle, earlier, step⟩ := run_concat.mp run
    have known := ih (allFit_append.mp fits).1 earlier
    rcases step_lands step with ⟨⟨operator, kind⟩, keyword, around, rfl⟩ | ⟨kind, list, rfl⟩ |
      ⟨kind, ⟨list, rfl⟩ | ⟨head, operands, rfl⟩⟩
    · rcases (step_operator step).2 with ⟨rfl, rfl⟩ | ⟨list, rfl, rfl⟩
      · obtain rfl := run_start earlier rfl
        exact .statement token kind
      · cases known with
        | value awaits => exact .operator front token kind awaits
    · exact .value (endsIn_append front (endsIn_single kind))
    · -- The last token ends a value; where this value starts is not to be seen in one step.
      exact .separator (separator_behindValue fits (endsIn_append front (endsIn_single kind)) run)
    · exact .finished (endsIn_append front (endsIn_single kind))

/-- The last token tells the drafts apart, except for the two behind a value. -/
theorem behind_ends (behind : Behind tokens draft) :
    (EndsInOperator tokens ↔ ∃ keyword around, draft = .operator keyword around) ∧
      (AwaitsValue tokens ↔ ∃ list, draft = .value list) ∧
      (EndsValue tokens ↔ (∃ list, draft = .separator list) ∨
        ∃ head operands, draft = .finished head operands) := by
  cases behind with
  | start => simp [EndsInOperator, AwaitsValue, EndsValue, EndsIn]
  | statement token kind =>
    have ends : EndsInOperator [token] := endsIn_single ⟨_, kind⟩
    simp [ends, operator_apart ends]
  | operator front token kind awaits =>
    have ends : EndsInOperator (front ++ [token]) := endsIn_append front (endsIn_single ⟨_, kind⟩)
    simp [ends, operator_apart ends]
  | value awaits => simp [awaits, awaits_apart awaits]
  | separator behind =>
    have ends := behindValue_ends behind
    simp [ends, value_apart ends]
  | finished ends => simp [ends, value_apart ends]

/-! ## What a draft refuses -/

variable {fault : GrammarFault}

theorem enter_deep {depth : Nat} (failed : Draft.enter depth list = .error (.grammar fault)) :
    ∃ limit, fault = .tooDeep limit := by
  unfold Draft.enter at failed
  split at failed <;> cases failed
  exact ⟨_, rfl⟩

/-- Only a comma and the end of the text are no beginning and no end of a value. -/
theorem takeValue_misfit (counts : token.kind ≠ .blank) (sound : ∀ own, token.kind ≠ .fault own)
    (failed : Draft.takeValue list token = .error (.grammar fault))
    (shallow : ∀ limit, fault ≠ .tooDeep limit) : Misfit (.value list) token fault := by
  unfold Draft.takeValue at failed
  split at failed
  · cases failed
  · obtain ⟨limit, deep⟩ := enter_deep failed
    exact absurd deep (shallow limit)
  · cases failed
  · rename_i operator left right
    split at failed <;> cases failed
    rename_i spells
    refine .value ?_
    unfold Token.atom? at spells
    cases kind : token.kind <;> simp_all

theorem takeList_misfit {keyword : Keyword} {around : Option OpenList}
    (failed : Draft.takeList keyword around token = .error (.grammar fault))
    (shallow : ∀ limit, fault ≠ .tooDeep limit) :
    Misfit (.operator keyword around) token fault := by
  by_cases opens : token.kind = .leftParen
  · have deep : ∃ limit, fault = .tooDeep limit := by
      cases around with
      | none | some list =>
        simp only [Draft.takeList, opens] at failed
        exact enter_deep failed
    obtain ⟨limit, deep⟩ := deep
    exact absurd deep (shallow limit)
  · unfold Draft.takeList at failed
    split at failed
    · exact absurd ‹_› opens
    · exact absurd ‹_› opens
    · cases failed
      exact .operator opens

theorem accept_misfit (failed : draft.accept token = .error (.grammar fault))
    (more : token.kind ≠ .finish) (shallow : ∀ limit, fault ≠ .tooDeep limit) :
    Misfit draft token fault := by
  unfold Draft.accept at failed
  split at failed
  · cases failed
  · cases failed
  · rename_i counts sound
    cases draft with
    | start =>
      change Draft.takeFirst token = _ at failed
      unfold Draft.takeFirst at failed
      split at failed <;> cases failed
      exact .start ‹_› more
    | operator keyword around => exact takeList_misfit failed shallow
    | value list => exact takeValue_misfit counts sound failed shallow
    | separator list =>
      change Draft.takeSeparator list token = _ at failed
      unfold Draft.takeSeparator at failed
      split at failed <;> cases failed
      exact .separator ‹_› ‹_›
    | finished head operands =>
      cases failed
      exact .finished more

theorem conclude_misfit (failed : draft.conclude token = .error (.grammar fault))
    (final : token.kind.isFinal = true) : Misfit draft token fault := by
  rcases (final_iff token.kind).mp final with finish | ⟨own, kind⟩
  · simp only [Draft.conclude, finish] at failed
    cases draft with
    | start | finished head operands => cases failed
    | operator keyword around =>
      cases failed
      exact .operator (by simp [finish])
    | value list =>
      cases failed
      exact .value (.inr finish)
    | separator list =>
      cases failed
      exact .separator (by simp [finish]) (by simp [finish])
  · simp only [Draft.conclude, kind] at failed
    cases failed

/-- A token is refused for its place only if it does not fit behind the draft. -/
theorem refuses_misfit (refuses : Refuses draft token (.grammar fault))
    (shallow : ∀ limit, fault ≠ .tooDeep limit) : Misfit draft token fault := by
  unfold Refuses at refuses
  split at refuses
  · exact conclude_misfit refuses ‹_›
  · exact accept_misfit refuses (fun finish => by simp_all [TokenKind.isFinal]) shallow

/-! ## Classification -/

variable {before : List Token}

/-- A value that stands where one may is inside a list. -/
theorem behindValue_open (fits : AllFit before) (run : Run .start before draft)
    (behind : BehindValue before) : closed before < opened before := by
  obtain ⟨front, value, rfl, awaits⟩ := behind
  obtain ⟨middle, earlier, -⟩ := run_append_iff.mp run
  have lists := run_opens earlier
  have balanced : opened value.yield = closed value.yield := value_balanced value
  obtain ⟨list, rfl⟩ := (behind_ends (run_behind (allFit_append.mp fits).1 earlier)).2.1.mp awaits
  have positive := depth_pos list
  simp only [openLists, opened_append, closed_append] at lists ⊢
  omega

/-- The fault of a token that does not fit behind the tokens in front of it. -/
def verdict (before : List Token) (token : Token) : GrammarFault :=
  match before.getLast?.map Token.kind with
  | some (.operator _) => .unexpected token.describe "left parentheses"
  | some .leftParen | some .comma => .unexpected token.describe "value"
  | _ =>
    if closed before < opened before then
      .unexpected token.describe "comma or right parentheses"
    else .trailing token.describe

/-- What is known of a fault of the grammar, other than that of a list too deep, from the tokens in
front of the one that has it. -/
structure Classified (before : List Token) (token : Token) (fault : GrammarFault) : Prop where
  /-- The last token in front decides what is wrong, together with whether a list is open. -/
  decided : fault = verdict before token
  list_wanted : (∃ found, fault = .unexpected found "left parentheses") ↔
    BehindOperator before ∧ token.kind ≠ .leftParen
  value_wanted : (∃ found, fault = .unexpected found "value") ↔ AwaitsValue before
  value_refused : AwaitsValue before → token.kind = .comma
  separator_wanted : (∃ found, fault = .unexpected found "comma or right parentheses") ↔
    BehindValue before
  /-- The list that the value stands in has not been closed. -/
  separator_open : BehindValue before → closed before < opened before
  separator_refused : BehindValue before →
    token.kind ≠ .comma ∧ token.kind ≠ .rightParen ∧ token.kind ≠ .finish
  end_wanted : (∃ found, fault = .trailing found) ↔ opened before = closed before ∧
    ¬ (before = [] ∧ ∃ operator, token.kind = .operator operator) ∧ ¬ EndsInOperator before
  end_refused : (∃ found, fault = .trailing found) →
    token.kind ≠ .rightParen ∧ token.kind ≠ .finish
  /-- No place is reported as one where an operator is missing. -/
  never_operator : ∀ found, fault ≠ .unexpected found "operator"
  /-- The end of the text is out of place only behind the operator of the statement. -/
  finish_refused : token.kind = .finish →
    ∃ keyword operator, before = [keyword] ∧ keyword.kind = .operator operator

/-- What the tokens in front make of a draft is what the verdict asks of them. -/
theorem misfit_verdict (behind : Behind before draft)
    (lists : openLists draft + closed before = opened before) (misfit : Misfit draft token fault) :
    fault = verdict before token := by
  have last {p : TokenKind → Prop} (ends : EndsIn p before) :
      ∃ kind, before.getLast?.map Token.kind = some kind ∧ p kind := by
    obtain ⟨front, token, rfl, kind⟩ := ends
    exact ⟨token.kind, by rw [List.getLast?_concat, Option.map_some], kind⟩
  obtain ⟨operator, awaits, value⟩ := behind_ends behind
  unfold verdict
  cases misfit with
  | start other more =>
    cases behind
    rfl
  | operator other =>
    obtain ⟨kind, same, ⟨operator, rfl⟩⟩ := last (operator.mpr ⟨_, _, rfl⟩)
    rw [same]
  | value comma =>
    obtain ⟨kind, same, rfl | rfl⟩ := last (awaits.mpr ⟨_, rfl⟩) <;> rw [same]
  | @separator list _ more closes =>
    have some := depth_pos list
    have inside : closed before < opened before := by
      simp only [openLists] at lists
      omega
    obtain ⟨kind, same, ends⟩ := last (value.mpr (.inl ⟨_, rfl⟩))
    rw [same]
    cases kind <;> simp_all [isLeaf]
  | finished more =>
    have outside : ¬ closed before < opened before := by
      simp only [openLists] at lists
      omega
    obtain ⟨kind, same, ends⟩ := last (value.mpr (.inr ⟨_, _, rfl⟩))
    rw [same]
    cases kind <;> simp_all [isLeaf]

/-- Each draft that refuses tokens for their place has words of its own for it. -/
theorem misfit_wants (misfit : Misfit draft token fault) :
    ((∃ found, fault = .unexpected found "left parentheses") ↔
        ∃ keyword around, draft = .operator keyword around) ∧
      ((∃ found, fault = .unexpected found "value") ↔ ∃ list, draft = .value list) ∧
      ((∃ found, fault = .unexpected found "comma or right parentheses") ↔
        ∃ list, draft = .separator list) ∧
      ((∃ found, fault = .trailing found) ↔
        draft = .start ∨ ∃ head operands, draft = .finished head operands) ∧
      ∀ found, fault ≠ .unexpected found "operator" := by
  cases misfit <;> simp

theorem behindOperator_iff (behind : Behind before draft) :
    BehindOperator before ↔ ∃ keyword around, draft = .operator keyword around := by
  constructor
  · exact fun ends => (behind_ends behind).1.mp (behindOperator_ends ends)
  · rintro ⟨keyword, around, rfl⟩
    cases behind with
    | statement token kind => exact ⟨[], token, _, rfl, kind, .inl rfl⟩
    | operator front token kind awaits => exact ⟨front, token, _, rfl, kind, .inr awaits⟩

theorem behindValue_iff (fits : AllFit before) (run : Run .start before draft) :
    BehindValue before ↔ ∃ list, draft = .separator list := by
  have behind := run_behind fits run
  constructor
  · intro value
    have ends := behindValue_ends value
    rcases (behind_ends behind).2.2.mp ends with separator | ⟨head, operands, rfl⟩
    · exact separator
    · have inside := behindValue_open fits run value
      have lists := run_opens run
      simp only [openLists] at lists
      omega
  · rintro ⟨list, rfl⟩
    cases behind with
    | separator value => exact value

/-- Where nothing has been read or nothing more may be, no list is open. The same holds behind the
operator of the statement only. -/
theorem outside_iff (behind : Behind before draft)
    (lists : openLists draft + closed before = opened before) :
    draft = .start ∨ (∃ head operands, draft = .finished head operands) ↔
      opened before = closed before ∧ ¬ EndsInOperator before := by
  rw [(behind_ends behind).1]
  cases draft with
  | start | finished head operands =>
    simp only [openLists] at lists
    simp
    omega
  | operator keyword around => simp
  | value list | separator list =>
    have some := depth_pos list
    simp only [openLists] at lists
    simp
    omega

/-- The end of the text and a right parenthesis are read only where the draft agrees. -/
structure Levelled (draft : Draft) (token : Token) : Prop where
  finish : token.kind = .finish → openLists draft = 0
  closing : token.kind = .rightParen → openLists draft ≠ 0

theorem misfit_classified (fits : AllFit before) (run : Run .start before draft)
    (misfit : Misfit draft token fault) (levelled : Levelled draft token) :
    Classified before token fault := by
  have behind := run_behind fits run
  have lists : openLists draft + closed before = opened before :=
    (run_opens run).trans (Nat.zero_add _)
  obtain ⟨operator, awaits, -⟩ := behind_ends behind
  obtain ⟨list_words, value_words, separator_words, end_words, never_operator⟩ :=
    misfit_wants misfit
  refine {
    decided := misfit_verdict behind lists misfit
    value_wanted := value_words.trans awaits.symm
    separator_wanted := separator_words.trans (behindValue_iff fits run).symm
    separator_open := behindValue_open fits run
    never_operator
    list_wanted := ?list_wanted
    value_refused := ?value_refused
    separator_refused := ?separator_refused
    end_wanted := ?end_wanted
    end_refused := ?end_refused
    finish_refused := ?finish_refused }
  case list_wanted =>
    rw [list_words, ← behindOperator_iff behind]
    refine (and_iff_left_of_imp fun ends => ?_).symm
    obtain ⟨keyword, around, rfl⟩ := (behindOperator_iff behind).mp ends
    cases misfit with
    | operator other => exact other
  case value_refused =>
    intro opens
    obtain ⟨list, rfl⟩ := awaits.mp opens
    cases misfit with
    | value comma =>
      exact comma.resolve_right fun finish => (depth_pos list).ne' (levelled.finish finish)
  case separator_refused =>
    intro value
    obtain ⟨list, rfl⟩ := (behindValue_iff fits run).mp value
    cases misfit with
    | separator more closes =>
      exact ⟨more, closes, fun finish => (depth_pos list).ne' (levelled.finish finish)⟩
  case end_wanted =>
    -- At the very beginning an operator is no misfit, so that case need not be excluded there.
    rw [end_words, outside_iff behind lists]
    refine and_congr_right fun _ => (and_iff_right_of_imp fun _ => ?_).symm
    rintro ⟨rfl, keyword, kind⟩
    cases run
    cases misfit with
    | start other more => exact other keyword kind
  case end_refused =>
    intro ended
    rcases end_words.mp ended with rfl | ⟨head, operands, rfl⟩
    · cases misfit with
      | start other more => exact ⟨fun closes => levelled.closing closes rfl, more⟩
    · cases misfit with
      | finished more => exact ⟨fun closes => levelled.closing closes rfl, more⟩
  case finish_refused =>
    intro finish
    have outside := levelled.finish finish
    cases misfit with
    | start other more | finished more => exact absurd finish more
    | value | separator => exact absurd outside (depth_pos _).ne'
    | operator other =>
      cases behind with
      | statement keyword kind => exact ⟨keyword, _, rfl, kind⟩
      | operator front token kind awaits => exact absurd outside (depth_pos _).ne'

/-! ## Refusals -/

variable {text : String} {refusal : Refusal} {rest : List Char}

/-- The lexer has as many lists open as the draft. -/
theorem stops_lexes (stops : Stops text refusal front draft rest) : ∃ behind,
    rest = refusal.token.text.toList ++ behind ∧
      Lexes (openLists draft) [] refusal.token.kind refusal.token.text.toList behind := by
  have here := stops.token
  rw [(stops_opens stops).2] at here
  have taken : refusal.token.text.toList = (Lexeme.read (openLists draft) rest).taken := by
    rw [here, Mark.token, String.toList_ofList]
  have own : refusal.token.kind = (Lexeme.read (openLists draft) rest).kind := by
    rw [here]
    rfl
  refine ⟨_, ?_, own ▸ taken ▸ read_lexes (openLists draft) (seam_nil rest)⟩
  rw [taken, Lexeme.taken_append_rest]

theorem stops_levelled (stops : Stops text refusal front draft rest) :
    Levelled draft refusal.token := by
  obtain ⟨behind, -, lexes⟩ := stops_lexes stops
  generalize refusal.token.text.toList = chars at lexes
  constructor
  · intro finish
    rw [finish] at lexes
    cases lexes with
    | token form => cases form_more form
    | finish closed => exact closed
  · intro closing
    rw [closing] at lexes
    cases lexes with
    | token form bounded closes => exact closes rfl

theorem stops_unfinished (stops : Stops text refusal front draft rest)
    (blames : Blames refusal.token refusal.fault) :
    refusal.fault = .lexical .unfinished ↔
      refusal.token.pos = text.utf8ByteSize ∧ openLists draft ≠ 0 := by
  obtain ⟨behind, split, lexes⟩ := stops_lexes stops
  have size : text.utf8ByteSize = refusal.token.pos + Text.utf8Length rest := by
    rw [← utf8Length_toList, stops.whole, Text.utf8Length_append, stops_pos stops]
  constructor
  · intro same
    obtain ⟨own, kind⟩ := blames_lexical blames (by rw [same]; rfl)
    obtain rfl : own = .unfinished := Fault.lexical.inj ((blames_own blames kind).symm.trans same)
    rw [kind] at lexes
    generalize refusal.token.text.toList = chars at split lexes
    cases lexes with
    | token form => cases form_more form
    | unfinished opened =>
      rw [size, split]
      exact ⟨rfl, opened⟩
  · rintro ⟨ending, opened⟩
    have nothing : rest = [] := by
      have short := Text.length_le_utf8Length rest
      exact List.length_eq_zero_iff.mp (by omega)
    have here := stops.token
    rw [(stops_opens stops).2, nothing] at here
    apply blames_own blames
    rw [here]
    simp [Mark.token, Lexeme.read, opened]

theorem stops_unmatched (stops : Stops text refusal front draft rest)
    (blames : Blames refusal.token refusal.fault) :
    refusal.fault = .lexical .unmatchedParenthesis ↔
      refusal.token.text = ")" ∧ openLists draft = 0 := by
  obtain ⟨behind, split, lexes⟩ := stops_lexes stops
  constructor
  · intro same
    obtain ⟨own, kind⟩ := blames_lexical blames (by rw [same]; rfl)
    obtain rfl : own = .unmatchedParenthesis :=
      Fault.lexical.inj ((blames_own blames kind).symm.trans same)
    rw [kind] at lexes
    generalize chars : refusal.token.text.toList = run at lexes
    cases lexes with
    | token form => cases form_more form
    | unmatched closed => exact ⟨String.toList_injective chars, closed⟩
  · rintro ⟨spelled, closed⟩
    have unmatched : Lexes (openLists draft) [] (.fault .unmatchedParenthesis) [')'] behind :=
      .unmatched closed
    have here := stops.token
    rw [spelled] at split
    rw [(stops_opens stops).2, split] at here
    apply blames_own blames
    rw [here]
    exact congrArg Lexeme.kind (lexes_read unmatched)

theorem refuses_counts {fault : Fault} (refuses : Refuses draft token fault) :
    token.kind ≠ .blank := by
  intro blank
  rw [Refuses, blank, if_neg (by decide)] at refuses
  simp [Draft.accept, blank] at refuses

/-- **Syntax errors are classified by what is in front of them.** A text that is refused is refused
at one of the tokens that count. A fault of the grammar, unless a list is too deep, is decided by
the tokens in front of it. The end of the text is reported inside a list exactly if the statement is
reported as unfinished, and a parenthesis that closes nothing exactly if it is reported as
unmatched: neither is ever taken for a fault of the grammar. -/
theorem rejection_classified {handle : Nat} {name text : String} {diagnostic : Diagnostic}
    (refused : Tree.parse handle name text = .error diagnostic) : ∃ before token behind,
      (Stream.ofText text).significant = before ++ token :: behind ∧ token.pos = diagnostic.pos ∧
      (∀ fault, diagnostic.fault = .grammar fault → (∀ limit, fault ≠ .tooDeep limit) →
        Classified before token fault) ∧
      (diagnostic.fault = .lexical .unfinished ↔
        diagnostic.pos = text.utf8ByteSize ∧ closed before < opened before) ∧
      (diagnostic.fault = .lexical .unmatchedParenthesis ↔
        token.text = ")" ∧ opened before = closed before) := by
  obtain ⟨refusal, failed, rfl⟩ := parse_error refused
  obtain ⟨front, draft, rest, stops⟩ := statement_stops failed
  obtain ⟨back, split⟩ := stops.split
  have blames := (statement_blames failed).2
  have run : Run .start (front.filter (·.kind != .blank)) draft := run_iff.mp stops.run
  have counts := refuses_counts stops.refuses
  have significant : (Stream.ofText text).significant =
      front.filter (·.kind != .blank) ++ refusal.token :: back.filter (·.kind != .blank) := by
    rw [Stream.significant, split, List.filter_append,
      List.filter_cons_of_pos (by simpa using counts)]
  have lists : openLists draft + closed (front.filter (·.kind != .blank)) =
      opened (front.filter (·.kind != .blank)) := (run_opens run).trans (Nat.zero_add _)
  refine ⟨_, refusal.token, _, significant, rfl, ?_, ?_, ?_⟩
  · intro fault same shallow
    have fits := significant_fits text
    rw [significant] at fits
    have refuses : Refuses draft refusal.token (.grammar fault) := same ▸ stops.refuses
    exact misfit_classified (allFit_append.mp fits).1 run (refuses_misfit refuses shallow)
      (stops_levelled stops)
  · refine (stops_unfinished stops blames).trans (and_congr_right fun _ => ?_)
    omega
  · refine (stops_unmatched stops blames).trans (and_congr_right fun _ => ?_)
    omega

/-- The list in front of the name is a value of a list that is open. -/
theorem rejection_classified_comma : ∃ diagnostic before token behind,
    Tree.parse 0 "root" "and(eq(a,(1,2) b))" = .error diagnostic ∧ diagnostic.pos = 15 ∧
      diagnostic.fault = .grammar (.unexpected "\"b\"" "comma or right parentheses") ∧
      (Stream.ofText "and(eq(a,(1,2) b))").significant = before ++ token :: behind ∧
      token.pos = 15 ∧
      Classified before token (.unexpected "\"b\"" "comma or right parentheses") ∧
      BehindValue before ∧ closed before < opened before := by
  have found : (match Tree.parse 0 "root" "and(eq(a,(1,2) b))" with
      | .ok _ => none
      | .error diagnostic => some (diagnostic.pos, diagnostic.fault)) =
        some (15, .grammar (.unexpected "\"b\"" "comma or right parentheses")) := by
    decide +kernel
  cases refused : Tree.parse 0 "root" "and(eq(a,(1,2) b))" with
  | ok tree =>
    rw [refused] at found
    cases found
  | error diagnostic =>
    rw [refused] at found
    obtain ⟨pos, fault⟩ := Prod.mk.inj (Option.some.inj found)
    obtain ⟨before, token, behind, split, place, classified, -⟩ := rejection_classified refused
    have known := classified _ fault (by simp)
    have value := known.separator_wanted.mp ⟨_, rfl⟩
    exact ⟨diagnostic, before, token, behind, rfl, pos, fault, split, place.trans pos, known, value,
      known.separator_open value⟩

end ResourceQuery.GrammarFaults
