import ResourceQuery.Proofs.NestingLimit

/-! The grammar as the manual gives it, which lets a comma stand at the end of every list, an empty
one included.

    statement := operator? EOF
    operator  := OPERATOR '(' list ')'
    list      := (value (',' value)*)? ','?
    value     := IDENT | STRING | NUMBER | BOOL | NULL | operator | '(' list ')'

A draft takes the tokens of a derivation up to the first list that holds a comma and nothing else.
Where there is no such list, the statement is read; where there is one, its comma is refused, since
a value has to come before a comma (`accepted_unless_lone`). -/
namespace ResourceQuery.ManualGrammar
open Draft (depthLimit)
open CanonicalRoundTrip DiagnosticFidelity DraftRuns Grammar GrammarExactness LexemeSpelling
open NestingLimit Refusals ViablePrefix

mutual

/-- `IDENT | STRING | NUMBER | BOOL | NULL | operator | '(' list ')'` -/
inductive IsValue : List Token → Prop where
  | leaf (kind : isLeaf token.kind = true) : IsValue [token]
  | operation (operation : IsOperation tokens) : IsValue tokens
  | list (opens : opening.kind = .leftParen) (row : IsRow inside)
      (closes : closing.kind = .rightParen) : IsValue (opening :: (inside ++ [closing]))

/-- `OPERATOR '(' list ')'` -/
inductive IsOperation : List Token → Prop where
  | mk (kind : keyword.kind = .operator operator) (opens : opening.kind = .leftParen)
      (row : IsRow inside) (closes : closing.kind = .rightParen) :
      IsOperation (keyword :: opening :: (inside ++ [closing]))

/-- `value (',' value)*` -/
inductive IsValues : List Token → Prop where
  | last (value : IsValue tokens) : IsValues tokens
  | next (value : IsValue front) (separates : comma.kind = .comma) (others : IsValues back) :
      IsValues (front ++ comma :: back)

/-- `(value (',' value)*)? ','?`, of which either part may be missing. -/
inductive IsRow : List Token → Prop where
  | empty : IsRow []
  | lone (trails : comma.kind = .comma) : IsRow [comma]
  | values (values : IsValues tokens) : IsRow tokens
  | trailing (values : IsValues tokens) (trails : comma.kind = .comma) : IsRow (tokens ++ [comma])

end

/-- `operator? EOF` -/
inductive IsStatement : List Token → Prop where
  | blank (ends : ending.kind = .finish) : IsStatement [ending]
  | operation (operation : IsOperation tokens) (ends : ending.kind = .finish) :
      IsStatement (tokens ++ [ending])

/-- No comma stands directly behind a left parenthesis. -/
def NoLoneComma (tokens : List Token) : Prop :=
  tokens.IsChain fun one next => one.kind = .leftParen → next.kind ≠ .comma

variable {draft next last : Draft} {token : Token} {tokens front back inside : List Token}
  {list : OpenList}

/-! ## Runs have no lone comma -/

theorem opens_value (step : Step draft token next) (opens : token.kind = .leftParen) :
    ∃ list, next = .value list := by
  cases step with
  | outermost | operands | nested => exact ⟨_, rfl⟩
  | first kind | operator kind | closeValue kind | comma kind | closeSeparator kind =>
    cases kind.symm.trans opens
  | atom spells => exact absurd opens (atom_kind spells).2.2.1

theorem value_no_comma (step : Step (.value list) token next) : token.kind ≠ .comma := by
  intro comma
  cases step with
  | operator kind | nested kind | closeValue kind => cases kind.symm.trans comma
  | atom spells => simp [Token.atom?, comma] at spells

/-- Behind a left parenthesis a draft wants a value, so it takes no comma there. -/
theorem run_no_lone (run : Run draft tokens last) : NoLoneComma tokens := by
  induction run with
  | done => exact .nil
  | @step draft token next tokens last first others ih =>
    cases others with
    | done => exact .singleton token
    | step second others =>
      refine .cons_cons (fun opens => ?_) ih
      obtain ⟨list, rfl⟩ := opens_value first opens
      exact value_no_comma second

/-! ## Where a derivation is read to -/

/-- The tokens are taken up to a comma directly behind the parenthesis that opens a list. -/
def Stuck (draft : Draft) (tokens : List Token) : Prop :=
  ∃ front opening comma back list, tokens = front ++ opening :: comma :: back ∧
    opening.kind = .leftParen ∧ comma.kind = .comma ∧
    Run draft (front ++ [opening]) (.value list)

theorem stuck_append (stuck : Stuck draft front) (back : List Token) :
    Stuck draft (front ++ back) := by
  obtain ⟨read, opening, comma, others, list, rfl, opens, separates, run⟩ := stuck
  exact ⟨read, opening, comma, others ++ back, list, by simp, opens, separates, run⟩

theorem stuck_behind (run : Run draft front next) (stuck : Stuck next back) :
    Stuck draft (front ++ back) := by
  obtain ⟨read, opening, comma, others, list, rfl, opens, separates, others_run⟩ := stuck
  refine ⟨front ++ read, opening, comma, others, list, by simp, opens, separates, ?_⟩
  rw [List.append_assoc]
  exact run_append run others_run

/-- What has to hold of tokens for a draft to take them, besides their order. -/
structure Sound (draft : Draft) (tokens : List Token) : Prop where
  fits : AllFit tokens
  convert : Convert tokens
  within : Within depthLimit (openLists draft) tokens

theorem sound_front (sound : Sound draft (front ++ back)) : Sound draft front :=
  ⟨(allFit_append.mp sound.fits).1, (convert_append.mp sound.convert).1,
    fun read start => sound.within read (start.trans (List.prefix_append front back))⟩

theorem sound_back (sound : Sound draft (front ++ back)) (run : Run draft front next) :
    Sound next back :=
  ⟨(allFit_append.mp sound.fits).2, (convert_append.mp sound.convert).2,
    within_behind run sound.within⟩

theorem sound_behind (sound : Sound draft (token :: tokens)) (step : Step draft token next) :
    Sound next tokens :=
  sound_back sound (run_single step)

/-- A left parenthesis finds room for its list. -/
theorem sound_room (sound : Sound draft (token :: tokens)) (opens : token.kind = .leftParen) :
    openLists draft < depthLimit := by
  have reached := sound.within [token] ⟨tokens, rfl⟩
  rw [(opened_single opens).1, (opened_single opens).2] at reached
  omega

/-- A row of the manual is read as so many elements of its list, or is a comma and nothing else, or
holds a list that is. -/
def ReadsRow (list : OpenList) (inside : List Token) : Prop :=
  (∀ closing : Token, closing.kind = .rightParen → ∃ nodes,
      Run (.value list) (inside ++ [closing]) (pushAll list nodes).close) ∨
    (∃ comma, inside = [comma] ∧ comma.kind = .comma) ∨ Stuck (.value list) inside

/-- A row between parentheses closes its list, unless there is a lone comma in the way. -/
theorem enclosed_reads {opening closing : Token} (step : Step draft opening (.value list))
    (opens : opening.kind = .leftParen) (closes : closing.kind = .rightParen)
    (row : ReadsRow list inside) :
    (∃ nodes, Run draft (opening :: (inside ++ [closing])) (pushAll list nodes).close) ∨
      Stuck draft (opening :: (inside ++ [closing])) := by
  rcases row with whole | ⟨comma, rfl, separates⟩ | stuck
  · obtain ⟨nodes, run⟩ := whole closing closes
    exact .inl ⟨nodes, .step step run⟩
  · exact .inr ⟨[], opening, comma, [closing], list, rfl, opens, separates, run_single step⟩
  · exact .inr (stuck_behind (run_single step) (stuck_append stuck [closing]))

mutual

theorem value_reads {tokens : List Token} (value : IsValue tokens) (list : OpenList)
    (sound : Sound (.value list) tokens) :
    (∃ node, Run (.value list) tokens (.separator (list.push node))) ∨
      Stuck (.value list) tokens := by
  match value, sound with
  | @IsValue.leaf token leaf, sound =>
    obtain ⟨atom, spells⟩ := (leaf_iff (sound.fits token List.mem_cons_self) leaf).mpr sound.convert
    exact .inl ⟨_, run_single (.atom (atom_of_leaf spells))⟩
  | .operation operation, sound => exact operation_reads operation list sound
  | @IsValue.list inside opening closing opens row closes, sound =>
    have step : Step (.value list) opening (.value (.nested list opening.pos [])) :=
      .nested opens (sound_room sound opens)
    have inner := sound_front (sound_behind sound step)
    rcases enclosed_reads step opens closes (row_reads row _ inner) with ⟨nodes, run⟩ | stuck
    · rw [close_nested] at run
      exact .inl ⟨_, run⟩
    · exact .inr stuck

theorem operation_reads {tokens : List Token} (operation : IsOperation tokens) (list : OpenList)
    (sound : Sound (.value list) tokens) :
    (∃ node, Run (.value list) tokens (.separator (list.push node))) ∨
      Stuck (.value list) tokens := by
  match operation, sound with
  | @IsOperation.mk inside keyword opening closing operator kind opens row closes, sound =>
    have first : Step (.value list) keyword (.operator ⟨operator, keyword.pos⟩ (some list)) :=
      .operator kind
    have behind := sound_behind sound first
    have second : Step (.operator ⟨operator, keyword.pos⟩ (some list)) opening
        (.value (.operands list ⟨operator, keyword.pos⟩ opening.pos [])) :=
      .operands opens (sound_room behind opens)
    have inner := sound_front (sound_behind behind second)
    rcases enclosed_reads second opens closes (row_reads row _ inner) with ⟨nodes, run⟩ | stuck
    · rw [close_operands] at run
      exact .inl ⟨_, .step first run⟩
    · exact .inr (stuck_behind (run_single first) stuck)

theorem values_reads {tokens : List Token} (values : IsValues tokens) (list : OpenList)
    (sound : Sound (.value list) tokens) :
    (∃ nodes, Run (.value list) tokens (.separator (pushAll list nodes))) ∨
      Stuck (.value list) tokens := by
  match values, sound with
  | .last value, sound =>
    rcases value_reads value list sound with ⟨node, run⟩ | stuck
    · exact .inl ⟨[node], run⟩
    · exact .inr stuck
  | @IsValues.next front back comma value separates others, sound =>
    rcases value_reads value list (sound_front sound) with ⟨node, run⟩ | stuck
    · have upTo : Run (.value list) (front ++ [comma]) (.value (list.push node)) :=
        run_append run (run_single (.comma separates))
      rw [List.append_cons] at sound ⊢
      rcases values_reads others (list.push node) (sound_back sound upTo) with ⟨nodes, rest⟩ | stuck
      · exact .inl ⟨node :: nodes, run_append upTo rest⟩
      · exact .inr (stuck_behind upTo stuck)
    · exact .inr (stuck_append stuck _)

theorem row_reads {tokens : List Token} (row : IsRow tokens) (list : OpenList)
    (sound : Sound (.value list) tokens) : ReadsRow list tokens := by
  match row, sound with
  | .empty, _ => exact .inl fun closing closes => ⟨[], run_single (.closeValue closes)⟩
  | @IsRow.lone comma trails, _ => exact .inr (.inl ⟨comma, rfl, trails⟩)
  | .values values, sound =>
    rcases values_reads values list sound with ⟨nodes, run⟩ | stuck
    · exact .inl fun closing closes =>
        ⟨nodes, run_append run (run_single (.closeSeparator closes))⟩
    · exact .inr (.inr stuck)
  | @IsRow.trailing tokens comma values trails, sound =>
    rcases values_reads values list (sound_front sound) with ⟨nodes, run⟩ | stuck
    · refine .inl fun closing closes => ⟨nodes, ?_⟩
      exact run_append (run_append run (run_single (.comma trails)))
        (run_single (.closeValue closes))
    · exact .inr (.inr (stuck_append stuck _))

end

/-- The operation of a statement is read like one among elements. -/
theorem alone_reads (operation : IsOperation tokens) (sound : Sound .start tokens) :
    (∃ head operands, Run .start tokens (.finished head operands)) ∨ Stuck .start tokens := by
  match operation, sound with
  | @IsOperation.mk inside keyword opening closing operator kind opens row closes, sound =>
    have first : Step .start keyword (.operator ⟨operator, keyword.pos⟩ none) := .first kind
    have second : Step (.operator ⟨operator, keyword.pos⟩ none) opening
        (.value (.outermost ⟨operator, keyword.pos⟩ opening.pos [])) := .outermost opens
    have inner := sound_front (sound_behind (sound_behind sound first) second)
    rcases enclosed_reads second opens closes (row_reads row _ inner) with ⟨nodes, run⟩ | stuck
    · rw [close_outermost] at run
      exact .inl ⟨_, _, .step first run⟩
    · exact .inr (stuck_behind (run_single first) stuck)

/-! ## What is read is derived -/

mutual

theorem value_derives (value : Value) : IsValue value.yield := by
  cases value with
  | leaf token kind => exact .leaf kind
  | operation operation => exact .operation (operation_derives operation)
  | list opening row closing =>
    exact .list opening.property (row_derives row) closing.property
termination_by structural value

theorem operation_derives (operation : Operation) : IsOperation operation.yield := by
  obtain ⟨operator, keyword, opening, row, closing⟩ := operation
  exact .mk keyword.property opening.property (row_derives row) closing.property
termination_by structural operation

theorem row_derives (row : Row) : IsRow row.yield := by
  cases row with
  | empty => exact .empty
  | values value rest =>
    obtain ⟨values, trail, split, more, trails⟩ := rest_derives rest
    have all := more _ (value_derives value)
    rw [Row.yield, split, ← List.append_assoc]
    rcases trails with rfl | ⟨comma, rfl, kind⟩
    · rw [List.append_nil]
      exact .values all
    · exact .trailing all kind
termination_by structural row

/-- What comes behind the first value of a row is the other values, and maybe a comma. -/
theorem rest_derives (rest : Rest) : ∃ values trail, rest.yield = values ++ trail ∧
    (∀ front, IsValue front → IsValues (front ++ values)) ∧
    (trail = [] ∨ ∃ comma, trail = [comma] ∧ comma.kind = .comma) := by
  cases rest with
  | done => exact ⟨[], [], rfl, fun front value => by simpa using .last value, .inl rfl⟩
  | trailing comma =>
    exact ⟨[], [comma.val], rfl, fun front value => by simpa using .last value,
      .inr ⟨comma.val, rfl, comma.property⟩⟩
  | next comma value rest =>
    obtain ⟨values, trail, split, more, trails⟩ := rest_derives rest
    refine ⟨comma.val :: (value.yield ++ values), trail, ?_, ?_, trails⟩
    · rw [Rest.yield, split]
      simp
    · exact fun front first => .next first comma.property (more _ (value_derives value))
termination_by structural rest

end

theorem statement_derives (statement : Grammar.Statement) : IsStatement statement.yield := by
  obtain ⟨operation, ending⟩ := statement
  cases operation with
  | none => exact .blank ending.property
  | some operation => exact .operation (operation_derives operation) ending.property

/-! ## Texts -/

variable {text : String}

/-- A derivation whose literals have values and that does not nest too deep is read whole, or up to
its first lone comma. -/
theorem statement_reads (finish : (Stream.ofText text).last.kind = .finish)
    (derives : IsStatement (Stream.ofText text).significant)
    (convert : Convert (Stream.ofText text).significant)
    (shallow : NeverDeeper depthLimit (Stream.ofText text).significant) :
    (∃ node, (Stream.ofText text).statement = .ok node) ∨
      Stuck .start (Stream.ofText text).significant := by
  have sound : Sound .start (Stream.ofText text).significant :=
    ⟨significant_fits text, convert, fun read start => by simpa [openLists] using shallow read start⟩
  have whole := significant_finish finish
  generalize (Stream.ofText text).significant = tokens at derives sound whole
  cases derives with
  | @blank ending ends =>
    have split : [] ++ [ending] = _ := whole
    obtain ⟨body, -⟩ := List.append_inj' split rfl
    exact .inl ⟨_, statement_ok_iff.mpr ⟨finish, .start, by rw [← body]; exact .done, .blank⟩⟩
  | operation operation ends =>
    obtain ⟨body, -⟩ := List.append_inj' whole rfl
    rcases alone_reads operation (sound_front sound) with ⟨head, operands, run⟩ | stuck
    · rw [body] at run
      exact .inl ⟨_, statement_ok_iff.mpr ⟨finish, _, run, .operation⟩⟩
    · exact .inr (stuck_append stuck _)

/-- What is read ends in no comma, so its last token adds none. -/
theorem statement_no_lone {node : Node} (made : (Stream.ofText text).statement = .ok node) :
    NoLoneComma (Stream.ofText text).significant := by
  obtain ⟨finish, draft, run, -⟩ := statement_ok_iff.mp made
  rw [significant_finish finish]
  refine List.isChain_append.mpr ⟨run_no_lone run, .singleton _, ?_⟩
  intro one _ next last opens comma
  obtain rfl : (Stream.ofText text).last = next := by simpa using last
  cases finish.symm.trans comma

theorem lone_comma (front back : List Token) {opening comma : Token}
    (opens : opening.kind = .leftParen) (separates : comma.kind = .comma) :
    ¬ NoLoneComma (front ++ opening :: comma :: back) := by
  intro chain
  exact (List.isChain_append_cons_cons.mp chain).2.1 opens separates

/-- A comma where a value is wanted. -/
def loneComma : Fault := .grammar (.unexpected "\",\"" "value")

theorem comma_refused (separates : token.kind = .comma) (fits : Fits token.kind token.text) :
    Refuses (.value list) token loneComma := by
  have comma : token.text = "," := by
    rw [separates] at fits
    exact fits
  have shown : token.describe = "\",\"" := by
    rw [Token.describe, separates, comma]
    decide
  simp [Refuses, separates, TokenKind.isFinal, Draft.accept, Draft.takeValue, Token.atom?,
    Token.unexpectedIn, shown, loneComma]

/-- The place of the first comma that stands directly behind a left parenthesis. -/
structure FirstLone (tokens : List Token) (comma : Token) : Prop where
  kind : comma.kind = .comma
  behind : ∃ front opening back, tokens = front ++ opening :: comma :: back ∧
    opening.kind = .leftParen ∧ NoLoneComma (front ++ [opening])

theorem stuck_refused (stuck : Stuck .start (Stream.ofText text).significant) : ∃ comma,
    FirstLone (Stream.ofText text).significant comma ∧
      (Stream.ofText text).statement = .error ⟨comma, loneComma⟩ := by
  obtain ⟨front, opening, comma, back, list, split, opens, separates, run⟩ := stuck
  have fits : Fits comma.kind comma.text :=
    significant_fits text comma (by rw [split]; simp)
  refine ⟨comma, ⟨separates, front, opening, back, split, opens, run_no_lone run⟩, ?_⟩
  exact refused_run_iff.mpr ⟨front ++ [opening], back, _, by rw [split]; simp, run,
    comma_refused separates fits⟩

theorem never_deeper {limit : Nat} (few : opened tokens ≤ limit) : NeverDeeper limit tokens := by
  intro read start
  have fewer : opened read ≤ opened tokens := (start.sublist.map Token.kind).count_le _
  omega

/-- **Of the manual's grammar, all is read but lone commas.** A text is read exactly if its tokens
end in the end of the text, derive a statement by the manual, give every literal a value, never
leave more than 128 parentheses open, and have no comma directly behind a left parenthesis. If such
a comma is all that is wrong, it is what is reported, and it is the first one. -/
theorem manual_read_but_lone_commas (handle : Nat) (name text : String) :
    ((∃ tree, Tree.parse handle name text = .ok tree) ↔
      (Stream.ofText text).last.kind = .finish ∧
        IsStatement (Stream.ofText text).significant ∧
        Convert (Stream.ofText text).significant ∧
        NeverDeeper 128 (Stream.ofText text).significant ∧
        NoLoneComma (Stream.ofText text).significant) ∧
    ((Stream.ofText text).last.kind = .finish →
      IsStatement (Stream.ofText text).significant →
      Convert (Stream.ofText text).significant →
      NeverDeeper 128 (Stream.ofText text).significant →
      ∀ diagnostic, Tree.parse handle name text = .error diagnostic →
        diagnostic.fault = loneComma ∧
          ∃ comma, FirstLone (Stream.ofText text).significant comma ∧
            diagnostic.pos = comma.pos) := by
  refine ⟨⟨?_, ?_⟩, ?_⟩
  · rintro ⟨tree, accepted⟩
    obtain ⟨⟨finish, -⟩, ⟨statement, tokens⟩, convert, shallow⟩ :=
      (parse_exact handle name text).1.mp ⟨tree, accepted⟩
    obtain ⟨node, made, -⟩ := parse_ok_iff.mp accepted
    exact ⟨finish, tokens ▸ statement_derives statement, convert, shallow, statement_no_lone made⟩
  · rintro ⟨finish, derives, convert, shallow, chain⟩
    rcases statement_reads finish derives convert shallow with ⟨node, made⟩ | stuck
    · exact ⟨_, parse_ok_iff.mpr ⟨node, made, rfl⟩⟩
    · obtain ⟨front, opening, comma, back, list, split, opens, separates, -⟩ := stuck
      rw [split] at chain
      exact absurd chain (lone_comma front back opens separates)
  · intro finish derives convert shallow diagnostic refused
    obtain ⟨refusal, failed, rfl⟩ := parse_error refused
    rcases statement_reads finish derives convert shallow with ⟨node, made⟩ | stuck
    · cases failed.symm.trans made
    · obtain ⟨comma, lone, stops⟩ := stuck_refused stuck
      cases failed.symm.trans stops
      exact ⟨rfl, comma, lone, rfl⟩

/-- A comma may close any list that has an element, and the list without one is refused. -/
theorem manual_read_but_lone_commas_nested :
    let text := "in(b,(,),)"
    IsStatement (Stream.ofText text).significant ∧
      ∃ diagnostic comma, Tree.parse 0 "root" text = .error diagnostic ∧
        diagnostic.fault = loneComma ∧ FirstLone (Stream.ofText text).significant comma ∧
          diagnostic.pos = comma.pos ∧ comma.pos = 6 := by
  intro text
  have tokens : (Stream.ofText text).significant =
      [⟨.operator .member, "in", 0, 1⟩, ⟨.leftParen, "(", 2, 1⟩, ⟨.identifier, "b", 3, 1⟩,
        ⟨.comma, ",", 4, 1⟩, ⟨.leftParen, "(", 5, 1⟩, ⟨.comma, ",", 6, 1⟩,
        ⟨.rightParen, ")", 7, 1⟩, ⟨.comma, ",", 8, 1⟩, ⟨.rightParen, ")", 9, 1⟩,
        ⟨.finish, "", 10, 1⟩] := by
    decide +kernel
  have derives : IsStatement (Stream.ofText text).significant := by
    rw [tokens]
    have lone : IsValue [⟨.leftParen, "(", 5, 1⟩, ⟨.comma, ",", 6, 1⟩, ⟨.rightParen, ")", 7, 1⟩] :=
      .list rfl (.lone rfl) rfl
    have values : IsValues ([⟨.identifier, "b", 3, 1⟩] ++ ⟨.comma, ",", 4, 1⟩ :: _) :=
      .next (.leaf rfl) rfl (.last lone)
    have row : IsRow (_ ++ [⟨.comma, ",", 8, 1⟩]) := .trailing values rfl
    exact .operation (.mk rfl rfl row rfl) rfl
  have found : (match Tree.parse 0 "root" text with
      | .ok _ => none
      | .error diagnostic => some diagnostic.pos) = some 6 := by
    decide +kernel
  cases refused : Tree.parse 0 "root" text with
  | ok tree =>
    rw [refused] at found
    cases found
  | error diagnostic =>
    rw [refused] at found
    have pos : diagnostic.pos = 6 := Option.some.inj found
    obtain ⟨fault, comma, lone, place⟩ := (manual_read_but_lone_commas 0 "root" text).2
      (by decide +kernel) derives (by rw [tokens]; simp [Convert])
      (never_deeper (by rw [tokens]; decide)) diagnostic refused
    exact ⟨derives, diagnostic, comma, rfl, fault, lone, place, place ▸ pos⟩

/-- The smallest list that holds a comma and nothing else is one of the manual's, and is refused. -/
theorem lone_comma_not_read :
    let text := "eq(,)"
    (Stream.ofText text).last.kind = .finish ∧ IsStatement (Stream.ofText text).significant ∧
      Convert (Stream.ofText text).significant ∧
      NeverDeeper 128 (Stream.ofText text).significant ∧
      ¬ ∃ tree, Tree.parse 0 "root" text = .ok tree := by
  intro text
  have tokens : (Stream.ofText text).significant =
      [⟨.operator .equal, "eq", 0, 1⟩, ⟨.leftParen, "(", 2, 1⟩, ⟨.comma, ",", 3, 1⟩,
        ⟨.rightParen, ")", 4, 1⟩, ⟨.finish, "", 5, 1⟩] := by
    decide +kernel
  have refused : (Tree.parse 0 "root" text).toOption.isNone = true := by decide +kernel
  rw [tokens]
  refine ⟨by decide +kernel, ?_, by simp [Convert], never_deeper (by decide), ?_⟩
  · exact .operation (.mk rfl rfl (.lone rfl) rfl) rfl
  · rintro ⟨tree, accepted⟩
    rw [accepted] at refused
    cases refused

end ResourceQuery.ManualGrammar
