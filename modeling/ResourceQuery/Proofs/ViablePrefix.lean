import ResourceQuery.Proofs.Refusals

/-! What is in front of a fault could have been the beginning of a statement. Every draft is whole
once its open lists are closed, and once the operator it may end in has been given an empty list;
only an operator in the innermost list that there may be has no room for one. The lexer counts the
same lists as the draft, so the parentheses that complete a draft are read as such behind the tokens
that made it. -/
namespace ResourceQuery.ViablePrefix
open Draft (depthLimit)
open DraftRuns DiagnosticFidelity StreamTiling LookAhead Refusals LexemeSpelling
open CanonicalRoundTrip GrammarExactness Grammar

variable {draft next last : Draft} {token : Token} {tokens : List Token} {list : OpenList}

/-! ## Open lists -/

/-- How many lists of a draft are open. -/
def openLists : Draft → Nat
  | .start | .finished _ _ | .operator _ none => 0
  | .operator _ (some list) | .value list | .separator list => list.depth

theorem depth_pos (list : OpenList) : 0 < list.depth := by
  cases list <;> simp [OpenList.depth]

/-- Closing a list ends the statement, or goes on with the list around it. -/
theorem close_cases (list : OpenList) :
    (list.depth = 1 ∧ ∃ head operands, list.close = .finished head operands) ∨
      ∃ around, list.close = .separator around ∧ around.depth + 1 = list.depth := by
  cases list with
  | outermost keyword pos read => exact .inl ⟨rfl, _, _, rfl⟩
  | operands around keyword pos read | nested around pos read =>
    exact .inr ⟨_, rfl, by rw [depth_push]; rfl⟩

/-- Closing a list leaves one list less open. -/
theorem close_opens (list : OpenList) : openLists (.value list) = openLists list.close + 1 ∧
    openLists (.separator list) = openLists list.close + 1 := by
  have fewer : list.depth = openLists list.close + 1 := by
    rcases close_cases list with ⟨depth, head, operands, closed⟩ | ⟨around, closed, depth⟩
    · rw [closed, depth]
      rfl
    · rw [closed, ← depth]
      rfl
  exact ⟨fewer, fewer⟩

theorem opened_single {token : Token} (kind : token.kind = .leftParen) :
    opened [token] = 1 ∧ closed [token] = 0 := by
  simp [opened, closed, kind]

theorem closed_single {token : Token} (kind : token.kind = .rightParen) :
    opened [token] = 0 ∧ closed [token] = 1 := by
  simp [opened, closed, kind]

theorem plain_single {token : Token} (left : token.kind ≠ .leftParen)
    (right : token.kind ≠ .rightParen) : opened [token] = 0 ∧ closed [token] = 0 := by
  simp [opened, closed, left, right]

/-- A list is opened by a left parenthesis and closed by a right one, and by nothing else. -/
theorem step_opens (step : Step draft token next) :
    openLists next + closed [token] = openLists draft + opened [token] := by
  cases step with
  | first kind | operator kind | comma kind =>
    have ⟨left, right⟩ : opened [token] = 0 ∧ closed [token] = 0 :=
      plain_single (by simp [kind]) (by simp [kind])
    simp [openLists, left, right]
  | outermost kind | operands kind room | nested kind room =>
    obtain ⟨left, right⟩ := opened_single kind
    simp [openLists, OpenList.depth, left, right]
  | atom spells =>
    obtain ⟨-, -, left, right, -⟩ := atom_kind spells
    obtain ⟨left, right⟩ := plain_single left right
    simp [openLists, left, right]
  | closeValue kind | closeSeparator kind =>
    rename_i list
    obtain ⟨left, right⟩ := closed_single kind
    have fewer := close_opens list
    omega

theorem run_opens (run : Run draft tokens last) :
    openLists last + closed tokens = openLists draft + opened tokens := by
  induction run with
  | done => rfl
  | @step draft token next tokens last first others ih =>
    have one := step_opens first
    rw [← List.singleton_append, opened_append, closed_append]
    omega

/-- Tokens that keep within a limit go on doing so behind the first of them. -/
theorem within_behind {limit : Nat} {front back : List Token} (run : Run draft front next)
    (within : Within limit (openLists draft) (front ++ back)) :
    Within limit (openLists next) back := by
  intro read start
  have reached := within (front ++ read) ((List.prefix_append_right_inj front).mpr start)
  rw [opened_append, closed_append] at reached
  have lists := run_opens run
  omega

/-- No draft has more lists open than it may. -/
theorem step_room (step : Step draft token next) (room : openLists draft ≤ depthLimit) :
    openLists next ≤ depthLimit := by
  cases step with
  | first kind | outermost kind => simp [openLists, OpenList.depth, depthLimit]
  | operands kind deeper | nested kind deeper =>
    simp only [openLists, OpenList.depth]
    omega
  | operator kind | comma kind => exact room
  | atom spells => simpa [openLists] using room
  | closeValue kind | closeSeparator kind =>
    rename_i list
    have fewer := close_opens list
    omega

theorem run_room (run : Run draft tokens last) (room : openLists draft ≤ depthLimit) :
    openLists last ≤ depthLimit := by
  induction run with
  | done => exact room
  | step first others ih => exact ih (step_room first room)

/-- A draft that ends in an operator has taken the operator last, at the beginning or where a value
may stand. -/
theorem step_operator {keyword : Keyword} {around : Option OpenList}
    (step : Step draft token (.operator keyword around)) :
    token.kind = .operator keyword.operator ∧
      (draft = .start ∧ around = none ∨ ∃ list, draft = .value list ∧ around = some list) := by
  generalize target : Draft.operator keyword around = next at step
  cases step with
  | first kind =>
    cases target
    exact ⟨kind, .inl ⟨rfl, rfl⟩⟩
  | operator kind =>
    cases target
    exact ⟨kind, .inr ⟨_, rfl, rfl⟩⟩
  | closeValue kind | closeSeparator kind =>
    rename_i list
    rcases close_cases list with ⟨-, head, operands, closed⟩ | ⟨outer, closed, -⟩ <;>
    · rw [closed] at target
      cases target
  | outermost | operands | nested | atom | comma => cases target

/-- A run is cut anywhere. -/
theorem run_append_iff {front back : List Token} : Run draft (front ++ back) last ↔
    ∃ middle, Run draft front middle ∧ Run middle back last := by
  constructor
  · intro run
    induction front generalizing draft with
    | nil => exact ⟨draft, .done, run⟩
    | cons token front ih =>
      cases run with
      | step first others =>
        obtain ⟨middle, some, rest⟩ := ih others
        exact ⟨middle, .step first some, rest⟩
  · rintro ⟨middle, some, rest⟩
    exact run_append some rest

theorem run_concat : Run draft (tokens ++ [token]) last ↔
    ∃ middle, Run draft tokens middle ∧ Step middle token last := by
  rw [run_append_iff]
  refine exists_congr fun middle => and_congr_right fun _ => ⟨fun run => ?_, run_single⟩
  cases run with
  | step first others =>
    cases others
    exact first

theorem run_operator {keyword : Keyword} {around : Option OpenList}
    (run : Run .start tokens (.operator keyword around)) :
    tokens.getLast?.map Token.kind = some (.operator keyword.operator) := by
  rcases List.eq_nil_or_concat tokens with rfl | ⟨front, token, rfl⟩
  · cases run
  · rw [List.concat_eq_append] at run ⊢
    obtain ⟨middle, -, step⟩ := run_concat.mp run
    rw [List.getLast?_concat, Option.map_some, (step_operator step).1]

/-! ## Completions -/

/-- What is enough to end a draft: an operator gets an empty list, and every list is closed. -/
def completion : Draft → List Char
  | .start | .finished _ _ => []
  | .operator keyword around =>
    '(' :: List.replicate (openLists (.operator keyword around) + 1) ')'
  | .value list | .separator list => List.replicate list.depth ')'

theorem completion_delimited (draft : Draft) : Delimited (completion draft) := by
  have closing (n : Nat) : Delimited (List.replicate n ')') := by
    cases n with
    | zero => exact fun c head => by cases head
    | succ n => exact delimited_rightParen _
  cases draft with
  | start | finished head operands => exact closing 0
  | operator keyword around => exact delimited_leftParen _
  | value list | separator list => exact closing list.depth

/-- Right parentheses are read as such as long as there are open ones. -/
theorem reads_closing (n : Nat) (mark : Mark) (depth : mark.depth = n) :
    ∃ (tokens : List Token) (later : Mark), Reads mark (List.replicate n ')') tokens later [] ∧
      later.depth = 0 ∧ tokens.length = n ∧ ∀ token ∈ tokens, token.kind = .rightParen := by
  induction n generalizing mark with
  | zero => exact ⟨[], mark, reads_nil, depth, rfl, fun _ member => absurd member List.not_mem_nil⟩
  | succ n ih =>
    have first : Lexeme.read mark.depth (List.replicate (n + 1) ')') =
        ⟨.rightParen, [')'], List.replicate n ')'⟩ := read_rightParen (by omega) _
    obtain ⟨closing, middle, -, shallower, reads⟩ := reads_token first rfl
    have lower : middle.depth = mark.depth - 1 := shallower
    obtain ⟨tokens, later, others, closed, length, kinds⟩ := ih middle (by omega)
    refine ⟨closing.val :: tokens, later, reads_append reads others, closed, ?_, ?_⟩
    · rw [List.length_cons, length]
    · exact List.forall_mem_cons.mpr ⟨closing.property, kinds⟩

/-- As many right parentheses as there are open lists make the statement whole. -/
theorem run_closed (kinds : ∀ token ∈ tokens, token.kind = .rightParen)
    (length : tokens.length + 1 = list.depth) :
    ∃ head operands, Run list.close tokens (.finished head operands) := by
  induction tokens generalizing list with
  | nil =>
    rcases close_cases list with ⟨-, head, operands, closed⟩ | ⟨around, -, depth⟩
    · exact ⟨head, operands, closed ▸ .done⟩
    · have deeper := depth_pos around
      simp only [List.length_nil] at length
      omega
  | cons token tokens ih =>
    obtain ⟨kind, kinds⟩ := List.forall_mem_cons.mp kinds
    simp only [List.length_cons] at length
    rcases close_cases list with ⟨depth, -⟩ | ⟨around, closed, depth⟩
    · omega
    · have fewer : tokens.length + 1 = around.depth := by omega
      obtain ⟨head, operands, run⟩ := ih kinds fewer
      rw [closed]
      exact ⟨head, operands, .step (.closeSeparator kind) run⟩

/-- A list is ended by as many right parentheses as there are open ones. -/
theorem list_completes (list : OpenList) (mark : Mark) (level : mark.depth = list.depth) :
    ∃ (tokens : List Token) (later : Mark) (head : Head) (operands : List Node),
      Reads mark (List.replicate list.depth ')') tokens later [] ∧ later.depth = 0 ∧
        Run (.value list) tokens (.finished head operands) ∧
        Run (.separator list) tokens (.finished head operands) := by
  obtain ⟨tokens, later, reads, closed, length, kinds⟩ := reads_closing list.depth mark level
  have some := depth_pos list
  cases tokens with
  | nil =>
    rw [List.length_nil] at length
    omega
  | cons token tokens =>
    obtain ⟨kind, kinds⟩ := List.forall_mem_cons.mp kinds
    obtain ⟨head, operands, run⟩ := run_closed kinds length
    exact ⟨_, later, head, operands, reads, closed, .step (.closeValue kind) run,
      .step (.closeSeparator kind) run⟩

/-- The one draft that cannot go on: it ends in an operator that has no room for its list. -/
def Cornered (draft : Draft) : Prop :=
  ∃ keyword around, draft = .operator keyword (some around) ∧ around.depth = depthLimit

/-- The completion is read behind the draft, and completes it. -/
theorem draft_completes (draft : Draft) (mark : Mark) (level : mark.depth = openLists draft)
    (room : openLists draft ≤ depthLimit) (free : ¬ Cornered draft) :
    ∃ (tokens : List Token) (later : Mark) (last : Draft) (node : Node),
      Reads mark (completion draft) tokens later [] ∧ later.depth = 0 ∧
        Run draft tokens last ∧ Ends last node := by
  cases draft with
  | start => exact ⟨[], mark, _, _, reads_nil, level, .done, .blank⟩
  | finished head operands => exact ⟨[], mark, _, _, reads_nil, level, .done, .operation⟩
  | value list =>
    obtain ⟨tokens, later, head, operands, reads, closed, run, -⟩ := list_completes list mark level
    exact ⟨tokens, later, _, _, reads, closed, run, .operation⟩
  | separator list =>
    obtain ⟨tokens, later, head, operands, reads, closed, -, run⟩ := list_completes list mark level
    exact ⟨tokens, later, _, _, reads, closed, run, .operation⟩
  | operator keyword around =>
    have opens : Lexeme.read mark.depth (completion (.operator keyword around)) =
        ⟨.leftParen, ['('], List.replicate (openLists (.operator keyword around) + 1) ')'⟩ := rfl
    obtain ⟨opening, inside, -, deeper, first⟩ := reads_token opens rfl
    have deep : inside.depth = openLists (.operator keyword around) + 1 :=
      deeper.trans (congrArg (· + 1) level)
    obtain ⟨list, depth, step⟩ : ∃ list : OpenList,
        list.depth = openLists (.operator keyword around) + 1 ∧
          Step (.operator keyword around) opening.val (.value list) := by
      cases around with
      | none => exact ⟨_, rfl, .outermost opening.property⟩
      | some around =>
        have fits : around.depth ≠ depthLimit := fun full => free ⟨keyword, around, rfl, full⟩
        exact ⟨_, rfl, .operands opening.property (Nat.lt_of_le_of_ne room fits)⟩
    obtain ⟨tokens, later, head, operands, reads, closed, run, -⟩ :=
      list_completes list inside (deep.trans depth.symm)
    rw [depth] at reads
    exact ⟨opening.val :: tokens, later, _, _, reads_append first reads, closed, .step step run,
      .operation⟩

/-! ## Parentheses in a stream -/

/-- A right parenthesis is one only where some are open. -/
theorem read_closing {depth : Nat} {cs : List Char}
    (kind : (Lexeme.read depth cs).kind = .rightParen) : depth ≠ 0 := by
  rintro rfl
  have fits := first_fits (read_first 0 cs)
  have whole := Lexeme.taken_append_rest 0 cs
  rw [kind, Fits, String.ofList_eq] at fits
  rw [fits] at whole
  rw [← whole] at kind
  cases kind

theorem after_depth (mark : Mark) (cs : List Char) :
    (mark.after (Lexeme.read mark.depth cs)).depth +
        closed [mark.token (Lexeme.read mark.depth cs)] =
      mark.depth + opened [mark.token (Lexeme.read mark.depth cs)] := by
  have some : (Lexeme.read mark.depth cs).kind = .rightParen → mark.depth ≠ 0 := read_closing
  generalize Lexeme.read mark.depth cs = lexeme at some
  by_cases left : lexeme.kind = .leftParen
  · have one : opened [mark.token lexeme] = 1 ∧ closed [mark.token lexeme] = 0 :=
      opened_single left
    simp [one, Mark.after, Mark.depthAfter, left]
  by_cases right : lexeme.kind = .rightParen
  · have one : opened [mark.token lexeme] = 0 ∧ closed [mark.token lexeme] = 1 :=
      closed_single right
    have positive := some right
    simp only [one, Mark.after, Mark.depthAfter, right]
    omega
  · have plain : opened [mark.token lexeme] = 0 ∧ closed [mark.token lexeme] = 0 :=
      plain_single left right
    simp only [plain, Mark.after]
    cases kind : lexeme.kind <;> simp_all [Mark.depthAfter]

/-- The mark behind some tokens has counted the parentheses that they leave open. -/
theorem read_depth (mark : Mark) (cs : List Char) : ∀ (front back : List Token) (token : Token),
    (Stream.read mark cs).tokens = front ++ token :: back →
      (pastAll mark front).depth + closed front = mark.depth + opened front := by
  fun_induction Stream.read mark cs with
  | case1 mark cs lexeme more ih =>
    intro front back token split
    cases front with
    | nil => rfl
    | cons first front =>
      obtain ⟨rfl, behind⟩ := List.cons.inj split
      have others := ih front back token behind
      have one : (mark.after lexeme).depth + closed [mark.token lexeme] =
          mark.depth + opened [mark.token lexeme] := after_depth mark cs
      have moved : pastAll mark (mark.token lexeme :: front) = pastAll (mark.after lexeme) front :=
        congrArg (pastAll · front) (past_token mark lexeme)
      rw [moved, ← List.singleton_append, opened_append, closed_append]
      omega
  | case2 mark cs lexeme final =>
    intro front back token split
    cases front with
    | nil => rfl
    | cons first front => exact absurd (List.cons.inj split).2 (by simp)

/-- Blanks are no parentheses. -/
theorem counts_significant (tokens : List Token) :
    opened (tokens.filter (·.kind != .blank)) = opened tokens ∧
      closed (tokens.filter (·.kind != .blank)) = closed tokens := by
  have plain (kind : TokenKind) (other : kind ≠ .blank) :
      ((tokens.filter (·.kind != .blank)).map Token.kind).count kind =
        (tokens.map Token.kind).count kind := by
    induction tokens with
    | nil => rfl
    | cons token tokens ih =>
      by_cases blank : token.kind = .blank
      · simp [blank, ih, Ne.symm other]
      · simp [blank, ih, List.count_cons]
  exact ⟨plain _ (by simp), plain _ (by simp)⟩

/-! ## Viable beginnings -/

/-- The tokens that count and start in front of an offset. -/
def tokensBefore (text : String) (pos : Nat) : List Token :=
  (Stream.ofText text).significant.filter (·.pos < pos)

/-- In front of the offset as many lists are open as may be, and an operator stands last. It has no
room for its list. -/
def NoRoom (text : String) (pos : Nat) : Prop :=
  opened (tokensBefore text pos) = closed (tokensBefore text pos) + 128 ∧
    ∃ operator, (tokensBefore text pos).getLast?.map Token.kind = some (.operator operator)

variable {text : String} {refusal : Refusal} {draft : Draft} {front : List Token}
  {rest : List Char}

theorem stops_tokens (stops : Stops text refusal front draft rest) :
    tokensBefore text refusal.token.pos = front.filter (·.kind != .blank) := by
  obtain ⟨back, split⟩ := stops.split
  rw [tokensBefore, Stream.significant, List.filter_comm, tokens_before split]

theorem stops_opens (stops : Stops text refusal front draft rest) :
    openLists draft + closed front = opened front ∧
      (pastAll Mark.start front).depth = openLists draft := by
  obtain ⟨back, split⟩ := stops.split
  have lists := run_opens (run_iff.mp stops.run)
  have marks := read_depth Mark.start text.toList front back refusal.token split
  rw [(counts_significant front).1, (counts_significant front).2] at lists
  have nothing : openLists .start = 0 ∧ Mark.start.depth = 0 := ⟨rfl, rfl⟩
  omega

theorem stops_no_room (stops : Stops text refusal front draft rest) (cornered : Cornered draft) :
    NoRoom text refusal.token.pos := by
  obtain ⟨keyword, around, rfl, full⟩ := cornered
  obtain ⟨lists, -⟩ := stops_opens stops
  rw [NoRoom, stops_tokens stops, (counts_significant front).1, (counts_significant front).2]
  have deep : openLists (.operator keyword (some around)) = 128 := full
  exact ⟨by omega, _, run_operator (run_iff.mp stops.run)⟩

/-- What is in front of the token that is refused becomes a statement with its completion. -/
theorem stops_completes (stops : Stops text refusal front draft rest) (free : ¬ Cornered draft) :
    ∃ node, (Stream.ofText (String.ofList (spelled front ++ completion draft))).statement =
      .ok node := by
  obtain ⟨-, level⟩ := stops_opens stops
  have room := run_room (run_iff.mp stops.run) (Nat.zero_le _)
  obtain ⟨tokens, later, last, node, reads, closed, run, ends⟩ :=
    draft_completes draft _ level room free
  have whole := reads_append (stops.again _ (.inr (completion_delimited draft))) reads
  have stream : Stream.ofText (String.ofList (spelled front ++ completion draft)) =
      ⟨front ++ tokens, later.token ⟨.finish, [], []⟩⟩ := by
    rw [Reads, read_end closed] at whole
    simpa [Stream.ofText] using whole
  refine ⟨node, statement_ok_iff.mpr ⟨by rw [stream]; rfl, last, ?_, ends⟩⟩
  rw [stream, List.filter_append, run_counts run]
  exact run_append (run_iff.mp stops.run) run

/-- **Faults are found early.** What stands in front of the token that a diagnostic reports is the
beginning of a statement: some text completes it. The one exception is an operator where so many
lists are open that it has no room for its own. -/
theorem front_is_viable {handle : Nat} {name text : String} {diagnostic : Diagnostic}
    (refused : Tree.parse handle name text = .error diagnostic) :
    ∃ front back : String, text = front ++ back ∧ front.utf8ByteSize = diagnostic.pos ∧
      (NoRoom text diagnostic.pos ∨
        ∃ suffix tree, Tree.parse handle name (front ++ suffix) = .ok tree) := by
  obtain ⟨refusal, failed, rfl⟩ := parse_error refused
  obtain ⟨tokens, draft, rest, stops⟩ := statement_stops failed
  refine ⟨String.ofList (spelled tokens), String.ofList rest, ?_, ?_, ?_⟩
  · rw [← String.ofList_append, ← stops.whole, String.ofList_toList]
  · rw [← utf8Length_toList, String.toList_ofList]
    exact (stops_pos stops).symm
  · by_cases cornered : Cornered draft
    · exact .inl (stops_no_room stops cornered)
    · obtain ⟨node, made⟩ := stops_completes stops cornered
      rw [String.ofList_append] at made
      exact .inr ⟨_, _, parse_ok_iff.mpr ⟨node, made, rfl⟩⟩

/-- The operator that wants its list is given one. -/
theorem front_is_viable_operator :
    Tree.parse 0 "root" "and(in(é,(1,2)),eq 12)" =
        .error ⟨"root", 1, 21, 20, .grammar (.unexpected "\"12\"" "left parentheses")⟩ ∧
      ∃ front back : String, "and(in(é,(1,2)),eq 12)" = front ++ back ∧ front.utf8ByteSize = 20 ∧
        ∃ suffix tree, Tree.parse 0 "root" (front ++ suffix) = .ok tree := by
  have found : (match Tree.parse 0 "root" "and(in(é,(1,2)),eq 12)" with
      | .ok _ => none
      | .error diagnostic => some diagnostic) =
        some ⟨"root", 1, 21, 20, .grammar (.unexpected "\"12\"" "left parentheses")⟩ := by
    decide +kernel
  have shallow : opened (tokensBefore "and(in(é,(1,2)),eq 12)" 20) ≠
      closed (tokensBefore "and(in(é,(1,2)),eq 12)" 20) + 128 := by
    decide +kernel
  cases refused : Tree.parse 0 "root" "and(in(é,(1,2)),eq 12)" with
  | ok tree =>
    rw [refused] at found
    cases found
  | error diagnostic =>
    rw [refused] at found
    obtain rfl := Option.some.inj found
    obtain ⟨front, back, whole, size, ⟨full, -⟩ | viable⟩ := front_is_viable refused
    · exact absurd full shallow
    · exact ⟨rfl, front, back, whole, size, viable⟩

end ResourceQuery.ViablePrefix
