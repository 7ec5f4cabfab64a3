import ResourceQuery.Reading

/-! What the tokens of a stream do to a draft, blanks left out. One step takes one token, a run
takes a row of them, and a stream makes a statement exactly if some run over its tokens ends in a
draft that the end of the text may follow (`statement_ok_iff`). Any other stream is refused at one
token, which is told by the tokens in front of it (`statement_error_iff`). -/
namespace ResourceQuery.DraftRuns
open Draft (depthLimit)

/-- The rules by which a token that is no blank makes the next draft. There is no other way. -/
inductive Step : Draft → Token → Draft → Prop where
  | first (kind : token.kind = .operator operator) :
      Step .start token (.operator ⟨operator, token.pos⟩ none)
  | outermost (kind : token.kind = .leftParen) :
      Step (.operator keyword none) token (.value (.outermost keyword token.pos []))
  | operands (kind : token.kind = .leftParen) (room : around.depth < depthLimit) :
      Step (.operator keyword (some around)) token (.value (.operands around keyword token.pos []))
  | operator (kind : token.kind = .operator operator) :
      Step (.value list) token (.operator ⟨operator, token.pos⟩ (some list))
  | nested (kind : token.kind = .leftParen) (room : list.depth < depthLimit) :
      Step (.value list) token (.value (.nested list token.pos []))
  | atom (spells : token.atom? = some (.ok atom)) :
      Step (.value list) token (.separator (list.push (.atom (.detached token.pos) atom)))
  | closeValue (kind : token.kind = .rightParen) : Step (.value list) token list.close
  | comma (kind : token.kind = .comma) : Step (.separator list) token (.value list)
  | closeSeparator (kind : token.kind = .rightParen) : Step (.separator list) token list.close

/-- The steps over a row of tokens. -/
inductive Run : Draft → List Token → Draft → Prop where
  | done : Run draft [] draft
  | step (first : Step draft token next) (others : Run next tokens last) :
      Run draft (token :: tokens) last

variable {draft next last : Draft} {token : Token} {list : OpenList} {depth : Nat}

/-! ## One token -/

theorem enter_ok_iff :
    Draft.enter depth list = .ok next ↔ depth < depthLimit ∧ next = .value list := by
  unfold Draft.enter
  split
  · simp [*, eq_comm]
  · simp [*]

theorem atom_kind {result : Except LiteralFault Atom} (spells : token.atom? = some result) :
    token.kind ≠ .blank ∧ (∀ fault, token.kind ≠ .fault fault) ∧ token.kind ≠ .leftParen ∧
      token.kind ≠ .rightParen ∧ ∀ operator, token.kind ≠ .operator operator := by
  unfold Token.atom? at spells
  cases kind : token.kind <;> simp_all

theorem mapError_ok_iff {run : Except Fault α} {value : α} :
    run.mapError (Refusal.mk token) = .ok value ↔ run = .ok value := by
  cases run with
  | ok result =>
    constructor <;>
    · rintro ⟨⟩
      rfl
  | error fault =>
    constructor
    · exact fun mapped => by cases mapped
    · exact fun failed => by cases failed

theorem mapError_error_iff {run : Except Fault α} {refusal : Refusal} :
    run.mapError (Refusal.mk token) = .error refusal ↔
      refusal.token = token ∧ run = .error refusal.fault := by
  obtain ⟨refused, fault⟩ := refusal
  cases run with
  | ok result =>
    constructor
    · exact fun mapped => by cases mapped
    · exact fun both => by cases both.2
  | error first =>
    constructor
    · rintro ⟨⟩
      exact ⟨rfl, rfl⟩
    · rintro ⟨rfl, ⟨⟩⟩
      rfl

theorem takeFirst_ok_iff : Draft.takeFirst token = .ok next ↔ Step .start token next := by
  constructor
  · intro taken
    unfold Draft.takeFirst at taken
    split at taken <;> cases taken
    exact .first ‹_›
  · rintro (⟨kind⟩)
    simp [Draft.takeFirst, kind]

theorem takeList_ok_iff {keyword : Keyword} {around : Option OpenList} :
    Draft.takeList keyword around token = .ok next ↔
      Step (.operator keyword around) token next := by
  constructor
  · intro taken
    unfold Draft.takeList at taken
    split at taken
    · obtain ⟨-, rfl⟩ := enter_ok_iff.mp taken
      exact .outermost ‹_›
    · obtain ⟨room, rfl⟩ := enter_ok_iff.mp taken
      exact .operands ‹_› room
    · cases taken
  · intro step
    cases step with
    | outermost kind => simp [Draft.takeList, kind, enter_ok_iff, depthLimit]
    | operands kind room => simp [Draft.takeList, kind, enter_ok_iff, room]

theorem takeValue_ok_iff :
    Draft.takeValue list token = .ok next ↔ Step (.value list) token next := by
  constructor
  · intro taken
    unfold Draft.takeValue at taken
    split at taken
    · cases taken
      exact .operator ‹_›
    · obtain ⟨room, rfl⟩ := enter_ok_iff.mp taken
      exact .nested ‹_› room
    · cases taken
      exact .closeValue ‹_›
    · split at taken <;> cases taken
      exact .atom ‹_›
  · intro step
    cases step with
    | operator kind | closeValue kind => simp [Draft.takeValue, kind]
    | nested kind room => simp [Draft.takeValue, kind, enter_ok_iff, room]
    | atom spells =>
      obtain ⟨-, -, left, right, operator⟩ := atom_kind spells
      unfold Draft.takeValue
      split
      · exact absurd ‹_› (operator _)
      · exact absurd ‹_› left
      · exact absurd ‹_› right
      · rw [spells]

theorem takeSeparator_ok_iff :
    Draft.takeSeparator list token = .ok next ↔ Step (.separator list) token next := by
  constructor
  · intro taken
    unfold Draft.takeSeparator at taken
    split at taken <;> cases taken
    · exact .comma ‹_›
    · exact .closeSeparator ‹_›
  · intro step
    cases step with
    | comma kind | closeSeparator kind => simp [Draft.takeSeparator, kind]

theorem step_kind (step : Step draft token next) :
    token.kind ≠ .blank ∧ ∀ fault, token.kind ≠ .fault fault := by
  cases step with
  | atom spells => exact ⟨(atom_kind spells).1, (atom_kind spells).2.1⟩
  | first kind | outermost kind | operands kind | operator kind | nested kind | closeValue kind
  | comma kind | closeSeparator kind => simp [kind]

/-- A draft takes the tokens that the rules say, and no others. -/
theorem accept_ok_iff (counts : token.kind ≠ .blank) :
    draft.accept token = .ok next ↔ Step draft token next := by
  unfold Draft.accept
  split
  · exact absurd ‹_› counts
  · rename_i fault kind
    constructor
    · exact fun refused => by cases refused
    · exact fun step => absurd kind ((step_kind step).2 fault)
  · cases draft with
    | start => exact takeFirst_ok_iff
    | operator keyword around => exact takeList_ok_iff
    | value list => exact takeValue_ok_iff
    | separator list => exact takeSeparator_ok_iff
    | finished head operands =>
      constructor
      · exact fun taken => by cases taken
      · exact fun step => by cases step

/-! ## Rows of tokens -/

variable {tokens front back : List Token}

theorem run_append (start : Run draft front next) (rest : Run next back last) :
    Run draft (front ++ back) last := by
  induction start with
  | done => exact rest
  | step first others ih => exact .step first (ih rest)

theorem run_single (first : Step draft token next) : Run draft [token] next := .step first .done

/-- No token leads back to the beginning. -/
theorem run_start (run : Run draft tokens last) (start : last = .start) : tokens = [] := by
  induction run with
  | done => rfl
  | step first others ih =>
    obtain rfl := ih start
    cases others
    subst start
    generalize target : Draft.start = next at first
    cases first with
    | closeValue | closeSeparator =>
      rename_i list _
      cases list <;> cases target
    | first | outermost | operands | operator | nested | atom | comma => cases target

/-- All tokens of a run count. -/
theorem run_counts (run : Run draft tokens last) : tokens.filter (·.kind != .blank) = tokens := by
  induction run with
  | done => rfl
  | step first others ih =>
    rw [List.filter_cons_of_pos (by simpa using (step_kind first).1), ih]

/-- Blanks change nothing, and all other tokens are taken by the rules. -/
theorem run_iff :
    tokens.foldlM Draft.take draft = .ok last ↔
      Run draft (tokens.filter (·.kind != .blank)) last := by
  induction tokens generalizing draft with
  | nil =>
    constructor
    · intro same
      cases same
      exact .done
    · intro run
      cases run
      rfl
  | cons token tokens ih =>
    by_cases blank : token.kind = .blank
    · have same : draft.take token = .ok draft := by
        rw [Draft.take, mapError_ok_iff]
        simp [Draft.accept, blank]
      rw [List.foldlM_cons, same, List.filter_cons_of_neg (by simp [blank])]
      exact ih
    · rw [List.foldlM_cons, List.filter_cons_of_pos (by simpa using blank)]
      constructor
      · intro taken
        cases first : draft.take token with
        | error refusal => rw [first] at taken; cases taken
        | ok next =>
          rw [first] at taken
          exact .step ((accept_ok_iff blank).mp (mapError_ok_iff.mp first)) (ih.mp taken)
      · intro run
        cases run with
        | step first others =>
          have taken : draft.take token = .ok _ :=
            mapError_ok_iff.mpr ((accept_ok_iff blank).mpr first)
          rw [taken]
          exact ih.mpr others

variable {refusal : Refusal}

/-- A row of tokens is refused at the first token that the draft behind those before it does not
take. -/
theorem foldlM_error_iff : tokens.foldlM Draft.take draft = .error refusal ↔
    ∃ front back next, tokens = front ++ refusal.token :: back ∧
      front.foldlM Draft.take draft = .ok next ∧
        next.accept refusal.token = .error refusal.fault := by
  constructor
  · intro failed
    induction tokens generalizing draft with
    | nil => cases failed
    | cons token tokens ih =>
      rw [List.foldlM_cons] at failed
      cases taken : draft.take token with
      | ok middle =>
        rw [taken] at failed
        obtain ⟨front, back, next, rfl, run, refused⟩ := ih failed
        refine ⟨token :: front, back, next, rfl, ?_, refused⟩
        rw [List.foldlM_cons, taken]
        exact run
      | error first =>
        rw [taken] at failed
        cases failed
        obtain ⟨rfl, refused⟩ := mapError_error_iff.mp taken
        exact ⟨[], tokens, draft, rfl, rfl, refused⟩
  · rintro ⟨front, back, next, rfl, run, refused⟩
    have taken : next.take refusal.token = .error refusal := mapError_error_iff.mpr ⟨rfl, refused⟩
    rw [List.foldlM_append, run]
    change (refusal.token :: back).foldlM Draft.take next = _
    rw [List.foldlM_cons, taken]
    rfl

/-! ## Statements -/

/-- The statements that a draft may be when the text ends. -/
inductive Ends : Draft → Node → Prop where
  | blank : Ends .start (.blankStatement (.detached 0))
  | operation : Ends (.finished head operands) (.statement (.detached 0) head operands)

theorem conclude_ok_iff {node : Node} :
    draft.conclude token = .ok node ↔ token.kind = .finish ∧ Ends draft node := by
  constructor
  · intro ended
    unfold Draft.conclude at ended
    split at ended <;> cases ended
    · exact ⟨‹_›, .blank⟩
    · exact ⟨‹_›, .operation⟩
  · rintro ⟨kind, ends⟩
    cases ends with
    | blank | operation => simp [Draft.conclude, kind]

/-- A stream is a statement if its tokens are taken one after the other and the text may end behind
the last of them. -/
theorem statement_ok_iff {stream : Stream} {node : Node} : stream.statement = .ok node ↔
    stream.last.kind = .finish ∧ ∃ draft,
      Run .start (stream.body.filter (·.kind != .blank)) draft ∧ Ends draft node := by
  unfold Stream.statement Stream.statementFrom
  have ending (draft : Draft) : draft.finish stream.last = .ok node ↔
      stream.last.kind = .finish ∧ Ends draft node := mapError_ok_iff.trans conclude_ok_iff
  constructor
  · intro made
    cases taken : stream.body.foldlM Draft.take .start with
    | error refusal => rw [taken] at made; cases made
    | ok draft =>
      rw [taken] at made
      obtain ⟨finish, ends⟩ := (ending draft).mp made
      exact ⟨finish, draft, run_iff.mp taken, ends⟩
  · rintro ⟨finish, draft, run, ends⟩
    rw [run_iff.mpr run]
    exact (ending draft).mpr ⟨finish, ends⟩

/-- A stream is refused at the first token that is not taken, or else at its last one, if the text
may not end behind all others. -/
theorem statement_error_iff {stream : Stream} : stream.statement = .error refusal ↔
    (∃ front back draft, stream.body = front ++ refusal.token :: back ∧
      front.foldlM Draft.take .start = .ok draft ∧
        draft.accept refusal.token = .error refusal.fault) ∨
    ∃ draft, stream.body.foldlM Draft.take .start = .ok draft ∧ refusal.token = stream.last ∧
      draft.conclude stream.last = .error refusal.fault := by
  rw [← foldlM_error_iff]
  unfold Stream.statement Stream.statementFrom
  cases taken : stream.body.foldlM Draft.take .start with
  | error first =>
    constructor
    · intro failed
      cases failed
      exact .inl rfl
    · rintro (failed | ⟨draft, run, -⟩)
      · cases failed
        rfl
      · cases run
  | ok draft =>
    constructor
    · exact fun failed => .inr ⟨draft, rfl, mapError_error_iff.mp failed⟩
    · rintro (failed | ⟨last, run, refused⟩)
      · cases failed
      · cases run
        exact mapError_error_iff.mpr refused

end ResourceQuery.DraftRuns
