import ResourceQuery.Proofs.DraftRuns
import ResourceQuery.Proofs.StreamTiling
import ResourceQuery.Tree

/-! A diagnostic is true of one token of the text. Its line is what has been counted on the way to
that token, its column is found by walking over the text again, and both together are the place of
the token. The fault is the token's own if the token is one, and where it quotes the text it quotes
this token. -/
namespace ResourceQuery.DiagnosticFidelity
open ResourceQuery.Text DraftRuns

/-! ## Faults and their tokens -/

/-- The text that a fault takes over as it was written. The other faults only describe. -/
def quoted? : Fault → Option String
  | .literal (.illegalNumber text) => some text
  | .literal (.integerOverflow text) => some text
  | .literal (.invalidString text) => some text
  | .lexical (.malformedNumber text) => some text
  | _ => none

/-- What a token may be refused for. A token that is a fault is refused for this fault, and any
other for its place or for its own text. -/
inductive Blames : Token → Fault → Prop where
  | lexical (kind : token.kind = .fault fault) : Blames token (.lexical fault)
  | grammar (sound : ∀ fault, token.kind ≠ .fault fault) : Blames token (.grammar fault)
  | literal (sound : ∀ fault, token.kind ≠ .fault fault)
      (quotes : quoted? (.literal fault) = some token.text) : Blames token (.literal fault)

variable {token : Token} {fault : Fault} {draft : Draft}

theorem string_quoted {text : String} {fault : LiteralFault}
    (failed : StringLiteral.read text = .error fault) : quoted? (.literal fault) = some text := by
  unfold StringLiteral.read at failed
  split at failed <;> cases failed
  rfl

theorem numeral_quoted {text : String} {fault : LiteralFault}
    (failed : Numeral.read text = .error fault) : quoted? (.literal fault) = some text := by
  unfold Numeral.read at failed
  dsimp only at failed
  split at failed
  · cases failed
  · cases failed
  · unfold Numeral.readFloat at failed
    repeat' split at failed
    all_goals cases failed
    all_goals rfl

theorem atom_quoted {fault : LiteralFault} (failed : token.atom? = some (.error fault)) :
    quoted? (.literal fault) = some token.text := by
  unfold Token.atom? at failed
  split at failed
  · cases failed
  · cases failed
  · cases failed
  · cases value : StringLiteral.read token.text with
    | ok literal => rw [value] at failed; cases failed
    | error fault =>
      rw [value] at failed
      cases failed
      exact string_quoted value
  · cases value : Numeral.read token.text with
    | ok numeral => rw [value] at failed; cases failed
    | error fault =>
      rw [value] at failed
      cases failed
      exact numeral_quoted value
  · cases failed

theorem enter_blames {depth : Nat} {list : OpenList}
    (sound : ∀ fault, token.kind ≠ .fault fault)
    (failed : Draft.enter depth list = .error fault) : Blames token fault := by
  unfold Draft.enter at failed
  split at failed <;> cases failed
  exact .grammar sound

theorem accept_blames (failed : draft.accept token = .error fault) : Blames token fault := by
  unfold Draft.accept at failed
  split at failed
  · cases failed
  · cases failed
    exact .lexical ‹_›
  · rename_i sound
    have sound : ∀ fault, token.kind ≠ .fault fault := sound
    split at failed
    · unfold Draft.takeFirst at failed
      split at failed <;> cases failed
      exact .grammar sound
    · unfold Draft.takeList at failed
      split at failed
      · exact enter_blames sound failed
      · exact enter_blames sound failed
      · cases failed
        exact .grammar sound
    · unfold Draft.takeValue at failed
      split at failed
      · cases failed
      · exact enter_blames sound failed
      · cases failed
      · split at failed <;> cases failed
        · exact .literal sound (atom_quoted ‹_›)
        · exact .grammar sound
    · unfold Draft.takeSeparator at failed
      split at failed <;> cases failed
      exact .grammar sound
    · cases failed
      exact .grammar sound

theorem conclude_blames (failed : draft.conclude token = .error fault) : Blames token fault := by
  by_cases wrong : ∃ fault, token.kind = .fault fault
  · obtain ⟨fault, kind⟩ := wrong
    simp only [Draft.conclude, kind] at failed
    cases failed
    exact .lexical kind
  · have sound : ∀ fault, token.kind ≠ .fault fault := fun fault kind => wrong ⟨fault, kind⟩
    unfold Draft.conclude at failed
    split at failed <;> cases failed
    · exact .lexical ‹_›
    all_goals exact .grammar sound

/-- A token that is a fault is refused for this very fault. -/
theorem blames_own {own : LexicalFault} (blames : Blames token fault)
    (kind : token.kind = .fault own) : fault = .lexical own := by
  cases blames with
  | lexical kind' =>
    rw [kind] at kind'
    cases kind'
    rfl
  | grammar sound | literal sound => exact absurd kind (sound own)

/-- And no other token is refused for a lexical fault. -/
theorem blames_lexical (blames : Blames token fault) (lexical : fault.category = .lexical) :
    ∃ own, token.kind = .fault own := by
  cases blames with
  | lexical kind => exact ⟨_, kind⟩
  | grammar | literal => cases lexical

variable {refusal : Refusal}

/-- A text is refused for a token of its own stream. -/
theorem statement_blames {stream : Stream} (failed : stream.statement = .error refusal) :
    refusal.token ∈ stream.tokens ∧ Blames refusal.token refusal.fault := by
  rcases statement_error_iff.mp failed with ⟨front, back, draft, split, -, refused⟩ |
    ⟨draft, -, same, refused⟩
  · refine ⟨List.mem_append_left _ ?_, accept_blames refused⟩
    rw [split]
    exact List.mem_append_right _ List.mem_cons_self
  · rw [same]
    exact ⟨List.mem_append_right _ (List.mem_singleton_self _), conclude_blames refused⟩

/-! ## Places -/

variable {text : String}

/-- Walking as far as some characters reach does not depend on what is behind them. -/
theorem advance_front (here : Location) (before behind : List Char) :
    here.advance (utf8Length before) (before ++ behind) = before.foldl Location.after here := by
  induction before generalizing here with
  | nil =>
    cases behind with
    | nil => rfl
    | cons c behind =>
      have positive := c.utf8Size_pos
      have short : ¬ c.utf8Size ≤ 0 := by omega
      simp [Location.advance, short]
  | cons c before ih =>
    have fits : c.utf8Size ≤ utf8Length (c :: before) := by simp
    have left : utf8Length (c :: before) - c.utf8Size = utf8Length before := by simp
    rw [List.cons_append, Location.advance, if_pos fits, left, ih, List.foldl_cons]

/-- Walking over characters passes their newlines. -/
theorem advance_line (here : Location) (before behind : List Char) :
    (here.advance (utf8Length before) (before ++ behind)).line =
      here.line + before.count '\n' := by
  rw [advance_front]
  induction before generalizing here with
  | nil => rfl
  | cons c before ih =>
    rw [List.foldl_cons, ih, List.count_cons]
    by_cases newline : c = '\n'
    · simp [Location.after, newline]
      omega
    · simp [Location.after, newline]

/-- The line that a token carries is the line of its offset. -/
theorem resolve_line (member : token ∈ (Stream.ofText text).tokens) :
    (Location.resolve text token.pos).line = token.line := by
  obtain ⟨before, behind, whole, pos, line⟩ := StreamTiling.token_place member
  rw [Location.resolve, whole, pos, line, List.append_assoc, advance_line]
  rfl

/-- The tokens that a newline may be in. -/
def mayBreak (token : Token) : Bool := token.kind == .blank || token.kind == .string

theorem unbroken (member : token ∈ (Stream.ofText text).tokens)
    (more : token.kind.isFinal = false) (other : mayBreak token = false) :
    token.text.toList.count '\n' = 0 := by
  obtain ⟨depth, ahead, lexeme, first, kind, taken⟩ := StreamTiling.token_first member
  have content : lexeme.kind ≠ .blank := by
    intro blank
    simp [mayBreak, kind, blank] at other
  rw [kind] at more
  rw [taken, String.toList_ofList]
  exact List.count_eq_zero_of_not_mem (LexemeSpelling.first_newline first more content)

/-- It is enough to count the newlines of blanks and of strings on the way: no other token before
the last holds one. -/
theorem line_counted {front back : List Token}
    (split : (Stream.ofText text).tokens = front ++ token :: back) :
    token.line = 1 + (StreamTiling.spelled (front.filter mayBreak)).count '\n' := by
  have body := StreamTiling.body_of_split split
  have counted : ∀ tokens : List Token, (∀ earlier ∈ tokens, earlier ∈ (Stream.ofText text).body) →
      (StreamTiling.spelled tokens).count '\n' =
        (StreamTiling.spelled (tokens.filter mayBreak)).count '\n' := by
    intro tokens inside
    induction tokens with
    | nil => rfl
    | cons earlier tokens ih =>
      obtain ⟨here, others⟩ := List.forall_mem_cons.mp inside
      rw [StreamTiling.spelled_cons, List.count_append, ih others]
      cases breaks : mayBreak earlier with
      | true =>
        rw [List.filter_cons_of_pos breaks, StreamTiling.spelled_cons, List.count_append]
      | false =>
        have more := (StreamTiling.read_final Mark.start text.toList).1 earlier here
        rw [List.filter_cons_of_neg (by simp [breaks]),
          unbroken (List.mem_append_left _ here) more breaks, Nat.zero_add]
  rw [← counted front fun earlier member => body ▸ List.mem_append_left _ member]
  exact (StreamTiling.read_place Mark.start text.toList front back token split).2

/-! ## Diagnostics -/

variable {name : String} {handle : Nat} {diagnostic : Diagnostic}

/-- A fault that takes over a text takes over that of its token. -/
theorem blames_quoted {spelled : String} (blames : Blames token fault)
    (fits : LexemeSpelling.Fits token.kind token.text) (quoted : quoted? fault = some spelled) :
    spelled = token.text := by
  cases blames with
  | @lexical _ fault kind =>
    cases fault with
    | malformedNumber number =>
      cases quoted
      rw [kind] at fits
      exact fits.symm
    | unrecognized | misplaced | unterminatedString | unmatchedParenthesis | unfinished =>
      cases quoted
  | grammar sound => cases quoted
  | literal sound quotes => exact Option.some.inj (quoted.symm.trans quotes)

/-- Only the last token of a text can be a fault. -/
theorem fault_last {fault : LexicalFault} (member : token ∈ (Stream.ofText text).tokens)
    (kind : token.kind = .fault fault) : token = (Stream.ofText text).last := by
  rcases List.mem_append.mp member with inside | last
  · exact absurd kind (((StreamTiling.stream_tiles text).body_more token inside).2 fault)
  · exact List.mem_singleton.mp last

theorem parse_error (refused : Tree.parse handle name text = .error diagnostic) : ∃ refusal,
    (Stream.ofText text).statement = .error refusal ∧
      diagnostic = .ofRefusal ⟨handle, name, text⟩ refusal := by
  unfold Tree.parse Tree.ofSource at refused
  rw [readStatement_eq_statement] at refused
  split at refused <;> cases refused
  exact ⟨_, ‹_›, rfl⟩

/-- All that a diagnostic says of a named text is true of the token. -/
structure Reports (name text : String) (diagnostic : Diagnostic) (token : Token) : Prop where
  member : token ∈ (Stream.ofText text).tokens
  name_eq : diagnostic.name = name
  pos_eq : diagnostic.pos = token.pos
  line_eq : diagnostic.line = token.line
  /-- The line is what the blanks and the strings before the token have advanced it to. -/
  line_counted : ∃ front back, (Stream.ofText text).tokens = front ++ token :: back ∧
    diagnostic.line = 1 + (StreamTiling.spelled (front.filter mayBreak)).count '\n'
  place : Location.resolve text diagnostic.pos = ⟨diagnostic.line, diagnostic.column⟩
  lexical : diagnostic.fault.category = .lexical ↔
    token = (Stream.ofText text).last ∧ ∃ fault, token.kind = .fault fault
  fault_eq : ∀ fault, token.kind = .fault fault → diagnostic.fault = .lexical fault
  quoted : ∀ spelled, quoted? diagnostic.fault = some spelled →
    String.Pos.Raw.extract text ⟨token.pos⟩ ⟨StreamTiling.stop token⟩ = spelled

/-- **Diagnostics are faithful.** A diagnostic of a text reports one token of the text's own stream:
its place by either way of counting, its own fault if it is one, and its own text where the text is
quoted. -/
theorem diagnostic_reports_token {handle : Nat} {name text : String} {diagnostic : Diagnostic}
    (refused : Tree.parse handle name text = .error diagnostic) :
    ∃ token, Reports name text diagnostic token := by
  obtain ⟨refusal, failed, rfl⟩ := parse_error refused
  obtain ⟨member, blames⟩ := statement_blames failed
  obtain ⟨front, back, split⟩ := List.append_of_mem member
  refine ⟨refusal.token, member, rfl, rfl, rfl, ⟨front, back, split, line_counted split⟩, ?_, ?_,
    ?_, ?_⟩
  · exact congrArg (Location.mk · _) (resolve_line member)
  · constructor
    · intro lexical
      obtain ⟨own, kind⟩ := blames_lexical blames lexical
      exact ⟨fault_last member kind, own, kind⟩
    · rintro ⟨-, own, kind⟩
      exact congrArg Fault.category (blames_own blames kind)
  · exact fun own kind => blames_own blames kind
  · intro spelled quoted
    rw [blames_quoted blames (StreamTiling.token_fits member) quoted]
    exact (StreamTiling.token_slice member).2.2

theorem diagnostic_reports_number : ∃ diagnostic token,
    Tree.parse 0 "root" "eq(\"a b\",\n  18446744073709551616)" = .error diagnostic ∧
      diagnostic.fault = .literal (.integerOverflow "18446744073709551616") ∧
      diagnostic.line = 2 ∧ diagnostic.column = 3 ∧
      Reports "root" "eq(\"a b\",\n  18446744073709551616)" diagnostic token := by
  have found : (match Tree.parse 0 "root" "eq(\"a b\",\n  18446744073709551616)" with
      | .ok _ => none
      | .error diagnostic => some (diagnostic.fault, diagnostic.line, diagnostic.column)) =
        some (.literal (.integerOverflow "18446744073709551616"), 2, 3) := by
    decide +kernel
  cases parsed : Tree.parse 0 "root" "eq(\"a b\",\n  18446744073709551616)" with
  | ok tree =>
    rw [parsed] at found
    cases found
  | error diagnostic =>
    rw [parsed] at found
    obtain ⟨token, reports⟩ := diagnostic_reports_token parsed
    simp only [Option.some.injEq, Prod.mk.injEq] at found
    exact ⟨diagnostic, token, rfl, found.1, found.2.1, found.2.2, reports⟩

end ResourceQuery.DiagnosticFidelity
