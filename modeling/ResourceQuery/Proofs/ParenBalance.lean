import ResourceQuery.Proofs.TokenForms

/-! The account of parentheses. What a lexer reads depends on how many parentheses are open, and
that is the number of left ones among the tokens before less the number of right ones. So the right
ones never are more, and a text ends, or fails at a parenthesis, as these two numbers say
(`parentheses_accounted`). The characters of strings have no part in them. -/
namespace ResourceQuery.ParenBalance
open CanonicalRoundTrip LookAhead StreamTiling TokenForms ViablePrefix
open Grammar (opened closed opened_append closed_append)

variable {text : String} {front back tokens : List Token} {token : Token}
variable {depth : Nat} {cs run : List Char} {kind : TokenKind}

/-! ## Where reading comes to an end -/

/-- What is read has a form or is a fault, whatever stands before it. -/
theorem read_here (depth : Nat) (cs : List Char) : ∃ run behind, cs = run ++ behind ∧
    (Lexeme.read depth cs).taken = run ∧ Lexes depth [] (Lexeme.read depth cs).kind run behind :=
  ⟨_, _, (Lexeme.taken_append_rest depth cs).symm, rfl, read_lexes depth (seam_nil cs)⟩

theorem read_kind_iff : (Lexeme.read depth cs).kind = kind ↔
    ∃ run behind, cs = run ++ behind ∧ Lexes depth [] kind run behind := by
  constructor
  · rintro rfl
    obtain ⟨run, behind, parts, -, lexes⟩ := read_here depth cs
    exact ⟨run, behind, parts, lexes⟩
  · rintro ⟨run, behind, rfl, lexes⟩
    exact congrArg Lexeme.kind (lexes_read lexes)

theorem read_finish : (Lexeme.read depth cs).kind = .finish ↔ cs = [] ∧ depth = 0 := by
  rw [read_kind_iff]
  constructor
  · rintro ⟨run, behind, rfl, lexes⟩
    cases lexes with
    | token form => cases form_more form
    | finish closed => exact ⟨rfl, closed⟩
  · rintro ⟨rfl, closed⟩
    exact ⟨[], [], rfl, .finish closed⟩

theorem read_unfinished :
    (Lexeme.read depth cs).kind = .fault .unfinished ↔ cs = [] ∧ depth ≠ 0 := by
  rw [read_kind_iff]
  constructor
  · rintro ⟨run, behind, rfl, lexes⟩
    cases lexes with
    | token form => cases form_more form
    | unfinished opened => exact ⟨rfl, opened⟩
  · rintro ⟨rfl, opened⟩
    exact ⟨[], [], rfl, .unfinished opened⟩

theorem read_unmatched : (Lexeme.read depth cs).kind = .fault .unmatchedParenthesis ↔
    (∃ rest, cs = ')' :: rest) ∧ depth = 0 := by
  rw [read_kind_iff]
  constructor
  · rintro ⟨run, behind, rfl, lexes⟩
    cases lexes with
    | token form => cases form_more form
    | unmatched closed => exact ⟨⟨behind, rfl⟩, closed⟩
  · rintro ⟨⟨rest, rfl⟩, closed⟩
    exact ⟨[')'], rest, rfl, .unmatched closed⟩

/-! ## The numbers of parentheses -/

/-- A token is read behind the tokens in front of it, where as many parentheses are open as these
leave open. -/
theorem token_read (split : (Stream.ofText text).tokens = front ++ token :: back) :
    closed front ≤ opened front ∧ token.pos = Text.utf8Length (spelled front) ∧
      ∃ rest, text.toList = spelled front ++ rest ∧
        token.kind = (Lexeme.read (opened front - closed front) rest).kind ∧
        token.text.toList = (Lexeme.read (opened front - closed front) rest).taken := by
  obtain ⟨rest, whole, here, -⟩ := read_front Mark.start text.toList front back token split
  obtain ⟨place, -⟩ := read_place Mark.start text.toList front back token split
  have level := read_depth Mark.start text.toList front back token split
  have start : Mark.start.offset = 0 ∧ Mark.start.depth = 0 := ⟨rfl, rfl⟩
  have depth : (pastAll Mark.start front).depth = opened front - closed front := by omega
  rw [depth] at here
  refine ⟨by omega, by omega, rest, whole, congrArg Token.kind here, ?_⟩
  rw [here, Mark.token, String.toList_ofList]

/-- A beginning of the tokens in front of the last has a token behind it. -/
theorem prefix_splits (begins : front <+: (Stream.ofText text).body) :
    ∃ token back, (Stream.ofText text).tokens = front ++ token :: back := by
  obtain ⟨others, whole⟩ := begins
  rw [Stream.tokens, ← whole, List.append_assoc]
  cases others with
  | nil => exact ⟨_, _, rfl⟩
  | cons token others => exact ⟨_, _, rfl⟩

theorem last_split (text : String) : (Stream.ofText text).tokens =
    (Stream.ofText text).body ++ (Stream.ofText text).last :: [] := rfl

/-- The last token is no parenthesis. -/
theorem counts_body (text : String) :
    opened (Stream.ofText text).tokens = opened (Stream.ofText text).body ∧
      closed (Stream.ofText text).tokens = closed (Stream.ofText text).body := by
  have final : (Stream.ofText text).last.kind.isFinal = true :=
    (read_final Mark.start text.toList).2
  have plain : opened [(Stream.ofText text).last] = 0 ∧ closed [(Stream.ofText text).last] = 0 :=
    plain_single (fun kind => by simp [kind, TokenKind.isFinal] at final)
      (fun kind => by simp [kind, TokenKind.isFinal] at final)
  rw [last_split, opened_append, closed_append, plain.1, plain.2]
  exact ⟨rfl, rfl⟩

theorem closed_le_opened (begins : front <+: (Stream.ofText text).tokens) :
    closed front ≤ opened front := by
  rcases List.prefix_concat_iff.mp begins with rfl | inside
  · obtain ⟨left, right⟩ := counts_body text
    rw [last_split] at left right
    rw [left, right]
    exact (token_read (last_split text)).1
  · obtain ⟨token, back, split⟩ := prefix_splits inside
    exact (token_read split).1

/-! ## The last token -/

/-- All characters have been read when the last token comes up. -/
def ReachesEnd (text : String) : Prop := spelled (Stream.ofText text).body = text.toList

/-- A right parenthesis stands behind some tokens, where a token starts, and these tokens leave none
open. -/
structure Stray (text : String) (front : List Token) (behind : List Char) : Prop where
  tokens : front <+: (Stream.ofText text).body
  character : text.toList = spelled front ++ ')' :: behind
  even : opened front = closed front

theorem last_read (text : String) : ∃ rest,
    text.toList = spelled (Stream.ofText text).body ++ rest ∧
      (ReachesEnd text ↔ rest = []) ∧
      (Stream.ofText text).last.kind =
        (Lexeme.read (opened (Stream.ofText text).tokens - closed (Stream.ofText text).tokens)
          rest).kind := by
  obtain ⟨-, -, rest, whole, kind, -⟩ := token_read (last_split text)
  obtain ⟨left, right⟩ := counts_body text
  rw [left, right]
  refine ⟨rest, whole, ?_, kind⟩
  rw [ReachesEnd, whole, eq_comm]
  exact List.append_right_eq_self

theorem finish_iff (text : String) : (Stream.ofText text).last.kind = .finish ↔
    ReachesEnd text ∧ opened (Stream.ofText text).tokens = closed (Stream.ofText text).tokens := by
  obtain ⟨rest, -, ends, kind⟩ := last_read text
  have most := closed_le_opened (List.prefix_refl (Stream.ofText text).tokens)
  rw [kind, read_finish, ends]
  exact and_congr_right' (by omega)

theorem unfinished_iff (text : String) : (Stream.ofText text).last.kind = .fault .unfinished ↔
    ReachesEnd text ∧ closed (Stream.ofText text).tokens < opened (Stream.ofText text).tokens := by
  obtain ⟨rest, -, ends, kind⟩ := last_read text
  rw [kind, read_unfinished, ends]
  exact and_congr_right' (by omega)

theorem end_place (ends : ReachesEnd text) :
    (Stream.ofText text).last.pos = text.utf8ByteSize := by
  obtain ⟨-, place, -⟩ := token_read (last_split text)
  rw [place, ends, utf8Length_toList]

/-- The token behind them is a fault, and so the last one. -/
theorem stray_last {behind : List Char} (stray : Stray text front behind) :
    front = (Stream.ofText text).body ∧
      (Stream.ofText text).last.kind = .fault .unmatchedParenthesis := by
  have fails (token : Token) (back : List Token)
      (split : (Stream.ofText text).tokens = front ++ token :: back) :
      token.kind = .fault .unmatchedParenthesis := by
    obtain ⟨-, -, rest, whole, kind, -⟩ := token_read split
    obtain rfl := List.append_cancel_left (whole.symm.trans stray.character)
    exact kind.trans (read_unmatched.mpr ⟨⟨behind, rfl⟩, by rw [stray.even, Nat.sub_self]⟩)
  obtain ⟨others, whole⟩ := stray.tokens
  cases others with
  | nil =>
    rw [List.append_nil] at whole
    exact ⟨whole, fails _ [] (by rw [whole]; rfl)⟩
  | cons token others =>
    -- Else the fault would be in front of the last token, where no fault is.
    have inside : token ∈ (Stream.ofText text).body := by
      rw [← whole]
      exact List.mem_append_right _ List.mem_cons_self
    have fault := fails token (others ++ [(Stream.ofText text).last]) (by
      rw [Stream.tokens, ← whole, List.append_assoc]
      rfl)
    have more := (read_final Mark.start text.toList).1 token inside
    rw [fault] at more
    cases more

theorem unmatched_iff (text : String) :
    (Stream.ofText text).last.kind = .fault .unmatchedParenthesis ↔
      ∃ front behind, Stray text front behind := by
  constructor
  · intro unmatched
    obtain ⟨rest, whole, -, kind⟩ := last_read text
    obtain ⟨⟨behind, rfl⟩, none⟩ := read_unmatched.mp (kind.symm.trans unmatched)
    have most := closed_le_opened (List.prefix_refl (Stream.ofText text).tokens)
    obtain ⟨left, right⟩ := counts_body text
    exact ⟨_, behind, List.prefix_refl _, whole, by omega⟩
  · rintro ⟨front, behind, stray⟩
    exact (stray_last stray).2

/-! ## Strings -/

theorem no_parentheses {p : Char → Prop} (all : ∀ c ∈ run, p c) (left : ¬ p '(')
    (right : ¬ p ')') : run.count '(' = 0 ∧ run.count ')' = 0 :=
  ⟨List.count_eq_zero_of_not_mem fun member => left (all _ member),
    List.count_eq_zero_of_not_mem fun member => right (all _ member)⟩

/-- Of all that is no string, the parentheses are the characters that are. -/
theorem form_counts (form : Form kind run) (other : kind ≠ .string) :
    run.count '(' = [kind].count .leftParen ∧ run.count ')' = [kind].count .rightParen := by
  cases form with
  | blank nonempty all => exact no_parentheses all (by simp [Blank]) (by simp [Blank])
  | word word whole =>
    have none := no_parentheses (p := fun c => isNameChar c = true)
      (fun c member => nameChar_iff.mpr (word.names c member)) (by decide) (by decide)
    rw [none.1, none.2]
    generalize String.ofList run = word at whole
    cases whole <;> exact ⟨rfl, rfl⟩
  | number nonempty form => exact no_parentheses (number_chars form) (by decide) (by decide)
  | string items => exact absurd rfl other
  | leftParen | rightParen | comma => decide

theorem token_form (member : token ∈ (Stream.ofText text).tokens)
    (more : token.kind.isFinal = false) : Form token.kind token.text.toList := by
  obtain ⟨front, back, split⟩ := List.append_of_mem member
  obtain ⟨-, -, rest, -, kind, taken⟩ := token_read split
  obtain ⟨run, behind, -, same, lexes⟩ := read_here (opened front - closed front) rest
  rw [← kind] at lexes
  rw [taken, same]
  generalize token.kind = kind at more lexes
  cases lexes with
  | token form => exact form
  | finish | unfinished | unmatched | unrecognized | misplaced | malformedNumber
  | unterminatedString => cases more

/-- The characters of the tokens that are no strings. -/
def outside (tokens : List Token) : List Char := spelled (tokens.filter (·.kind != .string))

theorem outside_counts (forms : ∀ token ∈ tokens, Form token.kind token.text.toList) :
    opened tokens = (outside tokens).count '(' ∧ closed tokens = (outside tokens).count ')' := by
  induction tokens with
  | nil => exact ⟨rfl, rfl⟩
  | cons token tokens ih =>
    obtain ⟨left, right⟩ := ih fun token member => forms token (List.mem_cons_of_mem _ member)
    rw [← List.singleton_append, opened_append, closed_append, left, right, outside, outside,
      List.filter_append, spelled_append, List.count_append, List.count_append]
    by_cases string : token.kind = .string
    · have plain : opened [token] = 0 ∧ closed [token] = 0 :=
        plain_single (by simp [string]) (by simp [string])
      simp [plain, string]
    · obtain ⟨one, one'⟩ := form_counts (forms token List.mem_cons_self) string
      simp [one, one', string, opened, closed]

/-- The kinds of tokens depend on the characters, and on how many parentheses are open. -/
theorem kinds_mark (mark mark' : Mark) (cs : List Char) (same : mark'.depth = mark.depth) :
    (Stream.read mark' cs).tokens.map Token.kind = (Stream.read mark cs).tokens.map Token.kind := by
  fun_induction Stream.read mark cs generalizing mark' with
  | case1 mark cs lexeme more ih =>
    have first : Lexeme.read mark'.depth cs = lexeme := by rw [same]
    have behind := ih (mark'.after lexeme) (by rw [Mark.after, Mark.after, same])
    rw [Stream.read_of_more first more, Stream.tokens_cons, Stream.tokens_cons, List.map_cons,
      List.map_cons, behind]
    rfl
  | case2 mark cs lexeme final =>
    have first : Lexeme.read mark'.depth cs = lexeme := by rw [same]
    rw [Stream.read_of_final first (Bool.eq_true_of_not_eq_false final)]
    rfl

theorem kinds_string (items : Items run) (mark : Mark) (rest : List Char) :
    (Stream.read mark ('"' :: (run ++ ['"']) ++ rest)).tokens.map Token.kind =
      .string :: (Stream.read mark rest).tokens.map Token.kind := by
  have lexes : Lexes mark.depth [] .string ('"' :: (run ++ ['"'])) rest :=
    .token (.string items) trivial (by simp)
  rw [Stream.read_of_more (lexes_read lexes) rfl, Stream.tokens_cons, List.map_cons]
  exact congrArg (List.cons _) (kinds_mark mark _ rest rfl)

theorem string_form {literal : List Char} (form : Form .string literal) :
    ∃ run, Items run ∧ literal = '"' :: (run ++ ['"']) := by
  cases form with
  | word word whole => cases whole
  | string items => exact ⟨_, items, rfl⟩

/-- The kinds of the tokens from a string on do not depend on what the string is. -/
theorem string_replaced (split : (Stream.ofText text).tokens = front ++ token :: back)
    (string : token.kind = .string) {rest : List Char}
    (whole : text.toList = spelled front ++ (token.text.toList ++ rest)) {literal : List Char}
    (form : Form .string literal) :
    (Stream.read Mark.start (spelled front ++ (literal ++ rest))).tokens.map Token.kind =
      (Stream.ofText text).tokens.map Token.kind := by
  obtain ⟨ahead, parts, -, again⟩ := read_front Mark.start text.toList front back token split
  obtain rfl := List.append_cancel_left (parts.symm.trans whole)
  have member : token ∈ (Stream.ofText text).tokens := by
    rw [split]
    exact List.mem_append_right _ List.mem_cons_self
  have own : Form .string token.text.toList := string ▸ token_form member (by rw [string]; rfl)
  have kinds {other : List Char} (form : Form .string other) :
      (Stream.read Mark.start (spelled front ++ (other ++ rest))).tokens.map Token.kind =
        front.map Token.kind ++ .string ::
          (Stream.read (pastAll Mark.start front) rest).tokens.map Token.kind := by
    obtain ⟨run, items, rfl⟩ := string_form form
    obtain ⟨run', items', same⟩ := string_form own
    -- Both literals start with a quote, so the tokens in front of them are the same.
    have reads := again ('"' :: (run ++ ['"']) ++ rest) (.inl (by rw [same]; rfl))
    rw [reads_tokens reads, List.map_append, kinds_string items]
  rw [kinds form, Stream.ofText, whole, kinds own]

/-! ## The account -/

/-- What the tokens of a text say about its parentheses. -/
structure Accounted (text : String) : Prop where
  /-- No more are closed than have been opened, at any time. -/
  never_negative : ∀ front, front <+: (Stream.ofText text).tokens → closed front ≤ opened front
  finish : (Stream.ofText text).last.kind = .finish ↔ ReachesEnd text ∧
    opened (Stream.ofText text).tokens = closed (Stream.ofText text).tokens
  unfinished : (Stream.ofText text).last.kind = .fault .unfinished ↔ ReachesEnd text ∧
    closed (Stream.ofText text).tokens < opened (Stream.ofText text).tokens
  end_place : ReachesEnd text → (Stream.ofText text).last.pos = text.utf8ByteSize
  unmatched : (Stream.ofText text).last.kind = .fault .unmatchedParenthesis ↔
    ∃ front behind, Stray text front behind
  stray_place : ∀ front behind, Stray text front behind → (Stream.ofText text).body = front ∧
    (Stream.ofText text).last.pos = Text.utf8Length (spelled front)
  /-- The parentheses that count are the characters that are not in strings. -/
  counted : ∀ front, front <+: (Stream.ofText text).body →
    opened front = (outside front).count '(' ∧ closed front = (outside front).count ')'
  /-- Whatever is in a string, the same tokens follow. -/
  strings : ∀ front token back rest literal,
    (Stream.ofText text).tokens = front ++ token :: back → token.kind = .string →
      text.toList = spelled front ++ (token.text.toList ++ rest) → Form .string literal →
        (Stream.ofText (String.ofList (spelled front ++ (literal ++ rest)))).tokens.map Token.kind =
          (Stream.ofText text).tokens.map Token.kind

/-- **Parentheses are accounted for.** Of the tokens up to any place, the right parentheses are no
more than the left ones. A text that is read up to its end ends there if they are as many, and is
unfinished there if they are fewer. A right parenthesis where they are as many is the fault that the
tokens end with. Strings have no part in this, whichever characters they are made of. -/
theorem parentheses_accounted (text : String) : Accounted text := by
  refine ⟨fun front => closed_le_opened, finish_iff text, unfinished_iff text, end_place,
    unmatched_iff text, fun front behind stray => ?_, fun front begins => ?_, ?_⟩
  · obtain ⟨body, -⟩ := stray_last stray
    subst body
    exact ⟨rfl, (token_read (last_split text)).2.1⟩
  · refine outside_counts fun token member => ?_
    have inside := begins.subset member
    exact token_form (List.mem_append_left _ inside)
      ((read_final Mark.start text.toList).1 token inside)
  · intro front token back rest literal split string whole form
    rw [Stream.ofText, String.toList_ofList]
    exact string_replaced split string whole form

/-- The last parenthesis has none to close, and it would have none behind any other string. -/
theorem parentheses_accounted_stray :
    let stream := Stream.ofText "in(\"((\",é))"
    stream.last.kind = .fault .unmatchedParenthesis ∧ stream.last.pos = 11 ∧
      (Stream.ofText "in(\"\\\")\",é))").tokens.map Token.kind = stream.tokens.map Token.kind := by
  intro stream
  have account := parentheses_accounted "in(\"((\",é))"
  have stray : Stray "in(\"((\",é))" stream.body [] :=
    ⟨List.prefix_refl _, by decide +kernel, by decide +kernel⟩
  have items : Items ['\\', '"', ')'] :=
    .escape (by decide) (.plain (by decide) (by decide) (by decide) .nil)
  have other := account.strings (stream.tokens.take 2) ⟨.string, "\"((\"", 3, 1⟩
    (stream.tokens.drop 3) ",é))".toList _ (by decide +kernel) rfl (by decide +kernel)
    (.string items)
  have spells : String.ofList (spelled (stream.tokens.take 2) ++
      ('"' :: (['\\', '"', ')'] ++ ['"']) ++ ",é))".toList)) = "in(\"\\\")\",é))" := by
    decide +kernel
  rw [spells] at other
  exact ⟨account.unmatched.mpr ⟨_, _, stray⟩,
    (account.stray_place _ _ stray).2.trans (by decide +kernel), other⟩

end ResourceQuery.ParenBalance
