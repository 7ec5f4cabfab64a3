import Mathlib.Data.List.Forall2
import Mathlib.Data.List.ReduceOption
import ResourceQuery.Proofs.DiagnosticFidelity
import ResourceQuery.Token.Listing

/-! What the listing of the tokens of a text looks like. Nothing that is written in a line holds a
newline: not the location and not the kind, nor the token, whether it is shown as a reserved word,
in quotes or by the message of its fault. So the lines of the listing are those that its newlines
part, there is one for each token, and none is left open (`one_line_each`). -/
namespace ResourceQuery.TokenListing
open ResourceQuery.Text DiagnosticFidelity LexemeSpelling

/-- The text holds no newline. -/
def OneLine (text : String) : Prop := '\n' ∉ text.toList

@[simp] theorem oneLine_append {front back : String} :
    OneLine (front ++ back) ↔ OneLine front ∧ OneLine back := by
  simp [OneLine, String.toList_append]

@[simp] theorem oneLine_ofList {cs : List Char} : OneLine (String.ofList cs) ↔ '\n' ∉ cs := by
  rw [OneLine, String.toList_ofList]

instance (text : String) : Decidable (OneLine text) :=
  inferInstanceAs (Decidable ('\n' ∉ text.toList))

/-! ## Numbers -/

theorem mem_digits {base value : Nat} {c : Char} (large : 1 < base)
    (member : c ∈ Nat.toDigits base value) : ∃ digit < base, c = digit.digitChar := by
  induction value using Nat.strongRecOn with
  | ind value ih =>
    rcases Nat.lt_or_ge value base with small | more
    · rw [Nat.toDigits_of_lt_base small, List.mem_singleton] at member
      exact ⟨value, small, member⟩
    · have fewer : value / base < value := Nat.div_lt_self (by omega) large
      rw [Nat.toDigits_of_base_le large more, List.mem_append, List.mem_singleton] at member
      rcases member with earlier | last
      · exact ih _ fewer earlier
      · exact ⟨value % base, Nat.mod_lt _ (by omega), last⟩

/-- No digit is a newline, be it decimal or hexadecimal, in lower or in upper case. -/
theorem digit_no_newline : ∀ digit < 16,
    digit.digitChar ≠ '\n' ∧ digit.digitChar.toUpper ≠ '\n' := by
  decide +kernel

theorem natural_oneLine (value : Nat) : OneLine (toString value) := by
  change OneLine value.repr
  rw [Nat.repr_eq_ofList_toDigits, oneLine_ofList]
  intro member
  obtain ⟨digit, small, newline⟩ := mem_digits (by decide) member
  exact (digit_no_newline digit (by omega)).1 newline.symm

theorem location_oneLine (location : Location) : OneLine location.render := by
  simp only [Location.render, oneLine_append]
  exact ⟨⟨natural_oneLine _, by decide⟩, natural_oneLine _⟩

/-! ## Faults -/

theorem escaped_no_newline (c : Char) : '\n' ∉ escaped c := by
  by_cases newline : c = '\n'
  · subst newline
    decide
  unfold escaped
  repeat' split
  any_goals decide
  · simp only [List.mem_append, not_or]
    refine ⟨⟨by decide, fun member => ?_⟩, by decide⟩
    obtain ⟨digit, small, same⟩ := mem_digits (by decide) member
    exact (digit_no_newline digit small).1 same.symm
  · rw [List.mem_singleton]
    exact Ne.symm newline

theorem quoted_oneLine (text : String) : OneLine (quoted text) := by
  simp only [quoted, oneLine_ofList, List.mem_append, List.mem_flatMap]
  rintro ((quote | ⟨c, -, inside⟩) | quote)
  · simp at quote
  · exact escaped_no_newline c inside
  · simp at quote

theorem codePoint_oneLine (c : Char) : OneLine (codePointName c) := by
  simp only [codePointName, oneLine_append, oneLine_ofList, List.mem_append, List.mem_map]
  refine ⟨by decide, ?_⟩
  rintro (zero | ⟨digit, member, upper⟩)
  · exact absurd (List.eq_of_mem_replicate zero) (by decide)
  · obtain ⟨value, small, rfl⟩ := mem_digits (by decide) member
    exact (digit_no_newline value small).2 upper

/-- A newline is a control character, so it is not shown itself. -/
theorem character_oneLine (c : Char) : OneLine (characterName c) := by
  unfold characterName
  split
  · exact codePoint_oneLine c
  · rename_i shown
    have other : c ≠ '\n' := by
      rintro rfl
      exact shown (by decide)
    simp only [oneLine_append]
    refine ⟨⟨⟨codePoint_oneLine c, by decide⟩, ?_⟩, by decide⟩
    rw [OneLine, String.toList_singleton, List.mem_singleton]
    exact other.symm

theorem message_oneLine (fault : LexicalFault) : OneLine fault.message := by
  cases fault with
  | unrecognized c | misplaced c =>
    exact oneLine_append.mpr ⟨by decide, character_oneLine c⟩
  | malformedNumber number => exact oneLine_append.mpr ⟨by decide, quoted_oneLine number⟩
  | unmatchedParenthesis => exact oneLine_append.mpr ⟨by decide, character_oneLine ')'⟩
  | unterminatedString | unfinished => decide

/-! ## Lines -/

variable {text name : String} {token : Token} {handle : Nat} {diagnostic : Diagnostic}

theorem keyword_oneLine (operator : Operator) : OneLine operator.keyword := by
  cases operator <;> decide

theorem name_oneLine (kind : TokenKind) : OneLine kind.name := by
  cases kind with
  | operator operator => exact keyword_oneLine operator
  | fault fault => simp [TokenKind.name, OneLine]
  | identifier | string | bool | number | null | leftParen | rightParen | comma | blank | finish =>
    decide

/-- Only reserved words are shown as they are; their texts are known from their kinds. -/
theorem describe_oneLine (fits : Fits token.kind token.text) : OneLine token.describe := by
  unfold Token.describe
  split
  · decide
  · exact message_oneLine _
  · rename_i operator kind
    have spelled : token.text = operator.keyword := by simpa [kind, Fits] using fits
    simp only [spelled, oneLine_append]
    exact ⟨⟨by decide, keyword_oneLine operator⟩, by decide⟩
  · rename_i kind
    have spelled : token.text = "null" := by simpa [kind, Fits] using fits
    rw [spelled]
    decide
  · split
    · exact quoted_oneLine _
    · exact oneLine_append.mpr ⟨quoted_oneLine _, by decide⟩

theorem padRight_eq (width : Nat) (text : String) :
    padRight width text =
      text ++ String.ofList (List.replicate (width - text.length) ' ') := by
  unfold padRight
  rw [String.pushn_eq_repeat_push]
  generalize width - text.length = spaces
  induction spaces with
  | zero => simp [Nat.repeat]
  | succ spaces ih =>
    rw [Nat.repeat, ih, ← String.toList_inj]
    simp [String.toList_append, List.replicate_succ']

theorem padRight_oneLine {width : Nat} (plain : OneLine text) : OneLine (padRight width text) := by
  rw [padRight_eq, oneLine_append, oneLine_ofList]
  exact ⟨plain, fun member => absurd (List.eq_of_mem_replicate member) (by decide)⟩

theorem listingLine_oneLine (fits : Fits token.kind token.text) :
    OneLine (token.listingLine text) := by
  simp only [Token.listingLine, oneLine_append]
  exact ⟨⟨⟨⟨padRight_oneLine (location_oneLine _), by decide⟩,
    padRight_oneLine (name_oneLine _)⟩, by decide⟩, describe_oneLine fits⟩

/-! ## The whole listing -/

/-- The line of a token begins with the token's location, in which the line is the token's own. -/
structure LineOf (text : String) (token : Token) (line : String) : Prop where
  oneLine : OneLine line
  begins : ∃ rest, line = (Location.resolve text token.pos).render ++ " " ++ rest
  line_eq : (Location.resolve text token.pos).line = token.line

theorem padRight_space (width : Nat) (text : String) :
    padRight width text ++ " " =
      text ++ " " ++ String.ofList (List.replicate (width - text.length) ' ') := by
  rw [padRight_eq, ← String.toList_inj]
  simp [String.toList_append, ← List.replicate_succ', List.replicate_succ]

/-- A line begins with the location of its token and ends with the token. -/
theorem listingLine_eq (text : String) (token : Token) : ∃ between,
    token.listingLine text =
      (Location.resolve text token.pos).render ++ " " ++ between ++ token.describe := by
  rw [Token.listingLine, padRight_space]
  generalize String.ofList _ = spaces
  exact ⟨spaces ++ padRight 12 token.kind.name ++ " ", by simp only [String.append_assoc]⟩

theorem lineOf_token (member : token ∈ (Stream.ofText text).tokens) :
    LineOf text token (token.listingLine text) := by
  obtain ⟨between, whole⟩ := listingLine_eq text token
  exact ⟨listingLine_oneLine (StreamTiling.token_fits member),
    ⟨between ++ token.describe, by rw [whole, String.append_assoc]⟩, resolve_line member⟩

/-- A newline behind every line parts the lines, and leaves nothing behind the last of them. -/
theorem join_eq_intercalate (lines : List String) :
    (String.join (lines.map (· ++ "\n"))).toList =
      ['\n'].intercalate (lines.map String.toList ++ [[]]) := by
  rw [String.toList_join]
  induction lines with
  | nil => rfl
  | cons line lines ih =>
    rw [List.map_cons, List.map_cons, List.cons_append,
      List.intercalate_cons_of_ne_nil (by simp), ← ih]
    simp [String.toList_append]

theorem count_newlines {lines : List String} (each : ∀ line ∈ lines, OneLine line) :
    (String.join (lines.map (· ++ "\n"))).toList.count '\n' = lines.length := by
  rw [String.toList_join]
  induction lines with
  | nil => rfl
  | cons line lines ih =>
    obtain ⟨first, others⟩ := List.forall_mem_cons.mp each
    simp [List.count_eq_zero_of_not_mem first, ih others]

/-- A lexer that is asked often enough yields the tokens of its text, and nothing else. -/
theorem tokens_yielded {n : Nat} (enough : (Stream.ofText text).tokens.length ≤ n) :
    ((Lexer.ofText text).answers (List.replicate n .ending)).reduceOption =
      (Stream.ofText text).tokens := by
  rw [StreamTiling.answers_replicate, List.take_append, List.take_of_length_le (by simpa),
    List.reduceOption_append, List.take_replicate, List.reduceOption_replicate_none]
  simp [List.reduceOption]

/-- The line of the token that a text is refused for shows what is wrong with it. -/
theorem refused_line (refused : Tree.parse handle name text = .error diagnostic)
    (lexical : diagnostic.fault.category = .lexical) : ∃ between,
    (Stream.ofText text).last.listingLine text =
      (Location.mk diagnostic.line diagnostic.column).render ++ " " ++ between ++
        diagnostic.fault.message := by
  obtain ⟨refusal, failed, rfl⟩ := parse_error refused
  obtain ⟨member, blames⟩ := statement_blames failed
  obtain ⟨own, kind⟩ := blames_lexical blames lexical
  have same : refusal.fault = .lexical own := blames_own blames kind
  have shown : refusal.token.describe = own.message := by rw [Token.describe, kind]
  have place : Location.resolve text refusal.token.pos =
      ⟨refusal.token.line, (Location.resolve text refusal.token.pos).column⟩ :=
    congrArg (Location.mk · _) (resolve_line member)
  obtain ⟨between, whole⟩ := listingLine_eq text refusal.token
  rw [shown, place] at whole
  refine ⟨between, ?_⟩
  rw [← fault_last member kind, whole]
  change _ = _ ++ refusal.fault.message
  rw [same]
  rfl

/-- **A listing has one line for each token.** Its lines, as its newlines part them, hold no
newline; each begins with the location of its token, on the token's own line, and nothing is behind
the last newline. There are as many as a lexer yields tokens. Where a text is refused for a token
that is none, the last line shows where that is and what is wrong. -/
theorem one_line_each (text : String) : ∃ lines : List String,
    tokenListing text = String.join (lines.map (· ++ "\n")) ∧
    (tokenListing text).toList.splitOn '\n' = lines.map String.toList ++ [[]] ∧
    List.Forall₂ (LineOf text) (Stream.ofText text).tokens lines ∧
    (tokenListing text).toList.count '\n' = (Stream.ofText text).tokens.length ∧
    (∀ n, (Stream.ofText text).tokens.length ≤ n →
      ((Lexer.ofText text).answers (List.replicate n .ending)).reduceOption =
        (Stream.ofText text).tokens) ∧
    ∀ handle name diagnostic, Tree.parse handle name text = .error diagnostic →
      diagnostic.fault.category = .lexical → ∃ last between, lines.getLast? = some last ∧
        last = (Location.mk diagnostic.line diagnostic.column).render ++ " " ++ between ++
          diagnostic.fault.message := by
  have each : ∀ line ∈ (Stream.ofText text).tokens.map (·.listingLine text), OneLine line := by
    intro line inside
    obtain ⟨token, member, rfl⟩ := List.mem_map.mp inside
    exact (lineOf_token member).oneLine
  have listing : tokenListing text =
      String.join (((Stream.ofText text).tokens.map (·.listingLine text)).map (· ++ "\n")) := by
    rw [tokenListing, List.map_map]
    rfl
  refine ⟨(Stream.ofText text).tokens.map (·.listingLine text), listing, ?_, ?_, ?_,
    fun n enough => tokens_yielded enough, ?_⟩
  · rw [listing, join_eq_intercalate]
    refine List.splitOn_intercalate '\n' (fun cs member => ?_) (by simp)
    rcases List.mem_append.mp member with inside | last
    · obtain ⟨line, listed, rfl⟩ := List.mem_map.mp inside
      exact each line listed
    · rw [List.mem_singleton.mp last]
      exact List.not_mem_nil
  · rw [List.forall₂_map_right_iff]
    exact List.forall₂_same.mpr fun token member => lineOf_token member
  · rw [listing, count_newlines each, List.length_map]
  · intro handle name diagnostic refused lexical
    obtain ⟨between, shown⟩ := refused_line refused lexical
    exact ⟨_, between, by simp [Stream.tokens], shown⟩

theorem one_line_each_number :
    let text := "eq(a,\n 1x\n)"
    ∃ lines diagnostic, tokenListing text = String.join (lines.map (· ++ "\n")) ∧
      lines.length = 6 ∧ List.Forall₂ (LineOf text) (Stream.ofText text).tokens lines ∧
      Tree.parse 0 "root" text = .error diagnostic ∧
      diagnostic.fault = .lexical (.malformedNumber "1x") ∧
      ∃ last between, lines.getLast? = some last ∧
        last = (Location.mk 2 2).render ++ " " ++ between ++ diagnostic.fault.message := by
  intro text
  have found : (match Tree.parse 0 "root" text with
      | .ok _ => none
      | .error diagnostic => some (diagnostic.fault, diagnostic.line, diagnostic.column)) =
        some (.lexical (.malformedNumber "1x"), 2, 2) := by
    decide +kernel
  have count : (Stream.ofText text).tokens.length = 6 := by decide +kernel
  obtain ⟨lines, listing, -, each, -, -, faults⟩ := one_line_each text
  cases refused : Tree.parse 0 "root" text with
  | ok tree =>
    rw [refused] at found
    cases found
  | error diagnostic =>
    rw [refused] at found
    simp only [Option.some.injEq, Prod.mk.injEq] at found
    obtain ⟨fault, line, column⟩ := found
    obtain ⟨last, between, ends, shown⟩ := faults 0 "root" diagnostic refused (by rw [fault]; rfl)
    rw [line, column] at shown
    exact ⟨lines, diagnostic, listing, each.length_eq ▸ count, each, rfl, fault, last, between,
      ends, shown⟩

/-- A newline inside a token is not one of the listing's. -/
example : tokenListing "eq(\n\"a\nb\")" =
    "1:1      eq           <eq>\n1:3      (            \"(\"\n1:4      whitespace   \"\\n\"\n" ++
      "2:1      error        unterminated quoted string\n" := by
  decide +kernel

end ResourceQuery.TokenListing
