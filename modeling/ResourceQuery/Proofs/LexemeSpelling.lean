import Mathlib.Data.List.TakeWhile
import ResourceQuery.Token.Lexeme

/-! What the characters of a lexeme are, as far as its kind decides it, and that the characters of
a word, a string or a number read as the same lexeme wherever they are followed by a comma, a
parenthesis or nothing. The canonical form of a statement has no other neighbours. -/
namespace ResourceQuery.LexemeSpelling
open Lexeme (readBlank readString readNumber readWord splitSign splitFraction splitNumber prepend)

/-- All that the first lexeme of the characters ahead can be. Each case is decided by the first
character, and says what else is known of that character. -/
inductive First (depth : Nat) : List Char → Lexeme → Prop where
  | ending : First depth [] ⟨if depth = 0 then .finish else .fault .unfinished, [], []⟩
  | blank (blank : isBlank c = true) : First depth (c :: cs) (readBlank (c :: cs))
  | string : First depth ('"' :: cs) ((readString cs).prepend ['"'])
  | number (starts : startsNumber c = true) : First depth (c :: cs) (readNumber (c :: cs))
  | leftParen : First depth ('(' :: cs) ⟨.leftParen, ['('], cs⟩
  | rightParen : First depth (')' :: cs)
      ⟨if depth = 0 then .fault .unmatchedParenthesis else .rightParen, [')'], cs⟩
  | comma : First depth (',' :: cs) ⟨.comma, [','], cs⟩
  | word (name : isNameChar c = true) (other : startsNumber c = false) :
      First depth (c :: cs) (readWord (c :: cs))
  | unrecognized (other : isNameChar c = false) :
      First depth (c :: cs) ⟨.fault (.unrecognized c), [c], cs⟩

theorem read_first (depth : Nat) (cs : List Char) : First depth cs (Lexeme.read depth cs) := by
  cases cs with
  | nil => exact .ending
  | cons c cs =>
    simp only [Lexeme.read]
    split
    · exact .blank ‹_›
    split
    · subst c
      exact .string
    split
    · exact .number ‹_›
    split
    · subst c
      exact .leftParen
    split
    · subst c
      exact .rightParen
    split
    · subst c
      exact .comma
    split
    · exact .word ‹_› (Bool.eq_false_iff.mpr ‹_›)
    · exact .unrecognized (Bool.eq_false_iff.mpr ‹_›)

variable {depth : Nat} {cs : List Char} {lexeme : Lexeme}

/-! ## Kinds and characters -/

/-- The text of a token of the kind, where the kind leaves no choice. A malformed number carries
its own text. -/
def Fits : TokenKind → String → Prop
  | .null, text => text = "null"
  | .bool, text => text = "true" ∨ text = "false"
  | .operator operator, text => text = operator.keyword
  | .leftParen, text => text = "("
  | .rightParen, text => text = ")"
  | .comma, text => text = ","
  | .fault (.malformedNumber number), text => text = number
  | _, _ => True

theorem word_fits (word : String) : Fits (.ofWord word) word := by
  unfold TokenKind.ofWord
  split
  · assumption
  split
  · assumption
  split
  · rename_i op found
    exact (Operator.keyword_of_ofKeyword? found).symm
  · trivial

theorem word_not_silent (word : String) :
    TokenKind.ofWord word ≠ .finish ∧ TokenKind.ofWord word ≠ .blank := by
  unfold TokenKind.ofWord
  repeat' split
  all_goals simp

/-- A word is what its characters say, unless it runs into a character that cannot follow it. -/
theorem read_word_cases (cs : List Char) :
    (readWord cs).taken = cs.takeWhile isNameChar ∧
      (readWord cs).rest = cs.dropWhile isNameChar ∧
      ((readWord cs).kind = .ofWord (String.ofList (cs.takeWhile isNameChar)) ∨
        ∃ c, (readWord cs).kind = .fault (.misplaced c)) := by
  unfold readWord
  dsimp only
  split
  · exact ⟨rfl, rfl, .inl rfl⟩
  · rename_i c rest behind
    split
    · exact ⟨rfl, rfl, .inl rfl⟩
    · exact ⟨rfl, rfl, .inr ⟨c, rfl⟩⟩

/-- A number ends before anything but a name; a name's first character belongs to the fault. -/
theorem read_number_cases (cs : List Char) :
    (readNumber cs).kind = .number ∧ (readNumber cs).taken = (splitNumber cs).1 ∧
        (readNumber cs).rest = (splitNumber cs).2 ∨
      (readNumber cs).kind = .fault (.malformedNumber (String.ofList (readNumber cs).taken)) := by
  unfold readNumber
  split
  · rename_i number parts
    exact .inl ⟨rfl, by rw [parts], by rw [parts]⟩
  · rename_i number c rest parts
    split
    · exact .inr rfl
    · exact .inl ⟨rfl, by rw [parts], by rw [parts]⟩

/-- A string, or the lack of its closing quote, is all that can come behind an opening quote. -/
theorem read_string_cases (cs : List Char) :
    (readString cs).kind = .string ∨ (readString cs).kind = .fault .unterminatedString := by
  fun_induction readString cs <;> simp_all [prepend]

theorem first_fits (first : First depth cs lexeme) :
    Fits lexeme.kind (String.ofList lexeme.taken) := by
  cases first with
  | ending => dsimp only; split <;> trivial
  | blank => trivial
  | @string cs =>
    change Fits (readString cs).kind _
    rcases read_string_cases cs with kind | kind <;> rw [kind] <;> trivial
  | @number c cs =>
    rcases read_number_cases (c :: cs) with ⟨kind, -, -⟩ | kind <;> rw [kind]
    · trivial
    · rfl
  | leftParen | comma => rfl
  | rightParen =>
    dsimp only
    split
    · trivial
    · rfl
  | @word c cs =>
    obtain ⟨taken, -, kind | ⟨next, kind⟩⟩ := read_word_cases (c :: cs)
    · rw [kind, taken]
      exact word_fits _
    · rw [kind]
      trivial
  | unrecognized => trivial

/-- The end is found only where nothing is ahead, and blanks are read only as far as they reach. -/
theorem first_silent (first : First depth cs lexeme)
    (silent : lexeme.kind = .finish ∨ lexeme.kind = .blank) : cs = [] ∨ lexeme = readBlank cs := by
  cases first with
  | ending => exact .inl rfl
  | blank => exact .inr rfl
  | @string cs =>
    change (readString cs).kind = .finish ∨ (readString cs).kind = .blank at silent
    rcases read_string_cases cs with kind | kind <;> simp [kind] at silent
  | @number c cs =>
    rcases read_number_cases (c :: cs) with ⟨kind, -, -⟩ | kind <;> simp [kind] at silent
  | @word c cs =>
    obtain ⟨-, -, kind | ⟨next, kind⟩⟩ := read_word_cases (c :: cs)
    · rw [kind] at silent
      exact absurd silent (not_or.mpr (word_not_silent _))
    · simp [kind] at silent
  | rightParen =>
    dsimp only at silent
    split at silent <;> simp at silent
  | leftParen | comma | unrecognized => simp at silent

theorem first_finish (first : First depth cs lexeme) (finish : lexeme.kind = .finish) :
    cs = [] := by
  rcases first_silent first (.inl finish) with nothing | same
  · exact nothing
  · rw [same] at finish
    cases finish

theorem first_blank (first : First depth cs lexeme) (blank : lexeme.kind = .blank) :
    lexeme = readBlank cs := by
  rcases first_silent first (.inr blank) with rfl | same
  · cases first with
    | ending =>
      dsimp only at blank
      split at blank <;> cases blank
  · exact same

/-! ## Numbers and strings by their form -/

/-- A sign, digits, a dot and digits again, each of which may be missing. -/
def NumberForm (number : List Char) : Prop :=
  ∃ sign whole fraction, number = sign ++ whole ++ fraction ∧
    (sign = [] ∨ sign = ['+'] ∨ sign = ['-']) ∧ (∀ c ∈ whole, c.isDigit = true) ∧
    (fraction = [] ∨ ∃ digits, fraction = '.' :: digits ∧ ∀ c ∈ digits, c.isDigit = true)

theorem split_sign_cases (cs : List Char) :
    (splitSign cs).1 = [] ∨ (splitSign cs).1 = ['+'] ∨ (splitSign cs).1 = ['-'] := by
  unfold splitSign
  split
  · exact .inr (.inl rfl)
  · exact .inr (.inr rfl)
  · exact .inl rfl

theorem split_fraction_cases (cs : List Char) :
    (splitFraction cs).1 = [] ∨
      ∃ digits, (splitFraction cs).1 = '.' :: digits ∧ ∀ c ∈ digits, c.isDigit = true := by
  unfold splitFraction
  split
  · exact .inr ⟨_, rfl, fun c member => List.mem_takeWhile_imp member⟩
  · exact .inl rfl

theorem split_number_form (cs : List Char) : NumberForm (splitNumber cs).1 :=
  ⟨_, _, _, rfl, split_sign_cases cs, fun _ member => List.mem_takeWhile_imp member,
    split_fraction_cases _⟩

/-- Nothing that could continue a word or a number comes next. -/
def Delimited (rest : List Char) : Prop :=
  ∀ c, rest.head? = some c → c = ',' ∨ c = '(' ∨ c = ')'

theorem delimited_comma (rest : List Char) : Delimited (',' :: rest) := by
  intro c head
  cases head
  exact .inl rfl

theorem delimited_leftParen (rest : List Char) : Delimited ('(' :: rest) := by
  intro c head
  cases head
  exact .inr (.inl rfl)

theorem delimited_rightParen (rest : List Char) : Delimited (')' :: rest) := by
  intro c head
  cases head
  exact .inr (.inr rfl)

/-- A class of characters ends at the first that is not in it. -/
theorem takeWhile_stopped {p : Char → Bool} {run rest : List Char} (all : ∀ c ∈ run, p c = true)
    (stop : ∀ c, rest.head? = some c → p c = false) :
    (run ++ rest).takeWhile p = run ∧ (run ++ rest).dropWhile p = rest := by
  rw [List.takeWhile_append_of_pos all, List.dropWhile_append_of_pos all]
  cases rest with
  | nil => simp
  | cons c rest => simp [stop c rfl]

/-- A class of characters without delimiters ends where it is delimited. -/
theorem delimited_takeWhile {p : Char → Bool} {run rest : List Char} (all : ∀ c ∈ run, p c = true)
    (delimited : Delimited rest) (comma : p ',' = false) (left : p '(' = false)
    (right : p ')' = false) :
    (run ++ rest).takeWhile p = run ∧ (run ++ rest).dropWhile p = rest := by
  refine takeWhile_stopped all fun c head => ?_
  rcases delimited c head with rfl | rfl | rfl
  · exact comma
  · exact left
  · exact right

theorem split_fraction_delimited {fraction rest : List Char}
    (form : fraction = [] ∨ ∃ digits, fraction = '.' :: digits ∧ ∀ c ∈ digits, c.isDigit = true)
    (delimited : Delimited rest) : splitFraction (fraction ++ rest) = (fraction, rest) := by
  obtain rfl | ⟨digits, rfl, all⟩ := form
  · cases rest with
    | nil => rfl
    | cons c rest => rcases delimited c rfl with rfl | rfl | rfl <;> rfl
  · have ends := delimited_takeWhile all delimited (by decide) (by decide) (by decide)
    simp only [List.cons_append, splitFraction, ends]

theorem digits_before_fraction {whole fraction rest : List Char}
    (all : ∀ c ∈ whole, c.isDigit = true)
    (form : fraction = [] ∨ ∃ digits, fraction = '.' :: digits ∧ ∀ c ∈ digits, c.isDigit = true)
    (delimited : Delimited rest) :
    (whole ++ (fraction ++ rest)).takeWhile Char.isDigit = whole ∧
      (whole ++ (fraction ++ rest)).dropWhile Char.isDigit = fraction ++ rest := by
  obtain rfl | ⟨digits, rfl, -⟩ := form
  · exact delimited_takeWhile all delimited (by decide) (by decide) (by decide)
  · rw [List.takeWhile_append_of_pos all, List.dropWhile_append_of_pos all]
    exact ⟨List.append_nil whole, rfl⟩

/-- What is behind the sign does not start with one. -/
theorem unsigned_head {whole fraction rest : List Char} (all : ∀ c ∈ whole, c.isDigit = true)
    (form : fraction = [] ∨ ∃ digits, fraction = '.' :: digits ∧ ∀ c ∈ digits, c.isDigit = true)
    (delimited : Delimited rest) :
    splitSign (whole ++ (fraction ++ rest)) = ([], whole ++ (fraction ++ rest)) := by
  have head : ∀ c, (whole ++ (fraction ++ rest)).head? = some c → c ≠ '+' ∧ c ≠ '-' := by
    intro c first
    cases whole with
    | cons digit whole =>
      cases first
      have digit := all c List.mem_cons_self
      constructor <;> rintro rfl <;> exact absurd digit (by decide)
    | nil =>
      obtain rfl | ⟨digits, rfl, -⟩ := form
      · rcases delimited c first with rfl | rfl | rfl <;> decide
      · cases first
        decide
  unfold splitSign
  split
  · exact absurd rfl (head '+' (by simp_all)).1
  · exact absurd rfl (head '-' (by simp_all)).2
  · rfl

/-- A number is the longest beginning of its form also where it is delimited. -/
theorem split_number_delimited {number rest : List Char} (form : NumberForm number)
    (delimited : Delimited rest) : splitNumber (number ++ rest) = (number, rest) := by
  obtain ⟨sign, whole, fraction, rfl, sign_form, all, fraction_form⟩ := form
  have first : splitSign (sign ++ (whole ++ (fraction ++ rest))) =
      (sign, whole ++ (fraction ++ rest)) := by
    obtain rfl | rfl | rfl := sign_form
    · rw [List.nil_append]
      exact unsigned_head all fraction_form delimited
    · rfl
    · rfl
  obtain ⟨taken, dropped⟩ := digits_before_fraction all fraction_form delimited
  simp only [splitNumber, List.append_assoc, first, taken, dropped,
    split_fraction_delimited fraction_form delimited]

/-- A string that is closed is closed at the same quote, whatever comes behind it. -/
theorem read_string_closed (cs : List Char) (closed : (readString cs).kind = .string) :
    ∀ rest, readString ((readString cs).taken ++ rest) =
      ⟨.string, (readString cs).taken, rest⟩ := by
  fun_induction readString cs with
  | case2 cs => exact fun rest => rfl
  | case6 c cs newline ih =>
    intro rest
    have inner := ih closed rest
    simp_all [prepend, readString]
  | case7 c cs quote newline last broken escaped ih =>
    intro rest
    have inner := ih closed rest
    have plain : c ≠ '\\' := by
      rintro rfl
      cases cs with
      | nil => exact last rfl rfl
      | cons next cs => exact escaped next cs rfl rfl
    simp_all [prepend, readString]
  | case1 | case3 | case4 | case5 => cases closed

/-! ## Newlines -/

theorem read_string_newline (cs : List Char) (closed : (readString cs).kind = .string) :
    '\n' ∉ (readString cs).taken := by
  fun_induction readString cs with
  | case2 cs => simp
  | case6 c cs newline ih =>
    have inner := ih closed
    simp_all [prepend, eq_comm]
  | case7 c cs quote newline last broken escaped ih =>
    have inner := ih closed
    simp_all [prepend, eq_comm]
  | case1 | case3 | case4 | case5 => cases closed

theorem number_newline {number : List Char} (form : NumberForm number) : '\n' ∉ number := by
  obtain ⟨sign, whole, fraction, rfl, sign_form, all, fraction_form⟩ := form
  have plain : ∀ row : List Char, (∀ c ∈ row, c.isDigit = true) → '\n' ∉ row :=
    fun row digits member => absurd (digits '\n' member) (by decide)
  simp only [List.mem_append, not_or]
  refine ⟨⟨?_, plain whole all⟩, ?_⟩
  · rcases sign_form with rfl | rfl | rfl <;> decide
  · obtain rfl | ⟨digits, rfl, digits_only⟩ := fraction_form
    · decide
    · simpa using plain digits digits_only

/-- Of the tokens behind which more follow, only blanks hold newlines: strings, too, stay on the
line that they start on. -/
theorem first_newline (first : First depth cs lexeme) (more : lexeme.kind.isFinal = false)
    (other : lexeme.kind ≠ .blank) : '\n' ∉ lexeme.taken := by
  cases first with
  | ending => exact List.not_mem_nil
  | blank => exact absurd rfl other
  | @string cs =>
    rcases read_string_cases cs with kind | kind
    · simpa [prepend] using read_string_newline cs kind
    · simp [prepend, kind, TokenKind.isFinal] at more
  | @number c cs =>
    obtain ⟨-, taken, -⟩ | kind := read_number_cases (c :: cs)
    · rw [taken]
      exact number_newline (split_number_form (c :: cs))
    · simp [kind, TokenKind.isFinal] at more
  | leftParen | rightParen | comma => simp
  | @word c cs =>
    rw [(read_word_cases (c :: cs)).1]
    exact fun member => absurd (List.mem_takeWhile_imp member) (by decide)
  | unrecognized => cases more

/-! ## The same lexeme between other neighbours -/

/-- The kinds of tokens that stand for a value by themselves. -/
def isLeaf : TokenKind → Bool
  | .identifier | .string | .number | .bool | .null => true
  | _ => false

theorem name_reads_as_word {c : Char} (name : isNameChar c = true)
    (other : startsNumber c = false) (depth : Nat) (cs : List Char) :
    Lexeme.read depth (c :: cs) = readWord (c :: cs) := by
  have distinct : ∀ d, isNameChar d = false → c ≠ d := by
    rintro d no rfl
    simp [name] at no
  have blank : isBlank c = false := by
    simp [isBlank, distinct ' ' (by decide), distinct '\t' (by decide), distinct '\n' (by decide)]
  simp [Lexeme.read, blank, other, name, distinct '"' (by decide), distinct '(' (by decide),
    distinct ')' (by decide), distinct ',' (by decide)]

theorem start_reads_as_number {c : Char} (starts : startsNumber c = true) (depth : Nat)
    (cs : List Char) : Lexeme.read depth (c :: cs) = readNumber (c :: cs) := by
  have distinct : ∀ d, startsNumber d = false → c ≠ d := by
    rintro d no rfl
    simp [starts] at no
  have blank : isBlank c = false := by
    simp [isBlank, distinct ' ' (by decide), distinct '\t' (by decide), distinct '\n' (by decide)]
  simp [Lexeme.read, blank, starts, distinct '"' (by decide)]

theorem word_delimited {word rest : List Char} (all : ∀ c ∈ word, isNameChar c = true)
    (delimited : Delimited rest) :
    readWord (word ++ rest) = ⟨.ofWord (String.ofList word), word, rest⟩ := by
  obtain ⟨taken, dropped⟩ :=
    delimited_takeWhile all delimited (by decide) (by decide) (by decide)
  unfold readWord
  simp only [taken, dropped]
  cases rest with
  | nil => rfl
  | cons c rest => rcases delimited c rfl with rfl | rfl | rfl <;> rfl

theorem number_delimited {number rest : List Char} (form : NumberForm number)
    (delimited : Delimited rest) : readNumber (number ++ rest) = ⟨.number, number, rest⟩ := by
  unfold readNumber
  rw [split_number_delimited form delimited]
  cases rest with
  | nil => rfl
  | cons c rest => rcases delimited c rfl with rfl | rfl | rfl <;> rfl

/-- The characters read as one token of the kind wherever they are delimited. -/
def Standalone (kind : TokenKind) (chars : List Char) : Prop :=
  ∀ depth rest, Delimited rest → Lexeme.read depth (chars ++ rest) = ⟨kind, chars, rest⟩

/-- A word, a string or a number does not depend on where it was read. -/
theorem first_standalone (first : First depth cs lexeme)
    (leaf : isLeaf lexeme.kind = true) :
    Standalone lexeme.kind lexeme.taken := by
  intro other rest delimited
  cases first with
  | ending | rightParen => split at leaf <;> cases leaf
  | blank | leftParen | comma | unrecognized => cases leaf
  | @string cs =>
    have closed : (readString cs).kind = .string := by
      rcases read_string_cases cs with kind | kind
      · exact kind
      · simp [prepend, kind, isLeaf] at leaf
    have same := read_string_closed cs closed rest
    simp [Lexeme.read, prepend, same, closed, isBlank]
  | @number c cs starts =>
    obtain ⟨kind, taken, -⟩ | kind := read_number_cases (c :: cs)
    · have some : (splitNumber (c :: cs)).1 ≠ [] := Lexeme.splitNumber_ne_nil starts
      obtain ⟨d, number, split⟩ := List.exists_cons_of_ne_nil some
      have same : d = c := by
        have whole := Lexeme.splitNumber_append (c :: cs)
        rw [split] at whole
        exact (List.cons.inj whole).1
      subst same
      have form := split_number_form (d :: cs)
      rw [kind, taken, split] at *
      rw [List.cons_append, start_reads_as_number starts, ← List.cons_append,
        number_delimited form delimited]
    · simp [kind, isLeaf] at leaf
  | @word c cs name starts =>
    obtain ⟨taken, -, kind | ⟨next, kind⟩⟩ := read_word_cases (c :: cs)
    · have all : ∀ d ∈ (c :: cs).takeWhile isNameChar, isNameChar d = true :=
        fun d member => List.mem_takeWhile_imp member
      have same := word_delimited all delimited
      rw [kind, taken]
      simp only [List.takeWhile_cons, name, ↓reduceIte] at same ⊢
      rw [List.cons_append, name_reads_as_word name starts, ← List.cons_append, same]
    · simp [kind, isLeaf] at leaf

/-- Nor does the keyword of an operator. -/
theorem keyword_standalone (operator : Operator) :
    Standalone (.operator operator) operator.keyword.toList := by
  intro depth rest delimited
  have spelled : operator.keyword.toList.all (fun c => isNameChar c && !startsNumber c) = true := by
    cases operator <;> decide +kernel
  have word : ∀ c ∈ operator.keyword.toList, isNameChar c = true ∧ startsNumber c = false := by
    simpa using spelled
  have kind : TokenKind.ofWord operator.keyword = .operator operator := by
    cases operator <;> decide
  have read := word_delimited (fun c member => (word c member).1) delimited
  rw [String.ofList_toList, kind] at read
  cases chars : operator.keyword.toList with
  | nil => cases operator <;> cases chars
  | cons c cs =>
    rw [chars] at word read
    have first := word c List.mem_cons_self
    rw [List.cons_append, name_reads_as_word first.1 first.2]
    exact read

end ResourceQuery.LexemeSpelling
