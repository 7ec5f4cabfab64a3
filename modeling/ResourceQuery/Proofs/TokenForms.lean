import ResourceQuery.Proofs.ViablePrefix

/-! Tokens by their form. Each kind of token is a set of rows of characters, and a few rules say how
far a row may reach at a given place: blanks and words go as far as their characters do on either
side, a number is the longest row of its form, a string ends at the first quote that no backslash
takes. None of this mentions how tokens are read. Where a token starts, exactly one kind and one row
of characters comply with the rules, and these are the token's (`token_has_only_form`). -/
namespace ResourceQuery.TokenForms
open Lexeme (readBlank readString readNumber readWord splitSign splitFraction splitNumber prepend)
open LexemeSpelling LookAhead StreamTiling ViablePrefix
open Grammar (opened closed)

/-! ## Classes of characters -/

/-- A space, a tab or a newline. -/
def Blank (c : Char) : Prop := c = ' ' ∨ c = '\t' ∨ c = '\n'

/-- In ASCII the letters, the digits, the underscore and the dot, and beyond it the letters and the
decimal digits of all scripts. -/
def NameChar (c : Char) : Prop :=
  c = '_' ∨ c = '.' ∨ c.isAlphanum = true ∨
    128 ≤ c.toNat ∧ (Unicode.isLetter c = true ∨ Unicode.isDecimalDigit c = true)

/-- The characters that may come right behind a word. -/
def Delimits (c : Char) : Prop := Blank c ∨ c = ',' ∨ c = '(' ∨ c = ')'

theorem blank_iff {c : Char} : isBlank c = true ↔ Blank c := by
  simp [isBlank, Blank, or_assoc]

theorem delimits_iff {c : Char} : endsWord c = true ↔ Delimits c := by
  simp [endsWord, Delimits, ← blank_iff, or_assoc]

/-- The tables of letters and digits of all scripts hold those of ASCII, and nothing else of it. -/
theorem ascii_class {c : Char} (ascii : c.toNat < 128) :
    (Unicode.isLetter c || Unicode.isDecimalDigit c) = c.isAlphanum := by
  have all : ∀ n : Fin 128, (Unicode.isLetter (Char.ofNat n) ||
      Unicode.isDecimalDigit (Char.ofNat n)) = (Char.ofNat n).isAlphanum := by
    decide +kernel
  have here := all ⟨c.toNat, ascii⟩
  rwa [Char.ofNat_toNat] at here

/-- An ASCII letter or digit is a character of ASCII. -/
theorem alphanum_ascii {c : Char} (alphanum : c.isAlphanum = true) : c.toNat < 128 := by
  have code : c.toNat = c.val.toNat := rfl
  have ends : 'Z'.val.toNat = 90 ∧ 'z'.val.toNat = 122 ∧ '9'.val.toNat = 57 := ⟨rfl, rfl, rfl⟩
  delta Char.isAlphanum Char.isAlpha Char.isUpper Char.isLower Char.isDigit at alphanum
  simp only [Bool.or_eq_true, Bool.and_eq_true, decide_eq_true_eq, UInt32.le_iff_toNat_le,
    ge_iff_le] at alphanum
  omega

theorem nameChar_iff {c : Char} : isNameChar c = true ↔ NameChar c := by
  have classes : isNameChar c = true ↔
      c = '_' ∨ c = '.' ∨ (Unicode.isLetter c || Unicode.isDecimalDigit c) = true := by
    simp [isNameChar, or_assoc]
  rw [classes, NameChar]
  refine or_congr_right (or_congr_right ?_)
  by_cases ascii : c.toNat < 128
  · rw [ascii_class ascii]
    constructor
    · exact .inl
    · rintro (here | ⟨beyond, -⟩)
      · exact here
      · omega
  · have beyond : 128 ≤ c.toNat := by omega
    have other : c.isAlphanum = false := Bool.eq_false_iff.mpr fun yes => ascii (alphanum_ascii yes)
    simp [other, beyond]

/-! ## Forms -/

/-- Name characters of which the first is no ASCII digit and no dot. -/
structure IsWord (word : List Char) : Prop where
  names : ∀ c ∈ word, NameChar c
  first : ∃ c cs, word = c :: cs ∧ c.isDigit = false ∧ c ≠ '.'

/-- What a whole word is. Every word that is not reserved is an identifier. -/
inductive WordKind : TokenKind → String → Prop where
  | null : WordKind .null "null"
  | true : WordKind .bool "true"
  | false : WordKind .bool "false"
  | operator (operator : Operator) : WordKind (.operator operator) operator.keyword
  | identifier (null : word ≠ "null") (true : word ≠ "true") (false : word ≠ "false")
      (operator : ∀ operator : Operator, word ≠ operator.keyword) : WordKind .identifier word

/-- What may stand between the quotes of a string: anything but quotes, backslashes and newlines,
and a backslash with any character but a newline behind it. -/
inductive Items : List Char → Prop where
  | nil : Items []
  | plain (quote : c ≠ '"') (backslash : c ≠ '\\') (newline : c ≠ '\n') (others : Items cs) :
      Items (c :: cs)
  | escape (newline : c ≠ '\n') (others : Items cs) : Items ('\\' :: c :: cs)

/-- The rows of characters that can be a token of the kind. -/
inductive Form : TokenKind → List Char → Prop where
  | blank (nonempty : run ≠ []) (all : ∀ c ∈ run, Blank c) : Form .blank run
  | word (word : IsWord run) (whole : WordKind kind (String.ofList run)) : Form kind run
  | number (nonempty : run ≠ []) (form : NumberForm run) : Form .number run
  | string (items : Items run) : Form .string ('"' :: (run ++ ['"']))
  | leftParen : Form .leftParen ['(']
  | rightParen : Form .rightParen [')']
  | comma : Form .comma [',']

/-- Some token can start with the character. -/
def CanStart (c : Char) : Prop := ∃ kind cs, Form kind (c :: cs)

/-! ## Rules -/

/-- The characters next to a row on either side are not in the class. -/
def Apart (p : Char → Prop) (before behind : List Char) : Prop :=
  (∀ c, before.getLast? = some c → ¬ p c) ∧ ∀ c, behind.head? = some c → ¬ p c

/-- No longer row from the same place on has the form of a number. -/
def Longest (number behind : List Char) : Prop :=
  ∀ longer, longer <+: number ++ behind → NumberForm longer → longer.length ≤ number.length

/-- How far a row of the kind reaches between the characters before it and those behind. -/
def Bounded (before run behind : List Char) : TokenKind → Prop
  | .blank => Apart Blank before behind
  | .identifier | .null | .bool | .operator _ =>
    Apart NameChar before behind ∧ ∀ c, behind.head? = some c → Delimits c
  | .number => Longest run behind ∧ ∀ c, behind.head? = some c → ¬ NameChar c
  | _ => True

/-- What a string that is never closed ends with. -/
inductive Breaks : List Char → List Char → Prop where
  | ending : Breaks [] []
  | newline : Breaks ['\n'] behind
  | backslash : Breaks ['\\'] []
  | escapedNewline : Breaks ['\\', '\n'] behind

/-- The token that starts between the characters before and all others, where so many parentheses
are open: its kind, its own characters, and those behind it. -/
inductive Lexes (depth : Nat) (before : List Char) :
    TokenKind → List Char → List Char → Prop where
  | token (form : Form kind run) (bounded : Bounded before run behind kind)
      (closes : kind = .rightParen → depth ≠ 0) : Lexes depth before kind run behind
  | finish (closed : depth = 0) : Lexes depth before .finish [] []
  | unfinished (opened : depth ≠ 0) : Lexes depth before (.fault .unfinished) [] []
  | unmatched (closed : depth = 0) :
      Lexes depth before (.fault .unmatchedParenthesis) [')'] behind
  | unrecognized (none : ¬ CanStart c) : Lexes depth before (.fault (.unrecognized c)) [c] behind
  | misplaced (word : IsWord run) (name : ¬ NameChar c) (ends : ¬ Delimits c) :
      Lexes depth before (.fault (.misplaced c)) run (c :: behind)
  | malformedNumber (nonempty : run ≠ []) (form : NumberForm run)
      (longest : Longest run (c :: behind)) (name : NameChar c) : Lexes depth before
        (.fault (.malformedNumber (String.ofList (run ++ [c])))) (run ++ [c]) behind
  | unterminatedString (items : Items run) (breaks : Breaks tail behind) :
      Lexes depth before (.fault .unterminatedString) ('"' :: (run ++ tail)) behind

variable {c : Char} {cs run number before behind : List Char} {depth : Nat} {kind : TokenKind}

/-! ## Words -/

theorem wordKind_iff {word : String} : WordKind kind word ↔ kind = .ofWord word := by
  constructor
  · intro whole
    cases whole with
    | null | true | false => rfl
    | operator operator => cases operator <;> decide
    | identifier null true false operator =>
      have none : Operator.ofKeyword? word = none := by
        cases found : Operator.ofKeyword? word with
        | none => rfl
        | some op => exact absurd (Operator.keyword_of_ofKeyword? found).symm (operator op)
      simp [TokenKind.ofWord, null, true, false, none]
  · rintro rfl
    unfold TokenKind.ofWord
    split
    · subst word
      exact .null
    split
    · rename_i reserved
      rcases reserved with rfl | rfl
      · exact .true
      · exact .false
    · rename_i null bool
      split
      · rename_i op found
        rw [← Operator.keyword_of_ofKeyword? found]
        exact .operator op
      · rename_i none
        refine .identifier null (fun same => bool (.inl same)) (fun same => bool (.inr same)) ?_
        rintro op rfl
        rw [Operator.ofKeyword?_keyword] at none
        cases none

theorem isWord_cons (name : isNameChar c = true) (other : startsNumber c = false)
    (all : ∀ d ∈ cs, isNameChar d = true) : IsWord (c :: cs) := by
  simp only [startsNumber, Bool.or_eq_false_iff, beq_eq_false_iff_ne] at other
  refine ⟨?_, c, cs, rfl, other.1.1.1, other.1.1.2⟩
  intro d member
  rcases List.mem_cons.mp member with rfl | member
  · exact nameChar_iff.mp name
  · exact nameChar_iff.mp (all d member)

theorem word_start (word : IsWord run) :
    ∃ c cs, run = c :: cs ∧ isNameChar c = true ∧ startsNumber c = false := by
  obtain ⟨c, cs, rfl, digit, dot⟩ := word.first
  have name := nameChar_iff.mpr (word.names c List.mem_cons_self)
  have sign : ∀ d, isNameChar d = false → c ≠ d := by
    rintro d no rfl
    simp [name] at no
  refine ⟨c, cs, rfl, name, ?_⟩
  simp [startsNumber, digit, dot, sign '+' (by decide), sign '-' (by decide)]

theorem bounded_word {word : String} (whole : WordKind kind word) :
    Bounded before run behind kind ↔
      Apart NameChar before behind ∧ ∀ c, behind.head? = some c → Delimits c := by
  cases whole <;> exact Iff.rfl

/-- A word is read up to the first character that is in no name. -/
theorem word_reads (word : IsWord run) (stop : ∀ c, behind.head? = some c → ¬ NameChar c) :
    Lexeme.read depth (run ++ behind) =
      ⟨wordKind (String.ofList run) behind.head?, run, behind⟩ := by
  obtain ⟨taken, dropped⟩ := takeWhile_stopped (p := isNameChar)
    (fun c member => nameChar_iff.mpr (word.names c member))
    (fun c head => Bool.eq_false_iff.mpr fun name => stop c head (nameChar_iff.mp name))
  obtain ⟨c, cs, rfl, name, other⟩ := word_start word
  rw [List.cons_append, name_reads_as_word name other, ← List.cons_append, read_word_eq, taken,
    dropped]

/-! ## Numbers -/

/-- A row of the form of a number is at the beginning of what is split off as one. -/
theorem number_begins (form : NumberForm number) (behind : List Char) :
    number <+: (splitNumber (number ++ behind)).1 := by
  obtain ⟨sign, whole, fraction, rfl, sign_form, all, fraction_form⟩ := form
  have unsigned : whole ++ fraction <+:
      (whole ++ (fraction ++ behind)).takeWhile Char.isDigit ++
        (splitFraction ((whole ++ (fraction ++ behind)).dropWhile Char.isDigit)).1 := by
    rw [List.takeWhile_append_of_pos all, List.dropWhile_append_of_pos all, List.append_assoc]
    refine (List.prefix_append_right_inj whole).mpr ?_
    obtain rfl | ⟨digits, rfl, digits_only⟩ := fraction_form
    · exact List.nil_prefix
    · have more : digits <+: (digits ++ behind).takeWhile Char.isDigit := by
        rw [List.takeWhile_append_of_pos digits_only]
        exact List.prefix_append ..
      simpa [splitFraction] using more
  have split : splitSign (sign ++ (whole ++ (fraction ++ behind))) =
      (sign, whole ++ (fraction ++ behind)) ∨ sign ++ whole ++ fraction = [] := by
    obtain rfl | rfl | rfl := sign_form
    · cases whole with
      | cons d whole =>
        refine .inl (split_sign_none fun c head => ?_)
        obtain rfl : d = c := Option.some.inj head
        have digit := all d List.mem_cons_self
        rw [Bool.or_eq_false_iff, beq_eq_false_iff_ne, beq_eq_false_iff_ne]
        constructor <;> rintro rfl <;> exact absurd digit (by decide)
      | nil =>
        obtain rfl | ⟨digits, rfl, -⟩ := fraction_form
        · exact .inr rfl
        · exact .inl rfl
    · exact .inl rfl
    · exact .inl rfl
  rcases split with split | nothing
  · simp only [splitNumber, List.append_assoc, split]
    exact (List.prefix_append_right_inj sign).mpr unsigned
  · rw [nothing]
    exact List.nil_prefix

theorem split_number_longest (cs : List Char) :
    Longest (splitNumber cs).1 (splitNumber cs).2 := by
  rintro longer ⟨rest, whole⟩ form
  rw [Lexeme.splitNumber_append] at whole
  subst whole
  exact (number_begins form rest).length_le

/-- So what is split off is the longest row of the form of a number. -/
theorem split_of_longest (form : NumberForm number) (longest : Longest number behind) :
    splitNumber (number ++ behind) = (number, behind) := by
  have parts := Lexeme.splitNumber_append (number ++ behind)
  have shorter := longest _ ⟨_, parts⟩ (split_number_form (number ++ behind))
  have same : number = (splitNumber (number ++ behind)).1 :=
    (number_begins form behind).eq_of_length_le shorter
  rw [← same] at parts
  exact Prod.ext same.symm (List.append_cancel_left parts)

theorem number_chars (form : NumberForm number) : ∀ c ∈ number, startsNumber c = true := by
  obtain ⟨sign, whole, fraction, rfl, sign_form, all, fraction_form⟩ := form
  intro c member
  simp only [List.mem_append] at member
  rcases member with (inside | inside) | inside
  · rcases sign_form with rfl | rfl | rfl
    · cases inside
    · rw [List.mem_singleton.mp inside]
      rfl
    · rw [List.mem_singleton.mp inside]
      rfl
  · simp [startsNumber, all c inside]
  · obtain rfl | ⟨digits, rfl, digits_only⟩ := fraction_form
    · cases inside
    · rcases List.mem_cons.mp inside with rfl | inside
      · rfl
      · simp [startsNumber, digits_only c inside]

/-- What starts as a number is read as one. -/
theorem number_reads (nonempty : number ≠ []) (form : NumberForm number) :
    Lexeme.read depth (number ++ behind) = readNumber (number ++ behind) := by
  obtain ⟨c, cs, rfl⟩ := List.exists_cons_of_ne_nil nonempty
  exact start_reads_as_number (number_chars form c List.mem_cons_self) depth _

/-! ## Strings -/

theorem items_read (items : Items run) (rest : List Char) :
    readString (run ++ rest) = (readString rest).prepend run := by
  induction items with
  | nil => rfl
  | @plain c cs quote backslash newline others ih => simp_all [prepend, readString]
  | @escape c cs newline others ih => simp_all [prepend, readString]

theorem breaks_read (breaks : Breaks run behind) :
    readString (run ++ behind) = ⟨.fault .unterminatedString, run, behind⟩ := by
  cases breaks <;> rfl

/-- Behind an opening quote there are items, and then a quote or a reason why there is none. -/
theorem read_string_forms (cs : List Char) : ∃ run tail, Items run ∧
    (readString cs).taken = run ++ tail ∧
      ((readString cs).kind = .string ∧ tail = ['"'] ∨
        (readString cs).kind = .fault .unterminatedString ∧ Breaks tail (readString cs).rest) := by
  fun_induction readString cs with
  | case1 => exact ⟨[], [], .nil, rfl, .inr ⟨rfl, .ending⟩⟩
  | case2 cs => exact ⟨[], ['"'], .nil, rfl, .inl ⟨rfl, rfl⟩⟩
  | case3 cs => exact ⟨[], ['\n'], .nil, rfl, .inr ⟨rfl, .newline⟩⟩
  | case4 => exact ⟨[], ['\\'], .nil, rfl, .inr ⟨rfl, .backslash⟩⟩
  | case5 cs => exact ⟨[], ['\\', '\n'], .nil, rfl, .inr ⟨rfl, .escapedNewline⟩⟩
  | case6 c cs newline ih =>
    obtain ⟨run, tail, items, taken, ends⟩ := ih
    exact ⟨'\\' :: c :: run, tail, .escape newline items, by simp [prepend, taken], ends⟩
  | case7 c cs quote newline last broken escaped ih =>
    obtain ⟨run, tail, items, taken, ends⟩ := ih
    have backslash : c ≠ '\\' := by
      rintro rfl
      cases cs with
      | nil => exact last rfl rfl
      | cons next cs => exact escaped next cs rfl rfl
    exact ⟨c :: run, tail, .plain quote backslash newline items, by simp [prepend, taken], ends⟩

/-! ## Characters that start no token -/

/-- The first characters of all tokens. -/
def starts (c : Char) : Bool :=
  isBlank c || c == '"' || startsNumber c || c == '(' || c == ')' || c == ',' || isNameChar c

theorem form_starts (form : Form kind (c :: cs)) : starts c = true := by
  generalize whole : c :: cs = run at form
  cases form with
  | blank nonempty all =>
    subst whole
    simp [starts, blank_iff.mpr (all c List.mem_cons_self)]
  | word word whole' =>
    obtain ⟨d, ds, rfl, name, -⟩ := word_start word
    obtain ⟨rfl, -⟩ := List.cons.inj whole
    simp [starts, name]
  | number nonempty form =>
    subst whole
    simp [starts, number_chars form c List.mem_cons_self]
  | string | leftParen | rightParen | comma =>
    obtain ⟨rfl, -⟩ := List.cons.inj whole
    rfl

theorem canStart_iff : CanStart c ↔ starts c = true := by
  constructor
  · rintro ⟨kind, cs, form⟩
    exact form_starts form
  · intro start
    by_cases number : startsNumber c = true
    · refine ⟨.number, [], .number (List.cons_ne_nil c []) ?_⟩
      simp only [startsNumber, Bool.or_eq_true, beq_iff_eq] at number
      rcases number with ((digit | rfl) | rfl) | rfl
      · exact ⟨[], [c], [], rfl, .inl rfl, by simpa using digit, .inl rfl⟩
      · exact ⟨[], [], ['.'], rfl, .inl rfl, by simp, .inr ⟨[], rfl, by simp⟩⟩
      · exact ⟨['+'], [], [], rfl, .inr (.inl rfl), by simp, .inl rfl⟩
      · exact ⟨['-'], [], [], rfl, .inr (.inr rfl), by simp, .inl rfl⟩
    · by_cases name : isNameChar c = true
      · have word := isWord_cons name (Bool.eq_false_iff.mpr number)
          (fun d (member : d ∈ []) => absurd member List.not_mem_nil)
        exact ⟨_, [], .word word (wordKind_iff.mpr rfl)⟩
      · simp only [starts, number, name, Bool.or_false, Bool.or_eq_true, beq_iff_eq] at start
        rcases start with (((blank | rfl) | rfl) | rfl) | rfl
        · exact ⟨.blank, [], .blank (List.cons_ne_nil c []) (by simpa using blank_iff.mp blank)⟩
        · exact ⟨.string, ['"'], .string .nil⟩
        · exact ⟨.leftParen, [], .leftParen⟩
        · exact ⟨.rightParen, [], .rightParen⟩
        · exact ⟨.comma, [], .comma⟩

theorem unrecognized_reads (none : starts c = false) :
    Lexeme.read depth (c :: cs) = ⟨.fault (.unrecognized c), [c], cs⟩ := by
  simp only [starts, Bool.or_eq_false_iff, beq_eq_false_iff_ne] at none
  simp [Lexeme.read, none]

/-- A character that starts some token is not unrecognized. -/
theorem read_recognized (start : starts c = true) (d : Char) :
    (Lexeme.read depth (c :: cs)).kind ≠ .fault (.unrecognized d) := by
  intro kind
  simp only [Lexeme.read] at kind
  split at kind
  · cases kind
  split at kind
  · rcases read_string_cases cs with closed | broken
    · simp [prepend, closed] at kind
    · simp [prepend, broken] at kind
  split at kind
  · rcases read_number_cases (c :: cs) with ⟨number, -, -⟩ | fault
    · simp [number] at kind
    · simp [fault] at kind
  split at kind
  · cases kind
  split at kind
  · split at kind <;> cases kind
  split at kind
  · cases kind
  split at kind
  · obtain ⟨-, -, whole | ⟨next, fault⟩⟩ := read_word_cases (c :: cs)
    · have word := wordKind_iff.mpr (kind.symm.trans whole)
      cases word
    · simp [fault] at kind
  · simp_all [starts]

/-! ## Reading complies with the rules -/

/-- No run of blanks and no run of name characters goes on across the place between the two. -/
def Seam (front back : List Char) : Prop :=
  ∀ c d, front.getLast? = some c → back.head? = some d →
    ¬ (Blank c ∧ Blank d) ∧ ¬ (NameChar c ∧ NameChar d)

theorem blank_lexes (seam : Seam before (c :: cs)) (blank : isBlank c = true) :
    Lexes depth before .blank ((c :: cs).takeWhile isBlank) ((c :: cs).dropWhile isBlank) := by
  refine .token (.blank (by simp [blank]) ?_) ⟨?_, ?_⟩ (by simp)
  · exact fun d member => blank_iff.mp (List.mem_takeWhile_imp member)
  · exact fun d last class_d => (seam d c last rfl).1 ⟨class_d, blank_iff.mp blank⟩
  · intro d head class_d
    have other := dropWhile_head isBlank (c :: cs) d head
    rw [blank_iff.mpr class_d] at other
    cases other

theorem string_lexes (cs : List Char) : Lexes depth before (readString cs).kind
    ('"' :: (readString cs).taken) (readString cs).rest := by
  obtain ⟨run, tail, items, taken, ⟨kind, rfl⟩ | ⟨kind, breaks⟩⟩ := read_string_forms cs
  · rw [kind, taken]
    exact .token (.string items) trivial (by simp)
  · rw [kind, taken]
    exact .unterminatedString items breaks

theorem number_lexes (start : startsNumber c = true) :
    Lexes depth before (readNumber (c :: cs)).kind (readNumber (c :: cs)).taken
      (readNumber (c :: cs)).rest := by
  have form := split_number_form (c :: cs)
  have longest := split_number_longest (c :: cs)
  have nonempty : (splitNumber (c :: cs)).1 ≠ [] := Lexeme.splitNumber_ne_nil start
  obtain ⟨number, rest, split⟩ : ∃ number rest, splitNumber (c :: cs) = (number, rest) :=
    ⟨_, _, rfl⟩
  rw [split] at form longest nonempty
  by_cases clear : ∀ d, rest.head? = some d → isNameChar d = false
  · rw [read_number_plain split clear]
    refine .token (.number nonempty form) ⟨longest, fun d head name => ?_⟩ (by simp)
    have other := clear d head
    rw [nameChar_iff.mpr name] at other
    cases other
  · push Not at clear
    obtain ⟨d, head, name⟩ := clear
    cases rest with
    | nil => cases head
    | cons e rest =>
      cases head
      have name := Bool.eq_true_of_not_eq_false name
      rw [read_number_name split name]
      exact .malformedNumber nonempty form longest (nameChar_iff.mp name)

theorem word_lexes (seam : Seam before (c :: cs)) (name : isNameChar c = true)
    (other : startsNumber c = false) : Lexes depth before (readWord (c :: cs)).kind
      (readWord (c :: cs)).taken (readWord (c :: cs)).rest := by
  have word : IsWord ((c :: cs).takeWhile isNameChar) := by
    rw [List.takeWhile_cons, if_pos name]
    exact isWord_cons name other fun d member => List.mem_takeWhile_imp member
  have apart : Apart NameChar before ((c :: cs).dropWhile isNameChar) := by
    constructor
    · exact fun d last class_d => (seam d c last rfl).2 ⟨class_d, nameChar_iff.mp name⟩
    · intro d head class_d
      have stopped := dropWhile_head isNameChar (c :: cs) d head
      rw [nameChar_iff.mpr class_d] at stopped
      cases stopped
  rw [read_word_eq]
  dsimp only
  generalize (c :: cs).takeWhile isNameChar = run at word
  generalize (c :: cs).dropWhile isNameChar = rest at apart
  have whole : WordKind (.ofWord (String.ofList run)) (String.ofList run) := wordKind_iff.mpr rfl
  by_cases ends : ∀ d, rest.head? = some d → endsWord d = true
  · rw [word_kind_ends ends]
    refine .token (.word word whole) ((bounded_word whole).mpr ⟨apart, ?_⟩) ?_
    · exact fun d head => delimits_iff.mp (ends d head)
    · intro closing
      rw [closing] at whole
      cases whole
  · push Not at ends
    obtain ⟨d, head, stuck⟩ := ends
    cases rest with
    | nil => cases head
    | cons e rest =>
      cases head
      rw [List.head?_cons, wordKind, if_neg stuck]
      exact .misplaced word (apart.2 d rfl) fun delimits => stuck (delimits_iff.mpr delimits)

/-- What is read complies with the rules. -/
theorem read_lexes (depth : Nat) (seam : Seam before cs) : Lexes depth before
    (Lexeme.read depth cs).kind (Lexeme.read depth cs).taken (Lexeme.read depth cs).rest := by
  have first := read_first depth cs
  generalize same : Lexeme.read depth cs = lexeme at first
  cases first with
  | ending =>
    by_cases closed : depth = 0
    · simpa [closed] using Lexes.finish closed
    · simpa [closed] using Lexes.unfinished closed
  | blank blank => exact blank_lexes seam blank
  | @string cs => exact string_lexes cs
  | number start => exact number_lexes start
  | leftParen => exact .token .leftParen trivial (by simp)
  | rightParen =>
    by_cases closed : depth = 0
    · simpa [closed] using Lexes.unmatched closed
    · simpa [closed] using Lexes.token .rightParen trivial fun _ => closed
  | comma => exact .token .comma trivial (by simp)
  | word name other => exact word_lexes seam name other
  | @unrecognized c cs other =>
    refine .unrecognized fun start => ?_
    apply read_recognized (canStart_iff.mp start) c
    rw [same]

/-- And whatever complies with the rules is what is read. -/
theorem lexes_read (lexes : Lexes depth before kind run behind) :
    Lexeme.read depth (run ++ behind) = ⟨kind, run, behind⟩ := by
  cases lexes with
  | token form bounded closes =>
    cases form with
    | blank nonempty all =>
      obtain ⟨taken, dropped⟩ := takeWhile_stopped (p := isBlank)
        (fun c member => blank_iff.mpr (all c member))
        (fun c head => Bool.eq_false_iff.mpr fun blank => bounded.2 c head (blank_iff.mp blank))
      obtain ⟨c, cs, rfl⟩ := List.exists_cons_of_ne_nil nonempty
      have blank := blank_iff.mpr (all c List.mem_cons_self)
      rw [List.cons_append] at taken dropped ⊢
      simp only [Lexeme.read, blank, ↓reduceIte, readBlank, taken, dropped]
    | word word whole =>
      obtain ⟨apart, ends⟩ := (bounded_word whole).mp bounded
      rw [word_reads word apart.2, word_kind_ends fun c head => delimits_iff.mpr (ends c head),
        ← wordKind_iff.mp whole]
    | number nonempty form =>
      obtain ⟨longest, clear⟩ := bounded
      rw [number_reads nonempty form]
      refine read_number_plain (split_of_longest form longest) fun c head => ?_
      exact Bool.eq_false_iff.mpr fun name => clear c head (nameChar_iff.mp name)
    | @string run items =>
      have read := items_read items ('"' :: behind)
      have closed : readString ('"' :: behind) = ⟨.string, ['"'], behind⟩ := rfl
      rw [closed] at read
      have whole : '"' :: (run ++ ['"']) ++ behind = '"' :: (run ++ '"' :: behind) := by simp
      have quote : Lexeme.read depth ('"' :: (run ++ '"' :: behind)) =
        (readString (run ++ '"' :: behind)).prepend ['"'] := rfl
      rw [whole, quote, read]
      rfl
    | leftParen | comma => rfl
    | rightParen => exact congrArg (Lexeme.mk · [')'] behind) (if_neg (closes rfl))
  | finish closed => simp [Lexeme.read, closed]
  | unfinished opened => simp [Lexeme.read, opened]
  | unmatched closed => exact congrArg (Lexeme.mk · [')'] behind) (if_pos closed)
  | @unrecognized c _ none =>
    exact unrecognized_reads (Bool.eq_false_iff.mpr fun start => none (canStart_iff.mpr start))
  | @misplaced run c behind word name ends =>
    have clear : ∀ d, (c :: behind).head? = some d → ¬ NameChar d := by
      rintro d ⟨⟩
      exact name
    have stuck : endsWord c = false :=
      Bool.eq_false_iff.mpr fun delimits => ends (delimits_iff.mp delimits)
    rw [word_reads word clear]
    simp [wordKind, stuck]
  | @malformedNumber number c _ nonempty form longest name =>
    have whole : number ++ [c] ++ behind = number ++ c :: behind := by simp
    rw [whole, number_reads nonempty form]
    exact read_number_name (split_of_longest form longest) (nameChar_iff.mpr name)
  | @unterminatedString run tail _ items breaks =>
    have read := items_read items (tail ++ behind)
    rw [breaks_read breaks] at read
    have whole : '"' :: (run ++ tail) ++ behind = '"' :: (run ++ (tail ++ behind)) := by simp
    have quote : Lexeme.read depth ('"' :: (run ++ (tail ++ behind))) =
      (readString (run ++ (tail ++ behind))).prepend ['"'] := rfl
    rw [whole, quote, read]
    rfl

/-! ## Faults -/

/-- When the characters ahead of a place where a token has to start are a fault, and which. -/
structure Faults (ahead : List Char) (kind : TokenKind) : Prop where
  /-- No token starts with the first character. -/
  unrecognized : ∀ c, kind = .fault (.unrecognized c) ↔
    ∃ behind, ahead = c :: behind ∧ ¬ CanStart c
  /-- A word runs into a character that cannot come behind it. -/
  misplaced : ∀ c, kind = .fault (.misplaced c) ↔
    ∃ word behind, ahead = word ++ c :: behind ∧ IsWord word ∧ ¬ NameChar c ∧ ¬ Delimits c
  /-- The longest number runs into a name. -/
  malformedNumber : ∀ text, kind = .fault (.malformedNumber text) ↔
    ∃ number c behind, ahead = number ++ c :: behind ∧ text = String.ofList (number ++ [c]) ∧
      number ≠ [] ∧ NumberForm number ∧ Longest number (c :: behind) ∧ NameChar c
  /-- A quote has no quote behind it that closes the string. -/
  unterminatedString : kind = .fault .unterminatedString ↔
    ∃ cs, ahead = '"' :: cs ∧ ∀ items behind, Items items → cs ≠ items ++ '"' :: behind

/-- Only what is no fault has a form. -/
theorem form_more (form : Form kind run) : kind.isFinal = false := by
  cases form with
  | word word whole =>
    generalize String.ofList run = text at whole
    cases whole <;> rfl
  | blank | number | string | leftParen | rightParen | comma => rfl

theorem seam_nil (back : List Char) : Seam [] back := by
  intro c d last
  cases last

theorem string_closed (depth : Nat) (items : Items run) (behind : List Char) :
    (Lexeme.read depth ('"' :: (run ++ '"' :: behind))).kind = .string := by
  have lexes : Lexes depth [] .string ('"' :: (run ++ ['"'])) behind :=
    .token (.string items) trivial (by simp)
  have read := lexes_read lexes
  rw [List.cons_append, List.append_assoc, List.singleton_append] at read
  rw [read]

theorem read_faults (depth : Nat) (cs : List Char) : Faults cs (Lexeme.read depth cs).kind := by
  have lexes := read_lexes depth (seam_nil cs)
  have parts := Lexeme.taken_append_rest depth cs
  generalize (Lexeme.read depth cs).taken = taken at lexes parts
  generalize (Lexeme.read depth cs).rest = rest at lexes parts
  refine ⟨fun c => ⟨fun kind => ?_, ?_⟩, fun c => ⟨fun kind => ?_, ?_⟩,
    fun text => ⟨fun kind => ?_, ?_⟩, ⟨fun kind => ?_, ?_⟩⟩
  · rw [kind] at lexes
    cases lexes with
    | token form => cases form_more form
    | unrecognized none => exact ⟨rest, parts.symm, none⟩
  · rintro ⟨behind, rfl, none⟩
    exact congrArg Lexeme.kind (lexes_read (.unrecognized none : Lexes depth [] _ [c] behind))
  · rw [kind] at lexes
    cases lexes with
    | token form => cases form_more form
    | misplaced word name ends => exact ⟨taken, _, parts.symm, word, name, ends⟩
  · rintro ⟨word, behind, rfl, whole, name, ends⟩
    exact congrArg Lexeme.kind
      (lexes_read (.misplaced whole name ends : Lexes depth [] _ word (c :: behind)))
  · rw [kind] at lexes
    cases lexes with
    | token form => cases form_more form
    | @malformedNumber number c _ nonempty form longest name =>
      refine ⟨number, c, rest, ?_, rfl, nonempty, form, longest, name⟩
      rw [← parts, List.append_assoc, List.singleton_append]
  · rintro ⟨number, c, behind, rfl, rfl, nonempty, form, longest, name⟩
    have lexes : Lexes depth [] _ (number ++ [c]) behind :=
      .malformedNumber nonempty form longest name
    have read := lexes_read lexes
    rw [List.append_assoc, List.singleton_append] at read
    rw [read]
  · rw [kind] at lexes
    cases lexes with
    | token form => cases form_more form
    | @unterminatedString run tail _ items breaks =>
      refine ⟨run ++ tail ++ rest, by rw [← parts, List.cons_append], ?_⟩
      intro items behind closed same
      have closes := string_closed depth closed behind
      rw [← same, ← List.cons_append, parts, kind] at closes
      cases closes
  · rintro ⟨cs, rfl, none⟩
    have quote : Lexeme.read depth ('"' :: cs) = (readString cs).prepend ['"'] := rfl
    obtain ⟨run, tail, items, taken, ⟨kind, rfl⟩ | ⟨kind, -⟩⟩ := read_string_forms cs
    · refine absurd ?_ (none run (readString cs).rest items)
      have whole := Lexeme.readString_append cs
      rwa [taken, List.append_assoc, List.singleton_append, eq_comm] at whole
    · rw [quote]
      exact kind

/-! ## Streams -/

theorem neutral (blank : isBlank c = false) (name : isNameChar c = false) (d : Char) :
    ¬ (Blank c ∧ Blank d) ∧ ¬ (NameChar c ∧ NameChar d) := by
  constructor
  · rintro ⟨yes, -⟩
    rw [blank_iff.mpr yes] at blank
    cases blank
  · rintro ⟨yes, -⟩
    rw [nameChar_iff.mpr yes] at name
    cases name

theorem blank_no_name (blank : Blank c) : ¬ NameChar c := by
  intro name
  have none := endsWord_name (delimits_iff.mpr (.inl blank))
  rw [nameChar_iff.mpr name] at none
  cases none

/-- No run goes on behind a token. -/
theorem form_seam (form : Form kind run) (bounded : Bounded before run behind kind) :
    Seam run behind := by
  intro c d last head
  cases form with
  | blank nonempty all =>
    have blank := all c (List.mem_of_getLast? last)
    exact ⟨fun both => bounded.2 d head both.2, fun both => blank_no_name blank both.1⟩
  | word word whole =>
    have name := word.names c (List.mem_of_getLast? last)
    have apart := ((bounded_word whole).mp bounded).1
    exact ⟨fun both => blank_no_name both.1 name, fun both => apart.2 d head both.2⟩
  | number nonempty form =>
    have start := number_chars form c (List.mem_of_getLast? last)
    refine ⟨?_, fun both => bounded.2 d head both.2⟩
    rintro ⟨rfl | rfl | rfl, -⟩ <;> exact absurd start (by decide)
  | string items =>
    rw [← List.cons_append, List.getLast?_concat] at last
    obtain rfl := Option.some.inj last
    exact neutral (by decide) (by decide) d
  | leftParen | rightParen | comma =>
    obtain rfl := Option.some.inj last
    exact neutral (by decide) (by decide) d

theorem lexes_seam (lexes : Lexes depth before kind run behind) (more : kind.isFinal = false) :
    Seam run behind := by
  cases lexes with
  | token form bounded closes => exact form_seam form bounded
  | finish | unfinished | unmatched | unrecognized | misplaced | malformedNumber
  | unterminatedString => cases more

variable {text : String} {front back : List Token} {token : Token} {rest : List Char}

/-- Nor does one go on into a token from what stands before it. -/
theorem token_seam (split : (Stream.ofText text).tokens = front ++ token :: back)
    (whole : text.toList = spelled front ++ rest) : Seam (spelled front) rest := by
  rcases List.eq_nil_or_concat front with rfl | ⟨init, one, rfl⟩
  · exact seam_nil rest
  · rw [List.concat_eq_append] at split whole ⊢
    rw [List.append_assoc, List.singleton_append] at split
    obtain ⟨ahead, whole', here, -⟩ := read_front Mark.start text.toList init _ one split
    generalize pastAll Mark.start init = mark at here
    have more : one.kind.isFinal = false := by
      refine (read_final Mark.start text.toList).1 one ?_
      have body : (Stream.ofText text).body = _ := body_of_split split
      rw [Stream.ofText] at body
      rw [body]
      simp
    have taken : (Lexeme.read mark.depth ahead).taken = one.text.toList := by
      rw [here, Mark.token, String.toList_ofList]
    have behind : (Lexeme.read mark.depth ahead).rest = rest := by
      have parts := Lexeme.taken_append_rest mark.depth ahead
      rw [whole', ← parts, taken, spelled_append, spelled_cons, spelled_nil, List.append_nil,
        List.append_assoc] at whole
      exact List.append_cancel_left (List.append_cancel_left whole)
    have seam := lexes_seam (read_lexes mark.depth (seam_nil ahead)) (by rwa [here] at more)
    rw [taken, behind] at seam
    have nonempty : one.text.toList ≠ [] := by
      rw [← taken]
      exact Lexeme.taken_ne_nil (by rwa [here] at more)
    intro c d last
    rw [spelled_append, spelled_cons, spelled_nil, List.append_nil,
      List.getLast?_append_of_ne_nil _ nonempty] at last
    exact seam c d last

/-- **Where a token starts, the rules leave no choice.** The token has the one kind and the one row
of characters that comply with them there: the blanks and the words that are as long as they can be,
the longest number, the string up to its closing quote, or else the one fault that the characters
are. -/
theorem token_has_only_form (split : (Stream.ofText text).tokens = front ++ token :: back) :
    token.pos = Text.utf8Length (spelled front) ∧
      ∃ ahead, text.toList = spelled front ++ ahead ∧ token.text.toList <+: ahead ∧
        Faults ahead token.kind ∧
        ∀ kind run behind, ahead = run ++ behind →
          (Lexes (opened front - closed front) (spelled front) kind run behind ↔
            token.kind = kind ∧ token.text.toList = run) := by
  obtain ⟨rest, whole, here, -⟩ := read_front Mark.start text.toList front back token split
  have place := (read_place Mark.start text.toList front back token split).1
  have level := read_depth Mark.start text.toList front back token split
  have start : Mark.start.offset = 0 ∧ Mark.start.depth = 0 := ⟨rfl, rfl⟩
  have depth : (pastAll Mark.start front).depth = opened front - closed front := by omega
  rw [depth] at here
  have lexes := read_lexes (opened front - closed front) (token_seam split whole)
  have parts := Lexeme.taken_append_rest (opened front - closed front) rest
  have taken : token.text.toList = (Lexeme.read (opened front - closed front) rest).taken := by
    rw [here, Mark.token, String.toList_ofList]
  have own : token.kind = (Lexeme.read (opened front - closed front) rest).kind := by
    rw [here]
    rfl
  rw [own, taken]
  refine ⟨by omega, rest, whole, ⟨_, parts⟩, read_faults _ rest, ?_⟩
  rintro kind run behind rfl
  constructor
  · intro lexes
    rw [lexes_read lexes]
    exact ⟨rfl, rfl⟩
  · rintro ⟨rfl, same⟩
    rw [same] at lexes parts
    have left := List.append_cancel_left parts
    rwa [left] at lexes

/-- The second dot is no part of the number, and no word may follow one. -/
theorem token_has_only_form_number :
    (Stream.ofText "in(é_1 ,\"a\\\"\"\n,-1.5 truely 1.2.3").last =
        ⟨.fault (.malformedNumber "1.2."), "1.2.", 28, 2⟩ ∧
      Lexes 1 (spelled (Stream.ofText "in(é_1 ,\"a\\\"\"\n,-1.5 truely 1.2.3").body)
        (.fault (.malformedNumber "1.2.")) ['1', '.', '2', '.'] ['3'] := by
  have last : (Stream.ofText "in(é_1 ,\"a\\\"\"\n,-1.5 truely 1.2.3").last =
      ⟨.fault (.malformedNumber "1.2."), "1.2.", 28, 2⟩ := by
    decide +kernel
  have front : spelled (Stream.ofText "in(é_1 ,\"a\\\"\"\n,-1.5 truely 1.2.3").body =
      "in(é_1 ,\"a\\\"\"\n,-1.5 truely ".toList := by
    decide +kernel
  have depth : opened (Stream.ofText "in(é_1 ,\"a\\\"\"\n,-1.5 truely 1.2.3").body -
      closed (Stream.ofText "in(é_1 ,\"a\\\"\"\n,-1.5 truely 1.2.3").body = 1 := by
    decide +kernel
  have split : (Stream.ofText "in(é_1 ,\"a\\\"\"\n,-1.5 truely 1.2.3").tokens =
      (Stream.ofText "in(é_1 ,\"a\\\"\"\n,-1.5 truely 1.2.3").body ++
        [(Stream.ofText "in(é_1 ,\"a\\\"\"\n,-1.5 truely 1.2.3").last] := rfl
  obtain ⟨-, ahead, whole, -, -, only⟩ := token_has_only_form split
  rw [front] at whole
  have rest : ahead = ['1', '.', '2', '.'] ++ ['3'] := List.append_cancel_left whole.symm
  rw [depth, last] at only
  exact ⟨last, (only _ _ _ rest).mpr ⟨rfl, rfl⟩⟩

end ResourceQuery.TokenForms
