import ResourceQuery.Proofs.StreamTiling
import ResourceQuery.Token.Scanner

/-! The phases of the scanner, one by one. While a scanner reads a token, its text is split in
three: the characters before the token, those of the token so far, and those ahead (`Reads`). So
every slice that is taken has its ends between characters. A phase that starts in the way that its
first characters ask for (`Opens`) gets the first lexeme of the characters ready, or hands over to
another phase in the way that one asks for (`Settles`). -/
namespace ResourceQuery.ScannerPhases
open Scan Text
open Lexeme (readBlank readString readNumber readWord splitSign splitFraction splitNumber prepend)

variable {text : String} {mark : Mark} {before taken ahead : List Char} {scanner : Scanner}

/-! ## Slices -/

/-- What is between two rows of characters is a slice. -/
theorem slice_of_split {inside behind : List Char}
    (split : text.toList = before ++ inside ++ behind) :
    slice? text (utf8Length before) (utf8Length (before ++ inside)) =
      some (String.ofList inside) := by
  have ordered : utf8Length before ≤ utf8Length (before ++ inside) := by simp
  have starts := StreamTiling.boundary (split.trans (List.append_assoc ..))
  have stops := StreamTiling.boundary split
  have slice := String.extract_of_valid before inside behind
  rw [← split, String.ofList_toList, ← StreamTiling.utf8Length_eq_utf8Len,
    ← StreamTiling.utf8Length_eq_utf8Len, ← utf8Length_append] at slice
  rw [slice?, if_pos ⟨ordered, starts, stops⟩, slice]

/-! ## A token that is being read -/

/-- The scanner stands in the text behind the characters of a token that it has read so far. The
token starts where the mark is, and nothing has been handed out or got ready. -/
structure Reads (text : String) (mark : Mark) (before taken ahead : List Char)
    (scanner : Scanner) : Prop where
  split : text.toList = before ++ taken ++ ahead
  offset : mark.offset = utf8Length before
  input : scanner.input = text
  start : scanner.start = utf8Length before
  position : scanner.position = utf8Length (before ++ taken)
  /-- What can be given back is the last character that was read, or nothing. -/
  width : scanner.width = 0 ∨
    ∃ front c, before ++ taken = front ++ [c] ∧ scanner.width = c.utf8Size
  depth : scanner.depth = mark.depth
  line : scanner.line = mark.line
  idle : scanner.pending = none
  unended : scanner.terminal = none

theorem reads_ofText (text : String) :
    Reads text Mark.start [] [] text.toList (.ofText text) where
  split := rfl
  offset := rfl
  input := rfl
  start := rfl
  position := rfl
  width := .inl rfl
  depth := rfl
  line := rfl
  idle := rfl
  unended := rfl

theorem reads_phase (reads : Reads text mark before taken ahead scanner) (phase : Option Phase) :
    Reads text mark before taken ahead { scanner with phase } :=
  { reads with }

theorem reads_depth (reads : Reads text mark before taken ahead scanner) (depth : Nat) :
    Reads text { mark with depth } before taken ahead { scanner with depth } :=
  { reads with depth := rfl }

theorem reads_pass {c : Char} (reads : Reads text mark before taken (c :: ahead) scanner) :
    Reads text mark before (taken ++ [c]) ahead (scanner.pass (some c)) :=
  { reads with
    split := by simp [reads.split]
    position := by simp [Scanner.pass, reads.position, Nat.add_assoc]
    width := .inr ⟨before ++ taken, c, by simp, rfl⟩ }

theorem reads_pass_none (reads : Reads text mark before taken ahead scanner) :
    Reads text mark before taken ahead (scanner.pass none) :=
  { reads with width := .inl rfl }

/-- The loops have rounds enough for all the characters ahead. -/
theorem reads_rounds (reads : Reads text mark before taken ahead scanner) :
    ahead.length < scanner.rounds := by
  have size : text.utf8ByteSize = utf8Length (before ++ taken) + utf8Length ahead := by
    rw [← StreamTiling.utf8Length_toList, reads.split, utf8Length_append]
  have few := length_le_utf8Length ahead
  rw [Scanner.rounds, reads.input, reads.position, size]
  omega

/-! ## Characters -/

section Runs
variable {α β : Type} {scan : Scan α} {next : α → Scan β} {value : α} {later : Scanner}

theorem bind_run (first : scan.run scanner = .ok (value, later)) :
    (scan >>= next).run scanner = (next value).run later := by
  rw [StateT.run_bind, first]
  rfl

theorem bind_get (rest : Scanner → Scan α) :
    (get >>= rest).run scanner = (rest scanner).run scanner := rfl

end Runs

theorem slice_run {start stop : Nat} {inside : String}
    (found : slice? scanner.input start stop = some inside) :
    (Scan.slice start stop).run scanner = .ok (inside, scanner) := by
  rw [Scan.slice, bind_get, found]
  rfl

theorem current_run (reads : Reads text mark before taken ahead scanner) :
    current.run scanner = .ok (String.ofList taken, scanner) := by
  rw [current, bind_get]
  apply slice_run
  rw [reads.input, reads.start, reads.position, slice_of_split reads.split]

theorem peekChar_run (reads : Reads text mark before taken ahead scanner) :
    peekChar.run scanner = .ok (ahead.head?, scanner) := by
  have size : text.utf8ByteSize = utf8Length (before ++ taken ++ ahead) := by
    rw [← reads.split, StreamTiling.utf8Length_toList]
  have split : text.toList = before ++ taken ++ ahead ++ [] := by rw [reads.split, List.append_nil]
  have found : slice? scanner.input scanner.position scanner.input.utf8ByteSize =
      some (String.ofList ahead) := by
    rw [reads.input, reads.position, size, slice_of_split split]
  rw [peekChar, bind_get, bind_run (slice_run found), String.toList_ofList]
  rfl

theorem nextChar_run (reads : Reads text mark before taken ahead scanner) :
    nextChar.run scanner = .ok (ahead.head?, scanner.pass ahead.head?) := by
  rw [nextChar, bind_run (peekChar_run reads)]
  rfl

/-- A character that has just been read is ahead again once it is given back. -/
theorem backupChar_run {c : Char} (reads : Reads text mark before taken (c :: ahead) scanner) :
    ∃ later, backupChar.run (scanner.pass (some c)) = .ok ((), later) ∧
      Reads text mark before taken (c :: ahead) later := by
  have room : (scanner.pass (some c)).width ≤ (scanner.pass (some c)).position :=
    Nat.le_add_left c.utf8Size scanner.position
  refine ⟨_, by rw [backupChar, bind_get, if_pos room]; rfl, ?_⟩
  have position : scanner.position + c.utf8Size - c.utf8Size = utf8Length (before ++ taken) := by
    rw [Nat.add_sub_cancel, reads.position]
  exact { reads with position, width := .inl rfl }

section Classes
variable (p : Char → Bool)

theorem accept_takes {c : Char} (reads : Reads text mark before taken (c :: ahead) scanner)
    (fits : p c = true) : ∃ later, (accept p).run scanner = .ok (true, later) ∧
      Reads text mark before (taken ++ [c]) ahead later := by
  refine ⟨_, ?_, reads_pass reads⟩
  rw [accept, bind_run (peekChar_run reads)]
  simp only [List.head?_cons, Option.any_some, fits, ↓reduceIte]
  rw [bind_run (nextChar_run reads)]
  rfl

theorem accept_leaves (reads : Reads text mark before taken ahead scanner)
    (other : ahead.head?.any p = false) : (accept p).run scanner = .ok (false, scanner) := by
  rw [accept, bind_run (peekChar_run reads)]
  simp only [other, Bool.false_eq_true, ↓reduceIte]
  rfl

theorem acceptWhileWithin_run {rounds : Nat}
    (reads : Reads text mark before taken ahead scanner) (enough : ahead.length < rounds) :
    ∃ later, (acceptWhileWithin p rounds).run scanner = .ok ((), later) ∧
      Reads text mark before (taken ++ ahead.takeWhile p) (ahead.dropWhile p) later := by
  induction rounds generalizing taken ahead scanner with
  | zero => exact absurd enough (Nat.not_lt_zero _)
  | succ rounds ih =>
    rw [acceptWhileWithin]
    cases ahead with
    | nil =>
      refine ⟨scanner, ?_, by simpa using reads⟩
      rw [bind_run (accept_leaves p reads rfl)]
      rfl
    | cons c ahead =>
      cases fits : p c with
      | false =>
        refine ⟨scanner, ?_, by simpa [fits] using reads⟩
        rw [bind_run (accept_leaves p reads (by simp [fits]))]
        rfl
      | true =>
        obtain ⟨passed, run, reads⟩ := accept_takes p reads fits
        obtain ⟨later, others, reads⟩ := ih reads (Nat.lt_of_succ_lt_succ enough)
        refine ⟨later, ?_, by simpa [fits] using reads⟩
        rw [bind_run run]
        exact others

/-- All characters of the class are read, up to the first other one. -/
theorem acceptWhile_run (reads : Reads text mark before taken ahead scanner) :
    ∃ later, (acceptWhile p).run scanner = .ok ((), later) ∧
      Reads text mark before (taken ++ ahead.takeWhile p) (ahead.dropWhile p) later :=
  acceptWhileWithin_run p reads (reads_rounds reads)

end Classes

/-! ## Tokens -/

/-- Behind a token that is ready, the next one is read from the first of its characters on. Its
line is right if newlines are in no other tokens than those in which they are counted. -/
theorem emit_run (kind : TokenKind) (reads : Reads text mark before taken ahead scanner)
    (unbroken : kind ≠ .blank → '\n' ∉ taken) : ∃ later,
      (emit kind).run scanner =
        .ok ((), { later with pending := some (mark.token ⟨kind, taken, ahead⟩) }) ∧
      Reads text ⟨mark.offset + utf8Length taken, mark.depth, mark.line + taken.count '\n'⟩
        (before ++ taken) [] ahead later := by
  have counted : (if kind = .blank ∨ kind = .string then
      mark.line + (String.ofList taken).toList.count '\n' else mark.line) =
        mark.line + taken.count '\n' := by
    rw [String.toList_ofList]
    split
    · rfl
    · rename_i other
      rw [List.count_eq_zero.mpr (unbroken fun blank => other (.inl blank)), Nat.add_zero]
  refine ⟨{ scanner with
    line := mark.line + taken.count '\n', start := scanner.position }, ?_, ?_⟩
  · rw [emit, bind_run (current_run reads)]
    refine congrArg Except.ok (congrArg (Prod.mk ()) ?_)
    simp only [reads.start, reads.line, counted, Mark.token, reads.offset]
  · exact { reads with
      split := by simp [reads.split]
      offset := by simp [reads.offset]
      start := reads.position
      position := by simp [reads.position]
      width := by simpa using reads.width
      line := rfl }

/-- A fault leaves the scanner where it is. -/
theorem fail_run (reads : Reads text mark before taken ahead scanner) (fault : LexicalFault) :
    (fail fault).run scanner =
      .ok (none, { scanner with pending := some (mark.token ⟨.fault fault, taken, ahead⟩) }) := by
  rw [fail, bind_run (current_run reads)]
  refine congrArg Except.ok (congrArg (Prod.mk none) ?_)
  simp only [reads.start, reads.line, Mark.token, reads.offset]

/-! ## Phases -/

/-- The characters that ask for a phase: those that have been read when it begins, and those ahead
of it. -/
inductive Opens : Phase → List Char → List Char → Prop where
  | blank {c : Char} {cs : List Char} (blank : isBlank c = true) : Opens .blank [c] cs
  | string {cs : List Char} : Opens .string ['"'] cs
  | number {c : Char} {cs : List Char} (starts : startsNumber c = true) :
      Opens .number [] (c :: cs)
  | word {c : Char} {cs : List Char} (name : isNameChar c = true)
      (other : startsNumber c = false) : Opens .word [] (c :: cs)

/-- What a phase comes to that reads the characters behind a mark: it hands over to one more phase,
which they ask for, or the token that is their first lexeme is ready. -/
inductive Settles (text : String) (mark : Mark) (cs : List Char) :
    Nat → Option Phase × Scanner → Prop where
  | hands {phase : Phase} {before taken ahead : List Char} {scanner : Scanner}
      (whole : taken ++ ahead = cs) (opens : Opens phase taken ahead)
      (reads : Reads text mark before taken ahead scanner) :
      Settles text mark cs 1 (some phase, scanner)
  | more {lexeme : Lexeme} {before : List Char} {scanner : Scanner}
      (first : Lexeme.read mark.depth cs = lexeme) (more : lexeme.kind.isFinal = false)
      (reads : Reads text (mark.after lexeme) before [] lexeme.rest scanner) :
      Settles text mark cs 0
        (some .between, { scanner with pending := some (mark.token lexeme) })
  | last {lexeme : Lexeme} {other : Mark} {before taken ahead : List Char} {scanner : Scanner}
      (first : Lexeme.read mark.depth cs = lexeme) (final : lexeme.kind.isFinal = true)
      (reads : Reads text other before taken ahead scanner) :
      Settles text mark cs 0 (none, { scanner with pending := some (mark.token lexeme) })

/-- The scan comes to a result, and it takes no more than so many other phases to get the token
ready. -/
def SettledBy (text : String) (mark : Mark) (cs : List Char) (others : Nat)
    (scan : Scan (Option Phase)) (scanner : Scanner) : Prop :=
  ∃ result phases, scan.run scanner = .ok result ∧ phases ≤ others ∧
    Settles text mark cs phases result

variable {cs : List Char} {kind : TokenKind} {others : Nat}

theorem settled_bind {α : Type} {scan : Scan α} {next : α → Scan (Option Phase)} {value : α}
    {later : Scanner} (first : scan.run scanner = .ok (value, later))
    (settled : SettledBy text mark cs others (next value) later) :
    SettledBy text mark cs others (scan >>= next) scanner := by
  obtain ⟨result, phases, run, settles⟩ := settled
  exact ⟨result, phases, by rw [bind_run first, run], settles⟩

theorem settled_get {rest : Scanner → Scan (Option Phase)}
    (settled : SettledBy text mark cs others (rest scanner) scanner) :
    SettledBy text mark cs others (get >>= rest) scanner := settled

/-- A lexeme behind which more follow is settled once its token is ready. The depth behind it has
to be set before. -/
theorem emit_settles {depth : Nat} (first : Lexeme.read mark.depth cs = ⟨kind, taken, ahead⟩)
    (more : kind.isFinal = false) (behind : Mark.depthAfter mark.depth kind = depth)
    (reads : Reads text { mark with depth } before taken ahead scanner) :
    SettledBy text mark cs others (emit kind >>= fun _ => return some .between) scanner := by
  have unbroken : kind ≠ .blank → '\n' ∉ taken :=
    LexemeSpelling.first_newline (first ▸ LexemeSpelling.read_first mark.depth cs) more
  obtain ⟨later, run, reads⟩ := emit_run kind reads unbroken
  subst behind
  exact settled_bind run ⟨_, 0, rfl, Nat.zero_le _, .more first more reads⟩

theorem fail_settles {fault : LexicalFault}
    (first : Lexeme.read mark.depth cs = ⟨.fault fault, taken, ahead⟩)
    (reads : Reads text mark before taken ahead scanner) :
    SettledBy text mark cs others (fail fault) scanner :=
  ⟨_, 0, fail_run reads fault, Nat.zero_le _, .last first rfl reads⟩

/-! ### Between two tokens -/

theorem finish_settles (reads : Reads text mark before [] [] scanner) :
    SettledBy text mark [] others finish scanner := by
  refine settled_get ?_
  split
  · rename_i open_ended
    have inside : mark.depth ≠ 0 := (reads.depth ▸ open_ended).ne'
    exact fail_settles (by simp [Lexeme.read, inside]) reads
  · rename_i closed
    have outside : mark.depth = 0 := reads.depth ▸ Nat.eq_zero_of_not_pos closed
    have first : Lexeme.read mark.depth [] = ⟨.finish, [], []⟩ := by simp [Lexeme.read, outside]
    obtain ⟨later, run, reads⟩ := emit_run .finish reads (by simp)
    exact settled_bind run ⟨_, 0, rfl, Nat.zero_le _, .last first rfl reads⟩

theorem leftParen_settles (reads : Reads text mark before ['('] ahead scanner) :
    SettledBy text mark ('(' :: ahead) others leftParen scanner := by
  have first : Lexeme.read mark.depth ('(' :: ahead) = ⟨.leftParen, ['('], ahead⟩ := rfl
  exact emit_settles first rfl (by rw [reads.depth]; rfl) (reads_depth reads (scanner.depth + 1))

theorem rightParen_settles (reads : Reads text mark before [')'] ahead scanner) :
    SettledBy text mark (')' :: ahead) others rightParen scanner := by
  refine settled_get ?_
  split
  · rename_i outside
    have first : Lexeme.read mark.depth (')' :: ahead) =
        ⟨.fault .unmatchedParenthesis, [')'], ahead⟩ := by rw [← reads.depth, outside]; rfl
    exact fail_settles first reads
  · rename_i inside
    have first : Lexeme.read mark.depth (')' :: ahead) = ⟨.rightParen, [')'], ahead⟩ := by
      rw [reads.depth] at inside
      simp [Lexeme.read, inside, isBlank, startsNumber]
    exact emit_settles first rfl (by rw [reads.depth]; rfl) (reads_depth reads (scanner.depth - 1))

/-- The first character is read again in a phase that it asks for. -/
theorem handBack_settles {phase : Phase} {c : Char} (opens : Opens phase [] (c :: ahead))
    (reads : Reads text mark before [] (c :: ahead) scanner) :
    SettledBy text mark (c :: ahead) 1 (handBack phase) (scanner.pass (some c)) := by
  obtain ⟨later, run, reads⟩ := backupChar_run reads
  exact settled_bind run ⟨_, 1, rfl, le_rfl, .hands rfl opens reads⟩

/-- The first character is told by the same questions, in the same order, as for a lexeme. -/
theorem begins_settles {c : Char} (reads : Reads text mark before [] (c :: ahead) scanner) :
    SettledBy text mark (c :: ahead) 1 (begins c) (scanner.pass (some c)) := by
  have passed : Reads text mark before [c] ahead (scanner.pass (some c)) := reads_pass reads
  unfold begins
  split
  · exact ⟨_, 1, rfl, le_rfl, .hands rfl (.blank ‹_›) passed⟩
  split
  · subst c
    exact ⟨_, 1, rfl, le_rfl, .hands rfl .string passed⟩
  split
  · exact handBack_settles (.number ‹_›) reads
  split
  · subst c
    exact leftParen_settles passed
  split
  · subst c
    exact rightParen_settles passed
  split
  · subst c
    exact emit_settles rfl rfl rfl passed
  split
  · exact handBack_settles (.word ‹_› (Bool.eq_false_iff.mpr ‹_›)) reads
  · exact fail_settles (by simp [Lexeme.read, *]) passed

theorem between_settles (reads : Reads text mark before [] ahead scanner) :
    SettledBy text mark ahead 1 between scanner := by
  refine settled_bind (nextChar_run reads) ?_
  cases ahead with
  | nil => exact finish_settles (reads_pass_none reads)
  | cons c ahead => exact begins_settles reads

/-! ### Blanks and words -/

theorem blank_settles {c : Char} (first_blank : isBlank c = true)
    (reads : Reads text mark before [c] ahead scanner) :
    SettledBy text mark (c :: ahead) 0 Scan.blank scanner := by
  obtain ⟨later, run, reads⟩ := acceptWhile_run isBlank reads
  have first : Lexeme.read mark.depth (c :: ahead) =
      ⟨.blank, [c] ++ ahead.takeWhile isBlank, ahead.dropWhile isBlank⟩ := by
    simp [Lexeme.read, readBlank, first_blank]
  exact settled_bind run (emit_settles first rfl rfl reads)

/-- More tokens may follow a word, and it leaves as many parentheses open as there were. -/
theorem word_level (word : String) (depth : Nat) :
    (TokenKind.ofWord word).isFinal = false ∧
      Mark.depthAfter depth (TokenKind.ofWord word) = depth := by
  unfold TokenKind.ofWord
  repeat' split
  all_goals exact ⟨rfl, rfl⟩

/-- The whole word has been read, and what follows ends it. -/
theorem emit_word_settles {word rest : List Char}
    (first : Lexeme.read mark.depth cs = ⟨.ofWord (String.ofList word), word, rest⟩)
    (reads : Reads text mark before word rest scanner) :
    SettledBy text mark cs 0 (current >>= fun word => emit (.ofWord word) >>= fun _ =>
      return some .between) scanner := by
  obtain ⟨more, level⟩ := word_level (String.ofList word) mark.depth
  exact settled_bind (current_run reads) (emit_settles first more level reads)

theorem word_settles {c : Char} (name : isNameChar c = true) (other : startsNumber c = false)
    (reads : Reads text mark before [] (c :: ahead) scanner) :
    SettledBy text mark (c :: ahead) 0 word scanner := by
  obtain ⟨later, run, reads⟩ := acceptWhile_run isNameChar reads
  have first := LexemeSpelling.name_reads_as_word name other mark.depth ahead
  refine settled_bind run (settled_bind (peekChar_run reads) ?_)
  rw [List.nil_append] at reads
  unfold readWord at first
  cases behind : (c :: ahead).dropWhile isNameChar with
  | nil =>
    rw [behind] at first reads
    exact emit_word_settles first reads
  | cons d rest =>
    have ends : isTerminator d = endsWord d := by
      have stopped : isNameChar d = false := by
        simpa [behind] using List.head?_dropWhile_not isNameChar (c :: ahead)
      have no_dot : d ≠ '.' := by
        rintro rfl
        simp [isNameChar] at stopped
      simp [isTerminator, no_dot]
    rw [behind] at first reads
    cases fits : endsWord d with
    | true =>
      simp only [fits, ↓reduceIte] at first
      simp only [List.head?_cons, Option.filter_some, ends, fits, Bool.not_true]
      exact emit_word_settles first reads
    | false =>
      simp only [fits, Bool.false_eq_true, ↓reduceIte] at first
      simp only [List.head?_cons, Option.filter_some, ends, fits, Bool.not_false]
      exact fail_settles first reads

/-! ### Numbers -/

/-- A sign is read if there is one. -/
theorem sign_run (reads : Reads text mark before taken ahead scanner) : ∃ signed later,
    (accept isSign).run scanner = .ok (signed, later) ∧
      Reads text mark before (taken ++ (splitSign ahead).1) (splitSign ahead).2 later := by
  unfold splitSign
  split
  · obtain ⟨later, run, reads⟩ := accept_takes isSign reads rfl
    exact ⟨true, later, run, reads⟩
  · obtain ⟨later, run, reads⟩ := accept_takes isSign reads rfl
    exact ⟨true, later, run, reads⟩
  · rename_i no_plus no_minus
    have other : ahead.head?.any isSign = false := by
      cases ahead with
      | nil => rfl
      | cons c ahead =>
        simp only [List.head?_cons, Option.any_some, isSign, Bool.or_eq_false_iff,
          beq_eq_false_iff_ne]
        exact ⟨fun plus => no_plus ahead (plus ▸ rfl), fun minus => no_minus ahead (minus ▸ rfl)⟩
    exact ⟨false, scanner, accept_leaves _ reads other, by simpa using reads⟩

/-- A dot and digits are read if there is a dot. -/
theorem fraction_run (reads : Reads text mark before taken ahead scanner) : ∃ later,
    fraction.run scanner = .ok ((), later) ∧
      Reads text mark before (taken ++ (splitFraction ahead).1) (splitFraction ahead).2 later := by
  unfold splitFraction fraction
  split
  · obtain ⟨dotted, dot, reads⟩ := accept_takes (· == '.') reads rfl
    obtain ⟨later, digits, reads⟩ := acceptWhile_run Char.isDigit reads
    refine ⟨later, ?_, by simpa using reads⟩
    rw [bind_run dot]
    exact digits
  · rename_i no_dot
    have other : ahead.head?.any (· == '.') = false := by
      cases ahead with
      | nil => rfl
      | cons c ahead =>
        simp only [List.head?_cons, Option.any_some, beq_eq_false_iff_ne]
        exact fun dot => no_dot ahead (dot ▸ rfl)
    refine ⟨scanner, ?_, by simpa using reads⟩
    rw [bind_run (accept_leaves _ reads other)]
    rfl

theorem number_settles {c : Char} (starts : startsNumber c = true)
    (reads : Reads text mark before [] (c :: ahead) scanner) :
    SettledBy text mark (c :: ahead) 0 number scanner := by
  have first := LexemeSpelling.start_reads_as_number starts mark.depth ahead
  obtain ⟨_, signed, sign, reads⟩ := sign_run reads
  obtain ⟨whole, digits, reads⟩ := acceptWhile_run Char.isDigit reads
  obtain ⟨broken, dotted, reads⟩ := fraction_run reads
  have reads : Reads text mark before (splitNumber (c :: ahead)).1 (splitNumber (c :: ahead)).2
      broken := by rwa [List.nil_append] at reads
  refine settled_bind sign (settled_bind digits (settled_bind dotted
    (settled_bind (peekChar_run reads) ?_)))
  unfold readNumber at first
  cases parts : splitNumber (c :: ahead) with
  | mk number rest =>
  rw [parts] at first reads
  cases rest with
  | nil => exact emit_settles first rfl rfl reads
  | cons d rest =>
    cases name : isNameChar d with
    | true =>
      simp only [name, ↓reduceIte] at first
      simp only [List.head?_cons, Option.any_some, name, ↓reduceIte]
      have passed := reads_pass reads
      exact settled_bind (nextChar_run reads)
        (settled_bind (current_run passed) (fail_settles first passed))
    | false =>
      simp only [name, Bool.false_eq_true, ↓reduceIte] at first
      simp only [List.head?_cons, Option.any_some, name, Bool.false_eq_true, ↓reduceIte]
      exact emit_settles first rfl rfl reads

/-! ### Strings -/

theorem stringWithin_settles {rounds : Nat} (enough : ahead.length < rounds)
    (reads : Reads text mark before taken ahead scanner)
    (first : Lexeme.read mark.depth cs = (readString ahead).prepend taken) :
    SettledBy text mark cs 0 (stringWithin rounds) scanner := by
  induction rounds generalizing taken ahead scanner with
  | zero => exact absurd enough (Nat.not_lt_zero _)
  | succ rounds ih =>
    rw [stringWithin]
    refine settled_bind (nextChar_run reads) ?_
    unfold readString at first
    -- The cases are those of the characters that are ahead: none, a closing quote, a newline, a
    -- backslash at the end, in front of a newline or of another character, and any other one.
    split at first
    · exact fail_settles (by simpa [prepend] using first) (reads_pass_none reads)
    · exact emit_settles first rfl rfl (reads_pass reads)
    · exact fail_settles first (reads_pass reads)
    · have reads := reads_pass reads
      exact settled_bind (nextChar_run reads) (fail_settles first (reads_pass_none reads))
    · have reads := reads_pass reads
      refine settled_bind (nextChar_run reads) (fail_settles ?_ (reads_pass reads))
      simpa [prepend] using first
    · rename_i c rest newline
      have reads := reads_pass reads
      refine settled_bind (nextChar_run reads) ?_
      have fewer : rest.length < rounds := by
        rw [List.length_cons, List.length_cons] at enough
        omega
      have later := ih fewer (reads_pass reads) (by simpa [prepend] using first)
      simpa only [List.head?_cons] using later
    · rename_i c rest quote newline alone broken escaped
      have plain : c ≠ '\\' := by
        rintro rfl
        cases rest with
        | nil => exact alone rfl rfl
        | cons d rest => exact escaped d rest rfl rfl
      have later := ih (Nat.lt_of_succ_lt_succ enough) (reads_pass reads)
        (by simpa [prepend] using first)
      simpa only [List.head?_cons] using later

theorem string_settles (reads : Reads text mark before ['"'] ahead scanner) :
    SettledBy text mark ('"' :: ahead) 0 string scanner :=
  stringWithin_settles (reads_rounds reads) reads rfl

/-- Every phase settles the characters that it was handed. -/
theorem step_settles {phase : Phase} (opens : Opens phase taken ahead)
    (reads : Reads text mark before taken ahead scanner) :
    SettledBy text mark (taken ++ ahead) 0 (step phase) scanner := by
  cases opens with
  | blank blank => exact blank_settles blank reads
  | string => exact string_settles reads
  | number starts => exact number_settles starts reads
  | word name other => exact word_settles name other reads

end ResourceQuery.ScannerPhases
