import ResourceQuery.Proofs.CanonicalRoundTrip

/-! Reading looks one character ahead. A lexeme is decided by its own characters and by the first
one behind it, and unless it is a fault even that one may become a blank, a comma or a parenthesis
(`read_local`). So the tokens in front of a place are the same in all texts that agree up to there
and go on alike, whatever comes later (`read_front`). -/
namespace ResourceQuery.LookAhead
open Lexeme (readBlank readString readNumber readWord splitSign splitFraction splitNumber prepend)
open LexemeSpelling CanonicalRoundTrip StreamTiling

variable {c : Char} {cs rest old new : List Char} {depth : Nat}

/-- The first character is the same as before, or it is one that ends every word and number. -/
def Replaces (new old : List Char) : Prop :=
  new.head? = old.head? ∨ ∀ c, new.head? = some c → endsWord c = true

theorem replaces_append (replaces : Replaces new old) (front : List Char) :
    Replaces (front ++ new) (front ++ old) := by
  cases front with
  | nil => exact replaces
  | cons c front => exact .inl rfl

theorem endsWord_cases (ends : endsWord c = true) :
    c = ' ' ∨ c = '\t' ∨ c = '\n' ∨ c = ',' ∨ c = '(' ∨ c = ')' := by
  simpa [endsWord, isBlank, or_assoc] using ends

theorem replaces_head {p : Char → Bool} (none : ∀ c, endsWord c = true → p c = false)
    (before : ∀ c, old.head? = some c → p c = false) (replaces : Replaces new old) :
    ∀ c, new.head? = some c → p c = false := by
  intro c head
  rcases replaces with same | ends
  · exact before c (same ▸ head)
  · exact none c (ends c head)

theorem dropWhile_head (p : Char → Bool) (cs : List Char) :
    ∀ c, (cs.dropWhile p).head? = some c → p c = false := by
  intro c head
  have := List.head?_dropWhile_not p cs
  rw [head] at this
  exact this

theorem span_replaced {p : Char → Bool} (none : ∀ c, endsWord c = true → p c = false)
    (replaces : Replaces new (cs.dropWhile p)) :
    (cs.takeWhile p ++ new).takeWhile p = cs.takeWhile p ∧
      (cs.takeWhile p ++ new).dropWhile p = new :=
  takeWhile_stopped (fun _ member => List.mem_takeWhile_imp member)
    (replaces_head none (dropWhile_head p cs) replaces)

theorem endsWord_digit (ends : endsWord c = true) : c.isDigit = false := by
  rcases endsWord_cases ends with rfl | rfl | rfl | rfl | rfl | rfl <;> decide

theorem endsWord_name (ends : endsWord c = true) : isNameChar c = false := by
  rcases endsWord_cases ends with rfl | rfl | rfl | rfl | rfl | rfl <;> decide

/-! ## Numbers -/

/-- Splitting off does not depend on what is behind, but for the first character. -/
def Local (split : List Char → List Char × List Char) : Prop :=
  ∀ cs new, Replaces new (split cs).2 → split ((split cs).1 ++ new) = ((split cs).1, new)

theorem split_sign_none (other : ∀ c, cs.head? = some c → (c == '+' || c == '-') = false) :
    splitSign cs = ([], cs) := by
  unfold splitSign
  split
  · exact absurd (other '+' rfl) (by decide)
  · exact absurd (other '-' rfl) (by decide)
  · rfl

theorem split_fraction_none (other : ∀ c, cs.head? = some c → (c == '.') = false) :
    splitFraction cs = ([], cs) := by
  unfold splitFraction
  split
  · exact absurd (other '.' rfl) (by decide)
  · rfl

theorem split_sign_local : Local splitSign := by
  intro cs new replaces
  unfold splitSign at replaces ⊢
  split at replaces
  · rfl
  · rfl
  · rename_i plus minus
    refine split_sign_none (replaces_head ?_ ?_ replaces)
    · intro c ends
      rcases endsWord_cases ends with rfl | rfl | rfl | rfl | rfl | rfl <;> decide
    · intro c head
      cases cs with
      | nil => cases head
      | cons d cs =>
        obtain rfl : d = c := Option.some.inj head
        simp only [Bool.or_eq_false_iff, beq_eq_false_iff_ne]
        exact ⟨fun same => plus cs (by rw [same]), fun same => minus cs (by rw [same])⟩

theorem split_fraction_local : Local splitFraction := by
  intro cs new replaces
  unfold splitFraction at replaces ⊢
  split at replaces
  · obtain ⟨taken, dropped⟩ := span_replaced (fun _ => endsWord_digit) replaces
    simp only [List.cons_append, taken, dropped]
  · rename_i dot
    refine split_fraction_none (replaces_head ?_ ?_ replaces)
    · intro c ends
      rcases endsWord_cases ends with rfl | rfl | rfl | rfl | rfl | rfl <;> decide
    · intro c head
      cases cs with
      | nil => cases head
      | cons d cs =>
        obtain rfl : d = c := Option.some.inj head
        simpa using fun same => dot cs (by rw [same])

/-- Splits off one part, and then another from what is behind it. -/
def splitBoth (first second : List Char → List Char × List Char) (cs : List Char) :
    List Char × List Char :=
  ((first cs).1 ++ (second (first cs).2).1, (second (first cs).2).2)

theorem split_both_local {first second : List Char → List Char × List Char} (one : Local first)
    (other : Local second) (keeps : ∀ cs, (second cs).1 ++ (second cs).2 = cs) :
    Local (splitBoth first second) := by
  intro cs new replaces
  have behind : Replaces ((second (first cs).2).1 ++ new) (first cs).2 := by
    have whole := replaces_append replaces (second (first cs).2).1
    rwa [splitBoth, keeps] at whole
  simp only [splitBoth, List.append_assoc, one cs _ behind, other _ _ replaces]

theorem split_digits_local :
    Local fun cs => (cs.takeWhile Char.isDigit, cs.dropWhile Char.isDigit) := by
  intro cs new replaces
  obtain ⟨taken, dropped⟩ := span_replaced (fun _ => endsWord_digit) replaces
  simp only [taken, dropped]

theorem split_number_local : Local splitNumber :=
  split_both_local
    (split_both_local split_sign_local split_digits_local fun _ => List.takeWhile_append_dropWhile)
    split_fraction_local Lexeme.splitFraction_append

/-! ## Lexemes -/

/-- Characters that may come behind a lexeme in place of those that do. Blanks do not end a run of
blanks, and a fault may have been found by the very character behind it. -/
def MayFollow (lexeme : Lexeme) (new : List Char) : Prop :=
  new.head? = lexeme.rest.head? ∨ lexeme.kind.isFinal = false ∧
    ∀ c, new.head? = some c → endsWord c = true ∧ (lexeme.kind = .blank → isBlank c = false)

theorem MayFollow.replaces {lexeme : Lexeme} (follow : MayFollow lexeme new) :
    Replaces new lexeme.rest :=
  follow.imp_right fun ends c head => (ends.2 c head).1

theorem read_blank_local (cs : List Char) (follow : MayFollow (readBlank cs) new) :
    readBlank ((readBlank cs).taken ++ new) = ⟨.blank, (readBlank cs).taken, new⟩ := by
  have stop : ∀ c, new.head? = some c → isBlank c = false := by
    intro c head
    rcases follow with same | ⟨-, ends⟩
    · exact dropWhile_head isBlank cs c (same ▸ head)
    · exact (ends c head).2 rfl
  obtain ⟨taken, dropped⟩ :=
    takeWhile_stopped (fun c (member : c ∈ cs.takeWhile isBlank) => List.mem_takeWhile_imp member)
      stop
  simp only [readBlank, taken, dropped]

/-- What a word is, by the character behind it. -/
def wordKind (word : String) : Option Char → TokenKind
  | none => .ofWord word
  | some c => if endsWord c then .ofWord word else .fault (.misplaced c)

theorem word_kind_sound {word : String} {next : Option Char}
    (sound : (wordKind word next).isFinal = false) : wordKind word next = .ofWord word := by
  cases next with
  | none => rfl
  | some c =>
    by_cases ends : endsWord c = true
    · simp [wordKind, ends]
    · simp [wordKind, ends, TokenKind.isFinal] at sound

theorem word_kind_ends {word : String} {next : Option Char}
    (ends : ∀ c, next = some c → endsWord c = true) : wordKind word next = .ofWord word := by
  cases next with
  | none => rfl
  | some c => simp [wordKind, ends c rfl]

theorem read_word_eq (cs : List Char) : readWord cs =
    ⟨wordKind (String.ofList (cs.takeWhile isNameChar)) (cs.dropWhile isNameChar).head?,
      cs.takeWhile isNameChar, cs.dropWhile isNameChar⟩ := by
  unfold readWord
  dsimp only
  split <;> rename_i behind
  · simp only [behind, List.head?_nil, wordKind]
  · simp only [behind, List.head?_cons, wordKind]
    split <;> rfl

theorem read_word_local (cs : List Char) (follow : MayFollow (readWord cs) new) :
    readWord ((readWord cs).taken ++ new) = ⟨(readWord cs).kind, (readWord cs).taken, new⟩ := by
  have replaces := follow.replaces
  rw [read_word_eq] at follow replaces ⊢
  obtain ⟨taken, dropped⟩ := span_replaced (fun _ => endsWord_name) replaces
  have kind : wordKind (String.ofList (cs.takeWhile isNameChar)) new.head? =
      wordKind (String.ofList (cs.takeWhile isNameChar)) (cs.dropWhile isNameChar).head? := by
    rcases follow with same | ⟨sound, ends⟩
    · rw [same]
    · rw [word_kind_sound sound, word_kind_ends fun c head => (ends c head).1]
  simp only [read_word_eq, taken, dropped, kind]

theorem read_number_plain {number : List Char} (split : splitNumber cs = (number, rest))
    (other : ∀ c, rest.head? = some c → isNameChar c = false) :
    readNumber cs = ⟨.number, number, rest⟩ := by
  unfold readNumber
  rw [split]
  cases rest with
  | nil => rfl
  | cons c rest => simp [other c rfl]

theorem read_number_name {number : List Char} (split : splitNumber cs = (number, c :: rest))
    (name : isNameChar c = true) : readNumber cs =
      ⟨.fault (.malformedNumber (String.ofList (number ++ [c]))), number ++ [c], rest⟩ := by
  unfold readNumber
  rw [split]
  simp [name]

theorem read_number_local (cs : List Char) (follow : MayFollow (readNumber cs) new) :
    readNumber ((readNumber cs).taken ++ new) =
      ⟨(readNumber cs).kind, (readNumber cs).taken, new⟩ := by
  obtain ⟨number, rest, split⟩ : ∃ number rest, splitNumber cs = (number, rest) := ⟨_, _, rfl⟩
  have again := split_number_local cs
  rw [split] at again
  by_cases name : ∃ c behind, rest = c :: behind ∧ isNameChar c = true
  · obtain ⟨c, behind, rfl, name⟩ := name
    have same : number ++ [c] ++ new = number ++ c :: new := List.append_cons number c new ▸ rfl
    rw [read_number_name split name]
    dsimp only
    rw [same]
    exact read_number_name (again (c :: new) (.inl rfl)) name
  · have other : ∀ c, rest.head? = some c → isNameChar c = false := by
      intro c head
      cases rest with
      | nil => cases head
      | cons d rest =>
        cases head
        exact Bool.eq_false_iff.mpr fun yes => name ⟨c, rest, rfl, yes⟩
    rw [read_number_plain split other] at follow ⊢
    exact read_number_plain (again new follow.replaces)
      (replaces_head (fun _ => endsWord_name) other follow.replaces)

theorem follow_end {kind : TokenKind} {taken : List Char} (follow : MayFollow ⟨kind, taken, []⟩ new)
    (final : kind.isFinal = true) : new = [] := by
  rcases follow with same | ⟨more, -⟩
  · exact List.head?_eq_none_iff.mp same
  · rw [final] at more
    cases more

theorem read_string_local (cs : List Char) (follow : MayFollow (readString cs) new) :
    readString ((readString cs).taken ++ new) =
      ⟨(readString cs).kind, (readString cs).taken, new⟩ := by
  fun_induction readString cs with
  | case1 | case4 =>
    rw [follow_end follow rfl]
    rfl
  | case2 | case3 | case5 => rfl
  | case6 c cs newline ih =>
    have inner := ih follow
    simp_all [prepend, readString]
  | case7 c cs quote newline last broken escaped ih =>
    have inner := ih follow
    have plain : c ≠ '\\' := by
      rintro rfl
      cases cs with
      | nil => exact last rfl rfl
      | cons next cs => exact escaped next cs rfl rfl
    simp_all [prepend, readString]

theorem starts_with {taken rest : List Char} (whole : taken ++ rest = c :: cs) (some : taken ≠ []) :
    ∃ more, taken = c :: more := by
  obtain ⟨d, more, rfl⟩ := List.exists_cons_of_ne_nil some
  exact ⟨more, by rw [(List.cons.inj whole).1]⟩

/-- Where the first character decides that a reader reads, it reads again what starts with the same
character. -/
theorem reader_local {reader : List Char → Lexeme}
    (reads : ∀ cs, Lexeme.read depth (c :: cs) = reader (c :: cs))
    (starts : ∃ more, (reader (c :: cs)).taken = c :: more)
    (again : MayFollow (reader (c :: cs)) new → reader ((reader (c :: cs)).taken ++ new) =
      ⟨(reader (c :: cs)).kind, (reader (c :: cs)).taken, new⟩)
    (follow : MayFollow (Lexeme.read depth (c :: cs)) new) :
    Lexeme.read depth ((Lexeme.read depth (c :: cs)).taken ++ new) =
      ⟨(Lexeme.read depth (c :: cs)).kind, (Lexeme.read depth (c :: cs)).taken, new⟩ := by
  rw [reads] at follow ⊢
  obtain ⟨more, taken⟩ := starts
  have same := again follow
  rw [taken, List.cons_append] at same ⊢
  rw [reads, same]

/-- **Reading looks one character ahead.** A lexeme is read again from its own characters, whatever
is behind them, as long as the first character there is the same or ends the lexeme as well. -/
theorem read_local (depth : Nat) (cs : List Char) (follow : MayFollow (Lexeme.read depth cs) new) :
    Lexeme.read depth ((Lexeme.read depth cs).taken ++ new) =
      ⟨(Lexeme.read depth cs).kind, (Lexeme.read depth cs).taken, new⟩ := by
  cases cs with
  | nil =>
    have final : (Lexeme.read depth []).kind.isFinal = true := by
      simp only [Lexeme.read]
      split <;> rfl
    rw [follow_end follow final]
    rfl
  | cons c cs =>
    by_cases blank : isBlank c = true
    · refine reader_local (fun cs => ?_) ⟨cs.takeWhile isBlank, ?_⟩ (read_blank_local _) follow
      · simp only [Lexeme.read, blank, ↓reduceIte]
      · simp only [readBlank, List.takeWhile_cons, blank, ↓reduceIte]
    by_cases quote : c = '"'
    · subst quote
      have same := read_string_local cs follow
      exact congrArg (Lexeme.prepend ['"']) same
    by_cases starts : startsNumber c = true
    · exact reader_local (start_reads_as_number starts depth)
        (starts_with (Lexeme.readNumber_append _) (Lexeme.readNumber_taken_ne_nil starts))
        (read_number_local _) follow
    by_cases left : c = '('
    · subst left
      rfl
    by_cases right : c = ')'
    · subst right
      rfl
    by_cases comma : c = ','
    · subst comma
      rfl
    by_cases name : isNameChar c = true
    · exact reader_local (name_reads_as_word name (Bool.eq_false_iff.mpr starts) depth)
        (starts_with (Lexeme.readWord_append _) (Lexeme.readWord_taken_ne_nil name))
        (read_word_local _) follow
    · simp only [Lexeme.read, blank, quote, starts, left, right, comma, name, Bool.false_eq_true,
        ↓reduceIte, List.cons_append, List.nil_append]

/-! ## Streams -/

/-- The mark behind a token. -/
def past (mark : Mark) (token : Token) : Mark where
  offset := mark.offset + Text.utf8Length token.text.toList
  depth := Mark.depthAfter mark.depth token.kind
  line := mark.line + token.text.toList.count '\n'

/-- The mark behind a row of tokens. -/
def pastAll (mark : Mark) (tokens : List Token) : Mark := tokens.foldl past mark

theorem past_token (mark : Mark) (lexeme : Lexeme) :
    past mark (mark.token lexeme) = mark.after lexeme := by
  simp [past, Mark.token, Mark.after]

variable {mark later : Mark}

theorem delimited_follows {lexeme : Lexeme} (more : lexeme.kind.isFinal = false)
    (delimited : Delimited new) : MayFollow lexeme new := by
  refine .inr ⟨more, fun c head => ?_⟩
  rcases delimited c head with rfl | rfl | rfl <;> exact ⟨by decide, fun _ => by decide⟩

/-- The first token of a stream is the lexeme that is read first. -/
theorem read_tokens (mark : Mark) (cs : List Char) :
    ∃ back, (Stream.read mark cs).tokens = mark.token (Lexeme.read mark.depth cs) :: back := by
  cases final : (Lexeme.read mark.depth cs).kind.isFinal with
  | true => exact ⟨[], by rw [Stream.read_of_final rfl final]; rfl⟩
  | false => exact ⟨_, by rw [Stream.read_of_more rfl final, Stream.tokens_cons]⟩

theorem reads_tokens {front : List Token} (reads : Reads mark cs front later rest) :
    (Stream.read mark cs).tokens = front ++ (Stream.read later rest).tokens := by
  rw [Reads] at reads
  rw [reads, Stream.tokens, List.append_assoc, ← Stream.tokens]

/-- The tokens in front of a token are read again, whatever is behind them, as long as it starts
with the same character or is delimited. -/
theorem read_front (mark : Mark) (cs : List Char) : ∀ (front back : List Token) (token : Token),
    (Stream.read mark cs).tokens = front ++ token :: back → ∃ rest, cs = spelled front ++ rest ∧
      token = (pastAll mark front).token (Lexeme.read (pastAll mark front).depth rest) ∧
      ∀ new, new.head? = rest.head? ∨ Delimited new →
        Reads mark (spelled front ++ new) front (pastAll mark front) new := by
  fun_induction Stream.read mark cs with
  | case1 mark cs lexeme more ih =>
    intro front back token split
    cases front with
    | nil =>
      obtain ⟨rfl, -⟩ := List.cons.inj split
      exact ⟨cs, rfl, rfl, fun new _ => reads_nil⟩
    | cons first front =>
      obtain ⟨rfl, behind⟩ := List.cons.inj split
      obtain ⟨rest, whole, here, again⟩ := ih front back token behind
      have spells : spelled (mark.token lexeme :: front) = lexeme.taken ++ spelled front := by
        simp [Mark.token]
      have moved : pastAll mark (mark.token lexeme :: front) = pastAll (mark.after lexeme) front :=
        congrArg (pastAll · front) (past_token mark lexeme)
      rw [spells, moved]
      refine ⟨rest, ?_, here, fun new next => ?_⟩
      · rw [List.append_assoc, ← whole]
        exact (Lexeme.taken_append_rest mark.depth cs).symm
      · have follow : MayFollow lexeme (spelled front ++ new) := by
          cases chars : spelled front with
          | cons c chars => exact .inl (by rw [whole, chars]; rfl)
          | nil =>
            rw [chars] at whole
            rcases next with same | delimited
            · exact .inl (by rw [whole]; exact same)
            · exact delimited_follows more delimited
        have first : Reads mark (lexeme.taken ++ (spelled front ++ new)) [mark.token lexeme]
            (mark.after lexeme) (spelled front ++ new) := by
          rw [Reads, Stream.read_of_more (read_local mark.depth cs follow) more]
          rfl
        rw [List.append_assoc]
        exact reads_append first (again new next)
  | case2 mark cs lexeme final =>
    intro front back token split
    cases front with
    | nil =>
      obtain ⟨rfl, -⟩ := List.cons.inj split
      exact ⟨cs, rfl, rfl, fun new _ => reads_nil⟩
    | cons first front => exact absurd (List.cons.inj split).2 (by simp)

end ResourceQuery.LookAhead
