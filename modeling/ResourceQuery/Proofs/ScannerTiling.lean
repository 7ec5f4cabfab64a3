import ResourceQuery.Proofs.ScannerPhases

/-! What a scanner hands out. Between any two rounds of its loop a scanner stands for a lexer, which
reads whole lexemes, and one more round either brings the next token closer or hands it out
(`Stands`). So the loop comes to an end each time, nothing breaks down, and the tokens are those of
the lexer, which tile the text. -/
namespace ResourceQuery.ScannerTiling
open Scan ScannerPhases StreamTiling Text

variable {text : String} {mark : Mark} {before taken ahead : List Char} {n : Nat}
  {scanner : Scanner} {lexer : Lexer}

/-! ## Rounds -/

/-- The scanner stands where the lexer does, or it is already on the way to the lexer's next token.
The number says how many phases it takes at most until that token is ready. -/
inductive Stands (text : String) : Nat → Scanner → Lexer → Prop where
  | fresh {before : List Char} {scanner : Scanner} {lexer : Lexer} (unended : lexer.ended = none)
      (phase : scanner.phase = some .between)
      (reads : Reads text lexer.mark before [] lexer.ahead scanner) : Stands text 2 scanner lexer
  /-- The characters ahead have asked for the phase. -/
  | begun {before taken ahead : List Char} {scanner : Scanner} {lexer : Lexer} {phase : Phase}
      (unended : lexer.ended = none) (same : scanner.phase = some phase)
      (whole : taken ++ ahead = lexer.ahead) (opens : Opens phase taken ahead)
      (reads : Reads text lexer.mark before taken ahead scanner) : Stands text 1 scanner lexer
  /-- A token is ready, and the scanner is fresh behind it. -/
  | ready {before : List Char} {scanner : Scanner} {lexer : Lexer} (unended : lexer.ended = none)
      (more : lexer.advance.1.kind.isFinal = false) (phase : scanner.phase = some .between)
      (reads : Reads text lexer.advance.2.mark before [] lexer.advance.2.ahead scanner) :
      Stands text 0 { scanner with pending := some lexer.advance.1 } lexer
  /-- The token that is ready is the last one. -/
  | last {mark : Mark} {before taken ahead : List Char} {scanner : Scanner} {lexer : Lexer}
      (unended : lexer.ended = none) (final : lexer.advance.1.kind.isFinal = true)
      (reads : Reads text mark before taken ahead scanner) :
      Stands text 0 { scanner with pending := some lexer.advance.1 } lexer
  /-- The last token has been handed out, and is kept. -/
  | spent {mark : Mark} {before taken ahead : List Char} {scanner : Scanner} {lexer : Lexer}
      {token : Token} (kept : lexer.ended = some token)
      (reads : Reads text mark before taken ahead scanner) :
      Stands text 0 { scanner with terminal := some token } lexer

theorem stands_ofText (text : String) : Stands text 2 (.ofText text) (.ofText text) :=
  .fresh rfl rfl (reads_ofText text)

theorem stands_le (stands : Stands text n scanner lexer) : n ≤ 2 := by
  cases stands <;> decide

/-- A phase that settles the characters ahead of a lexer leaves a scanner that stands for it. -/
theorem settles_stands {phase : Option Phase} (unended : lexer.ended = none)
    (settles : Settles text lexer.mark lexer.ahead n (phase, scanner)) :
    Stands text n { scanner with phase } lexer := by
  cases settles with
  | hands whole opens reads => exact .begun unended rfl whole opens (reads_phase reads _)
  | more first more reads =>
    subst first
    exact .ready unended more rfl (reads_phase reads _)
  | last first final reads =>
    subst first
    exact .last unended final (reads_phase reads _)

theorem phase_turn {phase : Phase} {others : Nat} (unended : lexer.ended = none)
    (same : scanner.phase = some phase) (reads : Reads text lexer.mark before taken ahead scanner)
    (settled : SettledBy text lexer.mark lexer.ahead others (step phase) scanner) :
    ∃ later m, m ≤ others ∧ turn.run scanner = .ok (none, later) ∧ Stands text m later lexer := by
  obtain ⟨⟨next, later⟩, m, run, few, settles⟩ := settled
  refine ⟨{ later with phase := next }, m, few, ?_, settles_stands unended settles⟩
  rw [turn, bind_get, reads.idle, reads.unended, same]
  exact bind_run run

/-- A round that hands nothing out brings the next token closer. -/
theorem turn_silent (stands : Stands text (n + 1) scanner lexer) : ∃ later m, m ≤ n ∧
    turn.run scanner = .ok (none, later) ∧ Stands text m later lexer := by
  cases stands with
  | fresh unended phase reads => exact phase_turn unended phase reads (between_settles reads)
  | begun unended same whole opens reads =>
    exact phase_turn unended same reads (whole ▸ step_settles opens reads)

/-- A token that is ready is handed out in the next round, and the last one in every round. -/
theorem turn_answers (stands : Stands text 0 scanner lexer) : ∃ later m,
    turn.run scanner = .ok (some lexer.nextToken.1, later) ∧
      Stands text m later lexer.nextToken.2 := by
  cases stands with
  | @ready before scanner lexer unended more phase reads =>
    have behind : lexer.advance.2.ended = none := if_neg (Bool.eq_false_iff.mp more)
    have open_ended : (if lexer.advance.1.kind.isFinal then some lexer.advance.1
        else scanner.terminal) = none := by rw [more]; exact reads.unended
    rw [Lexer.nextToken, unended]
    exact ⟨_, 2, rfl, .fresh behind phase { reads with idle := rfl, unended := open_ended }⟩
  | @last mark before taken ahead scanner lexer unended final reads =>
    have behind : lexer.advance.2.ended = some lexer.advance.1 := if_pos final
    have idle : Reads text mark before taken ahead { scanner with pending := none } :=
      { reads with idle := rfl }
    rw [Lexer.nextToken, unended]
    refine ⟨_, 0, rfl, ?_⟩
    simpa [final] using Stands.spent behind idle
  | @spent mark before taken ahead scanner lexer token kept reads =>
    rw [Lexer.nextToken, kept]
    refine ⟨_, 0, ?_, .spent kept reads⟩
    rw [turn, bind_get, reads.idle]
    rfl

/-! ## Calls -/

/-- The loop finds the lexer's next token as soon as it has more rounds than it takes phases. -/
theorem nextTokenWithin_run (stands : Stands text n scanner lexer) : ∃ later m,
    (∀ rounds, n < rounds →
      (nextTokenWithin rounds).run scanner = .ok (lexer.nextToken.1, later)) ∧
      Stands text m later lexer.nextToken.2 := by
  induction n using Nat.strong_induction_on generalizing scanner with
  | _ n ih =>
    cases n with
    | zero =>
      obtain ⟨later, m, answers, stands⟩ := turn_answers stands
      refine ⟨later, m, fun rounds enough => ?_, stands⟩
      obtain ⟨rounds, rfl⟩ := Nat.exists_eq_add_one.mpr enough
      rw [nextTokenWithin, bind_run answers]
      rfl
    | succ n =>
      obtain ⟨between, phases, few, silent, stands⟩ := turn_silent stands
      obtain ⟨later, m, found, stands⟩ := ih phases (Nat.lt_succ_of_le few) stands
      refine ⟨later, m, fun rounds enough => ?_, stands⟩
      obtain ⟨rounds, rfl⟩ := Nat.exists_eq_add_one.mpr (Nat.zero_lt_of_lt enough)
      rw [nextTokenWithin, bind_run silent]
      exact found rounds (few.trans_lt (Nat.lt_of_succ_lt_succ enough))

theorem nextToken_run (stands : Stands text n scanner lexer) : ∃ later m,
    nextToken.run scanner = .ok (lexer.nextToken.1, later) ∧
      Stands text m later lexer.nextToken.2 := by
  obtain ⟨later, m, found, behind⟩ := nextTokenWithin_run stands
  exact ⟨later, m, found 3 (Nat.lt_succ_of_le (stands_le stands)), behind⟩

/-- The last token is kept by both or by neither. -/
theorem stands_ended (stands : Stands text n scanner lexer) :
    (scanner.terminal.isSome && scanner.pending.isNone) = lexer.ended.isSome := by
  cases stands with
  | fresh unended phase reads => rw [unended, reads.unended]; rfl
  | begun unended same whole opens reads => rw [unended, reads.unended]; rfl
  | ready unended more phase reads => rw [unended, reads.unended]; rfl
  | last unended final reads => rw [unended, reads.unended]; rfl
  | spent kept reads => rw [kept, reads.idle]; rfl

/-- A call is answered as the lexer answers it. -/
theorem call_run (stands : Stands text n scanner lexer) (call : Lexer.Call) : ∃ later m,
    (Scan.call call).run scanner = .ok ((lexer.call call).1, later) ∧
      Stands text m later (lexer.call call).2 := by
  obtain ⟨later, m, found, behind⟩ := nextToken_run stands
  cases call with
  | repeating => exact ⟨later, m, by rw [Scan.call, bind_run found]; rfl, behind⟩
  | ending =>
    cases kept : lexer.ended with
    | some token =>
      have silent : lexer.call .ending = (none, lexer) := by
        simp only [Lexer.call, Lexer.next?, kept]
      refine ⟨scanner, n, ?_, silent ▸ stands⟩
      rw [Scan.call, next?, bind_get, stands_ended stands, kept, silent]
      rfl
    | none =>
      have spoken : lexer.call .ending = (some lexer.nextToken.1, lexer.nextToken.2) := by
        simp only [Lexer.call, Lexer.next?, Lexer.nextToken, kept]
      refine ⟨later, m, ?_, spoken ▸ behind⟩
      rw [Scan.call, next?, bind_get, stands_ended stands, kept, spoken]
      exact bind_run found

theorem answers_run (stands : Stands text n scanner lexer) (calls : List Lexer.Call) :
    ∃ later, (Scan.answers calls).run scanner = .ok (lexer.answers calls, later) := by
  induction calls generalizing n scanner lexer with
  | nil => exact ⟨scanner, rfl⟩
  | cons call calls ih =>
    obtain ⟨between, m, answer, stands⟩ := call_run stands call
    obtain ⟨later, others⟩ := ih stands
    refine ⟨later, ?_⟩
    rw [Scan.answers, bind_run answer, bind_run others]
    rfl

/-- A scanner of a text never breaks down, and answers all calls as the lexer of the text does. -/
theorem scanner_answers (text : String) (calls : List Lexer.Call) :
    Scanner.answers text calls = .ok ((Lexer.ofText text).answers calls) := by
  obtain ⟨later, run⟩ := answers_run (stands_ofText text) calls
  rw [Scanner.answers, StateT.run'_eq, run]
  rfl

/-! ## Scanners that a text leads to -/

/-- The scanner comes up between two rounds, however many rounds there have been. -/
inductive Reached (text : String) : Scanner → Prop where
  | start : Reached text (.ofText text)
  | turn {scanner later : Scanner} {answer : Option Token} (reached : Reached text scanner)
      (run : turn.run scanner = .ok (answer, later)) : Reached text later

theorem turn_stands (stands : Stands text n scanner lexer) : ∃ answer later m other,
    turn.run scanner = .ok (answer, later) ∧ Stands text m later other := by
  cases n with
  | zero =>
    obtain ⟨later, m, run, behind⟩ := turn_answers stands
    exact ⟨_, later, m, _, run, behind⟩
  | succ n =>
    obtain ⟨later, m, -, run, behind⟩ := turn_silent stands
    exact ⟨_, later, m, _, run, behind⟩

theorem reached_stands (reached : Reached text scanner) :
    ∃ n lexer, Stands text n scanner lexer := by
  induction reached with
  | start => exact ⟨_, _, stands_ofText text⟩
  | turn reached run ih =>
    obtain ⟨n, lexer, stands⟩ := ih
    obtain ⟨answer, later, m, other, same, behind⟩ := turn_stands stands
    rw [run] at same
    cases same
    exact ⟨m, other, behind⟩

/-- The token that is being read spans whole characters of the text, and so does the character that
could be given back. -/
structure InPlace (text : String) (scanner : Scanner) : Prop where
  ordered : scanner.start ≤ scanner.position
  inside : scanner.position ≤ text.utf8ByteSize
  starts : (⟨scanner.start⟩ : String.Pos.Raw).IsValid text
  stops : (⟨scanner.position⟩ : String.Pos.Raw).IsValid text
  room : scanner.width ≤ scanner.position
  gives_back : (⟨scanner.position - scanner.width⟩ : String.Pos.Raw).IsValid text

theorem reads_in_place (reads : Reads text mark before taken ahead scanner) :
    InPlace text scanner := by
  have stops : (⟨scanner.position⟩ : String.Pos.Raw).IsValid text := by
    rw [reads.position]
    exact boundary reads.split
  have given : ∃ front behind, text.toList = front ++ behind ∧
      scanner.position = utf8Length front + scanner.width := by
    rcases reads.width with none | ⟨front, c, read, width⟩
    · exact ⟨_, _, reads.split, by rw [none, reads.position, Nat.add_zero]⟩
    · refine ⟨front, c :: ahead, by rw [reads.split, read]; simp, ?_⟩
      rw [reads.position, read, width]
      simp
  obtain ⟨front, behind, split, position⟩ := given
  refine ⟨?_, stops.le_utf8ByteSize, ?_, stops, by omega, ?_⟩
  · rw [reads.start, reads.position, utf8Length_append]
    exact Nat.le_add_right ..
  · rw [reads.start]
    exact boundary (reads.split.trans (List.append_assoc ..))
  · rw [position, Nat.add_sub_cancel]
    exact boundary split

theorem stands_in_place (stands : Stands text n scanner lexer) : InPlace text scanner := by
  cases stands with
  | fresh unended phase reads => exact reads_in_place reads
  | begun unended same whole opens reads => exact reads_in_place reads
  | ready unended more phase reads => exact { reads_in_place reads with }
  | last unended final reads => exact { reads_in_place reads with }
  | spent kept reads => exact { reads_in_place reads with }

/-- What holds of a scanner between any two rounds. -/
structure Sound (text : String) (scanner : Scanner) : Prop where
  in_place : InPlace text scanner
  /-- There is always something to hand out or a phase to run, so no end is made up. -/
  engaged : scanner.pending = none → scanner.terminal = none → scanner.phase ≠ none
  /-- The next round does not break down. -/
  turns : ∃ answer later, turn.run scanner = .ok (answer, later)
  /-- Within three rounds a token is handed out. -/
  answers : ∃ token later, ∀ rounds, 3 ≤ rounds →
    (nextTokenWithin rounds).run scanner = .ok (token, later)

theorem stands_engaged (stands : Stands text n scanner lexer) (idle : scanner.pending = none)
    (unended : scanner.terminal = none) : scanner.phase ≠ none := by
  cases stands with
  | fresh _ phase _ => simp [phase]
  | begun _ same _ _ _ => simp [same]
  | ready | last => cases idle
  | spent => cases unended

theorem reached_sound (reached : Reached text scanner) : Sound text scanner := by
  obtain ⟨n, lexer, stands⟩ := reached_stands reached
  obtain ⟨answer, later, -, -, turns, -⟩ := turn_stands stands
  obtain ⟨behind, -, found, -⟩ := nextTokenWithin_run stands
  exact ⟨stands_in_place stands, stands_engaged stands, ⟨answer, later, turns⟩,
    ⟨_, behind, fun rounds enough => found rounds ((stands_le stands).trans_lt enough)⟩⟩

/-- **The tokens of a text tile it.** Iterating a scanner gives finitely many tokens, which tile the
text, and then nothing. Asking it for tokens over and over instead gives the same tokens in the same
order and then only the last one again. It never breaks down: whenever a round begins, the next
token is found within three, no slice has its ends inside characters, and no end has to be made up.
-/
theorem scanner_tiles_text (text : String) : ∃ (body : List Token) (last : Token),
    Tiles text body last ∧
    (∀ n, Scanner.answers text (List.replicate n .ending) =
      .ok (((body ++ [last]).map some ++ List.replicate n none).take n)) ∧
    (∀ n, Scanner.answers text (List.replicate n .repeating) =
      .ok (((body ++ [last]).map some ++ List.replicate n (some last)).take n)) ∧
    ∀ scanner, Reached text scanner → Sound text scanner := by
  refine ⟨_, _, stream_tiles text, fun n => ?_, fun n => ?_, fun _ reached => reached_sound reached⟩
  · rw [scanner_answers, answers_replicate]
    rfl
  · rw [scanner_answers, answers_replicate]
    rfl

end ResourceQuery.ScannerTiling
