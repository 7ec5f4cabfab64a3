import ResourceQuery.Proofs.ViablePrefix

/-! A text inside another one. Reading knows nothing of what is in front of it but a mark, so the
tokens of a text are made again wherever it stands: they keep their kinds and texts, and each stands
as many bytes further on and as many lines further down as the text does. More parentheses may be
open there, for only the end of a text and a parenthesis that closes too much ask for them, and
neither is in front of another token. -/
namespace ResourceQuery.Relocation
open CanonicalRoundTrip LexemeSpelling LookAhead StreamTiling ViablePrefix

/-- How far a text is moved: by the bytes in front of it and by the newlines among them, and to
where so many parentheses are open. -/
structure Move where
  offset : Nat
  depth : Nat
  lines : Nat

def Move.mark (move : Move) (mark : Mark) : Mark :=
  ⟨mark.offset + move.offset, mark.depth + move.depth, mark.line + move.lines⟩

def Move.token (move : Move) (token : Token) : Token :=
  { token with pos := token.pos + move.offset, line := token.line + move.lines }

/-- The move of what a text starts with to where a mark stands. -/
def moveTo (mark : Mark) : Move := ⟨mark.offset, mark.depth, mark.line - 1⟩

variable {move : Move} {mark : Mark} {cs new : List Char} {token : Token}
  {front back : List Token} {text : String} {depth : Nat}

/-! ## One lexeme -/

theorem read_deeper (more : (Lexeme.read depth cs).kind.isFinal = false) (deeper : Nat) :
    Lexeme.read (depth + deeper) cs = Lexeme.read depth cs := by
  cases cs with
  | nil =>
    have final : (Lexeme.read depth []).kind.isFinal = true := by
      simp only [Lexeme.read]
      split <;> rfl
    cases final.symm.trans more
  | cons c cs =>
    by_cases right : c = ')'
    · subst right
      have opened : depth ≠ 0 := by
        rintro rfl
        cases more
      rw [read_rightParen opened, read_rightParen (by omega)]
    · simp only [Lexeme.read, right, ↓reduceIte]

/-- A mark moves on past a lexeme as it would elsewhere. -/
theorem after_moved (move : Move) (mark : Mark) (cs : List Char) :
    (move.mark mark).after (Lexeme.read mark.depth cs) =
      move.mark (mark.after (Lexeme.read mark.depth cs)) := by
  have some : (Lexeme.read mark.depth cs).kind = .rightParen → mark.depth ≠ 0 := read_closing
  generalize Lexeme.read mark.depth cs = lexeme at some
  have deeper : Mark.depthAfter (mark.depth + move.depth) lexeme.kind =
      Mark.depthAfter mark.depth lexeme.kind + move.depth := by
    cases kind : lexeme.kind with
    | leftParen => exact Nat.add_right_comm ..
    | rightParen =>
      have opened := some kind
      simp only [Mark.depthAfter]
      omega
    | identifier | string | bool | number | null | comma | blank | operator | finish | fault => rfl
  simp only [Mark.after, Move.mark, deeper, Mark.mk.injEq, true_and]
  omega

/-! ## Streams -/

/-- A lexeme behind which there is more is the first token. -/
theorem reads_lexeme {lexeme : Lexeme} (first : Lexeme.read mark.depth cs = lexeme)
    (more : lexeme.kind.isFinal = false) :
    Reads mark cs [mark.token lexeme] (mark.after lexeme) lexeme.rest := by
  rw [Reads, Stream.read_of_more first more]
  rfl

/-- The tokens in front of a token are made again where the text is moved to. -/
theorem read_moved (move : Move) (mark : Mark) (cs : List Char) :
    ∀ (front back : List Token) (token : Token),
      (Stream.read mark cs).tokens = front ++ token :: back → ∃ rest, cs = spelled front ++ rest ∧
        Reads (move.mark mark) cs (front.map move.token) (move.mark (pastAll mark front)) rest := by
  fun_induction Stream.read mark cs with
  | case1 mark cs lexeme more ih =>
    intro front back token split
    cases front with
    | nil => exact ⟨cs, rfl, reads_nil⟩
    | cons first front =>
      obtain ⟨rfl, behind⟩ := List.cons.inj split
      obtain ⟨rest, whole, others⟩ := ih front back token behind
      have here : Lexeme.read (move.mark mark).depth cs = lexeme := read_deeper more move.depth
      have after : (move.mark mark).after lexeme = move.mark (mark.after lexeme) :=
        after_moved move mark cs
      have moved : pastAll mark (mark.token lexeme :: front) = pastAll (mark.after lexeme) front :=
        congrArg (pastAll · front) (past_token mark lexeme)
      refine ⟨rest, ?_, ?_⟩
      · have taken : lexeme.taken ++ lexeme.rest = cs := Lexeme.taken_append_rest mark.depth cs
        rw [spelled_cons, List.append_assoc, ← whole, ← taken]
        simp [Mark.token]
      · have one := reads_lexeme here more
        rw [after] at one
        rw [moved]
        exact reads_append one others
  | case2 mark cs lexeme final =>
    intro front back token split
    cases front with
    | nil => exact ⟨cs, rfl, reads_nil⟩
    | cons first front => exact absurd (List.cons.inj split).2 (by simp)

theorem pastAll_offset (mark : Mark) (tokens : List Token) :
    (pastAll mark tokens).offset = mark.offset + Text.utf8Length (spelled tokens) := by
  induction tokens generalizing mark with
  | nil => rfl
  | cons token tokens ih =>
    rw [pastAll, List.foldl_cons, ← pastAll, ih, spelled_cons, Text.utf8Length_append]
    exact Nat.add_assoc ..

theorem pastAll_line (mark : Mark) (tokens : List Token) :
    (pastAll mark tokens).line = mark.line + (spelled tokens).count '\n' := by
  induction tokens generalizing mark with
  | nil => rfl
  | cons token tokens ih =>
    rw [pastAll, List.foldl_cons, ← pastAll, ih, spelled_cons, List.count_append]
    exact Nat.add_assoc ..

theorem moveTo_start (line : 0 < mark.line) : (moveTo mark).mark Mark.start = mark := by
  simp only [moveTo, Move.mark, Mark.start, Nat.zero_add]
  rw [Nat.add_sub_cancel' line]

/-- A text that ends without a fault is its tokens, and closes what it opens. -/
theorem text_closes (finish : (Stream.ofText text).last.kind = .finish) :
    text.toList = spelled (Stream.ofText text).body ∧
      (pastAll Mark.start (Stream.ofText text).body).depth = 0 := by
  obtain ⟨rest, whole, last, -⟩ :=
    read_front Mark.start text.toList (Stream.ofText text).body [] (Stream.ofText text).last rfl
  rw [last] at finish
  obtain rfl := first_finish (read_first _ rest) finish
  refine ⟨by rwa [List.append_nil] at whole, ?_⟩
  by_contra opened
  simp [Mark.token, Lexeme.read, opened] at finish

/-- Such a text is read inside another one up to what delimits it there. -/
theorem text_moved (finish : (Stream.ofText text).last.kind = .finish) (line : 0 < mark.line)
    (delimited : Delimited new) : ∃ later,
      Reads mark (text.toList ++ new) ((Stream.ofText text).body.map (moveTo mark).token) later new ∧
        later.offset = mark.offset + text.utf8ByteSize ∧ later.depth = mark.depth ∧
        0 < later.line := by
  obtain ⟨whole, closed⟩ := text_closes finish
  obtain ⟨_, -, -, again⟩ :=
    read_front Mark.start text.toList (Stream.ofText text).body [] (Stream.ofText text).last rfl
  have tokens := reads_tokens (again new (.inr delimited))
  obtain ⟨back, next⟩ := read_tokens (pastAll Mark.start (Stream.ofText text).body) new
  rw [next] at tokens
  obtain ⟨rest, split, reads⟩ := read_moved (moveTo mark) Mark.start _ _ _ _ tokens
  obtain rfl := List.append_cancel_left split
  rw [moveTo_start line, ← whole] at reads
  refine ⟨_, reads, ?_, ?_, ?_⟩
  · simp only [Move.mark, pastAll_offset, ← whole, utf8Length_toList]
    simp [moveTo, Mark.start, Nat.add_comm]
  · simp [Move.mark, closed, moveTo]
  · simp only [Move.mark, pastAll_line, Mark.start]
    omega

end ResourceQuery.Relocation
