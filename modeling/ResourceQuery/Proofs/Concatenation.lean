import ResourceQuery.Proofs.CallOrder
import ResourceQuery.Proofs.ParenBalance
import ResourceQuery.Proofs.Relocation

/-! Texts put end to end. Where a token starts, a lexer remembers nothing of the text behind it but
its length, the parentheses that it leaves open and the line that it ends on. So if a text begins
with a parenthesis or a comma, which end whatever token is in front of them, the tokens of a longer
text are those of its two parts, and only their places know of each other (`lexing_distributes`). -/
namespace ResourceQuery.Concatenation
open CallOrder CanonicalRoundTrip LexemeSpelling LookAhead Relocation StreamTiling ViablePrefix
open Grammar (opened closed)

variable {mark : Mark} {cs : List Char} {u v : String}

/-! ## The same characters further on -/

/-- The move of a text to behind so many bytes, which changes nothing but offsets. -/
def onward (bytes : Nat) : Move := ⟨bytes, 0, 0⟩

/-- If no more parentheses are open there, a text is read the same wherever it is moved to, up to
its last token. -/
theorem read_onward (bytes : Nat) (mark : Mark) (cs : List Char) :
    (Stream.read ((onward bytes).mark mark) cs).tokens =
      (Stream.read mark cs).tokens.map (onward bytes).token := by
  fun_induction Stream.read mark cs with
  | case1 mark cs lexeme more ih =>
    have first : Lexeme.read ((onward bytes).mark mark).depth cs = lexeme := rfl
    have after : ((onward bytes).mark mark).after lexeme =
        (onward bytes).mark (mark.after lexeme) := after_moved (onward bytes) mark cs
    rw [Stream.read_of_more first more, after, Stream.tokens_cons, Stream.tokens_cons, ih]
    rfl
  | case2 mark cs lexeme final =>
    have first : Lexeme.read ((onward bytes).mark mark).depth cs = lexeme := rfl
    rw [Stream.read_of_final first (Bool.eq_true_of_not_eq_false final)]
    rfl

/-! ## The mark between the two texts -/

/-- How many parentheses the tokens of a text leave open. -/
def leftOpen (text : String) : Nat :=
  opened (Stream.ofText text).tokens - closed (Stream.ofText text).tokens

/-- What a lexer has to know of a text that is in front of its own, apart from the length of it. -/
def behind (text : String) : Mark := ⟨0, leftOpen text, 1 + text.toList.count '\n'⟩

/-- No token of the text is a fault, unless the text ends inside parentheses. -/
def Sound (text : String) : Prop :=
  ∀ token ∈ (Stream.ofText text).tokens, ∀ fault, token.kind = .fault fault → fault = .unfinished

/-- A sound text is read up to its end. -/
theorem sound_spelled (sound : Sound u) : spelled (Stream.ofText u).body = u.toList := by
  have last := sound (Stream.ofText u).last (by simp [Stream.tokens])
  rcases (final_iff _).mp (read_final Mark.start u.toList).2 with finish | ⟨fault, kind⟩
  · exact ((ParenBalance.finish_iff u).mp finish).1
  · obtain rfl := last fault kind
    exact ((ParenBalance.unfinished_iff u).mp kind).1

/-- Behind a sound text a lexer stands where the text ends. -/
theorem sound_mark (sound : Sound u) : pastAll Mark.start (Stream.ofText u).body =
    (onward u.utf8ByteSize).mark (behind u) := by
  have whole := sound_spelled sound
  have offset := pastAll_offset Mark.start (Stream.ofText u).body
  have line := pastAll_line Mark.start (Stream.ofText u).body
  have depth : _ = Mark.start.depth + _ := read_depth Mark.start u.toList (Stream.ofText u).body []
    (Stream.ofText u).last rfl
  obtain ⟨left, right⟩ := ParenBalance.counts_body u
  rw [whole, utf8Length_toList] at offset
  rw [whole] at line
  rw [← left, ← right] at depth
  generalize pastAll Mark.start (Stream.ofText u).body = reached at offset line depth
  obtain ⟨place, level, row⟩ := reached
  simp only [Mark.start] at offset line depth
  simp only [Move.mark, onward, behind, leftOpen, Mark.mk.injEq]
  omega

/-- The tokens of a sound text are made again in front of what delimits them. -/
theorem sound_reads (sound : Sound u) (delimited : Delimited cs) :
    Reads Mark.start (u.toList ++ cs) (Stream.ofText u).body
      ((onward u.utf8ByteSize).mark (behind u)) cs := by
  obtain ⟨_, -, -, again⟩ :=
    read_front Mark.start u.toList (Stream.ofText u).body [] (Stream.ofText u).last rfl
  have reads := again cs (.inr delimited)
  rwa [sound_spelled sound, sound_mark sound] at reads

/-! ## Both texts -/

/-- **Lexing distributes over concatenation at punctuation.** Three lexers yield one row of tokens
each: that of a sound text, that of a text which begins with a parenthesis or a comma, where it
starts with the parentheses open and on the line that the first text leaves, and that of the one
text followed by the other. The last row is the first without its last token, and then the second,
as many bytes further on as the first text is long. -/
theorem lexing_distributes (sound : Sound u) (punctuation : Delimited v.toList) : ∃ first second,
    (∀ yielded, Yields (.ofText u) yielded ↔ yielded = first) ∧
    (∀ yielded, Yields ⟨behind u, v.toList, none⟩ yielded ↔ yielded = second) ∧
    ∀ yielded, Yields (.ofText (u ++ v)) yielded ↔
      yielded = first.dropLast ++
        second.map fun token => { token with pos := token.pos + u.utf8ByteSize } := by
  refine ⟨_, _, fun yielded => yields_iff (ahead_read Mark.start u.toList),
    fun yielded => yields_iff (ahead_read (behind u) v.toList), fun yielded => ?_⟩
  have reads := reads_tokens (sound_reads sound punctuation)
  rw [read_onward, ← String.toList_append] at reads
  have both : Yields (.ofText (u ++ v)) yielded ↔ yielded = _ :=
    yields_iff (ahead_read Mark.start (u ++ v).toList)
  rw [reads] at both
  rw [Stream.tokens, List.dropLast_concat]
  exact both

/-- The first text ends in a word, on its second line and inside a list; the second one closes the
list, and then one too many. -/
theorem lexing_distributes_word : Sound "eq(\né" ∧ Delimited ")\n)".toList ∧
    Yields (.ofText ("eq(\né" ++ ")\n)")) [⟨.operator .equal, "eq", 0, 1⟩, ⟨.leftParen, "(", 2, 1⟩,
      ⟨.blank, "\n", 3, 1⟩, ⟨.identifier, "é", 4, 2⟩, ⟨.rightParen, ")", 6, 2⟩,
      ⟨.blank, "\n", 7, 2⟩, ⟨.fault .unmatchedParenthesis, ")", 8, 3⟩] := by
  have sound : Sound "eq(\né" := by
    have tokens : (Stream.ofText "eq(\né").tokens = [⟨.operator .equal, "eq", 0, 1⟩,
        ⟨.leftParen, "(", 2, 1⟩, ⟨.blank, "\n", 3, 1⟩, ⟨.identifier, "é", 4, 2⟩,
        ⟨.fault .unfinished, "", 6, 2⟩] := by decide +kernel
    simp [Sound, tokens]
  have delimited : Delimited ")\n)".toList := delimited_rightParen ['\n', ')']
  obtain ⟨first, second, one, two, both⟩ := lexing_distributes sound delimited
  obtain rfl := (one _).mp ((yields_iff (ahead_read Mark.start _)).mpr rfl)
  obtain rfl := (two _).mp ((yields_iff (ahead_read (behind "eq(\né") _)).mpr rfl)
  exact ⟨sound, delimited, (both _).mpr (by decide +kernel)⟩

end ResourceQuery.Concatenation
