import ResourceQuery.Proofs.LookAhead
import ResourceQuery.Proofs.PlaceIndependence

/-! Blanks that are put in front of tokens change nothing. Such a blank ends the token before it,
which had ended there anyway, and the token behind it is read from the same characters as before. So
the streams of both texts have the same content, and that is all a statement is made of. -/
namespace ResourceQuery.BlankInsensitivity
open CanonicalRoundTrip GrammarExactness LexemeSpelling LookAhead PlaceIndependence StreamTiling
open Lexeme (readBlank)
open Text (utf8Length utf8Length_cons length_le_utf8Length)

variable {mark : Mark} {cs : List Char} {lexeme : Lexeme}

/-! ## Blanks in front -/

/-- The content of a stream depends on the characters, and on how many parentheses are open. -/
theorem content_mark (mark mark' : Mark) (cs : List Char) (same : mark'.depth = mark.depth) :
    content (Stream.read mark' cs) = content (Stream.read mark cs) := by
  fun_induction Stream.read mark cs generalizing mark' with
  | case1 mark cs lexeme more ih =>
    have first : Lexeme.read mark'.depth cs = lexeme := by rw [same]
    have behind := ih (mark'.after lexeme) (by rw [Mark.after, Mark.after, same])
    rw [Stream.read_of_more first more]
    by_cases blank : lexeme.kind = .blank
    · rw [content_blank blank, content_blank blank, behind]
    · rw [content_cons blank, content_cons blank, behind]
      rfl
  | case2 mark cs lexeme final =>
    have first : Lexeme.read mark'.depth cs = lexeme := by rw [same]
    rw [Stream.read_of_final first (Bool.eq_true_of_not_eq_false final)]
    rfl

theorem content_dropWhile (mark : Mark) (cs : List Char) :
    content (Stream.read mark cs) = content (Stream.read mark (cs.dropWhile isBlank)) := by
  cases cs with
  | nil => rfl
  | cons c cs =>
    by_cases blank : isBlank c = true
    · have first : Lexeme.read mark.depth (c :: cs) = readBlank (c :: cs) := by
        simp only [Lexeme.read, blank, ↓reduceIte]
      rw [Stream.read_of_more first rfl, content_blank rfl]
      exact content_mark _ _ _ rfl
    · rw [List.dropWhile_cons_of_neg blank]

/-- Blanks in front of all tokens say nothing. -/
theorem content_blanks {blanks : List Char} (all : ∀ c ∈ blanks, isBlank c = true) (mark : Mark)
    (cs : List Char) :
    content (Stream.read mark (blanks ++ cs)) = content (Stream.read mark cs) := by
  rw [content_dropWhile, List.dropWhile_append_of_pos all, ← content_dropWhile]

/-! ## Blanks in between -/

/-- The characters with more in front of each and behind the last: at each byte offset those that
the gap is filled with there. -/
def padded (gap : Nat → List Char) (offset : Nat) : List Char → List Char
  | [] => gap offset
  | c :: cs => gap offset ++ c :: padded gap (offset + c.utf8Size) cs

variable {gap : Nat → List Char} {offset : Nat}

/-- Where all gaps are empty, nothing is added. -/
theorem padded_append (chars rest : List Char) : ∀ offset,
    (∀ place, offset ≤ place → place < offset + utf8Length chars → gap place = []) →
      padded gap offset (chars ++ rest) = chars ++ padded gap (offset + utf8Length chars) rest := by
  induction chars with
  | nil =>
    intro offset none
    rfl
  | cons c chars ih =>
    intro offset none
    have positive := c.utf8Size_pos
    rw [utf8Length_cons] at none ⊢
    have here : gap offset = [] := none offset (Nat.le_refl _) (by omega)
    have behind := ih (offset + c.utf8Size) (by
      intro place low high
      exact none place (by omega) (by omega))
    rw [List.cons_append, padded, here, behind, Nat.add_assoc]
    rfl

/-- A token stays whole: only the gap in front of it is filled. -/
theorem padded_token {taken rest : List Char} (some : taken ≠ []) (none : ∀ place, offset < place →
    place < offset + utf8Length taken → gap place = []) : padded gap offset (taken ++ rest) =
      gap offset ++ (taken ++ padded gap (offset + utf8Length taken) rest) := by
  obtain ⟨c, more, rfl⟩ := List.exists_cons_of_ne_nil some
  have positive := c.utf8Size_pos
  rw [utf8Length_cons] at none ⊢
  have behind := padded_append more rest (offset + c.utf8Size) (by
    intro place low high
    exact none place (by omega) (by omega))
  rw [List.cons_append, padded, behind, Nat.add_assoc]
  rfl

/-- So does the rest of a text behind its last token. -/
theorem padded_last {cs : List Char} (none : ∀ place, offset < place → gap place = []) :
    padded gap offset cs = gap offset ++ cs := by
  cases cs with
  | nil => exact (List.append_nil _).symm
  | cons c cs =>
    have whole : padded gap offset (c :: cs ++ []) = _ :=
      padded_token (List.cons_ne_nil c cs) fun place low _ => none place low
    have positive := length_le_utf8Length (c :: cs)
    have behind : gap (offset + utf8Length (c :: cs)) = [] := by
      apply none
      rw [List.length_cons] at positive
      omega
    rw [List.append_nil, padded, behind, List.append_nil] at whole
    exact whole

/-- What comes behind a token now is what came before, or a blank. -/
theorem padded_follows (blank : ∀ place, ∀ c ∈ gap place, isBlank c = true)
    (more : lexeme.kind.isFinal = false) (counts : lexeme.kind ≠ .blank) (offset : Nat) :
    MayFollow lexeme (padded gap offset lexeme.rest) := by
  cases filled : gap offset with
  | nil =>
    left
    cases rest : lexeme.rest with
    | nil => rw [padded, filled]
    | cons c cs => rw [padded, filled]; rfl
  | cons c cs =>
    right
    refine ⟨more, ?_⟩
    intro d head
    have first : (padded gap offset lexeme.rest).head? = some c := by
      cases lexeme.rest <;> rw [padded, filled] <;> rfl
    obtain rfl : c = d := Option.some.inj (first.symm.trans head)
    have space : isBlank c = true := blank offset c (by rw [filled]; exact List.mem_cons_self)
    refine ⟨by simp [endsWord, space], ?_⟩
    intro kind
    exact absurd kind counts

theorem read_later (mark : Mark) (cs : List Char) :
    ∀ token ∈ (Stream.read mark cs).tokens, mark.offset ≤ token.pos := by
  intro token member
  obtain ⟨front, back, split⟩ := List.append_of_mem member
  rw [(read_place mark cs front back token split).1]
  exact Nat.le_add_right _ _

/-- From the mark on, only gaps where a token starts are filled. -/
def AtTokens (gap : Nat → List Char) (mark : Mark) (cs : List Char) : Prop :=
  ∀ place, mark.offset ≤ place → gap place ≠ [] →
    ∃ token ∈ (Stream.read mark cs).tokens, token.pos = place

/-- So no gap inside the first token is filled, and behind it the same holds again. -/
theorem at_tokens_more (first : Lexeme.read mark.depth cs = lexeme)
    (more : lexeme.kind.isFinal = false) (starts : AtTokens gap mark cs) :
    (∀ place, mark.offset < place → place < mark.offset + utf8Length lexeme.taken →
        gap place = []) ∧ AtTokens gap (mark.after lexeme) lexeme.rest := by
  have later := read_later (mark.after lexeme) lexeme.rest
  have passed : (mark.after lexeme).offset = mark.offset + utf8Length lexeme.taken := rfl
  have tokens : (Stream.read mark cs).tokens =
      mark.token lexeme :: (Stream.read (mark.after lexeme) lexeme.rest).tokens := by
    rw [Stream.read_of_more first more, Stream.tokens_cons]
  unfold AtTokens at starts
  rw [tokens] at starts
  constructor
  · intro place low high
    by_contra filled
    obtain ⟨token, member, rfl⟩ := starts place (Nat.le_of_lt low) filled
    rcases List.mem_cons.mp member with rfl | member
    · exact Nat.lt_irrefl _ low
    · exact Nat.not_lt.mpr (later token member) high
  · intro place low filled
    have some : 0 < lexeme.taken.length := by
      apply List.length_pos_iff.mpr
      rw [← first] at more ⊢
      exact Lexeme.taken_ne_nil more
    have bytes := length_le_utf8Length lexeme.taken
    obtain ⟨token, member, rfl⟩ := starts place (by omega) filled
    rcases List.mem_cons.mp member with rfl | member
    · have here : (mark.token lexeme).pos = mark.offset := rfl
      omega
    · exact ⟨token, member, rfl⟩

theorem at_tokens_last (final : (Lexeme.read mark.depth cs).kind.isFinal = true)
    (starts : AtTokens gap mark cs) : ∀ place, mark.offset < place → gap place = [] := by
  intro place low
  by_contra filled
  obtain ⟨token, member, rfl⟩ := starts place (Nat.le_of_lt low) filled
  rw [Stream.read_of_final rfl final] at member
  rw [List.mem_singleton.mp member] at low
  exact Nat.lt_irrefl _ low

/-- Blanks in front of tokens leave the content of a stream as it is. -/
theorem content_padded (blank : ∀ place, ∀ c ∈ gap place, isBlank c = true) (mark : Mark)
    (cs : List Char) : ∀ mark', mark'.depth = mark.depth → AtTokens gap mark cs →
      content (Stream.read mark' (padded gap mark.offset cs)) = content (Stream.read mark cs) := by
  fun_induction Stream.read mark cs with
  | case1 mark cs lexeme more ih =>
    intro mark' same starts
    obtain ⟨none, fewer⟩ := at_tokens_more rfl more starts
    let new := padded gap (mark.after lexeme).offset lexeme.rest
    have split : padded gap mark.offset cs = gap mark.offset ++ (lexeme.taken ++ new) := by
      have whole : lexeme.taken ++ lexeme.rest = cs := Lexeme.taken_append_rest mark.depth cs
      rw [← whole]
      exact padded_token (Lexeme.taken_ne_nil more) none
    rw [split, content_blanks (blank mark.offset)]
    by_cases kind : lexeme.kind = .blank
    · have level : mark'.depth = (mark.after lexeme).depth := by
        rw [same, Mark.after, kind]
        rfl
      have spaces : ∀ c ∈ lexeme.taken, isBlank c = true := by
        have run : lexeme = readBlank cs := first_blank (read_first mark.depth cs) kind
        rw [run]
        exact fun _ member => List.mem_takeWhile_imp member
      rw [content_blank kind, content_blanks spaces]
      exact ih mark' level fewer
    · have first : Lexeme.read mark'.depth (lexeme.taken ++ new) =
          ⟨lexeme.kind, lexeme.taken, new⟩ := by
        rw [same]
        exact read_local mark.depth cs (padded_follows blank more kind _)
      have level : (mark'.after ⟨lexeme.kind, lexeme.taken, new⟩).depth =
          (mark.after lexeme).depth := by
        rw [Mark.after, Mark.after, same]
      rw [Stream.read_of_more first more, content_cons kind, content_cons kind, ih _ level fewer]
      rfl
  | case2 mark cs lexeme final =>
    intro mark' same starts
    have final : lexeme.kind.isFinal = true := Bool.eq_true_of_not_eq_false final
    rw [padded_last (at_tokens_last final starts), content_blanks (blank mark.offset),
      content_mark mark mark' cs same, Stream.read_of_final rfl final]

/-! ## Texts -/

/-- The text with the gap in front of each of its characters filled, and the one at its end. -/
def paddedText (gap : Nat → List Char) (text : String) : String :=
  String.ofList (padded gap 0 text.toList)

/-- **Blanks between tokens change nothing.** Where the start of any token of a text is given
spaces, tabs and newlines in front, reading comes to the same: the tree is the same in all but its
origins, or the fault is the same. -/
theorem blanks_ignored {text : String} {gap : Nat → List Char} (handle handle' : Nat)
    (name name' : String) (blank : ∀ place, ∀ c ∈ gap place, c = ' ' ∨ c = '\t' ∨ c = '\n')
    (starts : ∀ place, gap place ≠ [] → ∃ token ∈ (Stream.ofText text).tokens, token.pos = place) :
    Agree (Tree.parse handle name text) (Tree.parse handle' name' (paddedText gap text)) := by
  apply parse_agrees
  have spaces : ∀ place, ∀ c ∈ gap place, isBlank c = true := by
    intro place c member
    simpa [isBlank, or_assoc] using blank place c member
  have same := content_padded spaces Mark.start text.toList Mark.start rfl
    fun place _ => starts place
  rw [paddedText, Stream.ofText, Stream.ofText, String.toList_ofList]
  exact same.symm

/-- Blanks between an operator and its list, and behind everything. -/
theorem blanks_ignored_in_call :
    paddedText (fun place => if place = 2 then ['\n'] else if place = 8 then [' ', '\t'] else [])
        "in(é,1)" = "in\n(é,1) \t" ∧
      Agree (Tree.parse 0 "root" "in(é,1)") (Tree.parse 1 "other" "in\n(é,1) \t") := by
  let gap : Nat → List Char := fun place =>
    if place = 2 then ['\n'] else if place = 8 then [' ', '\t'] else []
  have filled : paddedText gap "in(é,1)" = "in\n(é,1) \t" := by decide +kernel
  have blank : ∀ place, ∀ c ∈ gap place, c = ' ' ∨ c = '\t' ∨ c = '\n' := by
    intro place
    simp only [gap]
    split
    · simp
    split <;> simp
  have starts : ∀ place, gap place ≠ [] →
      ∃ token ∈ (Stream.ofText "in(é,1)").tokens, token.pos = place := by
    intro place
    simp only [gap]
    split
    · subst place
      decide +kernel
    split
    · subst place
      decide +kernel
    · exact fun some => absurd rfl some
  have agree := blanks_ignored 0 1 "root" "other" blank starts
  rw [filled] at agree
  exact ⟨filled, agree⟩

end ResourceQuery.BlankInsensitivity
