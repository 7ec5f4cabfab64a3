import Mathlib.Data.List.Chain
import Mathlib.Data.String.Basic
import ResourceQuery.Proofs.LexemeSpelling
import ResourceQuery.Token.Lexer

/-! The tokens of a text cover it from its first byte on, without a gap and without an overlap, up
to its end or up to the first fault. Everything else about places follows from one statement about
a stream that is read from any mark: what stands before a token decides where the token is. -/
namespace ResourceQuery.StreamTiling
open ResourceQuery.Text

/-- The byte behind a token. -/
def stop (token : Token) : Nat := token.pos + token.text.utf8ByteSize

/-- The characters of a row of tokens. -/
def spelled (tokens : List Token) : List Char := tokens.flatMap fun token => token.text.toList

@[simp] theorem spelled_nil : spelled [] = [] := rfl

@[simp] theorem spelled_cons (token : Token) (tokens : List Token) :
    spelled (token :: tokens) = token.text.toList ++ spelled tokens := rfl

@[simp] theorem spelled_append (front back : List Token) :
    spelled (front ++ back) = spelled front ++ spelled back := List.flatMap_append

theorem ofList_spelled (tokens : List Token) :
    String.ofList (spelled tokens) = String.join (tokens.map Token.text) := by
  apply String.toList_injective
  simp [spelled, List.flatMap, Function.comp_def]

theorem utf8Length_eq_utf8Len (cs : List Char) : utf8Length cs = String.utf8Len cs := by
  induction cs with
  | nil => rfl
  | cons c cs ih => rw [utf8Length_cons, String.utf8Len_cons, ih, Nat.add_comm]

theorem utf8Length_toList (text : String) : utf8Length text.toList = text.utf8ByteSize := by
  rw [utf8Length_eq_utf8Len, String.utf8Len_toList]

/-! ## Streams from any mark -/

/-- More tokens follow each token of a stream but the last, and none follows the last. -/
theorem read_final (mark : Mark) (cs : List Char) :
    (∀ token ∈ (Stream.read mark cs).body, token.kind.isFinal = false) ∧
      (Stream.read mark cs).last.kind.isFinal = true := by
  fun_induction Stream.read mark cs with
  | case1 mark cs lexeme more ih =>
    refine ⟨?_, ih.2⟩
    intro token member
    rcases List.mem_cons.mp member with rfl | member
    · exact more
    · exact ih.1 token member
  | case2 mark cs lexeme final =>
    exact ⟨fun token member => absurd member List.not_mem_nil, Bool.eq_true_of_not_eq_false final⟩

/-- No token of a stream but the last is without characters. -/
theorem read_body_nonempty (mark : Mark) (cs : List Char) :
    ∀ token ∈ (Stream.read mark cs).body, token.text ≠ "" := by
  fun_induction Stream.read mark cs with
  | case1 mark cs lexeme more ih =>
    intro token member
    rcases List.mem_cons.mp member with rfl | member
    · simpa [Mark.token] using Lexeme.taken_ne_nil more
    · exact ih token member
  | case2 mark cs lexeme final => exact fun token member => absurd member List.not_mem_nil

/-- Where a token starts is decided by the tokens before it: their bytes and their newlines are
what the mark has passed. -/
theorem read_place (mark : Mark) (cs : List Char) : ∀ (front back : List Token) (token : Token),
    (Stream.read mark cs).tokens = front ++ token :: back →
      token.pos = mark.offset + utf8Length (spelled front) ∧
        token.line = mark.line + (spelled front).count '\n' := by
  fun_induction Stream.read mark cs with
  | case1 mark cs lexeme more ih =>
    intro front back token split
    cases front with
    | nil =>
      obtain ⟨rfl, -⟩ := List.cons.inj split
      exact ⟨rfl, rfl⟩
    | cons first front =>
      obtain ⟨rfl, behind⟩ := List.cons.inj split
      have place := ih front back token behind
      simp only [Mark.after] at place
      simp only [spelled_cons, Mark.token, String.toList_ofList, utf8Length_append,
        List.count_append]
      omega
  | case2 mark cs lexeme final =>
    intro front back token split
    cases front with
    | nil =>
      obtain ⟨rfl, -⟩ := List.cons.inj split
      exact ⟨rfl, rfl⟩
    | cons first front => exact absurd (List.cons.inj split).2 (by simp)

/-- The tokens of a stream spell the characters ahead, in order. Only a fault leaves a rest. -/
theorem read_spelled (mark : Mark) (cs : List Char) :
    ∃ rest, spelled (Stream.read mark cs).tokens ++ rest = cs ∧
      ((Stream.read mark cs).last.kind = .finish → rest = []) := by
  fun_induction Stream.read mark cs with
  | case1 mark cs lexeme more ih =>
    obtain ⟨rest, whole, finished⟩ := ih
    refine ⟨rest, ?_, finished⟩
    have first : lexeme.taken ++ lexeme.rest = cs := Lexeme.taken_append_rest mark.depth cs
    rw [Stream.tokens_cons, spelled_cons, List.append_assoc, whole]
    simpa [Mark.token] using first
  | case2 mark cs lexeme final =>
    have first : lexeme.taken ++ lexeme.rest = cs := Lexeme.taken_append_rest mark.depth cs
    refine ⟨lexeme.rest, by simpa [Stream.tokens, Mark.token] using first, ?_⟩
    intro finished
    have nothing : cs = [] :=
      LexemeSpelling.first_finish (LexemeSpelling.read_first mark.depth cs) finished
    rw [nothing] at first
    exact (List.append_eq_nil_iff.mp first).2

/-- Every token of a stream is the first lexeme of some characters. -/
theorem read_first_of_mem (mark : Mark) (cs : List Char) :
    ∀ token ∈ (Stream.read mark cs).tokens, ∃ depth ahead lexeme,
      LexemeSpelling.First depth ahead lexeme ∧ token.kind = lexeme.kind ∧
        token.text = String.ofList lexeme.taken := by
  fun_induction Stream.read mark cs with
  | case1 mark cs lexeme more ih =>
    intro token member
    rcases List.mem_cons.mp member with rfl | member
    · exact ⟨_, _, lexeme, LexemeSpelling.read_first mark.depth cs, rfl, rfl⟩
    · exact ih token member
  | case2 mark cs lexeme final =>
    intro token member
    obtain rfl := List.mem_singleton.mp member
    exact ⟨_, _, lexeme, LexemeSpelling.read_first mark.depth cs, rfl, rfl⟩

/-! ## The stream of a text -/

variable {text : String} {token : Token}

theorem token_first (member : token ∈ (Stream.ofText text).tokens) : ∃ depth ahead lexeme,
    LexemeSpelling.First depth ahead lexeme ∧ token.kind = lexeme.kind ∧
      token.text = String.ofList lexeme.taken :=
  read_first_of_mem Mark.start text.toList token member

theorem token_fits (member : token ∈ (Stream.ofText text).tokens) :
    LexemeSpelling.Fits token.kind token.text := by
  obtain ⟨depth, ahead, lexeme, first, kind, taken⟩ := token_first member
  rw [kind, taken]
  exact LexemeSpelling.first_fits first

/-- Each token of a text stands between the characters before it, which decide its offset and its
line, and those behind it. -/
theorem token_place (member : token ∈ (Stream.ofText text).tokens) :
    ∃ before behind, text.toList = before ++ token.text.toList ++ behind ∧
      token.pos = utf8Length before ∧ token.line = 1 + before.count '\n' := by
  obtain ⟨front, back, split⟩ := List.append_of_mem member
  obtain ⟨rest, whole, -⟩ := read_spelled Mark.start text.toList
  obtain ⟨pos, line⟩ := read_place Mark.start text.toList front back token split
  refine ⟨spelled front, spelled back ++ rest, ?_, by simpa [Mark.start] using pos, line⟩
  rw [← whole, show (Stream.read Mark.start text.toList).tokens = _ from split]
  simp only [spelled_append, spelled_cons, List.append_assoc]

theorem stop_eq (token : Token) : stop token = token.pos + utf8Length token.text.toList := by
  rw [stop, utf8Length_toList]

/-- A byte offset is a boundary if it is reached by passing whole characters. -/
theorem boundary {before behind : List Char} (split : text.toList = before ++ behind) :
    (⟨utf8Length before⟩ : String.Pos.Raw).IsValid text := by
  rw [String.Pos.Raw.isValid_iff_exists_append]
  refine ⟨String.ofList before, String.ofList behind, ?_, ?_⟩
  · rw [← String.ofList_append, ← split, String.ofList_toList]
  · rw [utf8Length_eq_utf8Len, String.rawEndPos_ofList]

/-- The text of a token is the slice of the text that it spans, between two character boundaries.
-/
theorem token_slice (member : token ∈ (Stream.ofText text).tokens) :
    (⟨token.pos⟩ : String.Pos.Raw).IsValid text ∧ (⟨stop token⟩ : String.Pos.Raw).IsValid text ∧
      String.Pos.Raw.extract text ⟨token.pos⟩ ⟨stop token⟩ = token.text := by
  obtain ⟨before, behind, split, pos, -⟩ := token_place member
  refine ⟨?_, ?_, ?_⟩
  · rw [pos]
    exact boundary (split.trans (List.append_assoc ..))
  · have passed : stop token = utf8Length (before ++ token.text.toList) := by
      rw [stop_eq, pos, utf8Length_append]
    rw [passed]
    exact boundary split
  · have slice := String.extract_of_valid before token.text.toList behind
    rw [← split, String.ofList_toList, String.ofList_toList] at slice
    rw [stop_eq, pos, utf8Length_eq_utf8Len, utf8Length_eq_utf8Len]
    exact slice

/-- Each token starts at the byte where the one before it ends. -/
theorem tokens_chain (text : String) :
    (Stream.ofText text).tokens.IsChain fun one next => next.pos = stop one := by
  rw [List.isChain_iff_forall_rel_of_append_cons_cons]
  intro one next front back split
  have here := (read_place Mark.start text.toList front (next :: back) one split).1
  have there := (read_place Mark.start text.toList (front ++ [one]) back next
    (split.trans (List.append_cons ..))).1
  rw [there, stop_eq, here]
  simp [Nat.add_assoc]

/-- All tokens in front of another are in the body of the stream. -/
theorem body_of_split {stream : Stream} {front back : List Token}
    (split : stream.tokens = front ++ token :: back) :
    stream.body = front ++ (token :: back).dropLast := by
  rw [← List.dropLast_append_of_ne_nil (List.cons_ne_nil token back), ← split]
  exact List.dropLast_concat.symm

/-- No two tokens of a text start at the same byte. -/
theorem tokens_increasing (text : String) :
    (Stream.ofText text).tokens.Pairwise fun one next => one.pos < next.pos := by
  rw [← List.isChain_iff_pairwise, List.isChain_iff_forall_rel_of_append_cons_cons]
  intro one next front back split
  have inside : one ∈ (Stream.ofText text).body := by
    rw [body_of_split (split.trans (List.append_cons ..))]
    simp
  have some : one.text.utf8ByteSize ≠ 0 := by
    rw [Ne, String.utf8ByteSize_eq_zero_iff]
    exact read_body_nonempty Mark.start text.toList one inside
  have adjacent := List.isChain_iff_forall_rel_of_append_cons_cons.mp (tokens_chain text) split
  rw [adjacent, stop]
  omega

/-- So the tokens that start before one of them are those in front of it. -/
theorem tokens_before {front back : List Token}
    (split : (Stream.ofText text).tokens = front ++ token :: back) :
    (Stream.ofText text).tokens.filter (·.pos < token.pos) = front := by
  have increasing := tokens_increasing text
  rw [split, List.pairwise_append, List.pairwise_cons] at increasing
  obtain ⟨-, ⟨later, -⟩, earlier⟩ := increasing
  rw [split, List.filter_append, List.filter_eq_self.mpr, List.filter_eq_nil_iff.mpr,
    List.append_nil]
  · intro other member
    rcases List.mem_cons.mp member with rfl | member
    · simp
    · have := later other member
      simp only [decide_eq_true_eq]
      omega
  · intro other member
    simpa using earlier other member token List.mem_cons_self

/-- Tokens that start at the same byte are the same token. -/
theorem token_unique {other : Token} (member : token ∈ (Stream.ofText text).tokens)
    (member' : other ∈ (Stream.ofText text).tokens) (same : token.pos = other.pos) :
    token = other := by
  have increasing := tokens_increasing text
  obtain ⟨front, back, split⟩ := List.append_of_mem member
  rw [split, List.pairwise_append, List.pairwise_cons] at increasing
  rw [split] at member'
  obtain ⟨-, ⟨later, -⟩, earlier⟩ := increasing
  rcases List.mem_append.mp member' with before | behind
  · have := earlier other before token List.mem_cons_self
    omega
  · rcases List.mem_cons.mp behind with rfl | behind
    · rfl
    · have := later other behind
      omega

example : (Stream.ofText "in(é,\n\"x\")").tokens.map (fun token => (token.pos, token.line)) =
    [(0, 1), (2, 1), (3, 1), (5, 1), (6, 1), (7, 2), (10, 2), (11, 2)] := by cbv

/-! ## What a lexer hands out -/

/-- The answer to one of several calls, counted from zero: the token whose turn it is, and behind
the last one whatever the call asks for. -/
def answerAt (stream : Stream) (k : Nat) (call : Lexer.Call) : Option Token :=
  stream.tokens[k]?.or (match call with
    | .repeating => some stream.last
    | .ending => none)

theorem answers_ended {lexer : Lexer} (ended : lexer.ended = some token) (calls : List Lexer.Call) :
    lexer.answers calls = calls.map fun call => match call with
      | .repeating => some token
      | .ending => none := by
  induction calls with
  | nil => rfl
  | cons call calls ih =>
    rw [List.map_cons, ← ih]
    cases call <;> simp [Lexer.answers, Lexer.call, Lexer.nextToken, Lexer.next?, ended]

theorem answers_cons {lexer : Lexer} (fresh : lexer.ended = none) (call : Lexer.Call)
    (calls : List Lexer.Call) :
    lexer.answers (call :: calls) = some lexer.advance.1 :: lexer.advance.2.answers calls := by
  cases call <;> simp [Lexer.answers, Lexer.call, Lexer.nextToken, Lexer.next?, fresh]

/-- A lexer hands out the tokens of the stream that is ahead of it, in whichever way it is asked. -/
theorem answers_fresh {lexer : Lexer} (fresh : lexer.ended = none) (calls : List Lexer.Call) :
    lexer.answers calls = calls.mapIdx (answerAt (Stream.read lexer.mark lexer.ahead)) := by
  induction calls generalizing lexer with
  | nil => rfl
  | cons call calls ih =>
    rw [answers_cons fresh, List.mapIdx_cons]
    cases final : (Lexeme.read lexer.mark.depth lexer.ahead).kind.isFinal with
    | false =>
      have next : lexer.advance.2.ended = none := by
        simp [Lexer.advance, Mark.token, final]
      rw [Stream.read_of_more rfl final, ih next]
      rfl
    | true =>
      have next : lexer.advance.2.ended = some lexer.advance.1 := by
        simp [Lexer.advance, Mark.token, final]
      rw [Stream.read_of_final rfl final, answers_ended next]
      refine congrArg₂ List.cons rfl (List.ext_getElem? fun k => ?_)
      rw [List.getElem?_map, List.getElem?_mapIdx]
      rfl

/-- Asking in one way all the time gives the tokens of the text, each once, and then always the
same answer. -/
theorem answers_replicate (text : String) (call : Lexer.Call) (n : Nat) :
    (Lexer.ofText text).answers (List.replicate n call) =
      ((Stream.ofText text).tokens.map some ++ List.replicate n (match call with
        | .repeating => some (Stream.ofText text).last
        | .ending => none)).take n := by
  rw [answers_fresh rfl]
  refine List.ext_getElem? fun k => ?_
  rw [List.getElem?_mapIdx, List.getElem?_replicate, List.getElem?_take, List.getElem?_append,
    List.length_map]
  change Option.map (answerAt (Stream.ofText text) k) _ = _
  by_cases asked : k < n
  · by_cases given : k < (Stream.ofText text).tokens.length
    · simp [asked, given, answerAt]
    · have spare : k - (Stream.ofText text).tokens.length < n := by omega
      simp [asked, given, answerAt, spare]
  · simp [asked]

/-! ## Tiling -/

/-- The token is the slice of the text between two character boundaries. -/
structure Spans (text : String) (token : Token) : Prop where
  starts : (⟨token.pos⟩ : String.Pos.Raw).IsValid text
  stops : (⟨stop token⟩ : String.Pos.Raw).IsValid text
  inside : stop token ≤ text.utf8ByteSize
  slice : String.Pos.Raw.extract text ⟨token.pos⟩ ⟨stop token⟩ = token.text

/-- The tokens stand one right behind the other from the first byte on, and only the last is the
end of the text or a fault. In front of a fault they need not reach the end of the text. -/
structure Tiles (text : String) (body : List Token) (last : Token) : Prop where
  last_final : last.kind = .finish ∨ ∃ fault, last.kind = .fault fault
  body_more : ∀ token ∈ body, token.kind ≠ .finish ∧ ∀ fault, token.kind ≠ .fault fault
  body_nonempty : ∀ token ∈ body, token.text ≠ ""
  starts : (body ++ [last]).head?.map Token.pos = some 0
  adjacent : (body ++ [last]).IsChain fun one next => next.pos = stop one
  spans : ∀ token ∈ body ++ [last], Spans text token
  covers : last.kind = .finish → String.join ((body ++ [last]).map Token.text) = text
  begins : ∃ rest, String.join ((body ++ [last]).map Token.text) ++ rest = text

theorem final_iff (kind : TokenKind) :
    kind.isFinal = true ↔ kind = .finish ∨ ∃ fault, kind = .fault fault := by
  cases kind <;> simp [TokenKind.isFinal]

theorem token_spans (member : token ∈ (Stream.ofText text).tokens) : Spans text token := by
  obtain ⟨starts, stops, slice⟩ := token_slice member
  exact ⟨starts, stops, stops.le_utf8ByteSize, slice⟩

theorem stream_tiles (text : String) :
    Tiles text (Stream.ofText text).body (Stream.ofText text).last := by
  obtain ⟨more, final⟩ := read_final Mark.start text.toList
  obtain ⟨rest, whole, finished⟩ := read_spelled Mark.start text.toList
  have joined : String.join ((Stream.ofText text).tokens.map Token.text) ++ String.ofList rest =
      text := by
    rw [← ofList_spelled, ← String.ofList_append]
    exact (congrArg String.ofList whole).trans String.ofList_toList
  refine ⟨(final_iff _).mp final, ?_, read_body_nonempty Mark.start text.toList, ?_,
    tokens_chain text, fun token member => token_spans member, ?_, ⟨_, joined⟩⟩
  · intro token member
    have open_ended := more token member
    exact ⟨fun finish => by simp [finish, TokenKind.isFinal] at open_ended,
      fun fault kind => by simp [kind, TokenKind.isFinal] at open_ended⟩
  · change (Stream.ofText text).tokens.head?.map Token.pos = some 0
    cases tokens : (Stream.ofText text).tokens with
    | nil => exact absurd tokens (by simp [Stream.tokens])
    | cons first back =>
      have place := (read_place Mark.start text.toList [] back first tokens).1
      simpa [Mark.start] using place
  · intro finish
    rw [finished finish, String.ofList_nil, String.append_empty] at joined
    exact joined

end ResourceQuery.StreamTiling
