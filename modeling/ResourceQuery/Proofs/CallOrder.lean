import ResourceQuery.Proofs.StreamTiling

/-! The order of calls to a lexer. The two ways to ask for a token differ behind the last one only,
and they leave the same lexer behind. So what a call is answered depends on how many calls came
before it and not on which (`call_order_irrelevant`). The invariant is `Ahead`: a lexer has tokens
ahead of it and keeps none, or it keeps the last token and has none ahead of it. -/
namespace ResourceQuery.CallOrder
open Lexer StreamTiling

/-! ## What is ahead of a lexer -/

/-- The lexer has the tokens ahead of it, and keeps the last of them once they have been handed out.
-/
inductive Ahead (last : Token) : Lexer → List Token → Prop where
  | spent {lexer : Lexer} (kept : lexer.ended = some last) : Ahead last lexer []
  | more {lexer : Lexer} {tokens : List Token} (fresh : lexer.ended = none)
    (behind : Ahead last lexer.advance.2 tokens) : Ahead last lexer (lexer.advance.1 :: tokens)

variable {lexer : Lexer} {last token : Token} {tokens yielded : List Token}

/-- A lexer that keeps no token has the stream of its characters ahead. -/
theorem ahead_read (mark : Mark) (cs : List Char) :
    Ahead (Stream.read mark cs).last ⟨mark, cs, none⟩ (Stream.read mark cs).tokens := by
  fun_induction Stream.read mark cs with
  | case1 mark cs lexeme more ih =>
    -- Nothing is kept behind a lexeme that is not final, so the rest of the stream is ahead.
    have behind : (Lexer.mk mark cs none).advance.2 = ⟨mark.after lexeme, lexeme.rest, none⟩ := by
      simp [advance, Mark.token, lexeme, more]
    exact .more rfl (behind ▸ ih)
  | case2 mark cs lexeme final =>
    have kept : (Lexer.mk mark cs none).advance.2.ended = some (mark.token lexeme) := by
      have final : lexeme.kind.isFinal = true := by simpa using final
      simp [advance, Mark.token, lexeme, final]
    exact .more rfl (.spent kept)

/-- The tokens that plain iteration yields: what is answered until nothing is. -/
inductive Yields : Lexer → List Token → Prop where
  | nothing {lexer : Lexer} (answer : lexer.next?.1 = none) : Yields lexer []
  | token {lexer : Lexer} {token : Token} {tokens : List Token}
    (answer : lexer.next?.1 = some token) (behind : Yields lexer.next?.2 tokens) :
    Yields lexer (token :: tokens)

/-- Plain iteration comes to an end, and yields what is ahead. -/
theorem yields_iff (ahead : Ahead last lexer tokens) : Yields lexer yielded ↔ yielded = tokens := by
  induction ahead generalizing yielded with
  | @spent lexer kept =>
    have silent : lexer.next? = (none, lexer) := by
      simp only [next?, kept]
    constructor
    · intro yields
      cases yields with
      | nothing answer => rfl
      | token answer behind => simp [silent] at answer
    · rintro rfl
      exact .nothing (by rw [silent])
  | @more lexer tokens fresh behind ih =>
    have spoken : lexer.next? = (some lexer.advance.1, lexer.advance.2) := by
      simp only [next?, fresh]
    constructor
    · intro yields
      cases yields with
      | nothing answer => simp [spoken] at answer
      | @token _ token tokens answer behind =>
        rw [spoken] at answer behind
        rw [ih.mp behind, ← Option.some.inj answer]
    · rintro rfl
      exact .token (by rw [spoken]) (by rw [spoken]; exact ih.mpr rfl)

/-! ## One call -/

/-- The answer to a call behind the last token. -/
def answerBehind (last : Token) : Call → Option Token
  | .repeating => some last
  | .ending => none

theorem call_more (ahead : Ahead last lexer (token :: tokens)) (call : Call) :
    (lexer.call call).1 = some token ∧ Ahead last (lexer.call call).2 tokens := by
  cases ahead with
  | more fresh behind =>
    have advances : lexer.call call = (some lexer.advance.1, lexer.advance.2) := by
      cases call <;> simp only [Lexer.call, nextToken, next?, fresh]
    rw [advances]
    exact ⟨rfl, behind⟩

theorem call_spent (ahead : Ahead last lexer []) (call : Call) :
    lexer.call call = (answerBehind last call, lexer) := by
  cases ahead with
  | spent kept => cases call <;> simp only [Lexer.call, nextToken, next?, kept, answerBehind]

/-- Whatever has been asked, one token fewer is ahead. -/
theorem ahead_call (ahead : Ahead last lexer tokens) (call : Call) :
    Ahead last (lexer.call call).2 tokens.tail := by
  cases tokens with
  | nil => rwa [call_spent ahead]
  | cons token tokens => exact (call_more ahead call).2

/-- The lexer behind a call does not depend on the way of asking, not even for a lexer that no text
leads to. -/
theorem call_leaves (lexer : Lexer) (one other : Call) :
    (lexer.call one).2 = (lexer.call other).2 := by
  cases kept : lexer.ended <;> cases one <;> cases other <;>
    simp only [Lexer.call, nextToken, next?, kept]

/-! ## Any number of calls -/

/-- The lexer behind a sequence of calls. -/
def after (lexer : Lexer) (calls : List Call) : Lexer :=
  calls.foldl (fun lexer call => (lexer.call call).2) lexer

theorem ahead_after (ahead : Ahead last lexer tokens) (calls : List Call) :
    Ahead last (after lexer calls) (tokens.drop calls.length) := by
  induction calls generalizing lexer tokens with
  | nil => exact ahead
  | cons call calls ih =>
    have next := ih (ahead_call ahead call)
    rwa [List.drop_tail] at next

theorem after_leaves {calls others : List Call} (alike : calls.length = others.length) :
    after lexer calls = after lexer others := by
  induction calls generalizing lexer others with
  | nil => rw [List.length_eq_zero_iff.mp alike.symm]
  | cons call calls ih =>
    cases others with
    | nil => cases alike
    | cons other others =>
      change after (lexer.call call).2 calls = after (lexer.call other).2 others
      rw [call_leaves lexer call other]
      exact ih (Nat.succ.inj alike)

/-- A call among others is answered by the lexer that the calls before it leave. -/
theorem answers_at (calls : List Call) (k : Nat) :
    (lexer.answers calls)[k]? =
      calls[k]?.map fun call => ((after lexer (calls.take k)).call call).1 := by
  induction calls generalizing lexer k with
  | nil => rfl
  | cons call calls ih =>
    cases k with
    | zero => rfl
    | succ k =>
      rw [List.getElem?_cons_succ, List.take_succ_cons]
      exact ih k

theorem answers_length (calls : List Call) : (lexer.answers calls).length = calls.length := by
  induction calls generalizing lexer with
  | nil => rfl
  | cons call calls ih => exact congrArg Nat.succ ih

/-- What a sequence of calls is answered by a lexer that has the tokens ahead of it. -/
structure ServedInTurn (lexer : Lexer) (tokens : List Token) (last : Token) (calls : List Call) :
    Prop where
  one_each : (lexer.answers calls).length = calls.length
  in_turn : ∀ (k : Nat) (token : Token), k < calls.length → tokens[k]? = some token →
    (lexer.answers calls)[k]? = some (some token)
  repeated : ∀ k, tokens.length ≤ k → calls[k]? = some .repeating →
    (lexer.answers calls)[k]? = some (some last)
  silent : ∀ k, tokens.length ≤ k → calls[k]? = some .ending →
    (lexer.answers calls)[k]? = some none
  /-- The last token is kept from the call on that hands it out, and no other is. -/
  kept : (after lexer calls).ended = if calls.length < tokens.length then none else some last
  leaves : ∀ others : List Call, calls.length = others.length →
    after lexer calls = after lexer others

theorem answers_behind (ahead : Ahead last lexer tokens) {calls : List Call} {k : Nat}
    (behind : tokens.length ≤ k) {call : Call} (asked : calls[k]? = some call) :
    (lexer.answers calls)[k]? = some (answerBehind last call) := by
  have spent := ahead_after ahead (calls.take k)
  have inside := (List.getElem?_eq_some_iff.mp asked).1
  rw [List.length_take, Nat.min_eq_left inside.le, List.drop_of_length_le behind] at spent
  rw [answers_at, asked, Option.map_some, call_spent spent]

theorem ended_of_ahead (ahead : Ahead last lexer tokens) :
    lexer.ended = if tokens = [] then some last else none := by
  cases ahead with
  | spent kept => rwa [if_pos rfl]
  | more fresh behind => rwa [if_neg (List.cons_ne_nil _ _)]

theorem served_in_turn (ahead : Ahead last lexer tokens) (calls : List Call) :
    ServedInTurn lexer tokens last calls := by
  refine ⟨answers_length calls, fun k token asked turn => ?_,
    fun k behind asked => answers_behind ahead behind asked,
    fun k behind asked => answers_behind ahead behind asked, ?_,
    fun others alike => after_leaves alike⟩
  · -- The calls before leave the tokens from this one on, so it comes first.
    have waiting := ahead_after ahead (calls.take k)
    obtain ⟨inside, found⟩ := List.getElem?_eq_some_iff.mp turn
    rw [List.length_take, Nat.min_eq_left asked.le, List.drop_eq_getElem_cons inside,
      found] at waiting
    rw [answers_at, List.getElem?_eq_getElem asked, Option.map_some, (call_more waiting _).1]
  · have left : tokens.drop calls.length = [] ↔ ¬ calls.length < tokens.length := by
      rw [List.drop_eq_nil_iff, Nat.not_lt]
    rw [ended_of_ahead (ahead_after ahead calls)]
    by_cases early : calls.length < tokens.length
    · rw [if_pos early, if_neg (left.not.mpr (not_not.mpr early))]
    · rw [if_neg early, if_pos (left.mpr early)]

/-- **The order of calls does not matter.** Plain iteration over a text yields finitely many tokens,
of which the last is the end of the text or a fault. However the two ways of asking are mixed, one
call after the other is answered with one of these tokens after the other. Behind the last one, a
call that repeats is answered with it again, and a call that ends with nothing. -/
theorem call_order_irrelevant (text : String) : ∃ tokens last,
    (∀ yielded, Yields (ofText text) yielded ↔ yielded = tokens) ∧
    tokens.getLast? = some last ∧ (last.kind = .finish ∨ ∃ fault, last.kind = .fault fault) ∧
    ∀ calls, ServedInTurn (ofText text) tokens last calls := by
  have ahead := ahead_read Mark.start text.toList
  exact ⟨_, _, fun yielded => yields_iff ahead, List.getLast?_concat,
    (final_iff _).mp (read_final Mark.start text.toList).2, served_in_turn ahead⟩

/-- The two ways of asking are mixed in front of the fault and behind it. -/
theorem call_order_irrelevant_mixed :
    let parenthesis : Token := ⟨.leftParen, "(", 0, 1⟩
    let fault : Token := ⟨.fault .unfinished, "", 1, 1⟩
    let answers := (ofText "(").answers [.ending, .repeating, .ending, .repeating]
    answers[0]? = some (some parenthesis) ∧ answers[1]? = some (some fault) ∧
      answers[2]? = some none ∧ answers[3]? = some (some fault) := by
  intro parenthesis fault answers
  obtain ⟨tokens, last, yields, ends, -, served⟩ := call_order_irrelevant "("
  have plain : Yields (ofText "(") [parenthesis, fault] :=
    .token (by decide +kernel) (.token (by decide +kernel) (.nothing (by decide +kernel)))
  obtain rfl := (yields _).mp plain
  obtain rfl : fault = last := Option.some.inj ends
  have served := served [.ending, .repeating, .ending, .repeating]
  exact ⟨served.in_turn 0 _ (by decide) rfl, served.in_turn 1 _ (by decide) rfl,
    served.silent 2 (by decide) rfl, served.repeated 3 (by decide) rfl⟩

end ResourceQuery.CallOrder
