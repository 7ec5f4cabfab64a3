import ResourceQuery.Draft
import ResourceQuery.Token.Stream

/-! Reading statements. There are two ways to say what reading a text comes to: a draft takes the
tokens of the text's stream one after the other, or the tokens are made one at a time, each only when
the draft has taken the one before it. The main statement, `readOn_eq_statementFrom`, is that both
come to the same, so reading on demand takes the tokens of the stream in order, each once, and looks
at nothing behind the first token that is wrong. -/

namespace ResourceQuery

/-- A fault and the token that has it. -/
structure Refusal where
  token : Token
  fault : Fault
  deriving DecidableEq

namespace Draft

/-- The draft behind one more token, or the token and what is wrong with it. -/
def take (draft : Draft) (token : Token) : Except Refusal Draft :=
  (draft.accept token).mapError (Refusal.mk token)

/-- The statement that a draft is if it ends with the given token, or what is wrong with the token. -/
def finish (draft : Draft) (token : Token) : Except Refusal Node :=
  (draft.conclude token).mapError (Refusal.mk token)

end Draft

namespace Stream

/-- The statement that the tokens of a stream make behind a draft. -/
def statementFrom (draft : Draft) (stream : Stream) : Except Refusal Node := do
  let draft ← stream.body.foldlM Draft.take draft
  draft.finish stream.last

theorem statementFrom_cons (draft : Draft) (token : Token) (stream : Stream) :
    (stream.cons token).statementFrom draft =
      draft.take token >>= fun draft => stream.statementFrom draft := by
  simp only [statementFrom, cons, List.foldlM_cons, bind_assoc]

/-- The statement that the tokens of a stream make. -/
def statement (stream : Stream) : Except Refusal Node :=
  stream.statementFrom .start

end Stream

namespace Draft

/-- The statement that the characters ahead make behind a draft. A token is made when it is its
turn, and none is made behind a token that is wrong. -/
def readOn (draft : Draft) (mark : Mark) (cs : List Char) : Except Refusal Node :=
  let lexeme := Lexeme.read mark.depth cs
  if _ : lexeme.kind.isFinal = false then
    match draft.take (mark.token lexeme) with
    | .ok draft => draft.readOn (mark.after lexeme) lexeme.rest
    | .error refusal => .error refusal
  else draft.finish (mark.token lexeme)
termination_by cs.length
decreasing_by exact Lexeme.length_rest_lt (by assumption)

/-- Making the tokens on demand comes to the same as making them all beforehand. -/
theorem readOn_eq_statementFrom (draft : Draft) (mark : Mark) (cs : List Char) :
    draft.readOn mark cs = (Stream.read mark cs).statementFrom draft := by
  fun_induction readOn draft mark cs with
  | case1 draft mark cs lexeme more next taken ih =>
    rw [Stream.read_of_more rfl more, Stream.statementFrom_cons, taken, ih]
    rfl
  | case2 draft mark cs lexeme more refusal taken =>
    rw [Stream.read_of_more rfl more, Stream.statementFrom_cons, taken]
    rfl
  | case3 draft mark cs lexeme final =>
    rw [Stream.read_of_final rfl (by simpa using final)]
    rfl

end Draft

/-- Reads a whole text as a statement. -/
def readStatement (text : String) : Except Refusal Node :=
  Draft.start.readOn Mark.start text.toList

theorem readStatement_eq_statement (text : String) :
    readStatement text = (Stream.ofText text).statement :=
  Draft.readOn_eq_statementFrom .start Mark.start text.toList

end ResourceQuery
