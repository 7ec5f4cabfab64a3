import ResourceQuery.Proofs.GrammarFaults
import ResourceQuery.Proofs.PushbackBuffer
import ResourceQuery.Proofs.Refusals

/-! Reading by descent, token by token. Blanks are consumed on the way, and what comes behind them
is either a token that the stream of the text has there, with fewer tokens behind it, or the last
one of all (`Consumes`). What a draft does with the stream is what it does with that token first, so
a token that the draft refuses is where the whole stream is refused. -/
namespace ResourceQuery.SolidTokens
open Descent DraftRuns GrammarFaults PushbackBuffer Refusals

variable {text : String} {parser later : Parser} {stream rest : Stream} {draft next : Draft}
  {token : Token} {fault : Fault} {depth : Nat}

/-! ## Streams, token by token -/

theorem statementFrom_ok (taken : draft.accept token = .ok next) :
    (rest.cons token).statementFrom draft = rest.statementFrom next := by
  rw [Stream.statementFrom_cons, Draft.take, taken]
  rfl

theorem statementFrom_error (refused : draft.accept token = .error fault) :
    (rest.cons token).statementFrom draft = .error ⟨token, fault⟩ := by
  rw [Stream.statementFrom_cons, Draft.take, refused]
  rfl

theorem statementFrom_blank (blank : token.kind = .blank) :
    (rest.cons token).statementFrom draft = rest.statementFrom draft :=
  statementFrom_ok (by simp [Draft.accept, blank])

theorem statementFrom_step (step : Step draft token next) :
    (rest.cons token).statementFrom draft = rest.statementFrom next :=
  statementFrom_ok ((accept_ok_iff (step_kind step).1).mpr step)

theorem finish_error (refused : draft.conclude token = .error fault) :
    draft.finish token = .error ⟨token, fault⟩ := by
  rw [Draft.finish, refused]
  rfl

/-- The tokens ahead are the end of the stream, so more follow all of them but the last. -/
theorem sound_final (sound : Sound text parser stream.tokens) :
    (∀ token ∈ stream.body, token.kind.isFinal = false) ∧ stream.last.kind.isFinal = true := by
  obtain ⟨more, final⟩ := StreamTiling.read_final Mark.start text.toList
  have told := sound.told
  rw [Stream.tokens, Stream.tokens, ← List.append_assoc] at told
  obtain ⟨body, last⟩ := List.append_inj' told rfl
  refine ⟨fun token member => more token ?_, ?_⟩
  · rw [show (Stream.read Mark.start text.toList).body = _ from body.symm]
    exact List.mem_append_right _ member
  · rw [List.singleton_inj.mp last]
    exact final

theorem step_more (step : Step draft token next) : token.kind ≠ .finish := by
  intro finish
  cases step with
  | atom spells => simp [Token.atom?, finish] at spells
  | first kind | outermost kind | operands kind | operator kind | nested kind | closeValue kind
  | comma kind | closeSeparator kind => cases kind.symm.trans finish

/-! ## Runs -/

/-- A run that has been sound, with the stream ahead of it and as many lists open as given. -/
structure Faces (text : String) (depth : Nat) (parser : Parser) (stream : Stream) : Prop where
  sound : Sound text parser stream.tokens
  level : parser.depth = depth

/-- What is ahead does not depend on how many lists are open. -/
theorem faces_level (faces : Faces text depth parser stream) (level : Nat) :
    Faces text level { parser with depth := level } stream := by
  obtain ⟨⟨holds, told, chronicle, disciplined⟩, -⟩ := faces
  exact ⟨⟨holds, told, chronicle, disciplined⟩, rfl⟩

theorem faces_backup (faces : Faces text depth parser stream) (recent : Recent parser token) :
    ∃ later, Parsing.backup.runFrom parser = (.ok (), later) ∧
      Faces text depth later (stream.cons token) := by
  obtain ⟨later, pushed, sound, level⟩ := sound_backup faces.sound recent
  exact ⟨later, pushed, sound, level.trans faces.level⟩

/-! ## Consuming a token -/

/-- The first token of a stream that is no blank, unless that is the last of all. -/
def solid? (stream : Stream) : Option Token := stream.body.find? (·.kind != .blank)

theorem solid_cons (rest : Stream) (counts : token.kind ≠ .blank) :
    solid? (rest.cons token) = some token :=
  List.find?_cons_of_pos (by simpa using counts)

/-- What consuming blanks and one more token comes to. -/
inductive Consumes (text : String) (depth : Nat) (stream : Stream) :
    Except Halt Token × Parser → Prop where
  | token {token : Token} {rest : Stream} {later : Parser} (first : solid? stream = some token)
      (more : token.kind.isFinal = false) (fewer : rest.body.length < stream.body.length)
      (same : ∀ draft, stream.statementFrom draft = (rest.cons token).statementFrom draft)
      (faces : Faces text depth later rest) (recent : Recent later token) :
      Consumes text depth stream (.ok token, later)
  | finish {later : Parser} (first : solid? stream = none) (kind : stream.last.kind = .finish)
      (same : ∀ draft, stream.statementFrom draft = draft.finish stream.last)
      (sound : Sound text later []) (recent : Recent later stream.last)
      (level : later.depth = depth) : Consumes text depth stream (.ok stream.last, later)
  | fault {fault : LexicalFault} {later : Parser} (first : solid? stream = none)
      (same : ∀ draft : Draft,
        stream.statementFrom draft = .error ⟨stream.last, .lexical fault⟩)
      (sound : Sound text later []) :
      Consumes text depth stream (.error (.refused ⟨stream.last, .lexical fault⟩), later)

theorem consumes_blank {result : Except Halt Token × Parser} (blank : token.kind = .blank)
    (consumes : Consumes text depth rest result) :
    Consumes text depth (rest.cons token) result := by
  have behind (draft : Draft) : (rest.cons token).statementFrom draft = rest.statementFrom draft :=
    statementFrom_blank blank
  have first : solid? (rest.cons token) = solid? rest :=
    List.find?_cons_of_neg (by simp [blank])
  cases consumes with
  | token found more fewer same faces recent =>
    exact .token (first.trans found) more (Nat.lt_succ_of_lt fewer)
      (fun draft => (behind draft).trans (same draft)) faces recent
  | finish found kind same sound recent level =>
    exact .finish (first.trans found) kind (fun draft => (behind draft).trans (same draft)) sound
      recent level
  | fault found same sound =>
    exact .fault (first.trans found) (fun draft => (behind draft).trans (same draft)) sound

/-- Each round of the loop takes one step, and leaves one token fewer ahead. -/
theorem nextSolidWithin_consumes {steps : Nat} (faces : Faces text depth parser stream)
    (enough : stream.body.length < steps) :
    Consumes text depth stream ((Parsing.nextSolidWithin steps).runFrom parser) := by
  obtain ⟨body, last⟩ := stream
  induction steps generalizing parser body with
  | zero => exact absurd enough (Nat.not_lt_zero _)
  | succ steps ih =>
    cases body with
    | nil =>
      obtain ⟨later, read, behind, recent, level⟩ := sound_next faces.sound
      have final : last.kind.isFinal = true := (sound_final faces.sound).2
      rw [Parsing.nextSolidWithin, bind_ok read]
      cases kind : last.kind with
      | finish => exact .finish rfl kind (fun draft => rfl) behind recent (level.trans faces.level)
      | fault fault =>
        refine .fault rfl (fun draft => finish_error ?_) behind
        cases draft <;> simp [Draft.conclude, kind]
      | identifier | string | bool | number | null | leftParen | rightParen | comma | blank
      | operator => simp [kind, TokenKind.isFinal] at final
    | cons token body =>
      obtain ⟨later, read, behind, recent, level⟩ := sound_next faces.sound
      have more : token.kind.isFinal = false := (sound_final faces.sound).1 token List.mem_cons_self
      have facing : Faces text depth later ⟨body, last⟩ := ⟨behind, level.trans faces.level⟩
      rw [Parsing.nextSolidWithin, bind_ok read]
      by_cases blank : token.kind = .blank
      · rw [blank]
        exact consumes_blank blank (ih body facing (Nat.lt_of_succ_lt_succ enough))
      · have here : Consumes text depth ⟨token :: body, last⟩ (.ok token, later) :=
          .token (solid_cons ⟨body, last⟩ blank) more (Nat.lt_succ_self body.length)
            (fun draft => rfl) facing recent
        cases kind : token.kind with
        | blank => exact absurd kind blank
        | finish | fault => simp [kind, TokenKind.isFinal] at more
        | identifier | string | bool | number | null | leftParen | rightParen | comma
        | operator => exact here

theorem faces_bound (faces : Faces text depth parser stream) :
    stream.body.length < parser.buffer.bound := by
  have few := holds_length faces.sound.holds
  rwa [Stream.tokens, List.length_append, List.length_singleton] at few

theorem nextSolid_consumes (faces : Faces text depth parser stream) :
    Consumes text depth stream (Parsing.nextSolid.runFrom parser) := by
  rw [Parsing.nextSolid, bind_get]
  exact nextSolidWithin_consumes faces (faces_bound faces)

section Consumed
variable (consumes : Consumes text depth stream (.ok token, later))
include consumes

/-- Where a draft refuses the token that is consumed, it refuses the stream. -/
theorem consumes_refuses (refuses : Refuses draft token fault) :
    (∃ ahead, Sound text later ahead) ∧ stream.statementFrom draft = .error ⟨token, fault⟩ := by
  unfold Refuses at refuses
  cases consumes with
  | token first more fewer same faces recent =>
    rw [if_neg (by simp [more])] at refuses
    exact ⟨⟨_, faces.sound⟩, (same draft).trans (statementFrom_error refuses)⟩
  | finish first kind same sound recent level =>
    rw [if_pos (by simp [kind, TokenKind.isFinal])] at refuses
    exact ⟨⟨_, sound⟩, (same draft).trans (finish_error refuses)⟩

/-- A consumed token that the text goes on behind is the first of the stream, but for blanks. -/
theorem consumes_rest (more : token.kind ≠ .finish) : ∃ rest : Stream,
    rest.body.length < stream.body.length ∧
      (∀ draft, stream.statementFrom draft = (rest.cons token).statementFrom draft) ∧
        Faces text depth later rest ∧ Recent later token := by
  cases consumes with
  | token first open_ended fewer same faces recent => exact ⟨_, fewer, same, faces, recent⟩
  | finish first kind same sound recent level => exact absurd kind more

theorem consumes_step (step : Step draft token next) : ∃ rest : Stream,
    rest.body.length < stream.body.length ∧
      stream.statementFrom draft = rest.statementFrom next ∧ Faces text depth later rest := by
  obtain ⟨rest, fewer, same, faces, -⟩ := consumes_rest consumes (step_more step)
  exact ⟨rest, fewer, (same draft).trans (statementFrom_step step), faces⟩

/-- What has been peeked is what is consumed. -/
theorem consumes_first {peeked : Token} (first : solid? stream = some peeked) : token = peeked := by
  cases consumes with
  | token found more fewer same faces recent => exact Option.some.inj (found.symm.trans first)
  | finish found kind same sound recent level => cases found.symm.trans first

end Consumed

/-! ## Peeking at a token -/

/-- What peeking at a token that is no blank comes to. -/
inductive Peeks (text : String) (depth : Nat) (stream : Stream) :
    Except Halt Token × Parser → Prop where
  | token {token : Token} {rest : Stream} {later : Parser}
      (first : solid? rest = some token ∨ solid? rest = none ∧ token.kind = .finish)
      (same : ∀ draft, stream.statementFrom draft = rest.statementFrom draft)
      (faces : Faces text depth later rest) : Peeks text depth stream (.ok token, later)
  | fault {refusal : Refusal} {later : Parser} {ahead : List Token}
      (same : ∀ draft : Draft, stream.statementFrom draft = .error refusal)
      (sound : Sound text later ahead) :
      Peeks text depth stream (.error (.refused refusal), later)

theorem peekSolid_peeks (faces : Faces text depth parser stream) :
    Peeks text depth stream (Parsing.peekSolid.runFrom parser) := by
  have consumes := nextSolid_consumes faces
  rw [Parsing.peekSolid]
  generalize ran : Parsing.nextSolid.runFrom parser = result at consumes
  cases consumes with
  | @token token rest later first more fewer same faces recent =>
    obtain ⟨again, pushed, front⟩ := faces_backup faces recent
    have counts : token.kind ≠ .blank := by simpa using List.find?_some first
    rw [bind_ok ran, bind_ok pushed]
    exact .token (.inl (solid_cons rest counts)) same front
  | @finish later first kind same sound recent level =>
    obtain ⟨again, pushed, front, unchanged⟩ := sound_backup sound recent
    have facing : Faces text depth again ⟨[], stream.last⟩ := ⟨front, unchanged.trans level⟩
    have ending (draft : Draft) : stream.statementFrom draft =
        (Stream.mk [] stream.last).statementFrom draft := same draft
    rw [bind_ok ran, bind_ok pushed]
    exact .token (.inr ⟨rfl, kind⟩) ending facing
  | fault first same sound =>
    rw [bind_error ran]
    exact .fault same sound

/-! ## What drafts refuse -/

variable {list : OpenList}

/-- A token that is no blank, and no fault. -/
structure Solid (token : Token) : Prop where
  counts : token.kind ≠ .blank
  sound : ∀ fault, token.kind ≠ .fault fault

theorem consumes_solid (consumes : Consumes text depth stream (.ok token, later)) :
    Solid token := by
  cases consumes with
  | token first more fewer same faces recent =>
    refine ⟨by simpa using List.find?_some first, fun fault kind => ?_⟩
    rw [kind] at more
    cases more
  | finish first kind same sound recent level => exact ⟨by simp [kind], by simp [kind]⟩

theorem refuses_literal {fault : LiteralFault} (spells : token.atom? = some (.error fault)) :
    Refuses (.value list) token (.literal fault) := by
  obtain ⟨counts, sound, left, right, operator⟩ := atom_kind spells
  cases kind : token.kind <;>
    simp_all [Refuses, TokenKind.isFinal, Draft.accept, Draft.takeValue, Token.atom?]

/-- Where a value may stand, a token that neither is one nor begins or ends one is out of place. -/
theorem value_misfit (solid : Solid token) (left : token.kind ≠ .leftParen)
    (right : token.kind ≠ .rightParen) (operator : ∀ operator, token.kind ≠ .operator operator)
    (spells : token.atom? = none) :
    Misfit (.value list) token (.unexpected token.describe "value") := by
  obtain ⟨counts, sound⟩ := solid
  refine .value ?_
  cases kind : token.kind <;> simp_all [Token.atom?]

/-- A token that is out of place is refused, whether or not the text goes on behind it. -/
theorem misfit_refuses {fault : GrammarFault} (solid : Solid token)
    (misfit : Misfit draft token fault) : Refuses draft token (.grammar fault) := by
  obtain ⟨counts, sound⟩ := solid
  cases misfit with
  | start other more =>
    cases kind : token.kind <;>
      simp_all [Refuses, TokenKind.isFinal, Draft.accept, Draft.takeFirst, Token.trailing]
  | operator other =>
    cases kind : token.kind <;>
      simp_all [Refuses, TokenKind.isFinal, Draft.accept, Draft.takeList, Draft.conclude,
        Token.unexpectedIn]
  | value comma =>
    rcases comma with kind | kind <;>
      simp [Refuses, TokenKind.isFinal, Draft.accept, Draft.takeValue, Draft.conclude, Token.atom?,
        Token.unexpectedIn, kind]
  | separator more closes =>
    cases kind : token.kind <;>
      simp_all [Refuses, TokenKind.isFinal, Draft.accept, Draft.takeSeparator, Draft.conclude,
        Token.unexpectedIn]
  | finished more =>
    cases kind : token.kind <;>
      simp_all [Refuses, TokenKind.isFinal, Draft.accept, Token.trailing]

end ResourceQuery.SolidTokens
