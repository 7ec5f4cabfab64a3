import ResourceQuery.Proofs.GrammarExactness
import ResourceQuery.Proofs.SolidTokens

/-! Reading by descent pushes tokens back with discipline, and comes to the same as taking them one
by one. A rule of the language stands between two drafts: what it consumes of the stream leads from
the one in front of it to the one that belongs to its value, and where it refuses, the draft in
front does (`Reaches`). So each rule is compared with the drafts on its own, and the elements of a
list, which lists and operations are made of in turn, by induction on how many tokens are ahead. -/
namespace ResourceQuery.PushbackDiscipline
open Descent DraftRuns GrammarExactness GrammarFaults PushbackBuffer Refusals SolidTokens
open Draft (depthLimit)

variable {text : String} {parser later : Parser} {stream rest : Stream} {draft : Draft}
  {token : Token} {fault : Fault} {depth : Nat} {list : OpenList}

/-! ## What a rule comes to -/

/-- What reading by a rule comes to. The stream makes behind one draft what those of its tokens that
are left, fewer than the bound, make behind the draft that belongs to the value; or it is refused
behind that draft, and so is the text. -/
inductive Reaches (text : String) (depth bound : Nat) (stream : Stream) (before : Draft)
    (behind : α → Draft) : Except Halt α × Parser → Prop where
  | read {value : α} {rest : Stream} {later : Parser} (fewer : rest.body.length < bound)
      (same : stream.statementFrom before = rest.statementFrom (behind value))
      (faces : Faces text depth later rest) :
      Reaches text depth bound stream before behind (.ok value, later)
  | refused {refusal : Refusal} {later : Parser} {ahead : List Token}
      (same : stream.statementFrom before = .error refusal) (sound : Sound text later ahead) :
      Reaches text depth bound stream before behind (.error (.refused refusal), later)

section Rules
variable {α β : Type} {inner bound fewer : Nat} {before : Draft} {behind : α → Draft}
  {result : Except Halt α × Parser}

theorem reaches_same (same : stream.statementFrom before = rest.statementFrom draft)
    (reaches : Reaches text depth bound rest draft behind result) :
    Reaches text depth bound stream before behind result := by
  cases reaches with
  | read few others faces => exact .read few (same.trans others) faces
  | refused others sound => exact .refused (same.trans others) sound

theorem reaches_mono (least : fewer ≤ bound)
    (reaches : Reaches text depth fewer stream before behind result) :
    Reaches text depth bound stream before behind result := by
  cases reaches with
  | read few same faces => exact .read (few.trans_le least) same faces
  | refused same sound => exact .refused same sound

theorem reaches_bind {parsing : Parsing β} {next : β → Parsing α} {middle : β → Draft}
    (first : Reaches text inner fewer stream before middle (parsing.runFrom parser))
    (others : ∀ value rest later, rest.body.length < fewer → Faces text inner later rest →
      Reaches text depth bound rest (middle value) behind ((next value).runFrom later)) :
    Reaches text depth bound stream before behind ((parsing >>= next).runFrom parser) := by
  generalize ran : parsing.runFrom parser = result at first
  cases first with
  | read few same faces =>
    rw [bind_ok ran]
    exact reaches_same same (others _ _ _ few faces)
  | refused same sound =>
    rw [bind_error ran]
    exact .refused same sound

/-- A rule that consumes a token first goes on with the token, unless that is a fault. -/
theorem reaches_solid {next : Token → Parsing α} (faces : Faces text depth parser stream)
    (others : ∀ token later, Consumes text depth stream (.ok token, later) →
      Reaches text depth bound stream before behind ((next token).runFrom later)) :
    Reaches text depth bound stream before behind
      ((Parsing.nextSolid >>= next).runFrom parser) := by
  have consumes := nextSolid_consumes faces
  generalize ran : Parsing.nextSolid.runFrom parser = result at consumes
  cases consumes with
  | token first more few same facing recent =>
    rw [bind_ok ran]
    exact others _ _ (.token first more few same facing recent)
  | finish first kind same sound recent level =>
    rw [bind_ok ran]
    exact others _ _ (.finish first kind same sound recent level)
  | fault first same sound =>
    rw [bind_error ran]
    exact .refused (same before) sound

/-- A rule that pushes the token back goes on with it ahead again. -/
theorem reaches_backup {next : Unit → Parsing α}
    (consumes : Consumes text depth stream (.ok token, later))
    (more : token.kind ≠ .finish)
    (others : ∀ (rest : Stream) (again : Parser),
      (rest.cons token).body.length ≤ stream.body.length →
      Faces text depth again (rest.cons token) →
        Reaches text depth bound (rest.cons token) before behind ((next ()).runFrom again)) :
    Reaches text depth bound stream before behind ((Parsing.backup >>= next).runFrom later) := by
  obtain ⟨rest, few, same, facing, recent⟩ := consumes_rest consumes more
  obtain ⟨again, pushed, front⟩ := faces_backup facing recent
  rw [bind_ok pushed]
  exact reaches_same (same before) (others rest again few front)

theorem reaches_refuse (consumes : Consumes text depth stream (.ok token, later))
    (refuses : Refuses draft token fault) : Reaches text depth bound stream draft behind
      ((Parsing.refuse token fault : Parsing α).runFrom later) := by
  obtain ⟨⟨ahead, sound⟩, same⟩ := consumes_refuses consumes refuses
  exact .refused same sound

theorem reaches_misfit {fault : GrammarFault}
    (consumes : Consumes text depth stream (.ok token, later))
    (misfit : Misfit draft token fault) : Reaches text depth bound stream draft behind
      ((Parsing.refuse token (.grammar fault) : Parsing α).runFrom later) :=
  reaches_refuse consumes (misfit_refuses (consumes_solid consumes) misfit)

end Rules

/-! ## The rules -/

/-- The draft behind an element or in front of one. -/
def between (behindElement : Bool) (list : OpenList) : Draft :=
  if behindElement then .separator list else .value list

theorem separator_reaches (faces : Faces text depth parser stream) (behindElement : Bool) :
    Reaches text depth (stream.body.length + 1) stream (between behindElement list)
      (fun _ => .value list) ((Parsing.separator behindElement).runFrom parser) := by
  cases behindElement with
  | false => exact .read (Nat.lt_succ_self _) rfl faces
  | true =>
    refine reaches_solid faces fun token later consumes => ?_
    split
    · next comma =>
      have step : Step (.separator list) token (.value list) := .comma comma
      obtain ⟨rest, fewer, same, behind⟩ := consumes_step consumes step
      exact .read (Nat.lt_succ_of_lt fewer) same behind
    · next right =>
      obtain ⟨rest, fewer, same, behind, recent⟩ := consumes_rest consumes (by simp [right])
      obtain ⟨again, pushed, front⟩ := faces_backup behind recent
      have taken : stream.statementFrom (.separator list) =
          (rest.cons token).statementFrom (.value list) := calc
        stream.statementFrom (.separator list)
          = (rest.cons token).statementFrom (.separator list) := same _
        _ = rest.statementFrom list.close := statementFrom_step (.closeSeparator right)
        _ = (rest.cons token).statementFrom (.value list) :=
          (statementFrom_step (.closeValue right)).symm
      have as_many : (rest.cons token).body.length < stream.body.length + 1 :=
        Nat.succ_lt_succ fewer
      rw [pushed]
      exact .read as_many taken front
    · next comma right =>
      exact reaches_misfit consumes (.separator comma right)

/-- The elements of a list that is not closed are read as the drafts say. -/
def ReadsElements (text : String) (bound : Nat) : Prop :=
  ∀ {parser : Parser} {stream : Stream} {depth : Nat} {opened : OpenList} (behindElement : Bool)
    (read : List Node), Faces text depth parser stream → stream.body.length < bound →
    (pushAll opened read.reverse).depth = depth →
      Reaches text depth bound stream (between behindElement (pushAll opened read.reverse))
        (fun nodes => (pushAll opened nodes).close)
        ((Parsing.elements bound behindElement read).runFrom parser)

/-- The draft wants a list, and knows which one a parenthesis opens. It is either behind an
operator, or the parenthesis has been peeked. -/
structure Wants (stream : Stream) (depth : Nat) (before : Draft) (opened : Nat → OpenList)
    (behind : Parsing.Row → Draft) : Prop where
  opens : ∀ token : Token, token.kind = .leftParen →
    before.accept token = Draft.enter depth (opened token.pos)
  level : ∀ pos, (opened pos).depth = depth + 1
  closes : ∀ pos nodes, (pushAll (opened pos) nodes).close = behind ⟨pos, nodes⟩
  fits : (∃ keyword around, before = .operator keyword around) ∨
    ∃ token, solid? stream = some token ∧ token.kind = .leftParen

variable {bound : Nat} {before : Draft} {opened : Nat → OpenList} {behind : Parsing.Row → Draft}

theorem wants_misfit (wants : Wants stream depth before opened behind)
    (consumes : Consumes text depth stream (.ok token, later)) (left : token.kind ≠ .leftParen) :
    Misfit before token (.unexpected token.describe "left parentheses") := by
  rcases wants.fits with ⟨keyword, around, rfl⟩ | ⟨peeked, first, kind⟩
  · exact .operator left
  · rw [consumes_first consumes first] at left
    exact absurd kind left

theorem wants_room (wants : Wants stream depth before opened behind)
    (left : token.kind = .leftParen) (room : depth < depthLimit) :
    before.accept token = .ok (.value (opened token.pos)) :=
  (wants.opens token left).trans (enter_ok_iff.mpr ⟨room, rfl⟩)

/-- A list that may not be opened is refused at its parenthesis. -/
theorem wants_full (wants : Wants stream depth before opened behind)
    (left : token.kind = .leftParen) (full : ¬depth < depthLimit) :
    Refuses before token (.grammar (.tooDeep depthLimit)) := by
  rw [Refuses, left, if_neg (by decide), wants.opens token left, Draft.enter, if_neg full]

theorem list_reaches (elements : ReadsElements text bound) (faces : Faces text depth parser stream)
    (within : stream.body.length ≤ bound) (wants : Wants stream depth before opened behind) :
    Reaches text depth bound stream before behind
      ((Parsing.list (Parsing.elements bound false [])).runFrom parser) := by
  rw [Parsing.list, Parsing.expect, bind_assoc]
  refine reaches_solid faces fun opening later consumes => ?_
  by_cases left : opening.kind = .leftParen
  · rw [if_pos left, pure_bind, bind_get]
    obtain ⟨rest, fewer, same, facing, -⟩ := consumes_rest consumes (by simp [left])
    rw [facing.level]
    by_cases room : depth < depthLimit
    · have enters : stream.statementFrom before =
          rest.statementFrom (.value (opened opening.pos)) :=
        (same before).trans (statementFrom_ok (wants_room wants left room))
      rw [if_pos room, bind_set]
      refine reaches_same enters (reaches_bind (elements false [] (faces_level facing (depth + 1))
        (fewer.trans_le within) (wants.level opening.pos)) ?_)
      intro nodes others last few inside
      -- The draft behind the list is the one that closes it, with one list fewer open.
      rw [bind_modify, wants.closes]
      refine .read few rfl ?_
      rw [inside.level]
      exact faces_level inside depth
    · rw [if_neg room]
      exact reaches_refuse consumes (wants_full wants left room)
  · rw [if_neg left, bind_refuse]
    exact reaches_misfit consumes (wants_misfit wants consumes left)

/-- The draft in front of an operation: the statement's own, or an element's. -/
def inFront : Option OpenList → Draft
  | none => .start
  | some list => .value list

/-- The draft behind an operation. -/
def behindOperation : Option OpenList → Parsing.Operation → Draft
  | none, operation => .finished operation.head operation.operands
  | some list, operation => .separator (list.push (.operation operation.head operation.operands))

/-- How many lists are open around an operation. -/
def outside : Option OpenList → Nat
  | none => 0
  | some list => list.depth

/-- The list that a parenthesis opens behind an operator. -/
def openedBehind (keyword : Keyword) : Option OpenList → Nat → OpenList
  | none, pos => .outermost keyword pos []
  | some list, pos => .operands list keyword pos []

theorem wants_operator (keyword : Keyword) (around : Option OpenList) :
    Wants stream (outside around) (.operator keyword around) (openedBehind keyword around)
      fun row => behindOperation around ⟨keyword.head row.pos, row.elements⟩ where
  opens token left := by
    cases around <;> simp [Draft.accept, Draft.takeList, left, outside, openedBehind]
  level pos := by cases around <;> rfl
  closes pos nodes := by
    cases around with
    | none => exact close_outermost keyword pos [] nodes
    | some list => exact close_operands list keyword pos [] nodes
  fits := .inl ⟨keyword, around, rfl⟩

theorem wants_nested (list : OpenList)
    (peeked : ∃ token, solid? stream = some token ∧ token.kind = .leftParen) :
    Wants stream list.depth (.value list) (fun pos => .nested list pos [])
      fun row => .separator (list.push (.list (.detached row.pos) row.elements)) where
  opens token left := by simp [Draft.accept, Draft.takeValue, left]
  level pos := rfl
  closes pos nodes := close_nested list pos [] nodes
  fits := .inr peeked

theorem step_operator {operator : Operator} (kind : token.kind = .operator operator)
    (around : Option OpenList) :
    Step (inFront around) token (.operator ⟨operator, token.pos⟩ around) := by
  cases around with
  | none => exact .first kind
  | some list => exact .operator kind

theorem operation_reaches (around : Option OpenList) (elements : ReadsElements text bound)
    (faces : Faces text (outside around) parser stream) (within : stream.body.length ≤ bound)
    (peeked : ∃ token operator, solid? stream = some token ∧ token.kind = .operator operator) :
    Reaches text (outside around) bound stream (inFront around) (behindOperation around)
      ((Parsing.operation (Parsing.elements bound false [])).runFrom parser) := by
  obtain ⟨first, operator, ahead, kind⟩ := peeked
  rw [Parsing.operation]
  refine reaches_solid faces fun token later consumes => ?_
  obtain rfl := consumes_first consumes ahead
  obtain ⟨rest, fewer, same, facing⟩ := consumes_step consumes (step_operator kind around)
  simp only [kind]
  refine reaches_same same (reaches_bind
    (list_reaches elements facing (fewer.le.trans within) (wants_operator _ around)) ?_)
  intro row others last few inside
  exact .read few rfl inside

/-- Reading goes on behind one more element. -/
theorem more_reaches {opened : OpenList} {read : List Node} (elements : ReadsElements text bound)
    (faces : Faces text (pushAll opened read.reverse).depth parser stream)
    (within : stream.body.length < bound) (node : Node) :
    Reaches text (pushAll opened read.reverse).depth bound stream
      (.separator ((pushAll opened read.reverse).push node))
      (fun nodes => (pushAll opened nodes).close)
      ((Parsing.elements bound true (node :: read)).runFrom parser) := by
  have pushed : pushAll opened (node :: read).reverse =
      (pushAll opened read.reverse).push node := by simp [pushAll]
  rw [← pushed]
  exact elements true (node :: read) faces within (by rw [pushed, depth_push])

/-- By induction on how many tokens are ahead: an element that has rules of its own takes at least
one of them before the next elements are read. -/
theorem readsElements (text : String) (bound : Nat) : ReadsElements text bound := by
  induction bound with
  | zero => exact fun _ _ _ within _ => absurd within (Nat.not_lt_zero _)
  | succ bound ih =>
    intro parser stream depth opened behindElement read faces within level
    subst level
    rw [Parsing.elements]
    refine reaches_bind (separator_reaches faces behindElement) fun _ stream parser few faces => ?_
    have within : stream.body.length ≤ bound := by omega
    refine reaches_mono (Nat.le_succ bound) (reaches_solid faces fun token later consumes => ?_)
    have solid := consumes_solid consumes
    split
    · next operator kind =>
      refine reaches_backup consumes (by simp [kind]) fun rest again few front => ?_
      have peeked := solid_cons rest solid.counts
      refine reaches_bind (operation_reaches (some _) ih front (few.trans within)
        ⟨token, operator, peeked, kind⟩) fun inner rest last few facing => ?_
      exact more_reaches ih facing few _
    · next kind =>
      refine reaches_backup consumes (by simp [kind]) fun rest again few front => ?_
      have peeked := solid_cons rest solid.counts
      refine reaches_bind (list_reaches ih front (few.trans within)
        (wants_nested _ ⟨token, peeked, kind⟩)) fun inner rest last few facing => ?_
      exact more_reaches ih facing few _
    · next kind =>
      obtain ⟨rest, fewer, same, facing⟩ := consumes_step consumes (.closeValue kind)
      exact .read (fewer.trans_le within) same facing
    · next operator left right =>
      split
      · next atom spells =>
        obtain ⟨rest, fewer, same, facing⟩ := consumes_step consumes (.atom spells)
        exact reaches_same same (more_reaches ih facing (fewer.trans_le within) _)
      · next fault spells => exact reaches_refuse consumes (refuses_literal spells)
      · next spells =>
        exact reaches_misfit consumes (value_misfit solid left right operator spells)

/-! ## Whole texts -/

/-- A run that has come to the result, and has been sound. -/
structure Comes (text : String) (expected : Except Refusal Node)
    (result : Except Halt Node × Parser) : Prop where
  value : result.1 = expected.mapError .refused
  sound : ∃ ahead, Sound text result.2 ahead

theorem comes_refused {expected : Except Refusal Node} {refusal : Refusal} {ahead : List Token}
    (same : expected = .error refusal) (sound : Sound text later ahead) :
    Comes text expected (.error (.refused refusal), later) := by
  subst same
  exact ⟨rfl, ahead, sound⟩

/-- A statement ends behind a draft that the end of the text may follow, and no other token. -/
theorem ending_comes {operation : Option Parsing.Operation}
    (faces : Faces text depth parser stream)
    (ends : ∀ token, token.kind = .finish →
      draft.conclude token = .ok (Parsing.asStatement 0 operation))
    (misfit : ∀ token, solid? stream = some token → token.kind ≠ .finish →
      Misfit draft token (.trailing token.describe)) :
    Comes text (stream.statementFrom draft) ((Parsing.ending 0 operation).runFrom parser) := by
  have consumes := nextSolid_consumes faces
  rw [Parsing.ending]
  generalize ran : Parsing.nextSolid.runFrom parser = result at consumes
  cases consumes with
  | @token token rest later first more fewer same faces recent =>
    have here : Consumes text depth stream (.ok token, later) :=
      .token first more fewer same faces recent
    have kind : token.kind ≠ .finish := fun finish => by simp [finish, TokenKind.isFinal] at more
    have refused := misfit_refuses (consumes_solid here) (misfit token first kind)
    rw [bind_ok ran, if_neg kind]
    exact comes_refused (consumes_refuses here refused).2 faces.sound
  | finish first kind same sound recent level =>
    have made : stream.statementFrom draft = .ok (Parsing.asStatement 0 operation) := by
      rw [same, Draft.finish, ends _ kind]
      rfl
    rw [bind_ok ran, if_pos kind, made]
    exact ⟨rfl, [], sound⟩
  | fault first same sound =>
    rw [bind_error ran]
    exact comes_refused (same draft) sound

theorem operator_of_leads (leads : token.kind.isOperator = true) :
    ∃ operator, token.kind = .operator operator := by
  cases kind : token.kind <;> simp [kind, TokenKind.isOperator] at leads ⊢

/-- The first token of a text starts where the text does. -/
theorem first_pos {first : Token} {more : List Token}
    (split : (Stream.ofText text).tokens = first :: more) : first.pos = 0 :=
  (StreamTiling.read_place Mark.start text.toList [] more first split).1

/-- The statement is an operation. -/
theorem operation_comes (faces : Faces text 0 parser stream) (within : stream.body.length ≤ bound)
    (peeked : ∃ token operator, solid? stream = some token ∧ token.kind = .operator operator) :
    Comes text (stream.statementFrom .start) (Parsing.runFrom (do
      let operation ← Parsing.operation (Parsing.elements bound false [])
      Parsing.ending 0 (some operation)) parser) := by
  have reaches := operation_reaches none (readsElements text bound) faces within peeked
  generalize ran : (Parsing.operation _).runFrom parser = result at reaches
  cases reaches with
  | read fewer same faces =>
    rw [bind_ok ran, ← inFront, same]
    refine ending_comes faces ?_ fun token first more => .finished more
    intro token finish
    simp [behindOperation, Draft.conclude, finish, Parsing.asStatement]
  | refused same sound =>
    rw [bind_error ran]
    exact comes_refused same sound

/-- The statement is blank, or does not start as one does. -/
theorem blank_comes (faces : Faces text depth parser stream)
    (other : ∀ token operator, solid? stream = some token → token.kind ≠ .operator operator) :
    Comes text (stream.statementFrom .start) ((Parsing.ending 0 none).runFrom parser) := by
  refine ending_comes faces ?_ fun token first more =>
    .start (fun operator => other token operator first) more
  intro token finish
  simp [Draft.conclude, finish, Parsing.asStatement]

theorem statement_comes (text : String) :
    Comes text (Stream.ofText text).statement (parse text) := by
  obtain ⟨first, more, split⟩ : ∃ first more, (Stream.ofText text).tokens = first :: more :=
    List.exists_cons_of_ne_nil (by simp [Stream.tokens])
  have start : Sound text (.ofText text) (first :: more) := split ▸ sound_start text
  obtain ⟨later, peeked, sound, level⟩ := sound_peek start
  have faces : Faces text 0 later (.ofText text) := ⟨by rwa [split], level⟩
  have peeks := peekSolid_peeks faces
  rw [parse, Parsing.statement, bind_ok peeked, first_pos split, Parsing.operation?, bind_assoc,
    Stream.statement]
  generalize ran : Parsing.peekSolid.runFrom later = result at peeks
  cases peeks with
  | @token token rest later first same faces =>
    rw [bind_ok ran, same]
    by_cases leads : token.kind.isOperator = true
    · obtain ⟨operator, kind⟩ := operator_of_leads leads
      have peeked : solid? rest = some token := by
        rcases first with peeked | ⟨-, finish⟩
        · exact peeked
        · cases finish.symm.trans kind
      rw [if_pos leads, bind_assoc, bind_get, bind_assoc]
      exact operation_comes faces (faces_bound faces).le ⟨token, operator, peeked, kind⟩
    · rw [if_neg leads, pure_bind]
      refine blank_comes faces fun other operator ahead kind => leads ?_
      rcases first with peeked | ⟨none, -⟩
      · rw [← Option.some.inj (ahead.symm.trans peeked), kind, TokenKind.isOperator]
      · cases ahead.symm.trans none
  | fault same sound =>
    rw [bind_error ran]
    exact comes_refused (same _) sound

/-- **Pushed back with discipline.** Reading by descent comes to the same as taking the tokens one
by one, so it never runs out of steps, and never pushes a token back that there is no room for. At
no time is more than one token pushed back. A token is pushed back only when none is, and right
after it was consumed. Every token that is consumed or peeked at is the next one of the text's own,
so those that are consumed and not pushed back are the first ones of the text, with none lost or
repeated. -/
theorem pushback_disciplined (text : String) :
    (parse text).1 = (readStatement text).mapError .refused ∧
      Chronicle (.ofText text) (parse text).2.events (parse text).2.buffer ∧
      (parse text).2.buffer.pushed ≤ 1 ∧
      ∀ earlier event later, (parse text).2.events = earlier ++ event :: later →
        Disciplined text earlier event := by
  obtain ⟨value, ahead, sound⟩ := statement_comes text
  rw [← readStatement_eq_statement] at value
  exact ⟨value, sound.chronicle, holds_pushed sound.holds, sound.disciplined⟩

end ResourceQuery.PushbackDiscipline
