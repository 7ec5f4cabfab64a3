import ResourceQuery.Proofs.CanonicalRoundTrip

/-! Where a token stands decides where the nodes made of it stand, and nothing else: a draft without
its places takes a token without its place just as the draft itself takes the token. So texts whose
streams have the same content make the same statement in all but the origins of its nodes, or fail
by the same fault (`parse_agrees`). -/
namespace ResourceQuery.PlaceIndependence
open CanonicalRoundTrip GrammarExactness

variable {token : Token}

/-! ## Drafts without places -/

/-- The token as if it stood at the beginning of everything. -/
def bare (token : Token) : Token := { token with pos := 0, line := 0 }

def bareKeyword (keyword : Keyword) : Keyword := { keyword with pos := 0 }

def bareList : OpenList → OpenList
  | .outermost keyword _ read => .outermost (bareKeyword keyword) 0 (shapes read)
  | .operands around keyword _ read =>
    .operands (bareList around) (bareKeyword keyword) 0 (shapes read)
  | .nested around _ read => .nested (bareList around) 0 (shapes read)

def bareHead (head : Head) : Head := ⟨.detached 0, head.operator, .detached 0⟩

def bareDraft : Draft → Draft
  | .start => .start
  | .operator keyword around => .operator (bareKeyword keyword) (around.map bareList)
  | .value list => .value (bareList list)
  | .separator list => .separator (bareList list)
  | .finished head operands => .finished (bareHead head) (shapes operands)

@[simp] theorem depth_bareList (list : OpenList) : (bareList list).depth = list.depth := by
  induction list with
  | outermost keyword pos read => rfl
  | operands around keyword pos read ih | nested around pos read ih =>
    simp only [bareList, OpenList.depth, ih]

theorem shapes_eq_map (nodes : List Node) : shapes nodes = nodes.map shape := by
  induction nodes with
  | nil => rfl
  | cons node nodes ih => exact congrArg (shape node :: ·) ih

theorem shapes_reverse (nodes : List Node) : shapes nodes.reverse = (shapes nodes).reverse := by
  rw [shapes_eq_map, shapes_eq_map, List.map_reverse]

theorem bareList_push (list : OpenList) (node : Node) :
    bareList (list.push node) = (bareList list).push (shape node) := by
  cases list <;> rfl

theorem bareDraft_close (list : OpenList) :
    bareDraft list.close = (bareList list).close := by
  cases list with
  | outermost keyword pos read =>
    simp only [OpenList.close, bareDraft, bareList, shapes_reverse]
    rfl
  | operands around keyword pos read | nested around pos read =>
    simp only [OpenList.close, bareDraft, bareList, bareList_push, ← shapes_reverse]
    rfl

/-! ## One token -/

theorem enter_bare (depth : Nat) (list : OpenList) :
    Draft.enter depth (bareList list) = (Draft.enter depth list).map bareDraft := by
  unfold Draft.enter
  split <;> rfl

theorem takeFirst_bare (token : Token) :
    Draft.takeFirst (bare token) = (Draft.takeFirst token).map bareDraft := by
  simp only [Draft.takeFirst, bare]
  split <;> rfl

theorem takeList_other {keyword : Keyword} {around : Option OpenList}
    (other : token.kind ≠ .leftParen) :
    Draft.takeList keyword around token = .error (token.unexpectedIn "left parentheses") := by
  unfold Draft.takeList
  split
  · contradiction
  · contradiction
  · rfl

theorem takeList_bare (keyword : Keyword) (around : Option OpenList) (token : Token) :
    Draft.takeList (bareKeyword keyword) (around.map bareList) (bare token) =
      (Draft.takeList keyword around token).map bareDraft := by
  by_cases left : token.kind = .leftParen
  · cases around with
    | none =>
      simp only [Draft.takeList, bare, left, Option.map_none]
      exact enter_bare 0 (.outermost keyword token.pos [])
    | some around =>
      simp only [Draft.takeList, bare, left, Option.map_some, depth_bareList]
      exact enter_bare around.depth (.operands around keyword token.pos [])
  · have other : (bare token).kind ≠ .leftParen := left
    rw [takeList_other left, takeList_other other]
    rfl

theorem takeValue_bare (list : OpenList) (token : Token) :
    Draft.takeValue (bareList list) (bare token) = (Draft.takeValue list token).map bareDraft := by
  have atom : (bare token).atom? = token.atom? := rfl
  simp only [Draft.takeValue, atom]
  simp only [bare]
  split
  · rfl
  · rw [depth_bareList]
    exact enter_bare list.depth (.nested list token.pos [])
  · exact congrArg Except.ok (bareDraft_close list).symm
  · split
    · rename_i atom _
      exact congrArg (fun list => Except.ok (Draft.separator list))
        (bareList_push list (.atom (.detached token.pos) atom)).symm
    · rfl
    · rfl

theorem takeSeparator_bare (list : OpenList) (token : Token) :
    Draft.takeSeparator (bareList list) (bare token) =
      (Draft.takeSeparator list token).map bareDraft := by
  simp only [Draft.takeSeparator, bare]
  split
  · rfl
  · exact congrArg Except.ok (bareDraft_close list).symm
  · rfl

/-- A draft takes a token the same way wherever it stands. -/
theorem accept_bare (draft : Draft) (token : Token) :
    (bareDraft draft).accept (bare token) = (draft.accept token).map bareDraft := by
  have kind : (bare token).kind = token.kind := rfl
  simp only [Draft.accept, kind]
  split
  · rfl
  · rfl
  · cases draft with
    | start => exact takeFirst_bare token
    | operator keyword around => exact takeList_bare keyword around token
    | value list => exact takeValue_bare list token
    | separator list => exact takeSeparator_bare list token
    | finished head operands => rfl

theorem conclude_bare (draft : Draft) (token : Token) :
    (bareDraft draft).conclude (bare token) = (draft.conclude token).map shape := by
  have kind : (bare token).kind = token.kind := rfl
  simp only [Draft.conclude, kind]
  generalize token.kind = kind
  cases kind <;> cases draft <;> rfl

/-! ## Streams -/

/-- What a stream says apart from where its tokens stand: the tokens that count. -/
def content (stream : Stream) : Stream :=
  ⟨(stream.body.filter (·.kind != .blank)).map bare, bare stream.last⟩

theorem content_blank {stream : Stream} (blank : token.kind = .blank) :
    content (stream.cons token) = content stream := by
  simp [content, Stream.cons, blank]

theorem content_cons {stream : Stream} (counts : token.kind ≠ .blank) :
    content (stream.cons token) = (content stream).cons (bare token) := by
  simp [content, Stream.cons, counts]

/-- The statement that a stream makes behind a draft, without its places, or the fault without its
token. -/
def verdictFrom (draft : Draft) (stream : Stream) : Except Fault Node :=
  ((stream.statementFrom draft).mapError Refusal.fault).map shape

theorem verdict_last (draft : Draft) (last : Token) :
    verdictFrom draft ⟨[], last⟩ = (draft.conclude last).map shape := by
  change (((draft.conclude last).mapError (Refusal.mk last)).mapError Refusal.fault).map shape = _
  cases draft.conclude last <;> rfl

theorem verdict_cons (draft : Draft) (token : Token) (stream : Stream) :
    verdictFrom draft (stream.cons token) =
      draft.accept token >>= fun draft => verdictFrom draft stream := by
  rw [verdictFrom, Stream.statementFrom_cons, Draft.take]
  cases draft.accept token <;> rfl

/-- Only the content of a stream decides what it makes. -/
theorem verdict_content (draft : Draft) (stream : Stream) :
    verdictFrom (bareDraft draft) (content stream) = verdictFrom draft stream := by
  obtain ⟨body, last⟩ := stream
  induction body generalizing draft with
  | nil =>
    change verdictFrom (bareDraft draft) ⟨[], bare last⟩ = _
    rw [verdict_last, verdict_last, conclude_bare]
    cases draft.conclude last with
    | ok node => exact congrArg Except.ok (shape_mapOrigins node)
    | error fault => rfl
  | cons token body ih =>
    change verdictFrom _ (content (Stream.cons token ⟨body, last⟩)) =
      verdictFrom _ (Stream.cons token ⟨body, last⟩)
    by_cases blank : token.kind = .blank
    · have same : draft.accept token = .ok draft := by simp [Draft.accept, blank]
      rw [content_blank blank, verdict_cons, same, ih]
      rfl
    · rw [content_cons blank, verdict_cons, verdict_cons, accept_bare]
      cases draft.accept token with
      | ok next => exact ih next
      | error fault => rfl

/-! ## Trees -/

/-- Two outcomes of reading that are the same but for the texts: trees that differ in the origins of
their nodes alone, or diagnostics of one fault. -/
inductive Agree : Except Diagnostic Tree → Except Diagnostic Tree → Prop where
  | read (same : shape one.root = shape other.root) (form : one.canonical = other.canonical) :
      Agree (.ok one) (.ok other)
  | refused (same : one.fault = other.fault) : Agree (.error one) (.error other)

theorem parse_agrees {text text' : String} (handle handle' : Nat) (name name' : String)
    (same : content (Stream.ofText text) = content (Stream.ofText text')) :
    Agree (Tree.parse handle name text) (Tree.parse handle' name' text') := by
  have verdict : verdictFrom .start (Stream.ofText text) =
      verdictFrom .start (Stream.ofText text') := by
    rw [← verdict_content, same]
    exact verdict_content .start _
  unfold verdictFrom at verdict
  simp only [Tree.parse, Tree.ofSource, readStatement_eq_statement, Stream.statement]
  cases one : (Stream.ofText text).statementFrom .start with
  | ok node =>
    cases other : (Stream.ofText text').statementFrom .start with
    | ok node' =>
      rw [one, other] at verdict
      have alike : shape node = shape node' := Except.ok.inj verdict
      have whole : shape (node.bind ⟨handle, name, text⟩) =
          shape (node'.bind ⟨handle', name', text'⟩) := by
        rw [Node.bind, Node.bind, shape_mapOrigins, shape_mapOrigins, alike]
      exact .read whole (canonical_of_shape whole)
    | error refusal =>
      rw [one, other] at verdict
      cases verdict
  | error refusal =>
    cases other : (Stream.ofText text').statementFrom .start with
    | ok node =>
      rw [one, other] at verdict
      cases verdict
    | error refusal' =>
      rw [one, other] at verdict
      exact .refused (Except.error.inj verdict)

end ResourceQuery.PlaceIndependence
