import ResourceQuery.Proofs.Copies
import ResourceQuery.Proofs.NestingLimit
import ResourceQuery.Proofs.Relocation

/-! Statements made of statements. A text that is a statement by itself is an operand inside another
one: its tokens are made again where it stands (`Relocation`), and a draft inside the list takes
them just as a draft by itself does, one list deeper and so many bytes further on (`run_embeds`). So
an operator in front of statements in parentheses is a statement, as long as there is room for one
list more, and its operands are what the statements ask for (`statements_compose`). -/
namespace ResourceQuery.Composition
open Draft (depthLimit)
open CanonicalRoundTrip DraftRuns Grammar GrammarExactness HandBuilt LexemeSpelling NestingLimit
open Relocation ViablePrefix

variable {around list : OpenList} {offset : Nat} {draft next last : Draft} {token : Token}
  {tokens : List Token} {move : Move}

/-! ## Drafts inside a list -/

/-- The node with every part of it so many bytes further on. -/
def moved (offset : Nat) (node : Node) : Node :=
  node.mapOrigins fun origin => { origin with pos := origin.pos + offset }

def movedAll (offset : Nat) (nodes : List Node) : List Node := nodes.map (moved offset)

def movedKeyword (offset : Nat) (keyword : Keyword) : Keyword :=
  { keyword with pos := keyword.pos + offset }

/-- The list with the outermost one inside another list, as one of its operations. -/
def embedList (around : OpenList) (offset : Nat) : OpenList → OpenList
  | .outermost keyword pos read =>
    .operands around (movedKeyword offset keyword) (pos + offset) (movedAll offset read)
  | .operands outer keyword pos read =>
    .operands (embedList around offset outer) (movedKeyword offset keyword) (pos + offset)
      (movedAll offset read)
  | .nested outer pos read =>
    .nested (embedList around offset outer) (pos + offset) (movedAll offset read)

/-- The draft as the beginning of an element of a list. -/
def embed (around : OpenList) (offset : Nat) : Draft → Draft
  | .start => .value around
  | .operator keyword none => .operator (movedKeyword offset keyword) (some around)
  | .operator keyword (some outer) =>
    .operator (movedKeyword offset keyword) (some (embedList around offset outer))
  | .value list => .value (embedList around offset list)
  | .separator list => .separator (embedList around offset list)
  | .finished head operands => .separator (around.push (moved offset (.operation head operands)))

@[simp] theorem depth_embedList (list : OpenList) :
    (embedList around offset list).depth = around.depth + list.depth := by
  induction list with
  | outermost keyword pos read => rfl
  | operands outer keyword pos read ih | nested outer pos read ih =>
    simp only [embedList, OpenList.depth, ih, Nat.add_assoc]

theorem embedList_push (list : OpenList) (node : Node) :
    embedList around offset (list.push node) =
      (embedList around offset list).push (moved offset node) := by
  cases list <;> rfl

theorem moved_operation (keyword : Keyword) (pos : Nat) (operands : List Node) :
    moved offset (.operation (keyword.head pos) operands) =
      .operation ((movedKeyword offset keyword).head (pos + offset)) (movedAll offset operands) :=
  congrArg (Node.operation _) (Copies.mapAllOrigins_eq operands)

theorem moved_list (pos : Nat) (nodes : List Node) :
    moved offset (.list (.detached pos) nodes) =
      .list (.detached (pos + offset)) (movedAll offset nodes) :=
  congrArg (Node.list _) (Copies.mapAllOrigins_eq nodes)

theorem embed_close (list : OpenList) :
    embed around offset list.close = (embedList around offset list).close := by
  cases list with
  | outermost keyword pos read =>
    simp only [OpenList.close, embed, embedList, moved_operation, movedAll, List.map_reverse]
  | operands outer keyword pos read =>
    simp only [OpenList.close, embed, embedList, embedList_push, moved_operation, movedAll,
      List.map_reverse]
  | nested outer pos read =>
    simp only [OpenList.close, embed, embedList, embedList_push, moved_list, movedAll,
      List.map_reverse]

/-- A draft inside a list takes a token as the draft by itself does, if there is room for the list
that the token may open. -/
theorem step_embeds (step : Step draft token next)
    (room : around.depth + openLists next ≤ depthLimit) :
    Step (embed around move.offset draft) (move.token token) (embed around move.offset next) := by
  cases step with
  | first kind | operator kind => exact .operator kind
  | outermost kind => exact .operands kind room
  | operands kind =>
    simp only [openLists, OpenList.depth] at room
    exact .operands kind (by rw [depth_embedList]; omega)
  | nested kind =>
    simp only [openLists, OpenList.depth] at room
    exact .nested kind (by rw [depth_embedList]; omega)
  | @atom _ atom list spells =>
    simp only [embed, embedList_push]
    exact .atom spells
  | closeValue kind =>
    rw [embed_close]
    exact .closeValue kind
  | comma kind => exact .comma kind
  | closeSeparator kind =>
    rw [embed_close]
    exact .closeSeparator kind

theorem run_embeds {limit : Nat} (move : Move) (run : Run draft tokens last)
    (within : Within limit (openLists draft) tokens) (room : around.depth + limit ≤ depthLimit) :
    Run (embed around move.offset draft) (tokens.map move.token)
      (embed around move.offset last) := by
  induction run with
  | done => exact .done
  | @step draft token next tokens last first others ih =>
    have behind : Within limit (openLists next) tokens := within_behind (run_single first) within
    have lists : openLists next ≤ limit := within_depth behind
    exact .step (step_embeds first (by omega)) (ih behind)

/-! ## Texts inside a list -/

/-- The text asks for the operation, which the tree shows, and leaves room for one list more around
it. -/
structure Asks (text : String) (tree : Tree) (head : Head) (operands : List Node) : Prop where
  made : (Stream.ofText text).statement = .ok (.statement (.detached 0) head operands)
  root : ∃ source, tree.root = (Node.statement (.detached 0) head operands).bind source
  nests : nesting (.operation head operands) ≤ 127

/-- The nodes are what the texts ask for, of which each stands a comma behind the one before it. -/
inductive Placed : Nat → List (String × Tree) → List Node → Prop where
  | nil {offset : Nat} : Placed offset [] []
  | cons {offset : Nat} (asks : Asks text tree head operands)
      (others : Placed (offset + text.utf8ByteSize + 1) parts nodes) :
      Placed offset ((text, tree) :: parts) (moved offset (.operation head operands) :: nodes)

/-- The texts with commas between them. -/
def joined (parts : List (String × Tree)) : String := ",".intercalate (parts.map Prod.fst)

/-- The operator in front of the texts in parentheses. -/
def composed (operator : Operator) (texts : List String) : String :=
  operator.keyword ++ "(" ++ ",".intercalate texts ++ ")"

variable {mark : Mark} {text : String} {tree : Tree} {head : Head} {operands nodes : List Node}
  {new : List Char} {parts front back : List (String × Tree)} {operator : Operator}

/-- What a text asks for is read as an element of a list that is the only one. -/
theorem element_reads (asks : Asks text tree head operands) (outermost : list.depth = 1)
    (line : 0 < mark.line) (delimited : Delimited new) : ∃ tokens later,
      Reads mark (text.toList ++ new) tokens later new ∧
        later.offset = mark.offset + text.utf8ByteSize ∧ later.depth = mark.depth ∧
        0 < later.line ∧ Run (.value list) (tokens.filter (·.kind != .blank))
          (.separator (list.push (moved mark.offset (.operation head operands)))) := by
  obtain ⟨finish, draft, run, ends⟩ := statement_ok_iff.mp asks.made
  obtain ⟨-, statement, tokens, -, built⟩ := statement_made_iff.mp asks.made
  obtain ⟨later, reads, offset, depth, lower⟩ := text_moved finish line delimited
  refine ⟨_, later, reads, offset, depth, lower, ?_⟩
  have shallow : NeverDeeper 127 statement.yield := by
    rw [statement_nests, ← statement_nesting built]
    exact asks.nests
  have within : Within 127 (openLists .start)
      ((Stream.ofText text).body.filter (·.kind != .blank)) := by
    intro read start
    rw [tokens, significant_finish finish] at shallow
    simpa [openLists] using shallow read (start.trans (List.prefix_append _ _))
  have room : list.depth + 127 ≤ depthLimit := by rw [outermost, depthLimit]
  cases ends
  have embedded : Run (.value list) _ _ := run_embeds (moveTo mark) run within room
  rw [List.filter_map]
  exact embedded

/-- What is known of a token that is read first, and of the mark behind it. -/
theorem lexeme_reads {kind : TokenKind} {cs taken rest : List Char}
    (first : Lexeme.read mark.depth cs = ⟨kind, taken, rest⟩) (more : kind.isFinal = false) :
    ∃ token later, Reads mark cs [token] later rest ∧ token.kind = kind ∧
      token.pos = mark.offset ∧ later.offset = mark.offset + Text.utf8Length taken ∧
      later.depth = Mark.depthAfter mark.depth kind ∧ mark.line ≤ later.line :=
  ⟨_, _, reads_lexeme first more, rfl, rfl, rfl, rfl, Nat.le_add_right _ _⟩

theorem comma_read (depth : Nat) (rest : List Char) :
    Lexeme.read depth (',' :: rest) = ⟨.comma, [','], rest⟩ := rfl

theorem leftParen_read (depth : Nat) (rest : List Char) :
    Lexeme.read depth ('(' :: rest) = ⟨.leftParen, ['('], rest⟩ := rfl

theorem joined_cons (text : String) (tree : Tree) (next : String × Tree)
    (parts : List (String × Tree)) (rest : List Char) :
    (joined ((text, tree) :: next :: parts)).toList ++ rest =
      text.toList ++ ',' :: ((joined (next :: parts)).toList ++ rest) := by
  simp [joined, String.toList_append]

/-- What the texts ask for is read as so many elements of a list. -/
theorem elements_read (placed : Placed offset parts nodes) (nonempty : parts ≠ [])
    (here : mark.offset = offset) (line : 0 < mark.line) (outermost : list.depth = 1)
    (rest : List Char) : ∃ tokens later,
      Reads mark ((joined parts).toList ++ ')' :: rest) tokens later (')' :: rest) ∧
        later.depth = mark.depth ∧
        Run (.value list) (tokens.filter (·.kind != .blank)) (.separator (pushAll list nodes)) := by
  induction placed generalizing mark list with
  | nil => exact absurd rfl nonempty
  | @cons text tree head operands parts nodes offset asks others ih =>
    subst here
    cases others with
    | nil =>
      obtain ⟨tokens, later, reads, -, depth, -, run⟩ :=
        element_reads asks outermost line (delimited_rightParen rest)
      exact ⟨tokens, later, by simpa [joined] using reads, depth, run⟩
    | @cons next _ _ _ _ nodes _ asks' others =>
      obtain ⟨tokens, middle, reads, place, depth, lower, run⟩ :=
        element_reads asks outermost line (delimited_comma _)
      obtain ⟨comma, behind, separates, kind, -, next, same, below⟩ :=
        lexeme_reads (comma_read middle.depth _) rfl
      have alone : (list.push (moved mark.offset (.operation head operands))).depth = 1 :=
        (depth_push list _).trans outermost
      obtain ⟨others, later, more, level, runs⟩ :=
        ih (by simp) (by rw [next, place]; rfl) (lower.trans_le below) alone
      refine ⟨tokens ++ [comma] ++ others, later, ?_, level.trans (same.trans depth), ?_⟩
      · rw [joined_cons]
        exact reads_append (reads_append reads separates) more
      · have taken : [comma].filter (·.kind != .blank) = [comma] := by simp [kind]
        rw [List.filter_append, List.filter_append, taken]
        exact run_append (run_append run (run_single (.comma kind))) runs

/-! ## The whole text -/

/-- The operator and its parenthesis open the only list, right behind them. -/
theorem head_reads (operator : Operator) (rest : List Char) : ∃ tokens later,
    Reads Mark.start (operator.keyword.toList ++ '(' :: rest) tokens later rest ∧
      later.offset = operator.keyword.utf8ByteSize + 1 ∧ later.depth = 1 ∧ 0 < later.line ∧
      Run .start (tokens.filter (·.kind != .blank))
        (.value (.outermost ⟨operator, 0⟩ operator.keyword.utf8ByteSize [])) := by
  obtain ⟨keyword, middle, word, named, start, place, depth, line⟩ := lexeme_reads
    (keyword_standalone operator Mark.start.depth _ (delimited_leftParen rest)) rfl
  obtain ⟨opening, later, opened, opens, list, next, deeper, below⟩ :=
    lexeme_reads (leftParen_read middle.depth rest) rfl
  have size : middle.offset = operator.keyword.utf8ByteSize := by
    simpa [Mark.start, StreamTiling.utf8Length_toList] using place
  refine ⟨_, later, reads_append word opened, ?_, ?_, ?_, ?_⟩
  · rw [next, size]
    rfl
  · rw [deeper, depth]
    rfl
  · exact Nat.lt_of_lt_of_le Nat.one_pos (line.trans below)
  · have run : Run .start [keyword, opening]
        (.value (.outermost ⟨operator, keyword.pos⟩ opening.pos [])) :=
      .step (.first named) (run_single (.outermost opens))
    rw [start, list, size] at run
    simpa [List.filter_cons, named, opens, Mark.start] using run

/-- The parenthesis that closes the only list is the last token before the end. -/
theorem closing_reads (one : mark.depth = 1) : ∃ closing last,
    Stream.read mark [')'] = ⟨[closing], last⟩ ∧ closing.kind = .rightParen ∧
      last.kind = .finish := by
  have opened : mark.depth ≠ 0 := by omega
  obtain ⟨closing, later, closed, closes, -, -, level, -⟩ :=
    lexeme_reads (read_rightParen opened []) rfl
  have nothing : later.depth = 0 := by
    rw [level, one]
    rfl
  rw [Reads, read_end nothing] at closed
  exact ⟨closing, _, closed, closes, rfl⟩

theorem composed_made (placed : Placed (operator.keyword.utf8ByteSize + 1) parts nodes)
    (nonempty : parts ≠ []) : (Stream.ofText (composed operator (parts.map Prod.fst))).statement =
      .ok (.statement (.detached 0)
        (Keyword.head ⟨operator, 0⟩ operator.keyword.utf8ByteSize) nodes) := by
  have chars : (composed operator (parts.map Prod.fst)).toList =
      operator.keyword.toList ++ '(' :: ((joined parts).toList ++ [')']) := by
    simp [composed, joined, String.toList_append]
  obtain ⟨front, inside, first, place, one, line, opened⟩ := head_reads operator _
  obtain ⟨middle, behind, second, level, run⟩ := elements_read placed nonempty place line
    (show OpenList.depth (.outermost ⟨operator, 0⟩ operator.keyword.utf8ByteSize []) = 1 from rfl)
    []
  obtain ⟨closing, last, third, closes, finish⟩ := closing_reads (level.trans one)
  have whole := reads_append first second
  rw [Reads, third] at whole
  have ends := run_append opened (run_append run (run_single (.closeSeparator closes)))
  rw [close_outermost] at ends
  rw [statement_ok_iff, Stream.ofText, chars, whole]
  refine ⟨finish, _, ?_, .operation⟩
  simpa [List.filter_cons, closes] using ends

/-! ## Operands and their texts -/

/-- What is in front of the text behind the given ones. -/
def lead (operator : Operator) (front : List (String × Tree)) : String :=
  operator.keyword ++ "(" ++ String.join (front.map fun part => part.1 ++ ",")

/-- The text is read as the tree, which holds an operation with room for one list more around it. -/
structure Composable (text : String) (tree : Tree) : Prop where
  read : ∃ handle name, Tree.parse handle name text = .ok tree
  operation : ∃ origin head operands, tree.root = .statement origin head operands
  nests : nesting tree.root ≤ 127

theorem composable_asks (composable : Composable text tree) :
    ∃ head operands, Asks text tree head operands := by
  obtain ⟨handle, name, accepted⟩ := composable.read
  obtain ⟨node, made, rfl⟩ := parse_ok_iff.mp accepted
  obtain ⟨-, draft, -, ends⟩ := statement_ok_iff.mp made
  cases ends with
  | blank =>
    obtain ⟨origin, head, operands, root⟩ := composable.operation
    cases root
  | @operation head operands =>
    have nests := composable.nests
    rw [Node.bind, nesting_mapOrigins] at nests
    exact ⟨head, operands, made, ⟨_, rfl⟩, nests⟩

theorem placed_exists (each : ∀ part ∈ parts, Composable part.1 part.2) (offset : Nat) :
    ∃ nodes, Placed offset parts nodes := by
  induction parts generalizing offset with
  | nil => exact ⟨[], .nil⟩
  | cons part parts ih =>
    obtain ⟨first, others⟩ := List.forall_mem_cons.mp each
    obtain ⟨head, operands, asks⟩ := composable_asks first
    obtain ⟨nodes, placed⟩ := ih others _
    exact ⟨_, .cons asks placed⟩

theorem placed_length (placed : Placed offset parts nodes) : nodes.length = parts.length := by
  induction placed with
  | nil => rfl
  | cons asks others ih => exact congrArg (· + 1) ih

/-- Each operand stands as far on as its text does. -/
theorem placed_at (placed : Placed offset (front ++ (text, tree) :: back) nodes) :
    ∃ head operands, Asks text tree head operands ∧ nodes[front.length]? = some
      (moved (offset + (String.join (front.map fun part => part.1 ++ ",")).utf8ByteSize)
        (.operation head operands)) := by
  induction front generalizing offset nodes with
  | nil =>
    cases placed with
    | cons asks others => exact ⟨_, _, asks, rfl⟩
  | cons part front ih =>
    cases placed with
    | cons asks others =>
      obtain ⟨head, operands, asks, found⟩ := ih others
      refine ⟨head, operands, asks, ?_⟩
      rw [List.length_cons, List.getElem?_cons_succ, found, List.map_cons, String.join_cons,
        String.utf8ByteSize_append, String.utf8ByteSize_append]
      congr 2
      have comma : ",".utf8ByteSize = 1 := rfl
      simp only [comma]
      omega

theorem asks_canonical (asks : Asks text tree head operands) :
    tree.canonical.toList = (Node.operation head operands).spelling := by
  obtain ⟨source, root⟩ := asks.root
  rw [Tree.canonical, root, Node.canonical, String.toList_ofList, Node.bind, spelling_mapOrigins]
  rfl

theorem spellings_eq (nodes : List Node) :
    Node.spellings nodes = [','].intercalate (nodes.map Node.spelling) := by
  induction nodes with
  | nil => rfl
  | cons node nodes ih =>
    rw [spellings_cons, List.map_cons]
    cases nodes with
    | nil => simp [followers]
    | cons next nodes =>
      rw [followers, ih, List.map_cons, List.intercalate_cons_cons]
      simp

theorem placed_canonical (placed : Placed offset parts nodes) :
    nodes.map Node.spelling = parts.map fun part => part.2.canonical.toList := by
  induction placed with
  | nil => rfl
  | cons asks others ih =>
    rw [List.map_cons, List.map_cons, ih, asks_canonical asks, moved, spelling_mapOrigins]

/-- A text inside the whole has in front of it what leads up to it. -/
theorem composed_split (operator : Operator) (front back : List (String × Tree)) (text : String)
    (tree : Tree) : ∃ behind, composed operator ((front ++ (text, tree) :: back).map Prod.fst) =
      lead operator front ++ text ++ behind := by
  have row : ∃ behind, ",".intercalate ((front ++ (text, tree) :: back).map Prod.fst) =
      String.join (front.map fun part => part.1 ++ ",") ++ text ++ behind := by
    induction front with
    | nil =>
      cases back with
      | nil => exact ⟨"", by simp⟩
      | cons next back => exact ⟨"," ++ ",".intercalate ((next :: back).map Prod.fst), by
          simp [String.append_assoc]⟩
    | cons part front ih =>
      obtain ⟨behind, whole⟩ := ih
      refine ⟨behind, ?_⟩
      rw [List.cons_append, List.map_cons, String.intercalate_cons_of_ne_nil (by simp), whole]
      simp [String.append_assoc]
  obtain ⟨behind, whole⟩ := row
  refine ⟨behind ++ ")", ?_⟩
  rw [composed, whole, lead]
  simp only [String.append_assoc]

/-! ## Origins -/

/-- The operation of a tree, moved on and handed over to another source. -/
def handedOver (source : Source) (offset : Nat) (operation : Node) : Node :=
  operation.mapOrigins fun origin => ⟨origin.pos + offset, some source⟩

/-- It does not matter which source the operation came from. -/
theorem bind_moved (source other : Source) (offset : Nat) (node : Node) :
    (moved offset node).bind source = handedOver source offset (node.bind other) := by
  rw [moved, handedOver, Node.bind, Node.bind, Ownership.mapOrigins_mapOrigins,
    Ownership.mapOrigins_mapOrigins]
  rfl

/-! ## Statements of statements -/

/-- **Statements compose.** Texts that are read as operations with room for one list more around
them are read, behind an operator and between parentheses with commas between them, as one operation
of that operator. Its operands are their operations, each so many bytes further on as its text is,
and they belong to the source of the whole. So its canonical form is put together from theirs. -/
theorem statements_compose (operator : Operator) (parts : List (String × Tree))
    (nonempty : parts ≠ []) (each : ∀ part ∈ parts, Composable part.1 part.2) (handle : Nat)
    (name : String) : ∃ tree head operands,
      Tree.parse handle name (composed operator (parts.map Prod.fst)) = .ok tree ∧
        tree.root = .statement ⟨0, some tree.source⟩ head operands ∧ head.operator = operator ∧
        operands.length = parts.length ∧
        (∀ front text part back, parts = front ++ (text, part) :: back →
          (∃ behind, composed operator (parts.map Prod.fst) =
            lead operator front ++ text ++ behind) ∧
          ∃ origin inner own, part.root = .statement origin inner own ∧
            operands[front.length]? = some
              (handedOver tree.source (lead operator front).utf8ByteSize
                (.operation inner own))) ∧
        tree.canonical = composed operator (parts.map fun part => part.2.canonical) := by
  obtain ⟨nodes, placed⟩ := placed_exists each (operator.keyword.utf8ByteSize + 1)
  have made := composed_made placed nonempty
  refine ⟨_, _, _, parse_ok_iff.mpr ⟨_, made, rfl⟩, rfl, rfl, ?_, ?_, ?_⟩
  · rw [Copies.mapAllOrigins_eq, List.length_map, placed_length placed]
  · rintro front text part back rfl
    refine ⟨composed_split operator front back text part, ?_⟩
    obtain ⟨inner, own, asks, found⟩ := placed_at placed
    obtain ⟨other, root⟩ := asks.root
    refine ⟨_, _, _, root, ?_⟩
    rw [Copies.mapAllOrigins_eq, List.getElem?_map, found]
    have size : operator.keyword.utf8ByteSize + 1 +
        (String.join (front.map fun part => part.1 ++ ",")).utf8ByteSize =
          (lead operator front).utf8ByteSize := by
      rw [lead, String.utf8ByteSize_append, String.utf8ByteSize_append]
      rfl
    rw [size]
    exact congrArg some (bind_moved _ other _ (.operation inner own))
  · rw [Tree.canonical, ← String.toList_inj, Node.canonical, String.toList_ofList, Node.bind,
      spelling_mapOrigins, Node.spelling, spellings_eq, placed_canonical placed]
    simp [composed, String.toList_append, String.toList_intercalate, Keyword.head,
      Function.comp_def]

/-- Whether the tree holds an operation with room for one list more around it. -/
def leavesRoom (tree : Tree) : Bool :=
  match tree.root with
  | .statement _ _ operands => nestingAll operands < 127
  | _ => false

theorem composable_of_leavesRoom {handle : Nat} {name : String}
    (read : (Tree.parse handle name text).toOption.any leavesRoom = true) :
    ∃ tree, Tree.parse handle name text = .ok tree ∧ Composable text tree := by
  cases accepted : Tree.parse handle name text with
  | error diagnostic => simp [accepted, Except.toOption] at read
  | ok tree =>
    have room : leavesRoom tree = true := by simpa [accepted, Except.toOption] using read
    unfold leavesRoom at room
    split at room
    · rename_i origin head operands root
      have fewer : nestingAll operands < 127 := by simpa using room
      exact ⟨tree, rfl, ⟨_, _, accepted⟩, ⟨_, _, _, root⟩, by rw [root]; exact fewer⟩
    · cases room

theorem statements_compose_lines : ∃ one two tree head operands origin inner own,
    Tree.parse 0 "one" " eq(é,1) " = .ok one ∧ Tree.parse 1 "two" "in(b,\n(2,3))" = .ok two ∧
      Tree.parse 2 "both" "and( eq(é,1) ,in(b,\n(2,3)))" = .ok tree ∧
      tree.root = .statement ⟨0, some tree.source⟩ head operands ∧
      head.operator = .conjunction ∧ operands.length = 2 ∧
      two.root = .statement origin inner own ∧
      operands[1]? = some (handedOver tree.source 15 (.operation inner own)) ∧
      tree.canonical = composed .conjunction [one.canonical, two.canonical] := by
  obtain ⟨one, first, room⟩ : ∃ one, Tree.parse 0 "one" " eq(é,1) " = .ok one ∧ Composable _ one :=
    composable_of_leavesRoom (by decide +kernel)
  obtain ⟨two, second, room'⟩ : ∃ two, Tree.parse 1 "two" "in(b,\n(2,3))" = .ok two ∧
      Composable _ two := composable_of_leavesRoom (by decide +kernel)
  have each : ∀ part ∈ [(" eq(é,1) ", one), ("in(b,\n(2,3))", two)], Composable part.1 part.2 := by
    simp [room, room']
  obtain ⟨tree, head, operands, read, root, operator, length, inside, canonical⟩ :=
    statements_compose .conjunction _ (by simp) each 2 "both"
  obtain ⟨-, origin, inner, own, shown, found⟩ := inside [(" eq(é,1) ", one)] _ two [] rfl
  exact ⟨one, two, tree, head, operands, origin, inner, own, first, second, read, root, operator,
    length, shown, found, canonical⟩

end ResourceQuery.Composition
