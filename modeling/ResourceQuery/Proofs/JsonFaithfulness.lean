import ResourceQuery.Proofs.CanonicalRoundTrip
import ResourceQuery.Proofs.JsonText
import ResourceQuery.Tree.Json

/-! What the JSON of a tree tells of the tree. Every object has its node's kind and position, and
whatever else is needed to spell the node, so two trees with the same text have the same name, the
same positions and the same canonical form. They were both read, so the canonical form settles the
rest (`json_keeps_tree`). -/

namespace ResourceQuery.JsonFaithfulness
open CanonicalRoundTrip GrammarExactness JsonText

/-! ## Members of objects -/

/-- The value under a key, if it is an object that has the key. -/
def member? (key : String) : Written → Option Written
  | .object members => members.lookup key
  | _ => none

/-- How a position is written. -/
def writtenPos (pos : Nat) : Written := .bare (toString (pos : Int)).toList

theorem writtenPos_injective {pos pos' : Nat} (same : writtenPos pos = writtenPos pos') :
    pos = pos' := by
  have digits (pos : Nat) : (toString (pos : Int)).toList = Nat.toDigits 10 pos := by
    have natural : toString (pos : Int) = pos.repr := rfl
    rw [natural, Nat.repr_eq_ofList_toDigits, String.toList_ofList]
  have chars := Written.bare.inj same
  rw [digits, digits] at chars
  rw [← Nat.ofDigitChars_ten_toDigits (n := pos), chars, Nat.ofDigitChars_ten_toDigits]

/-- A number shows its kind, its position and its text, whichever forms it has. -/
theorem numeral_members (numeral : Numeral) (pos : Nat) :
    member? "kind" (written (numeral.toJson pos)) = some (.string "number") ∧
      member? "pos" (written (numeral.toJson pos)) = some (writtenPos pos) ∧
      member? "text" (written (numeral.toJson pos)) = some (.string numeral.text) := by
  obtain ⟨text, int, uint, float⟩ := numeral
  cases float <;> cases int <;>
    simp [Numeral.toJson, formMember, written, writtenMembers, member?, List.lookup_cons,
      writtenPos]

theorem written_kind (node : Node) :
    member? "kind" (written node.toJson) = some (.string node.kind.name) := by
  cases node with
  | atom origin atom =>
    cases atom with
    | number numeral => exact (numeral_members numeral origin.pos).1
    | identifier | null | bool | string => rfl
  | list | operation | blankStatement | statement => rfl

theorem written_pos (node : Node) :
    member? "pos" (written node.toJson) = some (writtenPos node.pos) := by
  cases node with
  | atom origin atom =>
    cases atom with
    | number numeral => exact (numeral_members numeral origin.pos).2.1
    | identifier | null | bool | string => rfl
  | list | operation | blankStatement | statement => rfl

theorem kind_injective {kind kind' : NodeKind} (same : kind.name = kind'.name) : kind = kind' := by
  revert same
  cases kind <;> cases kind' <;> decide

theorem keyword_injective {operator operator' : Operator}
    (same : operator.keyword = operator'.keyword) : operator = operator' := by
  have read := congrArg Operator.ofKeyword? same
  rw [Operator.ofKeyword?_keyword, Operator.ofKeyword?_keyword] at read
  exact Option.some.inj read

/-! ## Nodes -/

mutual

/-- The positions of the node and of everything in it, in order, but for the operands' lists. -/
def places : Node → List Nat
  | .atom origin _ | .blankStatement origin => [origin.pos]
  | .list origin nodes => origin.pos :: placesAll nodes
  | .operation head operands => head.origin.pos :: placesAll operands
  | .statement origin head operands => origin.pos :: head.origin.pos :: placesAll operands

def placesAll : List Node → List Nat
  | [] => []
  | node :: nodes => places node ++ placesAll nodes

end

/-- An atom is spelled as its JSON shows it. -/
theorem atom_shown {atom atom' : Atom} {pos pos' : Nat} (kinds : atom.kind = atom'.kind)
    (same : written (atom.toJson pos) = written (atom'.toJson pos')) :
    atom.spelling = atom'.spelling := by
  have shown (key : String) := congrArg (member? key) same
  cases atom with
  | identifier name =>
    cases atom' with
    | identifier name' =>
      have names : some (Written.string name) = some (.string name') := shown "name"
      cases names
      rfl
    | null | bool | string | number => cases kinds
  | null =>
    cases atom' with
    | null => rfl
    | identifier | bool | string | number => cases kinds
  | bool value =>
    cases atom' with
    | bool value' =>
      have values : some (written (.bool value)) = some (written (.bool value')) := shown "value"
      cases value <;> cases value' <;> first | rfl | exact absurd values (by simp [written])
    | identifier | null | string | number => cases kinds
  | string literal =>
    cases atom' with
    | string literal' =>
      have quoted : some (Written.string literal.quoted) = some (.string literal'.quoted) :=
        shown "quoted"
      injection quoted with quoted
      injection quoted
    | identifier | null | bool | number => cases kinds
  | number numeral =>
    cases atom' with
    | number numeral' =>
      have texts := shown "text"
      rw [Atom.toJson, Atom.toJson, (numeral_members numeral pos).2.2,
        (numeral_members numeral' pos').2.2] at texts
      injection texts with texts
      injection texts
    | identifier | null | bool | string => cases kinds

theorem head_shown {head head' : Head} {values values' : List Json}
    (same : written (head.toJson values) = written (head'.toJson values')) :
    head.operator = head'.operator ∧ head.origin.pos = head'.origin.pos ∧
      writtenAll values = writtenAll values' := by
  have shown (key : String) := congrArg (member? key) same
  have operands : some (Written.array (writtenAll values)) = some (.array (writtenAll values')) :=
    shown "operands"
  have operator : some (Written.string head.operator.keyword) =
    some (.string head'.operator.keyword) := shown "operator"
  have pos : some (writtenPos head.origin.pos) = some (writtenPos head'.origin.pos) := shown "pos"
  injection operands with operands
  injection operator with operator
  injection operator with operator
  injection operands with operands
  exact ⟨keyword_injective operator, writtenPos_injective (Option.some.inj pos), operands⟩

mutual

/-- The JSON of a node shows its canonical form and the positions in it. -/
theorem node_shown (node node' : Node) (same : written node.toJson = written node'.toJson) :
    node.spelling = node'.spelling ∧ places node = places node' := by
  have shown (key : String) := congrArg (member? key) same
  have kinds : node.kind = node'.kind := by
    have names := shown "kind"
    rw [written_kind, written_kind] at names
    injection names with names
    injection names with names
    exact kind_injective names
  have pos : node.pos = node'.pos := by
    have positions := shown "pos"
    rw [written_pos, written_pos] at positions
    exact writtenPos_injective (Option.some.inj positions)
  cases node with
  | atom origin atom =>
    cases node' with
    | atom origin' atom' =>
      exact ⟨congrArg String.toList (atom_shown kinds same), congrArg (· :: []) pos⟩
    | list | operation | blankStatement | statement => cases atom <;> cases kinds
  | list origin nodes =>
    cases node' with
    | list origin' nodes' =>
      have elements : some (Written.array (writtenAll (Node.allToJson nodes))) =
        some (.array (writtenAll (Node.allToJson nodes'))) := shown "nodes"
      injection elements with elements
      injection elements with elements
      obtain ⟨spelled, placed⟩ := nodes_shown nodes nodes' elements
      exact ⟨by rw [Node.spelling, Node.spelling, spelled], congrArg₂ List.cons pos placed⟩
    | atom origin' atom' => cases atom' <;> cases kinds
    | operation | blankStatement | statement => cases kinds
  | operation head operands =>
    cases node' with
    | operation head' operands' =>
      obtain ⟨operator, -, elements⟩ := head_shown same
      obtain ⟨spelled, placed⟩ := nodes_shown operands operands' elements
      exact ⟨by rw [Node.spelling, Node.spelling, operator, spelled],
        congrArg₂ List.cons pos placed⟩
    | atom origin' atom' => cases atom' <;> cases kinds
    | list | blankStatement | statement => cases kinds
  | blankStatement origin =>
    cases node' with
    | blankStatement origin' => exact ⟨rfl, congrArg (· :: []) pos⟩
    | statement origin' head' operands' =>
      have operator := shown "operator"
      injection operator with operator
      cases operator
    | atom origin' atom' => cases atom' <;> cases kinds
    | list | operation => cases kinds
  | statement origin head operands =>
    cases node' with
    | statement origin' head' operands' =>
      have operations : some (written (head.toJson (Node.allToJson operands))) =
        some (written (head'.toJson (Node.allToJson operands'))) := shown "operator"
      obtain ⟨operator, start, elements⟩ := head_shown (Option.some.inj operations)
      obtain ⟨spelled, placed⟩ := nodes_shown operands operands' elements
      refine ⟨by rw [Node.spelling, Node.spelling, operator, spelled], ?_⟩
      exact congrArg₂ List.cons pos (congrArg₂ List.cons start placed)
    | blankStatement origin' =>
      have operator := shown "operator"
      injection operator with operator
      cases operator
    | atom origin' atom' => cases atom' <;> cases kinds
    | list | operation => cases kinds

theorem nodes_shown (nodes nodes' : List Node)
    (same : writtenAll (Node.allToJson nodes) = writtenAll (Node.allToJson nodes')) :
    Node.spellings nodes = Node.spellings nodes' ∧ placesAll nodes = placesAll nodes' := by
  cases nodes with
  | nil =>
    cases nodes' with
    | nil => exact ⟨rfl, rfl⟩
    | cons => cases same
  | cons node nodes =>
    cases nodes' with
    | nil => cases same
    | cons node' nodes' =>
      obtain ⟨first, others⟩ := List.cons.inj same
      obtain ⟨spelled, placed⟩ := node_shown node node' first
      obtain ⟨spelledAll, placedAll⟩ := nodes_shown nodes nodes' others
      have behind : followers nodes = followers nodes' := by
        cases nodes <;> cases nodes' <;> first
          | rfl
          | cases others
          | exact congrArg (',' :: ·) spelledAll
      exact ⟨by rw [spellings_cons, spellings_cons, spelled, behind],
        by rw [placesAll, placesAll, placed, placedAll]⟩

end

/-! ## Copies -/

variable {change : Origin → Origin}

mutual

/-- The JSON of a node has none of its sources. -/
theorem toJson_mapOrigins (keeps : ∀ origin, (change origin).pos = origin.pos) (node : Node) :
    (node.mapOrigins change).toJson = node.toJson := by
  cases node with
  | atom origin atom => simp only [Node.mapOrigins, Node.toJson, keeps]
  | list origin nodes =>
    simp only [Node.mapOrigins, Node.toJson, keeps, allToJson_mapOrigins keeps nodes]
  | operation head operands =>
    simp only [Node.mapOrigins, Node.toJson, Head.toJson, keeps,
      allToJson_mapOrigins keeps operands]
  | blankStatement origin => simp only [Node.mapOrigins, Node.toJson, keeps]
  | statement origin head operands =>
    simp only [Node.mapOrigins, Node.toJson, Head.toJson, keeps,
      allToJson_mapOrigins keeps operands]

theorem allToJson_mapOrigins (keeps : ∀ origin, (change origin).pos = origin.pos)
    (nodes : List Node) :
    Node.allToJson (Node.mapAllOrigins change nodes) = Node.allToJson nodes := by
  cases nodes with
  | nil => rfl
  | cons node nodes =>
    simp only [Node.mapAllOrigins, Node.allToJson, toJson_mapOrigins keeps node,
      allToJson_mapOrigins keeps nodes]

end

/-! ## Trees -/

/-- Trees that were read are the same, in all but their origins, if they are spelled the same. -/
theorem read_shape {handle handle' : Nat} {name name' text text' : String} {tree tree' : Tree}
    (read : Tree.parse handle name text = .ok tree)
    (read' : Tree.parse handle' name' text' = .ok tree')
    (same : tree.canonical = tree'.canonical) : shape tree.root = shape tree'.root := by
  obtain ⟨node, made, rfl⟩ := parse_ok_iff.mp read
  obtain ⟨node', made', rfl⟩ := parse_ok_iff.mp read'
  have bound (node : Node) (source : Source) : shape (node.bind source) = shape node :=
    shape_mapOrigins node
  have spelled (node : Node) (source : Source) : (node.bind source).canonical = node.canonical :=
    canonical_of_shape (bound node source)
  obtain ⟨again, reread, shaped⟩ := made_again made
  obtain ⟨again', reread', shaped'⟩ := made_again made'
  have equal : node.canonical = node'.canonical := by
    rwa [Tree.canonical, Tree.canonical, spelled, spelled] at same
  rw [equal, reread'] at reread
  rw [bound, bound, ← shaped, ← shaped', Except.ok.inj reread]

/-- What the JSON of two trees that were read keeps apart. -/
structure SameTree (a b : Tree) : Prop where
  name : a.source.name = b.source.name
  canonical : a.canonical = b.canonical
  /-- The kinds of the nodes, their operators and all values of literals. -/
  shape : shape a.root = shape b.root
  places : places a.root = places b.root

/-- **JSON keeps the tree.** Trees that were read are the same if their JSON is; without the blanks
outside its strings the indented JSON of any tree is the compact one; and a copy has the JSON of
what it was copied from. -/
theorem json_keeps_tree :
    (∀ handle handle' name name' text text' a b, Tree.parse handle name text = .ok a →
      Tree.parse handle' name' text' = .ok b → a.renderJson .compact = b.renderJson .compact →
        SameTree a b) ∧
    (∀ tree : Tree, packed .outside (tree.renderJson .indented).toList =
      (tree.renderJson .compact).toList) ∧
    ∀ (tree : Tree) handle layout,
      (tree.copy handle).renderJson layout = tree.renderJson layout := by
  refine ⟨?_, fun tree => packed_render .indented tree.toJson, fun tree handle layout => ?_⟩
  · intro handle handle' name name' text text' a b read read' same
    have shown := text_shows_value same
    have members := fun key => congrArg (member? key) shown
    have names : some (Written.string a.source.name) = some (.string b.source.name) :=
      members "name"
    have roots : some (written a.root.toJson) = some (written b.root.toJson) := members "root"
    obtain ⟨spelled, placed⟩ := node_shown a.root b.root (Option.some.inj roots)
    have canonical : a.canonical = b.canonical := congrArg String.ofList spelled
    injection names with names
    injection names with names
    exact ⟨names, canonical, read_shape read read' canonical, placed⟩
  · have root : (tree.copy handle).root.toJson = tree.root.toJson :=
      @toJson_mapOrigins (Origin.bind _) (fun _ => rfl) tree.root
    have name : (tree.copy handle).source.name = tree.source.name := rfl
    rw [Tree.renderJson, Tree.renderJson, Tree.toJson, Tree.toJson, root, name]

/-- A blank before the last parenthesis moves no node. The string has blanks and a quote in it. -/
theorem json_keeps_tree_blank : ∃ a b,
    Tree.parse 0 "a b" "in(x, (\"\\t \\\" \x7b\",true))" = .ok a ∧
    Tree.parse 1 "a b" "in(x, (\"\\t \\\" \x7b\",true) )" = .ok b ∧
    a.renderJson .compact = b.renderJson .compact ∧ SameTree a b := by
  have texts : (Tree.parse 0 "a b" "in(x, (\"\\t \\\" \x7b\",true))").toOption.map
        (fun tree => tree.toJson.chars .compact 0) =
      (Tree.parse 1 "a b" "in(x, (\"\\t \\\" \x7b\",true) )").toOption.map
        (fun tree => tree.toJson.chars .compact 0) := by
    decide +kernel
  have reads : (Tree.parse 0 "a b" "in(x, (\"\\t \\\" \x7b\",true))").toOption.isSome := by
    decide +kernel
  cases read : Tree.parse 0 "a b" "in(x, (\"\\t \\\" \x7b\",true))" with
  | error diagnostic =>
    rw [read] at reads
    cases reads
  | ok a =>
    cases read' : Tree.parse 1 "a b" "in(x, (\"\\t \\\" \x7b\",true) )" with
    | error diagnostic =>
      rw [read, read'] at texts
      cases texts
    | ok b =>
      rw [read, read'] at texts
      have same : a.renderJson .compact = b.renderJson .compact :=
        congrArg String.ofList (Option.some.inj texts)
      exact ⟨a, b, rfl, rfl, same, json_keeps_tree.1 _ _ _ _ _ _ a b read read' same⟩

end ResourceQuery.JsonFaithfulness
