import Mathlib.Data.List.TFAE
import ResourceQuery.Proofs.CanonicalTokens
import ResourceQuery.Proofs.Copies

/-! What an empty tree is. No name is a word without characters, so every operand that was read is
content, and so is every list and every operation of such operands, the empty ones included. What is
left is the statement without an operation, which is what blanks are read as and nothing else
(`emptiness_means_blank`). -/

namespace ResourceQuery.Emptiness
open DraftRuns GrammarExactness Grammar LexemeSpelling StreamTiling

/-- A node without a statement in it, of which the names are words. -/
inductive Solid : Node → Prop where
  | atom (content : atom.isEmpty = false) : Solid (.atom origin atom)
  | list (elements : ∀ node ∈ nodes, Solid node) : Solid (.list origin nodes)
  | operation (elements : ∀ node ∈ operands, Solid node) : Solid (.operation head operands)

variable {node part : Node} {nodes : List Node} {place : Nat → Origin} {text name : String}
  {handle : Nat} {tree : Tree} {cs : List Char}

/-! ## Solid nodes -/

theorem solid_kind (solid : Solid node) : node.kind ≠ .statement := by
  cases solid with
  | @atom origin atom => cases atom <;> simp [Node.kind, Atom.kind]
  | list | operation => simp [Node.kind]

theorem solid_child : Node.Inherited Solid := by
  intro node step part solid found
  unfold Node.child? at found
  split at found
  · cases solid
  · cases found
    cases solid with
    | operation elements => exact .list elements
  · cases solid with
    | list elements => exact elements part (List.mem_of_getElem? found)
  · cases found

/-- A row with an element that is not empty is not all empty, and a row without elements does not
make its list empty. -/
theorem row_content (content : ∀ node ∈ nodes, node.isEmpty = false) :
    (!nodes.isEmpty && Node.allEmpty nodes) = false := by
  cases nodes with
  | nil => rfl
  | cons node nodes => simp [Node.allEmpty, content node List.mem_cons_self]

theorem solid_content (solid : Solid node) : node.isEmpty = false := by
  induction solid with
  | atom content => exact content
  | list elements ih | operation elements ih => exact row_content ih

/-! ## Derivations -/

/-- The names among the tokens have characters. -/
def Named (tokens : List Token) : Prop :=
  ∀ token ∈ tokens, token.kind = .identifier → token.text ≠ ""

theorem named_append {front back : List Token} : Named (front ++ back) ↔ Named front ∧ Named back :=
  List.forall_mem_append

theorem leaf_content {token : Token} {atom : Atom} (leaf : Leaf token atom)
    (named : Named [token]) : atom.isEmpty = false := by
  cases leaf with
  | identifier kind =>
    have some := named token (List.mem_singleton_self token) kind
    simpa [Atom.isEmpty] using some
  | null | bool | string | number => rfl

/-- The row between two parentheses. -/
theorem named_enclosed {opening closing : Token} {inside : List Token}
    (named : Named (opening :: (inside ++ [closing]))) : Named inside :=
  (named_append.mp (List.forall_mem_cons.mp named).2).1

mutual

theorem value_solid (value : Value) {node : Node} (built : value.Builds place node)
    (named : Named value.yield) : Solid node := by
  cases built with
  | leaf spells => exact .atom (leaf_content spells named)
  | operation built => exact .operation (operation_solid _ built named)
  | list elements => exact .list (row_solid _ elements (named_enclosed named))
termination_by structural value

theorem operation_solid (operation : Operation) {head : Head} {operands : List Node}
    (built : operation.Builds place head operands) (named : Named operation.yield) :
    ∀ node ∈ operands, Solid node := by
  cases built with
  | mk elements =>
    exact row_solid _ elements (named_enclosed (List.forall_mem_cons.mp named).2)
termination_by structural operation

theorem row_solid (row : Row) {nodes : List Node} (built : row.Builds place nodes)
    (named : Named row.yield) : ∀ node ∈ nodes, Solid node := by
  cases built with
  | empty => exact fun node member => absurd member List.not_mem_nil
  | values first others =>
    obtain ⟨here, behind⟩ := named_append.mp named
    exact List.forall_mem_cons.mpr
      ⟨value_solid _ first here, rest_solid _ others behind⟩
termination_by structural row

theorem rest_solid (rest : Rest) {nodes : List Node} (built : rest.Builds place nodes)
    (named : Named rest.yield) : ∀ node ∈ nodes, Solid node := by
  cases built with
  | done | trailing => exact fun node member => absurd member List.not_mem_nil
  | next first others =>
    obtain ⟨here, behind⟩ := named_append.mp (List.forall_mem_cons.mp named).2
    exact List.forall_mem_cons.mpr
      ⟨value_solid _ first here, rest_solid _ others behind⟩
termination_by structural rest

end

/-- The lexer makes no name without characters. -/
theorem significant_named (text : String) : Named (Stream.ofText text).significant := by
  intro token member kind
  rcases List.mem_append.mp (List.mem_of_mem_filter member) with inside | last
  · exact read_body_nonempty Mark.start text.toList token inside
  · have final := (read_final Mark.start text.toList).2
    rw [← Stream.ofText, ← List.mem_singleton.mp last, kind] at final
    cases final

/-- The root of a tree that was read is empty, or a statement of an operation that is not. -/
theorem root_cases (parsed : Tree.parse handle name text = .ok tree) :
    (∃ origin, tree.root = .blankStatement origin) ∨ ∃ origin head operands,
      tree.root = .statement origin head operands ∧ Solid (.operation head operands) := by
  obtain ⟨node, made, rfl⟩ := parse_ok_iff.mp parsed
  obtain ⟨-, statement, tokens, -, built⟩ := statement_made_iff.mp made
  have named := significant_named text
  rw [← tokens] at named
  have bound := statement_builds_map (Origin.bind ⟨handle, name, text⟩) built
  change statement.Builds _ (node.bind _) at bound
  generalize node.bind ⟨handle, name, text⟩ = root at bound
  cases bound with
  | blank => exact .inl ⟨_, rfl⟩
  | operation inside =>
    exact .inr ⟨_, _, _, rfl, .operation (operation_solid _ inside (named_append.mp named).1)⟩

/-- Every part of a tree that was read is solid, but for the root. -/
theorem parts_solid (parsed : Tree.parse handle name text = .ok tree)
    (member : part ∈ tree.root.parts) : part = tree.root ∨ Solid part := by
  have inherited : Node.Inherited fun part => part = tree.root ∨ Solid part := by
    rintro node step part (rfl | solid) found
    · rcases root_cases parsed with ⟨origin, root⟩ | ⟨origin, head, operands, root, solid⟩
      · rw [root] at found
        cases step <;> cases found
      · rw [root] at found
        cases step with
        | operation =>
          cases found
          exact .inr solid
        | operands | element => cases found
    · exact .inr (solid_child node step part solid found)
  exact Node.inherited_parts inherited (.inl rfl) member

/-! ## Blank texts -/

/-- Blanks are read as one token at most, and then the text ends. -/
theorem blank_reads (mark : Mark) (closed : mark.depth = 0) (blank : ∀ c ∈ cs, isBlank c = true) :
    (Stream.read mark cs).last.kind = .finish ∧
      ∀ token ∈ (Stream.read mark cs).body, token.kind = .blank := by
  cases cs with
  | nil =>
    rw [CanonicalRoundTrip.read_end closed]
    exact ⟨rfl, fun token member => absurd member List.not_mem_nil⟩
  | cons c cs =>
    have first : Lexeme.read mark.depth (c :: cs) = ⟨.blank, c :: cs, []⟩ := by
      have all : (c :: cs).takeWhile isBlank = c :: cs ∧ (c :: cs).dropWhile isBlank = [] :=
        ⟨List.takeWhile_eq_self_iff.mpr blank, List.dropWhile_eq_nil_iff.mpr blank⟩
      have here : isBlank c = true := blank c List.mem_cons_self
      simp only [Lexeme.read, here, ↓reduceIte, Lexeme.readBlank, all]
    have later : (mark.after ⟨.blank, c :: cs, []⟩).depth = 0 := closed
    rw [Stream.read_of_more first rfl, CanonicalRoundTrip.read_end later]
    refine ⟨rfl, fun token member => ?_⟩
    rw [List.mem_singleton.mp member]
    rfl

theorem blank_token {token : Token} (member : token ∈ (Stream.ofText text).tokens)
    (blank : token.kind = .blank) : ∀ c ∈ token.text.toList, isBlank c = true := by
  obtain ⟨depth, ahead, lexeme, first, kind, taken⟩ := token_first member
  rw [kind] at blank
  obtain rfl := first_blank first blank
  rw [taken, String.toList_ofList]
  exact fun c inside => List.mem_takeWhile_imp inside

/-- Only blanks are read as the statement that asks for nothing. -/
theorem blank_statement_iff :
    (∃ origin, (Stream.ofText text).statement = .ok (.blankStatement origin)) ↔
      ∀ c ∈ text.toList, isBlank c = true := by
  constructor
  · rintro ⟨origin, made⟩
    obtain ⟨finish, draft, run, ends⟩ := statement_ok_iff.mp made
    cases ends
    have silent := List.filter_eq_nil_iff.mp (run_start run rfl)
    obtain ⟨rest, whole, finished⟩ := read_spelled Mark.start text.toList
    rw [finished finish, List.append_nil] at whole
    rw [← whole]
    intro c inside
    obtain ⟨token, member, inside⟩ := List.mem_flatMap.mp inside
    rcases List.mem_append.mp member with body | last
    · exact blank_token member (by simpa using silent token body) c inside
    · rw [List.mem_singleton.mp last] at member inside
      rw [CanonicalTokens.finish_text member finish] at inside
      cases inside
  · intro blank
    obtain ⟨finish, body⟩ := blank_reads Mark.start rfl blank
    refine ⟨.detached 0, statement_ok_iff.mpr ⟨finish, .start, ?_, .blank⟩⟩
    have silent : (Stream.ofText text).body.filter (·.kind != .blank) = [] :=
      List.filter_eq_nil_iff.mpr fun token member => by simp [body token member]
    rw [silent]
    exact .done

/-! ## Trees -/

theorem isBlank_iff {c : Char} : isBlank c = true ↔ c = ' ' ∨ c = '\t' ∨ c = '\n' := by
  simp [isBlank, or_assoc]

theorem root_blank_iff (parsed : Tree.parse handle name text = .ok tree) :
    (∃ origin, tree.root = .blankStatement origin) ↔ ∀ c ∈ text.toList, isBlank c = true := by
  obtain ⟨node, made, rfl⟩ := parse_ok_iff.mp parsed
  rw [← blank_statement_iff]
  constructor
  · rintro ⟨origin, root⟩
    cases node with
    | blankStatement origin => exact ⟨origin, made⟩
    | atom | list | operation | statement => cases root
  · rintro ⟨origin, made'⟩
    obtain rfl := Except.ok.inj (made.symm.trans made')
    exact ⟨_, rfl⟩

/-- The canonical form of an operation has at least its parentheses. -/
theorem canonical_some (origin : Origin) (head : Head) (operands : List Node) :
    (Node.statement origin head operands).canonical ≠ "" := by
  intro none
  have chars := congrArg String.toList none
  simp [Node.canonical, Node.spelling] at chars

/-- An empty root, one without an operation, one without a canonical form and one of blanks are all
the same. -/
theorem root_tfae (parsed : Tree.parse handle name text = .ok tree) :
    [tree.isEmpty = true, ∃ origin, tree.root = .blankStatement origin, tree.canonical = "",
      ∀ c ∈ text.toList, isBlank c = true].TFAE := by
  rw [← root_blank_iff parsed, Tree.isEmpty, Tree.canonical]
  rcases root_cases parsed with ⟨origin, root⟩ | ⟨origin, head, operands, root, solid⟩
  · rw [root]
    tfae_have 1 ↔ 2 := ⟨fun _ => ⟨origin, rfl⟩, fun _ => rfl⟩
    tfae_have 2 ↔ 3 := ⟨fun _ => rfl, fun _ => ⟨origin, rfl⟩⟩
    tfae_finish
  · have inside : (Node.operation head operands).isEmpty = false := solid_content solid
    have content : (Node.statement origin head operands).isEmpty = false := inside
    have other : ¬ ∃ place, Node.statement origin head operands = .blankStatement place := by
      rintro ⟨place, same⟩
      cases same
    rw [root, content]
    tfae_have 1 → 2 := fun empty => by cases empty
    tfae_have 2 → 3 := fun blank => absurd blank other
    tfae_have 3 → 1 := fun none => absurd none (canonical_some origin head operands)
    tfae_finish

/-- **Emptiness means only whitespace.** The texts that are read as an empty tree are those of
spaces, tabs and newlines. A tree that was read is empty just if its root has no operation, just if
its canonical form has no characters, and just if its text is one of these. And nothing below the
root is empty, whatever it holds. -/
theorem emptiness_means_blank (handle : Nat) (name text : String) :
    ((∃ tree, Tree.parse handle name text = .ok tree ∧ tree.isEmpty = true) ↔
      ∀ c ∈ text.toList, c = ' ' ∨ c = '\t' ∨ c = '\n') ∧
    ∀ tree, Tree.parse handle name text = .ok tree →
      [tree.isEmpty = true, ∃ origin, tree.root = .blankStatement origin, tree.canonical = "",
        ∀ c ∈ text.toList, c = ' ' ∨ c = '\t' ∨ c = '\n'].TFAE ∧
      tree.root.kind = .statement ∧
      ∀ part ∈ tree.root.parts,
        part = tree.root ∨ part.kind ≠ .statement ∧ part.isEmpty = false := by
  simp only [← isBlank_iff]
  refine ⟨⟨?_, fun blank => ?_⟩, fun tree parsed => ⟨root_tfae parsed, ?_, ?_⟩⟩
  · rintro ⟨tree, parsed, empty⟩
    exact ((root_tfae parsed).out 0 3).mp empty
  · obtain ⟨origin, made⟩ := blank_statement_iff.mpr blank
    exact ⟨_, parse_ok_iff.mpr ⟨_, made, rfl⟩, rfl⟩
  · rcases root_cases parsed with ⟨origin, root⟩ | ⟨origin, head, operands, root, -⟩
    · rw [root]
      rfl
    · rw [root]
      rfl
  · intro part member
    exact (parts_solid parsed member).imp_right fun solid => ⟨solid_kind solid, solid_content solid⟩

/-- Empty lists are content, and so is a string without characters. -/
theorem emptiness_means_blank_lists :
    (∃ tree, Tree.parse 0 "root" " \n\t" = .ok tree ∧ tree.isEmpty = true) ∧
    ∃ tree, Tree.parse 0 "root" "and((),or((),()),\"\")" = .ok tree ∧ tree.isEmpty = false ∧
      tree.root.parts.length = 9 ∧
      ∀ part ∈ tree.root.parts,
        part = tree.root ∨ part.kind ≠ .statement ∧ part.isEmpty = false := by
  refine ⟨(emptiness_means_blank 0 "root" " \n\t").1.mpr (by simp), ?_⟩
  have found : (Tree.parse 0 "root" "and((),or((),()),\"\")").toOption.map
      (fun tree => (tree.isEmpty, tree.root.parts.length)) = some (false, 9) := by
    decide +kernel
  cases parsed : Tree.parse 0 "root" "and((),or((),()),\"\")" with
  | error diagnostic =>
    rw [parsed] at found
    cases found
  | ok tree =>
    rw [parsed] at found
    obtain ⟨content, length⟩ := Prod.mk.inj (Option.some.inj found)
    obtain ⟨-, -, below⟩ := (emptiness_means_blank 0 "root" _).2 tree parsed
    exact ⟨tree, rfl, content, length, below⟩

end ResourceQuery.Emptiness
