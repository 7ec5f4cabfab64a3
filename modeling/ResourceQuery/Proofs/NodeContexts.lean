import ResourceQuery.Proofs.Copies
import ResourceQuery.Proofs.LocationResolution
import ResourceQuery.Proofs.NodePlaces

/-! Contexts of nodes. Where a node stands is looked up in the source that it belongs to, and only a
node without one is looked up in the tree that is asked. Copies have sources of the same contents,
so a node of a tree, the same node of a copy, and whichever tree is asked about them, all give one
context (`context_belongs_to_node`). The offsets of such nodes are boundaries of their text, so the
location is theirs and not only near. -/
namespace ResourceQuery.NodeContexts
open Copies Grammar GrammarExactness LocationResolution NodePlaces Ownership StreamTiling

/-! ## Excerpts -/

/-- The short form of a text: the text itself if it has twenty characters at most, and otherwise the
first twenty with three dots behind them. -/
inductive Shortens : String → String → Prop where
  | whole {text : String} (fits : text.length ≤ 20) : Shortens text text
  | cut {front rest : String} (length : front.length = 20) (more : rest ≠ "") :
    Shortens (front ++ rest) (front ++ "...")

variable {text short : String}

theorem excerpt_shortens (text : String) : Shortens text (Text.excerpt text) := by
  unfold Text.excerpt Text.excerptLimit
  split
  · rename_i fits
    exact .whole (by rwa [String.length_toList] at fits)
  · rename_i long
    have parts : text =
        String.ofList (text.toList.take 20) ++ String.ofList (text.toList.drop 20) := by
      rw [← String.ofList_append, List.take_append_drop, String.ofList_toList]
    have cut : Shortens (String.ofList (text.toList.take 20) ++ String.ofList (text.toList.drop 20))
        (String.ofList (text.toList.take 20) ++ "...") := by
      refine .cut ?_ ?_
      · rw [String.length_ofList, List.length_take]
        omega
      · rw [Ne, String.ofList_eq_empty_iff, List.drop_eq_nil_iff]
        omega
    rwa [← parts] at cut

/-- A text has one short form. -/
theorem shortens_iff : Shortens text short ↔ Text.excerpt text = short := by
  constructor
  · intro shortens
    cases shortens with
    | whole fits => exact if_pos (by rwa [String.length_toList])
    | @cut front rest length more =>
      have some : rest.length ≠ 0 := by rwa [Ne, String.length_eq_zero_iff]
      have long : ¬ (front ++ rest).toList.length ≤ Text.excerptLimit := by
        rw [String.length_toList, String.length_append, Text.excerptLimit]
        omega
      have begins : (front ++ rest).toList.take Text.excerptLimit = front.toList := by
        rw [String.toList_append, List.take_left']
        rw [String.length_toList, length, Text.excerptLimit]
      rw [Text.excerpt, if_neg long, begins, String.ofList_toList]
  · rintro rfl
    exact excerpt_shortens text

/-- Three dots behind twenty characters are cut off again, and put there again. -/
theorem shortens_again (shortens : Shortens text short) : Shortens short short := by
  cases shortens with
  | whole fits => exact .whole fits
  | cut length more => exact .cut length (by decide)

/-! ## Places of parts -/

/-- A tree that was read, or copied from one. -/
inductive Made : Tree → Prop where
  | parse {handle : Nat} {name text : String} {tree : Tree}
    (parsed : Tree.parse handle name text = .ok tree) : Made tree
  | copy {tree : Tree} (made : Made tree) (handle : Nat) : Made (tree.copy handle)

variable {tree : Tree} {node part : Node} {path : List Node.Step}

theorem made_read (made : Made tree) : Read tree := by
  induction made with
  | parse parsed =>
    obtain ⟨node, reading, rfl⟩ := parse_ok_iff.mp parsed
    exact read_iff.mpr ⟨node, reading, rfl⟩
  | copy made handle ih => exact copy_read ih handle

/-- The parts of a tree stand at its first byte or at tokens. -/
theorem parts_boundary (read : Read tree) (member : part ∈ tree.root.parts) :
    Boundary tree.source.text part.pos := by
  obtain ⟨node, reading, root⟩ := read_iff.mp read
  obtain ⟨-, statement, tokens, -, built⟩ := statement_made_iff.mp reading
  have fits := significant_fits tree.source.text
  rw [← tokens] at fits
  have bound := statement_builds_map (Origin.bind tree.source) built
  obtain ⟨first, below, parts, starts⟩ := statement_starts (fun _ => rfl) bound fits
  rw [tokens, starting_significant] at starts
  change tree.root = node.mapOrigins _ at root
  rw [root, parts] at member
  rcases List.mem_cons.mp member with rfl | inside
  · rw [first]
    exact boundary_iff.mpr ⟨[], _, rfl, rfl⟩
  · have taken := List.mem_map_of_mem (f := Node.pos) inside
    rw [starts_places starts] at taken
    obtain ⟨token, found, pos⟩ := List.mem_map.mp taken
    rw [← pos]
    exact (token_spans (List.mem_of_mem_filter found)).starts

theorem descend_boundary (read : Read tree) (found : tree.root.descend? path = some node) :
    Boundary tree.source.text node.pos :=
  parts_boundary read (Node.descend_parts found node node.self_mem_parts)

/-! ## Contexts -/

/-- What is said of a node that is looked up in a source: the name of the source with the line and
the column of the node, and the short form of the node. -/
structure Describes (source : Source) (node : Node) (context : String × String) : Prop where
  location : ∃ location, Locates source.text node.pos location ∧
    context.1 = source.name ++ ":" ++ location.render
  excerpt : Shortens node.canonical context.2

theorem source_describes (source : Source) (node : Node) :
    Describes source node (source.context node) :=
  ⟨⟨_, resolve_locates source.text node.pos, rfl⟩, excerpt_shortens node.canonical⟩

/-- A node that belongs to a source is looked up there, whichever tree is asked. -/
theorem context_attached {source : Source} (owner : node.source = some source) (asked : Tree) :
    asked.context node = source.context node := by
  rw [Tree.context, owner, Option.getD_some]

theorem context_detached (owner : node.source = none) (asked : Tree) :
    asked.context node = asked.source.context node := by
  rw [Tree.context, owner, Option.getD_none]

theorem descend_source (read : Read tree) (found : tree.root.descend? path = some node) :
    node.source = some tree.source :=
  settled_source (settled_descend (read_settled read) found)

/-- The handle of a source is not looked at, nor is that of any origin in a node. -/
theorem context_bind (source : Source) (handle : Nat) (node : Node) (other : Source) :
    ({ source with handle := handle } : Source).context (node.bind other) =
      source.context node := by
  have written : (node.bind other).canonical = node.canonical :=
    CanonicalRoundTrip.canonical_of_shape (CanonicalRoundTrip.shape_mapOrigins node)
  have place : (node.bind other).pos = node.pos := by
    cases node <;> rfl
  rw [Source.context, Source.context, written, place]

/-- The node of a copy at the same path is the copy of the node. -/
theorem copy_descend (handle : Nat) (found : tree.root.descend? path = some node) :
    (tree.copy handle).root.descend? path =
      some (node.bind { tree.source with handle := handle }) := by
  have copied : (tree.copy handle).root.descend? path =
      (tree.root.descend? path).map (Node.bind { tree.source with handle := handle }) :=
    descend_mapOrigins tree.root path
  rw [copied, found, Option.map_some]

/-- **The context of a node is the node's own.** For a node of a tree it is the node's place in the
text of that tree and how the node begins, whichever tree is asked, and it is the same for the node
at the same path of any copy. A node of no tree is looked up in the tree that is asked, wherever it
claims to stand. What has been shortened is not shortened further. -/
theorem context_belongs_to_node :
    (∀ tree, Made tree → ∀ path node, tree.root.descend? path = some node →
      Boundary tree.source.text node.pos ∧ Describes tree.source node (tree.context node) ∧
      ∀ (asked : Tree) handle, asked.context node = tree.context node ∧
        ∃ copied, (tree.copy handle).root.descend? path = some copied ∧
          asked.context copied = tree.context node) ∧
    (∀ (asked : Tree) node, node.source = none →
      Describes asked.source node (asked.context node)) ∧
    ∀ text, Text.excerpt (Text.excerpt text) = Text.excerpt text := by
  refine ⟨fun tree made path node found => ?_, fun asked node owner => ?_, fun text => ?_⟩
  · have read := made_read made
    have own := context_attached (descend_source read found)
    refine ⟨descend_boundary read found, own tree ▸ source_describes tree.source node, ?_⟩
    intro asked handle
    have again := copy_descend handle found
    -- The source of the copy has another handle, and nothing of a context depends on it.
    have elsewhere := descend_source (copy_read read handle) again
    refine ⟨(own asked).trans (own tree).symm, _, again, ?_⟩
    rw [context_attached elsewhere, own tree]
    exact context_bind tree.source handle node _
  · exact context_detached owner asked ▸ source_describes asked.source node
  · exact shortens_iff.mp (shortens_again (excerpt_shortens text))

/-- The second operand of a tree, asked for in another tree, and a node of neither. -/
theorem context_belongs_to_node_cut :
    let text := "and(eq(id,12),\n  in(名前,(\"Jason\",\"Kevin\")))"
    let path : List Node.Step := [.operation, .operands, .element 1]
    let context := ("root:2:3", "in(名前,(\"Jason\",\"Kevi...")
    let asked : Tree := ⟨⟨1, "other", "é\n"⟩, .blankStatement ⟨0, none⟩⟩
    (∃ tree node, Tree.parse 0 "root" text = .ok tree ∧ tree.root.descend? path = some node ∧
      asked.context node = context ∧ ∀ handle, ∃ copied,
        (tree.copy handle).root.descend? path = some copied ∧ asked.context copied = context) ∧
    ∃ location, Locates "é\n" (2 ^ 64 - 1) location ∧
      (asked.context (.atom (.detached (2 ^ 64 - 1)) .null)).1 = "other:" ++ location.render := by
  intro text path context asked
  obtain ⟨attached, detached, -⟩ := context_belongs_to_node
  refine ⟨?_, (detached asked (.atom (.detached (2 ^ 64 - 1)) .null) rfl).location⟩
  have answer : (Tree.parse 0 "root" text).toOption.bind (fun tree =>
      (tree.root.descend? path).map tree.context) = some context := by
    decide +kernel
  cases parsed : Tree.parse 0 "root" text with
  | error diagnostic =>
    rw [parsed] at answer
    cases answer
  | ok tree =>
    rw [parsed] at answer
    obtain ⟨node, found, here⟩ := Option.map_eq_some_iff.mp answer
    obtain ⟨-, -, same⟩ := attached tree (.parse parsed) path node found
    refine ⟨tree, node, rfl, found, (same asked 0).1.trans here, fun handle => ?_⟩
    obtain ⟨-, copied, again, there⟩ := same asked handle
    exact ⟨copied, again, there.trans here⟩

end ResourceQuery.NodeContexts
