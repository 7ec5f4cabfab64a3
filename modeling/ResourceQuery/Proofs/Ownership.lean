import Mathlib.Data.List.Nodup
import Mathlib.Logic.Relation
import ResourceQuery.Proofs.DecimalTexts
import ResourceQuery.Proofs.GrammarExactness
import ResourceQuery.Workspace

/-! Who owns what in a workspace, over any run. A handle is given to one source only, so the trees
that are read or copied have handles of their own, and a node belongs to at most one of them, for
ever. The invariant is that every tree is what its source reads as: a copy is the same reading under
another handle. That is also why equality of trees sees no more than names and texts, whoever owns
their nodes. -/
namespace ResourceQuery.Ownership
open DecimalTexts GrammarExactness Grammar
open Number.Binary64 (ofDecimal_number ofQuotient_number)

/-! ## Nodes of one source -/

/-- The node and everything in it belong to the same source, or are all detached. -/
inductive Settled (owner : Option Source) : Node → Prop where
  | atom (here : origin.source = owner) : Settled owner (.atom origin atom)
  | list (here : origin.source = owner) (inside : ∀ node ∈ nodes, Settled owner node) :
      Settled owner (.list origin nodes)
  | operation (here : head.origin.source = owner) (list : head.list.source = owner)
      (inside : ∀ node ∈ operands, Settled owner node) :
      Settled owner (.operation head operands)
  | blankStatement (here : origin.source = owner) : Settled owner (.blankStatement origin)
  | statement (here : origin.source = owner)
      (operation : Settled owner (.operation head operands)) :
      Settled owner (.statement origin head operands)

variable {owner : Option Source} {source : Source} {node part : Node} {nodes : List Node}

theorem settled_source (settled : Settled owner node) : node.source = owner := by
  cases settled with
  | atom here | list here | operation here | blankStatement here | statement here => exact here

theorem settled_list {head : Head} {operands : List Node}
    (settled : Settled owner (.operation head operands)) :
    Settled owner (head.operandList operands) := by
  cases settled with
  | operation here list inside => exact .list list inside

theorem settled_child : Node.Inherited (Settled owner) := by
  intro node step part settled found
  unfold Node.child? at found
  split at found
  · cases found
    cases settled with
    | statement here operation => exact operation
  · cases found
    exact settled_list settled
  · cases settled with
    | list here inside => exact inside part (List.mem_of_getElem? found)
  · cases found

theorem settled_parts (settled : Settled owner node) (member : part ∈ node.parts) :
    Settled owner part := Node.inherited_parts settled_child settled member

/-- What is found inside a node belongs to what the node belongs to. -/
theorem settled_descend {path : List Node.Step} (settled : Settled owner node)
    (found : node.descend? path = some part) : Settled owner part :=
  Node.inherited_descend settled_child settled found

mutual

theorem settled_bind (source : Source) (node : Node) :
    Settled (some source) (node.bind source) := by
  cases node with
  | atom origin atom => exact .atom rfl
  | list origin nodes => exact .list rfl (settled_bind_all source nodes)
  | operation head operands => exact .operation rfl rfl (settled_bind_all source operands)
  | blankStatement origin => exact .blankStatement rfl
  | statement origin head operands =>
    exact .statement rfl (.operation rfl rfl (settled_bind_all source operands))

theorem settled_bind_all (source : Source) (nodes : List Node) :
    ∀ node ∈ Node.mapAllOrigins (Origin.bind source) nodes, Settled (some source) node := by
  cases nodes with
  | nil => exact fun node member => absurd member List.not_mem_nil
  | cons node nodes =>
    exact List.forall_mem_cons.mpr ⟨settled_bind source node, settled_bind_all source nodes⟩

end

theorem bind_ok {first : Except ε α} {next : α → Except ε β} {result : β}
    (ran : first >>= next = .ok result) : ∃ value, first = .ok value ∧ next value = .ok result := by
  cases first with
  | error fault => cases ran
  | ok value => exact ⟨value, rfl, ran⟩

mutual

/-- What is built by hand belongs to nothing. -/
theorem settled_build (sketch : Sketch) (node : Node) (built : sketch.build = .ok node) :
    Settled none node := by
  cases sketch with
  | atom pos atom =>
    obtain ⟨value, -, same⟩ := bind_ok built
    cases same
    exact .atom rfl
  | list pos sketches =>
    obtain ⟨nodes, inside, same⟩ := bind_ok built
    cases same
    exact .list rfl (settled_build_all sketches nodes inside)
  | operation head sketches =>
    obtain ⟨operands, inside, same⟩ := bind_ok built
    cases same
    exact .operation rfl rfl (settled_build_all sketches operands inside)
  | blankStatement pos =>
    cases built
    exact .blankStatement rfl
  | statement pos head sketches =>
    obtain ⟨operands, inside, same⟩ := bind_ok built
    cases same
    exact .statement rfl (.operation rfl rfl (settled_build_all sketches operands inside))

theorem settled_build_all (sketches : List Sketch) (nodes : List Node)
    (built : Sketch.buildAll sketches = .ok nodes) : ∀ node ∈ nodes, Settled none node := by
  cases sketches with
  | nil =>
    cases built
    exact fun node member => absurd member List.not_mem_nil
  | cons sketch sketches =>
    obtain ⟨node, first, rest⟩ := bind_ok built
    obtain ⟨others, inside, same⟩ := bind_ok rest
    cases same
    exact List.forall_mem_cons.mpr
      ⟨settled_build sketch node first, settled_build_all sketches others inside⟩

end

/-! ## Readings of one text -/

variable {place place' : Nat → Origin}

theorem float_same_self {value : Number.Binary64} (number : value ≠ .notANumber) :
    value.same value = true := by
  cases value with
  | finite negative units => simp [Number.Binary64.same]
  | infinite negative => simp [Number.Binary64.same]
  | notANumber => exact absurd rfl number

theorem readFloat_number {text : String} {numeral : Numeral}
    (value : Numeral.readFloat text = .ok numeral) :
    ∃ float, numeral.float = some float ∧ float ≠ .notANumber := by
  obtain ⟨-, decimal, -, -, rfl⟩ := readFloat_iff.mp value
  exact ⟨_, rfl, ofDecimal_number decimal⟩

/-- The value of a literal equals itself, since it is a number. -/
theorem numeral_alike {text : String} {numeral : Numeral}
    (value : Numeral.read text = .ok numeral) : numeral.alike numeral = true := by
  have number : ∃ float, numeral.float = some float ∧ float ≠ .notANumber := by
    unfold Numeral.read at value
    dsimp only at value
    split at value
    · cases value
      exact ⟨_, rfl, ofQuotient_number _ _ _⟩
    · cases value
      exact ⟨_, rfl, ofQuotient_number _ _ _⟩
    · exact readFloat_number value
  obtain ⟨float, some, number⟩ := number
  simp [Numeral.alike, some, float_same_self number]

theorem leaf_alike {token : Token} {atom : Atom} (leaf : Leaf token atom) :
    atom.alike atom = true := by
  cases leaf with
  | identifier kind | null kind text | bool kind text | string kind value => simp [Atom.alike]
  | number kind value => exact numeral_alike value

mutual

/-- Equality sees where the tokens of a derivation are said to stand, and nothing else of the nodes
that are made of them. -/
theorem value_alike (places : ∀ pos, (place pos).alike (place' pos) = true) (value : Value)
    {node node' : Node} (one : value.Builds place node) (other : value.Builds place' node') :
    node.alike node' = true := by
  cases one with
  | @leaf token atom kind spells =>
    cases other with
    | leaf spells' =>
      obtain rfl := leaf_unique spells spells'
      simp [Node.alike, places, leaf_alike spells]
  | @operation operation head operands built =>
    cases other with
    | operation built' =>
      obtain ⟨heads, rows⟩ := operation_alike places operation built built'
      simp [Node.alike, heads, rows]
  | list elements =>
    cases other with
    | list elements' => simp [Node.alike, places, row_alike places _ elements elements']
termination_by structural value

theorem operation_alike (places : ∀ pos, (place pos).alike (place' pos) = true)
    (operation : Operation) {head head' : Head} {operands operands' : List Node}
    (one : operation.Builds place head operands) (other : operation.Builds place' head' operands') :
    head.alike head' = true ∧ Node.allAlike operands operands' = true := by
  cases one with
  | mk elements =>
    cases other with
    | mk elements' =>
      exact ⟨by simp [Head.alike, places], row_alike places _ elements elements'⟩
termination_by structural operation

theorem row_alike (places : ∀ pos, (place pos).alike (place' pos) = true) (row : Row)
    {nodes nodes' : List Node} (one : row.Builds place nodes) (other : row.Builds place' nodes') :
    Node.allAlike nodes nodes' = true := by
  cases one with
  | empty =>
    cases other with
    | empty => simp [Node.allAlike]
  | values first others =>
    cases other with
    | values first' others' =>
      simp [Node.allAlike, value_alike places _ first first', rest_alike places _ others others']
termination_by structural row

theorem rest_alike (places : ∀ pos, (place pos).alike (place' pos) = true) (rest : Rest)
    {nodes nodes' : List Node} (one : rest.Builds place nodes) (other : rest.Builds place' nodes') :
    Node.allAlike nodes nodes' = true := by
  cases one with
  | done =>
    cases other with
    | done => simp [Node.allAlike]
  | trailing =>
    cases other with
    | trailing => simp [Node.allAlike]
  | next first others =>
    cases other with
    | next first' others' =>
      simp [Node.allAlike, value_alike places _ first first', rest_alike places _ others others']
termination_by structural rest

end

theorem statement_alike (places : ∀ pos, (place pos).alike (place' pos) = true)
    {statement : Grammar.Statement} {node node' : Node} (one : statement.Builds place node)
    (other : statement.Builds place' node') : node.alike node' = true := by
  cases one with
  | blank =>
    cases other with
    | blank => simp [Node.alike, places]
  | operation built =>
    cases other with
    | operation built' =>
      obtain ⟨heads, rows⟩ := operation_alike places _ built built'
      simp [Node.alike, places, heads, rows]

/-- The tree is what its source reads as. -/
def Read (tree : Tree) : Prop := Tree.ofSource tree.source = .ok tree

variable {tree a b : Tree}

theorem read_iff : Read tree ↔ ∃ node,
    (Stream.ofText tree.source.text).statement = .ok node ∧ tree.root = node.bind tree.source := by
  obtain ⟨source, root⟩ := tree
  have parsed : Read ⟨source, root⟩ ↔ ∃ node, (Stream.ofText source.text).statement = .ok node ∧
      (⟨source, root⟩ : Tree) = ⟨source, node.bind source⟩ := parse_ok_iff
  simpa using parsed

mutual

theorem mapOrigins_mapOrigins (first second : Origin → Origin) (node : Node) :
    (node.mapOrigins first).mapOrigins second = node.mapOrigins (second ∘ first) := by
  cases node with
  | atom | blankStatement => rfl
  | list origin nodes =>
    exact congrArg (Node.list _) (mapAllOrigins_mapAllOrigins first second nodes)
  | operation head operands =>
    exact congrArg (Node.operation _) (mapAllOrigins_mapAllOrigins first second operands)
  | statement origin head operands =>
    exact congrArg (Node.statement _ _) (mapAllOrigins_mapAllOrigins first second operands)

theorem mapAllOrigins_mapAllOrigins (first second : Origin → Origin) (nodes : List Node) :
    Node.mapAllOrigins second (Node.mapAllOrigins first nodes) =
      Node.mapAllOrigins (second ∘ first) nodes := by
  cases nodes with
  | nil => rfl
  | cons node nodes =>
    exact congrArg₂ List.cons (mapOrigins_mapOrigins first second node)
      (mapAllOrigins_mapAllOrigins first second nodes)

end

/-- A copy does not remember which source it was copied from. -/
theorem bind_bind (source source' : Source) (node : Node) :
    (node.bind source).bind source' = node.bind source' :=
  mapOrigins_mapOrigins (Origin.bind source) (Origin.bind source') node

/-- A copy is the same reading under another handle. -/
theorem copy_read (read : Read tree) (handle : Nat) : Read (tree.copy handle) := by
  obtain ⟨node, made, root⟩ := read_iff.mp read
  refine read_iff.mpr ⟨node, made, ?_⟩
  rw [Tree.copy, root, bind_bind]

/-- Readings are equal if their sources are. -/
theorem read_alike (one : Read a) (other : Read b) :
    a.alike b = true ↔ a.source.name = b.source.name ∧ a.source.text = b.source.text := by
  rw [Tree.alike, Bool.and_eq_true, Source.alike, Bool.and_eq_true, beq_iff_eq, beq_iff_eq]
  refine and_iff_left_of_imp fun ⟨name, text⟩ => ?_
  obtain ⟨node, made, root⟩ := read_iff.mp one
  obtain ⟨node', made', root'⟩ := read_iff.mp other
  obtain ⟨-, statement, tokens, -, built⟩ := statement_made_iff.mp made
  obtain ⟨-, statement', tokens', -, built'⟩ := statement_made_iff.mp made'
  -- One text has one derivation, so the roots differ in no more than the sources of their origins.
  obtain rfl : statement = statement' := statement_unique (by rw [tokens, tokens', text])
  rw [root, root']
  refine statement_alike (fun pos => ?_) (statement_builds_map (Origin.bind a.source) built)
    (statement_builds_map (Origin.bind b.source) built')
  simp [Origin.alike, Origin.bind, Origin.detached, Source.alike, name, text]

theorem read_settled (read : Read tree) : Settled (some tree.source) tree.root := by
  obtain ⟨node, -, root⟩ := read_iff.mp read
  rw [root]
  exact settled_bind tree.source node

/-! ## Workspaces -/

/-- The trees of a workspace, whether or not a newer one has taken their name. -/
def treesOf (workspace : Workspace) : List Tree := workspace.trees.map Prod.snd

def nodesOf (workspace : Workspace) : List Node := workspace.nodes.map Prod.snd

/-- The sources that there are: those of the trees, and those that have a name of their own. -/
def sourcesOf (workspace : Workspace) : List Source :=
  (treesOf workspace).map Tree.source ++ workspace.sources.map Prod.snd

/-- What can happen in a workspace: an action, or that a node which has a name is cloned, in whole
or in part. -/
inductive Step : Workspace → Workspace → Prop where
  | act (action : Workspace.Action) : Step workspace (workspace.act action).1
  | clone (slot : String) (node part : Node) (path : List Node.Step)
      (held : node ∈ nodesOf workspace) (found : node.descend? path = some part) :
      Step workspace (workspace.storeNode slot part)

/-- Any number of these, in any order. -/
abbrev Later : Workspace → Workspace → Prop := Relation.ReflTransGen Step

variable {workspace next later : Workspace}

/-- The invariant. A handle below the next one is given to one source, and to one tree at most;
trees are readings of their sources; and no node belongs to several sources, or to one that there
has never been. -/
structure Sound (workspace : Workspace) : Prop where
  read : ∀ tree ∈ treesOf workspace, Read tree
  handles : ((treesOf workspace).map fun tree => tree.source.handle).Nodup
  issued : ∀ source ∈ sourcesOf workspace, source.handle < workspace.nextHandle
  identified : ∀ source ∈ sourcesOf workspace, ∀ other ∈ sourcesOf workspace,
    source.handle = other.handle → source = other
  settled : ∀ node ∈ nodesOf workspace, ∃ owner, Settled owner node ∧
    ∀ source, owner = some source → source ∈ sourcesOf workspace

/-- All that a step can do. What it makes has a handle of its own, and what it takes is there. -/
inductive Effect (workspace : Workspace) : Workspace → Prop where
  | nothing : Effect workspace workspace
  | tree (slot : String) (tree : Tree) (read : Read tree)
      (fresh : tree.source.handle = workspace.nextHandle) :
      Effect workspace (workspace.storeTree slot tree)
  | node (slot : String) (node : Node) (owner : Option Source) (settled : Settled owner node)
      (known : ∀ source, owner = some source → source ∈ sourcesOf workspace) :
      Effect workspace (workspace.storeNode slot node)
  | source (slot : String) (source : Source) (fresh : source.handle = workspace.nextHandle) :
      Effect workspace
        { workspace.storeSource slot source with nextHandle := workspace.nextHandle + 1 }
  | name (slot : String) (source : Source) (held : source ∈ sourcesOf workspace) :
      Effect workspace (workspace.storeSource slot source)

theorem lookup_held {α : Type} {slots : Slots α} {slot : String} {value : α}
    (found : slots.lookup slot = some value) : value ∈ slots.map Prod.snd := by
  obtain ⟨front, back, split, -⟩ := List.lookup_eq_some_iff.mp found
  rw [split]
  simp

theorem tree_source (held : tree ∈ treesOf workspace) : tree.source ∈ sourcesOf workspace :=
  List.mem_append_left _ (List.mem_map_of_mem held)

theorem act_effect (sound : Sound workspace) (action : Workspace.Action) :
    Effect workspace (workspace.act action).1 := by
  cases action with
  | parse name text slot =>
    simp only [Workspace.act]
    split
    · rename_i tree parsed
      obtain ⟨node, made, rfl⟩ := parse_ok_iff.mp parsed
      exact .tree slot _ (read_iff.mpr ⟨node, made, rfl⟩) rfl
    · exact .nothing
  | copy name slot =>
    simp only [Workspace.act]
    split
    · rename_i tree found
      exact .tree slot _ (copy_read (sound.read tree (lookup_held found)) workspace.nextHandle) rfl
    · exact .nothing
  | extract name path slot =>
    simp only [Workspace.act]
    split
    · rename_i tree found
      split
      · rename_i node inside
        have held := lookup_held found
        exact .node slot _ _ (settled_descend (read_settled (sound.read tree held)) inside)
          fun source same => Option.some.inj same ▸ tree_source held
      · exact .nothing
    · exact .nothing
  | build sketch slot =>
    simp only [Workspace.act]
    split
    · rename_i node built
      exact .node slot _ _ (settled_build sketch node built) fun source none => by cases none
    · exact .nothing
  | makeSource name text slot => exact .source slot _ rfl
  | takeSource name slot =>
    simp only [Workspace.act]
    split
    · rename_i tree found
      exact .name slot _ (tree_source (lookup_held found))
    · exact .nothing
  | bind name target slot =>
    simp only [Workspace.act]
    split
    · rename_i node source _ found
      exact .node slot _ _ (settled_bind source node)
        fun source same => Option.some.inj same ▸ List.mem_append_right _ (lookup_held found)
    · exact .nothing

theorem step_effect (sound : Sound workspace) (step : Step workspace next) :
    Effect workspace next := by
  cases step with
  | act action => exact act_effect sound action
  | clone slot node part path held found =>
    obtain ⟨owner, settled, known⟩ := sound.settled node held
    exact .node slot _ _ (settled_descend settled found) known

/-- A source with the next handle is none of the others. -/
theorem fresh_identified {sources : List Source} (sound : Sound workspace)
    (fresh : source.handle = workspace.nextHandle)
    (mem : ∀ other ∈ sources, other = source ∨ other ∈ sourcesOf workspace) :
    (∀ other ∈ sources, other.handle < workspace.nextHandle + 1) ∧
      ∀ one ∈ sources, ∀ other ∈ sources, one.handle = other.handle → one = other := by
  constructor
  · intro other member
    rcases mem other member with rfl | old
    · omega
    · exact Nat.lt_succ_of_lt (sound.issued other old)
  · intro one member other member' same
    rcases mem one member with rfl | old <;> rcases mem other member' with rfl | old'
    · rfl
    · have issued := sound.issued other old'
      omega
    · have issued := sound.issued one old
      omega
    · exact sound.identified one old other old' same

theorem settled_kept (sound : Sound workspace)
    (kept : ∀ source ∈ sourcesOf workspace, source ∈ sourcesOf next) :
    ∀ node ∈ nodesOf workspace, ∃ owner, Settled owner node ∧
      ∀ source, owner = some source → source ∈ sourcesOf next := by
  intro node held
  obtain ⟨owner, settled, known⟩ := sound.settled node held
  exact ⟨owner, settled, fun source same => kept source (known source same)⟩

theorem sources_named {slot : String} {other : Source} :
    other ∈ sourcesOf (workspace.storeSource slot source) ↔
      other = source ∨ other ∈ sourcesOf workspace := by
  simp only [sourcesOf, treesOf, Workspace.storeSource, List.map_cons, List.mem_append,
    List.mem_cons]
  exact or_left_comm

/-- Whatever a step does, no tree and no source is lost. -/
theorem effect_grows (effect : Effect workspace next) :
    (∀ tree ∈ treesOf workspace, tree ∈ treesOf next) ∧
      ∀ source ∈ sourcesOf workspace, source ∈ sourcesOf next := by
  cases effect with
  | nothing | node => exact ⟨fun _ held => held, fun _ held => held⟩
  | tree slot tree read fresh =>
    exact ⟨fun _ held => List.mem_cons_of_mem _ held, fun _ held => List.mem_cons_of_mem _ held⟩
  | source slot source fresh | name slot source held =>
    exact ⟨fun _ held => held, fun _ held => sources_named.mpr (.inr held)⟩

theorem effect_sound (sound : Sound workspace) (effect : Effect workspace next) : Sound next := by
  have kept := settled_kept sound (effect_grows effect).2
  cases effect with
  | nothing => exact sound
  | tree slot tree read fresh =>
    have sources : ∀ other ∈ tree.source :: sourcesOf workspace,
        other = tree.source ∨ other ∈ sourcesOf workspace := fun other => List.mem_cons.mp
    obtain ⟨issued, identified⟩ := fresh_identified sound fresh sources
    refine ⟨List.forall_mem_cons.mpr ⟨read, sound.read⟩, ?_, issued, identified, kept⟩
    -- A handle that has been given out is below the next one.
    refine List.nodup_cons.mpr ⟨fun taken => ?_, sound.handles⟩
    obtain ⟨other, held, same⟩ := List.mem_map.mp taken
    have same : other.source.handle = tree.source.handle := same
    have below := sound.issued other.source (tree_source held)
    omega
  | node slot node owner settled known =>
    exact ⟨sound.read, sound.handles, sound.issued, sound.identified,
      List.forall_mem_cons.mpr ⟨⟨owner, settled, known⟩, kept⟩⟩
  | source slot source fresh =>
    obtain ⟨issued, identified⟩ := fresh_identified sound fresh
      fun other member => sources_named.mp member
    exact ⟨sound.read, sound.handles, issued, identified, kept⟩
  | name slot source held =>
    have same : ∀ other ∈ sourcesOf (workspace.storeSource slot source),
        other ∈ sourcesOf workspace := by
      intro other member
      rcases sources_named.mp member with rfl | old
      · exact held
      · exact old
    exact ⟨sound.read, sound.handles, fun other member => sound.issued other (same other member),
      fun one member other member' =>
        sound.identified one (same one member) other (same other member'), kept⟩

theorem sound_empty : Sound .empty where
  read := fun _ held => absurd held List.not_mem_nil
  handles := List.nodup_nil
  issued := fun _ held => absurd held List.not_mem_nil
  identified := fun _ held => absurd held List.not_mem_nil
  settled := fun _ held => absurd held List.not_mem_nil

/-- The invariant holds after any run, and what there was is still there. -/
theorem later_sound (sound : Sound workspace) (run : Later workspace later) :
    Sound later ∧ (∀ tree ∈ treesOf workspace, tree ∈ treesOf later) ∧
      ∀ source ∈ sourcesOf workspace, source ∈ sourcesOf later := by
  induction run with
  | refl => exact ⟨sound, fun _ held => held, fun _ held => held⟩
  | tail earlier step ih =>
    obtain ⟨before, trees, sources⟩ := ih
    have effect := step_effect before step
    obtain ⟨trees', sources'⟩ := effect_grows effect
    exact ⟨effect_sound before effect, fun tree held => trees' tree (trees tree held),
      fun source held => sources' source (sources source held)⟩

/-! ## Owners -/

/-- The trees with the property, and no others, own the node and each part of it. -/
def OwnedBy (workspace : Workspace) (node : Node) (p : Tree → Prop) : Prop :=
  ∀ tree ∈ treesOf workspace, ∀ part ∈ node.parts, tree.owns part = true ↔ p tree

theorem owned_congr {p q : Tree → Prop} (owned : OwnedBy workspace node p)
    (same : ∀ tree, p tree ↔ q tree) : OwnedBy workspace node q :=
  fun tree held part member => (owned tree held part member).trans (same tree)

theorem owned_settled (sound : Sound workspace) (settled : Settled owner node)
    (known : ∀ source, owner = some source → source ∈ sourcesOf workspace) :
    OwnedBy workspace node fun tree => owner = some tree.source := by
  intro tree held part member
  rw [Tree.owns, settled_source (settled_parts settled member)]
  cases owner with
  | none => simp
  | some source =>
    simp only [Option.any_some, Source.isSame, beq_iff_eq, Option.some.injEq]
    constructor
    · exact fun same => (sound.identified _ (tree_source held) source (known source rfl) same).symm
    · rintro rfl
      rfl

/-- What belongs to the source of a tree is owned by this tree alone. -/
theorem owned_tree (sound : Sound workspace) (held : tree ∈ treesOf workspace)
    (settled : Settled (some tree.source) node) : OwnedBy workspace node (· = tree) := by
  intro other held' part member
  have known : ∀ source, some tree.source = some source → source ∈ sourcesOf workspace :=
    fun source same => Option.some.inj same ▸ tree_source held
  refine (owned_settled sound settled known other held' part member).trans ?_
  constructor
  · intro same
    have handle : other.source.handle = tree.source.handle := by rw [Option.some.inj same]
    exact List.inj_on_of_nodup_map sound.handles held' held handle
  · rintro rfl
    rfl

theorem extract_node {name slot : String} {path : List Node.Step}
    (taken : (workspace.act (.extract name path slot)).2 = .node node) :
    ∃ tree, workspace.trees.lookup name = some tree ∧ tree.root.descend? path = some node := by
  simp only [Workspace.act] at taken
  split at taken
  · rename_i tree found
    split at taken
    · cases taken
      exact ⟨tree, found, ‹_›⟩
    · cases taken
  · cases taken

theorem bind_node {name target slot : String}
    (copied : (workspace.act (.bind name target slot)).2 = .node node) :
    ∃ old source, workspace.nodes.lookup name = some old ∧
      workspace.sources.lookup target = some source ∧ node = old.bind source := by
  simp only [Workspace.act] at copied
  split at copied
  · cases copied
    exact ⟨_, _, ‹_›, ‹_›, rfl⟩
  · cases copied

theorem build_node {sketch : Sketch} {slot : String}
    (built : (workspace.act (.build sketch slot)).2 = .node node) : sketch.build = .ok node := by
  simp only [Workspace.act] at built
  split at built
  · cases built
    assumption
  · cases built

theorem stored_tree {action : Workspace.Action}
    (made : (workspace.act action).2 = .stored tree) :
    treesOf (workspace.act action).1 = tree :: treesOf workspace := by
  cases action with
  | parse name text slot | copy name slot =>
    simp only [Workspace.act] at made ⊢
    split at made <;> cases made
    rfl
  | extract name path slot =>
    simp only [Workspace.act] at made
    split at made
    · split at made <;> cases made
    · cases made
  | build sketch slot | takeSource name slot | bind name target slot =>
    simp only [Workspace.act] at made
    split at made <;> cases made
  | makeSource name text slot => cases made

/-- What is true of the trees and the nodes of a workspace, now and after anything that happens
later. -/
structure WellOwned (workspace : Workspace) : Prop where
  /-- What is read or copied is one tree more. -/
  made : ∀ action tree, (workspace.act action).2 = .stored tree →
    treesOf (workspace.act action).1 = tree :: treesOf workspace
  /-- No two trees have one handle. -/
  handles : ((treesOf workspace).map fun tree => tree.source.handle).Nodup
  parts : ∀ tree ∈ treesOf workspace, OwnedBy workspace tree.root (· = tree)
  extracted : ∀ name path slot node,
    (workspace.act (.extract name path slot)).2 = .node node →
    ∃ tree, workspace.trees.lookup name = some tree ∧ tree.root.descend? path = some node ∧
      ∀ later, Later (workspace.act (.extract name path slot)).1 later →
        tree ∈ treesOf later ∧ OwnedBy later node (· = tree)
  copied : ∀ name target slot node, (workspace.act (.bind name target slot)).2 = .node node →
    ∃ old source, workspace.nodes.lookup name = some old ∧
      workspace.sources.lookup target = some source ∧ node = old.bind source ∧
      ∀ later, Later (workspace.act (.bind name target slot)).1 later →
        OwnedBy later node (·.source = source)
  detached : ∀ sketch slot node, (workspace.act (.build sketch slot)).2 = .node node →
    ∀ later, Later (workspace.act (.build sketch slot)).1 later →
      OwnedBy later node fun _ => False
  /-- Clones and parts of nodes belong to what these belong to. -/
  held : ∀ node ∈ nodesOf workspace, ∃ owner : Option Source,
    (∀ path part, node.descend? path = some part → part.source = owner) ∧
      ∀ later, Later workspace later → OwnedBy later node fun tree => owner = some tree.source
  copies_alike : ∀ tree ∈ treesOf workspace, ∀ handle, (tree.copy handle).alike tree = true
  alike_iff : ∀ a ∈ treesOf workspace, ∀ b ∈ treesOf workspace,
    a.alike b = true ↔ a.source.name = b.source.name ∧ a.source.text = b.source.text

/-- **Trees own their nodes.** After any run from the empty workspace, each tree has a handle of its
own and owns every part of its statement, which no other tree does. A node that is taken out of a
tree remains that tree's, one that is copied into a source belongs to the tree of this source if
there is one, and one that is built by hand belongs to none, whatever happens later. Equality sees
nothing of this: it compares names and texts. -/
theorem ownership_over_runs (reached : Later .empty workspace) : WellOwned workspace := by
  obtain ⟨sound, -⟩ := later_sound sound_empty reached
  have acted (action : Workspace.Action) {later : Workspace}
      (run : Later (workspace.act action).1 later) := later_sound sound (.head (.act action) run)
  constructor
  case made => exact fun action tree made => stored_tree made
  case handles => exact sound.handles
  case parts => exact fun tree held => owned_tree sound held (read_settled (sound.read tree held))
  case extracted =>
    intro name path slot node taken
    obtain ⟨tree, found, inside⟩ := extract_node taken
    refine ⟨tree, found, inside, fun later run => ?_⟩
    obtain ⟨sound', trees, -⟩ := acted _ run
    have held := lookup_held found
    exact ⟨trees tree held, owned_tree sound' (trees tree held)
      (settled_descend (read_settled (sound.read tree held)) inside)⟩
  case copied =>
    intro name target slot node copied
    obtain ⟨old, source, found, found', rfl⟩ := bind_node copied
    refine ⟨old, source, found, found', rfl, fun later run => ?_⟩
    obtain ⟨sound', -, sources⟩ := acted _ run
    have held : source ∈ sourcesOf workspace := List.mem_append_right _ (lookup_held found')
    have owned := owned_settled sound' (settled_bind source old)
      fun other same => Option.some.inj same ▸ sources source held
    exact owned_congr owned fun tree => by rw [Option.some.injEq, eq_comm]
  case detached =>
    intro sketch slot node built later run
    obtain ⟨sound', -, -⟩ := acted _ run
    have owned := owned_settled sound' (settled_build sketch node (build_node built))
      fun source none => by cases none
    exact owned_congr owned fun tree => by simp
  case held =>
    intro node held
    obtain ⟨owner, settled, known⟩ := sound.settled node held
    refine ⟨owner, fun path part found => settled_source (settled_descend settled found),
      fun later run => ?_⟩
    obtain ⟨sound', -, sources⟩ := later_sound sound run
    exact owned_settled sound' settled fun source same => sources source (known source same)
  case copies_alike =>
    intro tree held handle
    have read := sound.read tree held
    exact (read_alike (copy_read read handle) read).mpr ⟨rfl, rfl⟩
  case alike_iff =>
    exact fun a held b held' => read_alike (sound.read a held) (sound.read b held')

/-- A copy of a tree has the next handle, and a literal of the first tree remains that tree's. -/
theorem ownership_over_runs_copy : ∃ workspace node,
    Later .empty workspace ∧ WellOwned workspace ∧
      (treesOf workspace).map (fun tree => tree.source.handle) = [1, 0] ∧
      nodesOf workspace = [node] ∧ node.canonical = "1.5" ∧
      (treesOf workspace).map (fun tree => tree.owns node) = [false, true] := by
  let parsed := (Workspace.empty.act (.parse "root" "eq(id, 1.5)" "first")).1
  let copied := (parsed.act (.copy "first" "second")).1
  let taken := (copied.act (.extract "first" [.operation, .operands, .element 1] "node")).1
  have run : Later .empty taken :=
    .tail (.tail (.tail .refl (.act (.parse "root" "eq(id, 1.5)" "first")))
      (.act (.copy "first" "second")))
      (.act (.extract "first" [.operation, .operands, .element 1] "node"))
  have handles : (treesOf taken).map (fun tree => tree.source.handle) = [1, 0] := by
    decide +kernel
  have nodes : (nodesOf taken).map (fun node => (node.canonical,
      (treesOf taken).map fun tree => tree.owns node)) = [("1.5", [false, true])] := by
    decide +kernel
  obtain ⟨node, rest, split, first, none⟩ := List.map_eq_cons_iff.mp nodes
  obtain rfl := List.map_eq_nil_iff.mp none
  obtain ⟨canonical, owners⟩ := Prod.mk.inj first
  exact ⟨taken, node, run, ownership_over_runs run, handles, split, canonical, owners⟩

end ResourceQuery.Ownership
