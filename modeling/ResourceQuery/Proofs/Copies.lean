import ResourceQuery.Proofs.JsonFaithfulness
import ResourceQuery.Proofs.Ownership

/-! Copies of nodes. A copy for a source is the one node that mirrors the node it was made from and
of which every part belongs to the source (`copy_iff`), wherever the parts of the first node came
from. Nothing that a node shows of itself tells the two apart, and making a copy leaves everything
else as it is (`copies_rebind`). -/

namespace ResourceQuery.Copies
open CanonicalRoundTrip JsonFaithfulness Ownership

mutual

/-- The nodes have the same shape, and at each place of it the same position, and the same operator,
name or literal. They may belong to any sources. -/
inductive Mirrors : Node → Node → Prop where
  | atom (pos : origin.pos = origin'.pos) : Mirrors (.atom origin atom) (.atom origin' atom)
  | list (pos : origin.pos = origin'.pos) (elements : MirrorsAll nodes nodes') :
      Mirrors (.list origin nodes) (.list origin' nodes')
  | operation (pos : head.origin.pos = head'.origin.pos) (operator : head.operator = head'.operator)
      (list : head.list.pos = head'.list.pos) (elements : MirrorsAll operands operands') :
      Mirrors (.operation head operands) (.operation head' operands')
  | blankStatement (pos : origin.pos = origin'.pos) :
      Mirrors (.blankStatement origin) (.blankStatement origin')
  | statement (pos : origin.pos = origin'.pos)
      (operation : Mirrors (.operation head operands) (.operation head' operands')) :
      Mirrors (.statement origin head operands) (.statement origin' head' operands')

inductive MirrorsAll : List Node → List Node → Prop where
  | nil : MirrorsAll [] []
  | cons (first : Mirrors node node') (others : MirrorsAll nodes nodes') :
      MirrorsAll (node :: nodes) (node' :: nodes')

end

/-- The node mirrors the other, and everything in it belongs to the source. -/
structure CopyFor (source : Source) (node copy : Node) : Prop where
  mirrors : Mirrors node copy
  bound : ∀ part ∈ copy.parts, part.source = some source

variable {owner : Option Source} {source : Source} {node copy : Node} {nodes : List Node}
  {change : Origin → Origin}

/-! ## Copies mirror -/

mutual

theorem mirrors_bind (source : Source) (node : Node) : Mirrors node (node.bind source) := by
  cases node with
  | atom origin atom => exact .atom rfl
  | list origin nodes => exact .list rfl (mirrors_bind_all source nodes)
  | operation head operands => exact .operation rfl rfl rfl (mirrors_bind_all source operands)
  | blankStatement origin => exact .blankStatement rfl
  | statement origin head operands =>
    exact .statement rfl (.operation rfl rfl rfl (mirrors_bind_all source operands))

theorem mirrors_bind_all (source : Source) (nodes : List Node) :
    MirrorsAll nodes (Node.mapAllOrigins (Origin.bind source) nodes) := by
  cases nodes with
  | nil => exact .nil
  | cons node nodes => exact .cons (mirrors_bind source node) (mirrors_bind_all source nodes)

end

theorem bind_eq {origin origin' : Origin} (pos : origin.pos = origin'.pos)
    (here : origin'.source = some source) : origin' = origin.bind source := by
  obtain ⟨pos', source'⟩ := origin'
  subst pos here
  rfl

theorem head_eq {head head' : Head} (pos : head.origin.pos = head'.origin.pos)
    (operator : head.operator = head'.operator) (list : head.list.pos = head'.list.pos)
    (here : head'.origin.source = some source) (row : head'.list.source = some source) :
    head' = ⟨head.origin.bind source, head.operator, head.list.bind source⟩ := by
  obtain ⟨origin', operator', list'⟩ := head'
  subst operator
  exact congrArg₂ (Head.mk · _ ·) (bind_eq pos here) (bind_eq list row)

mutual

/-- What mirrors a node and belongs to the source as a whole can only be the copy. -/
theorem mirrors_unique (node copy : Node) (mirrors : Mirrors node copy)
    (settled : Settled (some source) copy) : copy = node.bind source := by
  cases mirrors with
  | atom pos =>
    cases settled with
    | atom here => exact congrArg (Node.atom · _) (bind_eq pos here)
  | list pos elements =>
    cases settled with
    | list here inside =>
      exact congrArg₂ Node.list (bind_eq pos here) (mirrors_unique_all _ _ elements inside)
  | operation pos operator list elements =>
    cases settled with
    | operation here row inside =>
      exact congrArg₂ Node.operation (head_eq pos operator list here row)
        (mirrors_unique_all _ _ elements inside)
  | blankStatement pos =>
    cases settled with
    | blankStatement here => exact congrArg Node.blankStatement (bind_eq pos here)
  | statement pos operation =>
    cases settled with
    | statement here inside =>
      cases operation with
      | operation place operator list elements =>
        cases inside with
        | operation outer row inside =>
          rw [bind_eq pos here, head_eq place operator list outer row,
            mirrors_unique_all _ _ elements inside]
          rfl

theorem mirrors_unique_all (nodes copies : List Node) (mirrors : MirrorsAll nodes copies)
    (settled : ∀ copy ∈ copies, Settled (some source) copy) :
    copies = Node.mapAllOrigins (Origin.bind source) nodes := by
  cases mirrors with
  | nil => rfl
  | cons first others =>
    obtain ⟨here, more⟩ := List.forall_mem_cons.mp settled
    exact congrArg₂ List.cons (mirrors_unique _ _ first here) (mirrors_unique_all _ _ others more)

end

/-! ## Copies belong to the source -/

mutual

/-- A node of which every part belongs to one owner belongs to it as a whole. -/
theorem settled_of_walk (node : Node) (depth : Nat)
    (bound : ∀ entry ∈ node.walkFrom depth, entry.2.source = owner) : Settled owner node := by
  cases node with
  | atom origin atom => exact .atom (bound (depth, .atom origin atom) (.head _))
  | list origin nodes =>
    obtain ⟨here, inside⟩ := List.forall_mem_cons.mp bound
    exact .list here (settled_of_walk_all nodes (depth + 1) inside)
  | operation head operands =>
    obtain ⟨here, more⟩ := List.forall_mem_cons.mp bound
    obtain ⟨list, inside⟩ := List.forall_mem_cons.mp more
    exact .operation here list (settled_of_walk_all operands (depth + 2) inside)
  | blankStatement origin =>
    exact .blankStatement (bound (depth, .blankStatement origin) (.head _))
  | statement origin head operands =>
    obtain ⟨here, more⟩ := List.forall_mem_cons.mp bound
    obtain ⟨outer, more⟩ := List.forall_mem_cons.mp more
    obtain ⟨list, inside⟩ := List.forall_mem_cons.mp more
    exact .statement here
      (.operation outer list (settled_of_walk_all operands (depth + 3) inside))

theorem settled_of_walk_all (nodes : List Node) (depth : Nat)
    (bound : ∀ entry ∈ Node.walkAllFrom depth nodes, entry.2.source = owner) :
    ∀ node ∈ nodes, Settled owner node := by
  cases nodes with
  | nil => exact fun node member => absurd member List.not_mem_nil
  | cons node nodes =>
    obtain ⟨here, more⟩ := List.forall_mem_append.mp bound
    exact List.forall_mem_cons.mpr
      ⟨settled_of_walk node depth here, settled_of_walk_all nodes depth more⟩

end

theorem settled_iff : Settled owner node ↔ ∀ part ∈ node.parts, part.source = owner := by
  constructor
  · exact fun settled part member => settled_source (settled_parts settled member)
  · exact fun bound => settled_of_walk node 0 fun entry member =>
      bound entry.2 (List.mem_map_of_mem member)

/-- There is one copy for a source, and it is the one that is made. -/
theorem copy_iff : CopyFor source node copy ↔ copy = node.bind source := by
  constructor
  · rintro ⟨mirrors, bound⟩
    exact mirrors_unique node copy mirrors (settled_iff.mpr bound)
  · rintro rfl
    exact ⟨mirrors_bind source node, settled_iff.mp (settled_bind source node)⟩

/-! ## Parts of copies -/

theorem mapAllOrigins_eq (nodes : List Node) :
    Node.mapAllOrigins change nodes = nodes.map (Node.mapOrigins change) := by
  induction nodes with
  | nil => rfl
  | cons node nodes ih => exact congrArg (_ :: ·) ih

mutual

theorem walk_mapOrigins (node : Node) (depth : Nat) :
    (node.mapOrigins change).walkFrom depth =
      (node.walkFrom depth).map (Prod.map id (Node.mapOrigins change)) := by
  cases node with
  | atom | blankStatement => rfl
  | list origin nodes =>
    exact congrArg (_ :: ·) (walkAll_mapOrigins nodes (depth + 1))
  | operation head operands =>
    exact congrArg (_ :: _ :: ·) (walkAll_mapOrigins operands (depth + 2))
  | statement origin head operands =>
    exact congrArg (_ :: _ :: _ :: ·) (walkAll_mapOrigins operands (depth + 3))

theorem walkAll_mapOrigins (nodes : List Node) (depth : Nat) :
    Node.walkAllFrom depth (Node.mapAllOrigins change nodes) =
      (Node.walkAllFrom depth nodes).map (Prod.map id (Node.mapOrigins change)) := by
  cases nodes with
  | nil => rfl
  | cons node nodes =>
    rw [Node.mapAllOrigins, Node.walkAllFrom, Node.walkAllFrom, List.map_append,
      walk_mapOrigins node depth, walkAll_mapOrigins nodes depth]

end

theorem child_mapOrigins (node : Node) (step : Node.Step) :
    (node.mapOrigins change).child? step = (node.child? step).map (Node.mapOrigins change) := by
  cases node with
  | list origin nodes =>
    cases step with
    | element index =>
      simp only [Node.mapOrigins, Node.child?, mapAllOrigins_eq, List.getElem?_map]
    | operation | operands => rfl
  | atom | operation | blankStatement | statement => cases step <;> rfl

theorem descend_mapOrigins (node : Node) (path : List Node.Step) :
    (node.mapOrigins change).descend? path =
      (node.descend? path).map (Node.mapOrigins change) := by
  induction path generalizing node with
  | nil => rfl
  | cons step path ih =>
    unfold Node.descend? at ih ⊢
    rw [List.foldlM_cons, List.foldlM_cons, child_mapOrigins]
    cases node.child? step with
    | none => rfl
    | some child => exact ih child

/-! ## What a node shows of itself -/

mutual

theorem isEmpty_mapOrigins (node : Node) : (node.mapOrigins change).isEmpty = node.isEmpty := by
  cases node with
  | atom | blankStatement => rfl
  | list origin nodes | operation head nodes | statement origin head nodes =>
    simp only [Node.mapOrigins, Node.isEmpty, allEmpty_mapOrigins nodes]
    cases nodes <;> rfl

theorem allEmpty_mapOrigins (nodes : List Node) :
    Node.allEmpty (Node.mapAllOrigins change nodes) = Node.allEmpty nodes := by
  cases nodes with
  | nil => rfl
  | cons node nodes =>
    simp only [Node.mapAllOrigins, Node.allEmpty, isEmpty_mapOrigins node,
      allEmpty_mapOrigins nodes]

end

/-! ## Workspaces -/

/-- The later workspace has one node more, under the given name. -/
structure OnlyAdds (before later : Workspace) (slot : String) (node : Node) : Prop where
  added : later.nodes.lookup slot = some node
  nodes : ∀ name, name ≠ slot → later.nodes.lookup name = before.nodes.lookup name
  trees : later.trees = before.trees
  sources : later.sources = before.sources
  nextHandle : later.nextHandle = before.nextHandle

variable {workspace : Workspace}

theorem bind_adds {name target : String} (slot : String)
    (found : workspace.nodes.lookup name = some node)
    (found' : workspace.sources.lookup target = some source) :
    (workspace.act (.bind name target slot)).2 = .node (node.bind source) ∧
      OnlyAdds workspace (workspace.act (.bind name target slot)).1 slot (node.bind source) := by
  have acted : workspace.act (.bind name target slot) =
      (workspace.storeNode slot (node.bind source), .node (node.bind source)) := by
    simp only [Workspace.act, found, found']
  rw [acted]
  refine ⟨rfl, List.lookup_cons_self, fun name other => ?_, rfl, rfl, rfl⟩
  rw [Workspace.storeNode, List.lookup_cons, beq_false_of_ne other]

/-- **Copying rebinds everything and changes nothing else.** The copy of a node for a source is the
one node that mirrors it with every part in the source, and its parts are the copies of the parts in
the same places. It is written, rendered and tested for emptiness as the first node is. A copy of
the copy is no other than a copy of the first node, and in a workspace nothing but the copy is new.
-/
theorem copies_rebind (node : Node) (source : Source) :
    (∀ copy, CopyFor source node copy ↔ copy = node.bind source) ∧
    (node.bind source).walk = node.walk.map (Prod.map id (Node.bind source)) ∧
    (∀ path, (node.bind source).descend? path = (node.descend? path).map (Node.bind source)) ∧
    (node.bind source).canonical = node.canonical ∧
    (node.bind source).toJson = node.toJson ∧
    (node.bind source).isEmpty = node.isEmpty ∧
    (∀ source', (node.bind source).bind source' = node.bind source') ∧
    ∀ (workspace : Workspace) name target slot, workspace.nodes.lookup name = some node →
      workspace.sources.lookup target = some source →
        (workspace.act (.bind name target slot)).2 = .node (node.bind source) ∧
          OnlyAdds workspace (workspace.act (.bind name target slot)).1 slot (node.bind source) := by
  have keeps (origin : Origin) : (origin.bind source).pos = origin.pos := rfl
  exact ⟨fun copy => copy_iff, walk_mapOrigins node 0, descend_mapOrigins node,
    canonical_of_shape (shape_mapOrigins node), toJson_mapOrigins keeps node,
    isEmpty_mapOrigins node, fun source' => bind_bind source source' node,
    fun workspace name target slot found found' => bind_adds slot found found'⟩

/-- The parts of the first node are detached, or belong to one of two sources. -/
theorem copies_rebind_mixed :
    let first : Source := ⟨0, "a", "true"⟩
    let second : Source := ⟨1, "b", "()"⟩
    let target : Source := ⟨2, "c", ""⟩
    let list := Node.list ⟨8, some second⟩
      [.atom (.detached 9) (.identifier ""), .blankStatement ⟨0, some first⟩]
    let node := Node.operation ⟨⟨4, some first⟩, .conjunction, .detached 7⟩
      [list, .atom ⟨3, some second⟩ (.bool true)]
    ∃ copy, CopyFor target node copy ∧ copy.canonical = "and((,),true)" ∧
      copy.parts.map Node.source = List.replicate 6 (some target) ∧
      copy.bind first = node.bind first := by
  intro first second target list node
  obtain ⟨copies, -, -, canonical, -, -, again, -⟩ := copies_rebind node target
  have written : node.canonical = "and((,),true)" := by decide +kernel
  exact ⟨_, (copies _).mpr rfl, canonical.trans written, by decide +kernel, again first⟩

end ResourceQuery.Copies
