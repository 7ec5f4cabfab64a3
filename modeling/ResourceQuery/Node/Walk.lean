import ResourceQuery.Node

/-! Ways through a node: all parts in order, or one part by its path. -/

namespace ResourceQuery.Node

mutual

/-- The node and everything in it, each before its own parts, with the depth at which it stands.
An operation stands right below its statement, the list of operands below the operation, and the
operands below the list. -/
def walkFrom (depth : Nat) : Node → List (Nat × Node)
  | atom o a => [(depth, atom o a)]
  | list o nodes => (depth, list o nodes) :: walkAllFrom (depth + 1) nodes
  | operation head operands =>
    (depth, operation head operands) :: (depth + 1, head.operandList operands) ::
      walkAllFrom (depth + 2) operands
  | blankStatement o => [(depth, blankStatement o)]
  | statement o head operands =>
    (depth, statement o head operands) :: (depth + 1, operation head operands) ::
      (depth + 2, head.operandList operands) :: walkAllFrom (depth + 3) operands

/-- The walks of a row of nodes, one after the other. -/
def walkAllFrom (depth : Nat) : List Node → List (Nat × Node)
  | [] => []
  | node :: nodes => walkFrom depth node ++ walkAllFrom depth nodes

end

/-- The node and everything in it, with depths counted from the node. -/
def walk (node : Node) : List (Nat × Node) :=
  walkFrom 0 node

/-- The node and everything in it. -/
def parts (node : Node) : List Node :=
  node.walk.map Prod.snd

/-- A step from a node to a part of it. -/
inductive Step where
  /-- From a statement to its operation. -/
  | operation
  /-- From an operation to its list of operands. -/
  | operands
  /-- From a list to one of its elements, counted from zero. -/
  | element (index : Nat)
  deriving DecidableEq

/-- The part that a step leads to, if the node has one. -/
def child? : Node → Step → Option Node
  | statement _ head operands, .operation => some (operation head operands)
  | operation head operands, .operands => some (head.operandList operands)
  | list _ nodes, .element index => nodes[index]?
  | _, _ => none

/-- The part at the end of a path. -/
def descend? (node : Node) (path : List Step) : Option Node :=
  path.foldlM child? node

/-- Whether every part of the node belongs to this very source, part by part. -/
def boundTo (source : Source) (node : Node) : List Bool :=
  node.parts.map fun part => part.source.any source.isSame

/-! ## What a node hands on -/

/-- What holds of a node holds of the parts that a step leads to. -/
def Inherited (p : Node → Prop) : Prop :=
  ∀ node step part, p node → child? node step = some part → p part

variable {p : Node → Prop}

theorem inherited_elements (inherited : Inherited p) {o : Origin} {nodes : List Node}
    (holds : p (list o nodes)) : ∀ node ∈ nodes, p node := by
  intro node member
  obtain ⟨index, found⟩ := List.mem_iff_getElem?.mp member
  exact inherited _ (.element index) node holds found

mutual

theorem inherited_walk (inherited : Inherited p) (node : Node) (depth : Nat) (holds : p node) :
    ∀ entry ∈ walkFrom depth node, p entry.2 := by
  cases node with
  | atom | blankStatement => simpa [walkFrom] using holds
  | list o nodes =>
    have elements := inherited_elements inherited holds
    exact List.forall_mem_cons.mpr ⟨holds, inherited_walkAll inherited nodes _ elements⟩
  | operation head operands =>
    have row : p (head.operandList operands) := inherited _ .operands _ holds rfl
    have elements := inherited_elements inherited row
    exact List.forall_mem_cons.mpr ⟨holds, List.forall_mem_cons.mpr
      ⟨row, inherited_walkAll inherited operands _ elements⟩⟩
  | statement o head operands =>
    have inside : p (operation head operands) := inherited _ .operation _ holds rfl
    have row : p (head.operandList operands) := inherited _ .operands _ inside rfl
    have elements := inherited_elements inherited row
    exact List.forall_mem_cons.mpr ⟨holds, List.forall_mem_cons.mpr ⟨inside,
      List.forall_mem_cons.mpr ⟨row, inherited_walkAll inherited operands _ elements⟩⟩⟩

theorem inherited_walkAll (inherited : Inherited p) (nodes : List Node) (depth : Nat)
    (holds : ∀ node ∈ nodes, p node) : ∀ entry ∈ walkAllFrom depth nodes, p entry.2 := by
  cases nodes with
  | nil => exact fun entry member => absurd member List.not_mem_nil
  | cons node nodes =>
    obtain ⟨here, others⟩ := List.forall_mem_cons.mp holds
    exact List.forall_mem_append.mpr
      ⟨inherited_walk inherited node depth here, inherited_walkAll inherited nodes depth others⟩

end

/-- What is handed on with each step holds of all parts. -/
theorem inherited_parts (inherited : Inherited p) {node part : Node} (holds : p node)
    (member : part ∈ node.parts) : p part := by
  obtain ⟨entry, walked, rfl⟩ := List.mem_map.mp member
  exact inherited_walk inherited node 0 holds entry walked

/-- So it holds at the end of every path. -/
theorem inherited_descend (inherited : Inherited p) {path : List Step} {node part : Node}
    (holds : p node) (found : node.descend? path = some part) : p part := by
  induction path generalizing node with
  | nil =>
    cases found
    exact holds
  | cons step path ih =>
    obtain ⟨child, first, rest⟩ := Option.bind_eq_some_iff.mp found
    exact ih (inherited node step child holds first) rest

/-! ## Paths stay inside -/

mutual

/-- The depth that a walk starts at is of no account for what it passes. -/
theorem walkFrom_parts (node : Node) (depth depth' : Nat) :
    (walkFrom depth node).map Prod.snd = (walkFrom depth' node).map Prod.snd := by
  cases node with
  | atom | blankStatement => rfl
  | list o nodes => exact congrArg (_ :: ·) (walkAllFrom_parts nodes (depth + 1) (depth' + 1))
  | operation head operands =>
    exact congrArg (_ :: _ :: ·) (walkAllFrom_parts operands (depth + 2) (depth' + 2))
  | statement o head operands =>
    exact congrArg (_ :: _ :: _ :: ·) (walkAllFrom_parts operands (depth + 3) (depth' + 3))

theorem walkAllFrom_parts (nodes : List Node) (depth depth' : Nat) :
    (walkAllFrom depth nodes).map Prod.snd = (walkAllFrom depth' nodes).map Prod.snd := by
  cases nodes with
  | nil => rfl
  | cons node nodes =>
    rw [walkAllFrom, walkAllFrom, List.map_append, List.map_append,
      walkFrom_parts node depth depth', walkAllFrom_parts nodes depth depth']

end

theorem self_mem_parts (node : Node) : node ∈ node.parts := by
  cases node with
  | atom | list | operation | blankStatement | statement => exact List.mem_cons_self

/-- The parts of an element are parts of its row. -/
theorem element_parts {nodes : List Node} {node : Node} (member : node ∈ nodes) (depth : Nat) :
    ∀ part ∈ node.parts, part ∈ (walkAllFrom depth nodes).map Prod.snd := by
  induction nodes with
  | nil => exact absurd member List.not_mem_nil
  | cons first nodes ih =>
    intro part inside
    rw [walkAllFrom, List.map_append, List.mem_append]
    rcases List.mem_cons.mp member with rfl | member
    · exact .inl (walkFrom_parts node 0 depth ▸ inside)
    · exact .inr (ih member part inside)

theorem child_parts {node child : Node} {step : Step} (found : child? node step = some child) :
    ∀ part ∈ child.parts, part ∈ node.parts := by
  intro part inside
  unfold child? at found
  split at found
  · rename_i o head operands
    cases found
    refine List.mem_cons_of_mem _ ?_
    have below := walkFrom_parts (operation head operands) 0 1
    exact below ▸ inside
  · rename_i head operands
    cases found
    refine List.mem_cons_of_mem _ ?_
    have below := walkFrom_parts (head.operandList operands) 0 1
    exact below ▸ inside
  · rename_i o nodes index
    exact List.mem_cons_of_mem _ (element_parts (List.mem_of_getElem? found) 1 part inside)
  · cases found

/-- What a path leads to is a part, and so is everything in it. -/
theorem descend_parts {path : List Step} {node found : Node}
    (leads : node.descend? path = some found) : ∀ part ∈ found.parts, part ∈ node.parts := by
  induction path generalizing node with
  | nil =>
    cases leads
    exact fun part inside => inside
  | cons step path ih =>
    obtain ⟨child, first, rest⟩ := Option.bind_eq_some_iff.mp leads
    exact fun part inside => child_parts first part (ih rest part inside)

end ResourceQuery.Node
