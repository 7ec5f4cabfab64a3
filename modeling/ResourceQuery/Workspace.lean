import ResourceQuery.Node.Walk
import ResourceQuery.Sketch
import ResourceQuery.Tree

/-! Workspaces: trees, nodes and sources under names. A workspace hands out the handles of
sources, each to one source only, so that what is read, copied or made in it never shares its
identity with anything older. An action that fails leaves the workspace as it is. -/

namespace ResourceQuery

/-- Values under names. The newest value under a name is the one that counts. -/
abbrev Slots (α : Type) := List (String × α)

/-- Named trees, nodes and sources, and the first handle that no source has. -/
structure Workspace where
  nextHandle : Nat
  trees : Slots Tree
  nodes : Slots Node
  sources : Slots Source

namespace Workspace

/-- Nothing has a name, and every handle is free. -/
def empty : Workspace := ⟨0, [], [], []⟩

/-- What can be done in a workspace. The results get the name `slot`. -/
inductive Action where
  /-- Read a text as a tree. -/
  | parse (name text slot : String)
  /-- Copy a tree. -/
  | copy (tree slot : String)
  /-- Take a part of a tree's statement, by its path. -/
  | extract (tree : String) (path : List Node.Step) (slot : String)
  /-- Build a detached node. -/
  | build (sketch : Sketch) (slot : String)
  /-- Make a new source. -/
  | makeSource (name text slot : String)
  /-- Take the source of a tree. -/
  | takeSource (tree slot : String)
  /-- Copy a node into a source. -/
  | bind (node source slot : String)

/-- What can be asked about a workspace. -/
inductive Query where
  | tree (tree : String)
  | node (node : String)
  /-- Is the node empty? Where there is no node, there is nothing. -/
  | isEmpty (node : String)
  /-- Does the node belong to the tree? -/
  | owns (tree node : String)
  /-- Which parts of the node belong to the source? -/
  | boundTo (node source : String)
  /-- Where does the node stand, asked of a tree? -/
  | context (tree node : String)
  /-- Where does the node stand, asked of a source? -/
  | sourceContext (source node : String)
  | alikeTrees (a b : String)
  | alikeNodes (a b : String)

/-- An answer. -/
inductive Reply where
  | stored (tree : Tree)
  | tree (tree : Tree)
  | node (node : Node)
  | source (source : Source)
  | truth (value : Bool)
  | truths (values : List Bool)
  | context (location excerpt : String)
  /-- The path leads nowhere. -/
  | noPart
  /-- A name that was asked for stands for nothing. -/
  | unnamed
  | diagnostic (diagnostic : Diagnostic)
  | literal (fault : LiteralFault)

/-- The workspace with one more tree, which took the next handle. -/
def storeTree (workspace : Workspace) (slot : String) (tree : Tree) : Workspace :=
  { workspace with
    nextHandle := workspace.nextHandle + 1
    trees := (slot, tree) :: workspace.trees }

/-- The workspace with one more node. -/
def storeNode (workspace : Workspace) (slot : String) (node : Node) : Workspace :=
  { workspace with nodes := (slot, node) :: workspace.nodes }

/-- The workspace with one more name for a source. -/
def storeSource (workspace : Workspace) (slot : String) (source : Source) : Workspace :=
  { workspace with sources := (slot, source) :: workspace.sources }

/-- Does something, and says what came of it. -/
def act (workspace : Workspace) : Action → Workspace × Reply
  | .parse name text slot =>
    match Tree.parse workspace.nextHandle name text with
    | .ok tree => (workspace.storeTree slot tree, .stored tree)
    | .error diagnostic => (workspace, .diagnostic diagnostic)
  | .copy tree slot =>
    match workspace.trees.lookup tree with
    | some tree =>
      let copied := tree.copy workspace.nextHandle
      (workspace.storeTree slot copied, .stored copied)
    | none => (workspace, .unnamed)
  | .extract tree path slot =>
    match workspace.trees.lookup tree with
    | some tree =>
      match tree.root.descend? path with
      | some node => (workspace.storeNode slot node, .node node)
      | none => (workspace, .noPart)
    | none => (workspace, .unnamed)
  | .build sketch slot =>
    match sketch.build with
    | .ok node => (workspace.storeNode slot node, .node node)
    | .error fault => (workspace, .literal fault)
  | .makeSource name text slot =>
    let source : Source := ⟨workspace.nextHandle, name, text⟩
    ({ workspace.storeSource slot source with nextHandle := workspace.nextHandle + 1 },
      .source source)
  | .takeSource tree slot =>
    match workspace.trees.lookup tree with
    | some tree => (workspace.storeSource slot tree.source, .source tree.source)
    | none => (workspace, .unnamed)
  | .bind node source slot =>
    match workspace.nodes.lookup node, workspace.sources.lookup source with
    | some node, some source =>
      let bound := node.bind source
      (workspace.storeNode slot bound, .node bound)
    | _, _ => (workspace, .unnamed)

/-- Answers a question. -/
def ask (workspace : Workspace) : Query → Reply
  | .tree tree =>
    match workspace.trees.lookup tree with
    | some tree => .tree tree
    | none => .unnamed
  | .node node =>
    match workspace.nodes.lookup node with
    | some node => .node node
    | none => .unnamed
  | .isEmpty node => .truth ((workspace.nodes.lookup node).all Node.isEmpty)
  | .owns tree node =>
    match workspace.trees.lookup tree, workspace.nodes.lookup node with
    | some tree, some node => .truth (tree.owns node)
    | _, _ => .unnamed
  | .boundTo node source =>
    match workspace.nodes.lookup node, workspace.sources.lookup source with
    | some node, some source => .truths (node.boundTo source)
    | _, _ => .unnamed
  | .context tree node =>
    match workspace.trees.lookup tree, workspace.nodes.lookup node with
    | some tree, some node =>
      let (location, excerpt) := tree.context node
      .context location excerpt
    | _, _ => .unnamed
  | .sourceContext source node =>
    match workspace.sources.lookup source, workspace.nodes.lookup node with
    | some source, some node =>
      let (location, excerpt) := source.context node
      .context location excerpt
    | _, _ => .unnamed
  | .alikeTrees a b =>
    match workspace.trees.lookup a, workspace.trees.lookup b with
    | some a, some b => .truth (a.alike b)
    | _, _ => .unnamed
  | .alikeNodes a b =>
    match workspace.nodes.lookup a, workspace.nodes.lookup b with
    | some a, some b => .truth (a.alike b)
    | _, _ => .unnamed

/-- Something to do or to ask. -/
inductive Request where
  | act (action : Action)
  | ask (query : Query)

/-- The replies to requests that are made one after the other. -/
def replies (workspace : Workspace) : List Request → List Reply
  | [] => []
  | .act action :: requests =>
    let (workspace, reply) := workspace.act action
    reply :: workspace.replies requests
  | .ask query :: requests => workspace.ask query :: workspace.replies requests

end Workspace

end ResourceQuery
