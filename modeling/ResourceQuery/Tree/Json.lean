import ResourceQuery.Node.Json
import ResourceQuery.Tree

/-! Trees as JSON: the name of the source and the statement. -/

namespace ResourceQuery.Tree

def toJson (tree : Tree) : Json :=
  .object [("name", .string tree.source.name), ("root", tree.root.toJson)]

/-- The tree's JSON in the given layout. -/
def renderJson (layout : Json.Layout) (tree : Tree) : String :=
  tree.toJson.render layout

end ResourceQuery.Tree
