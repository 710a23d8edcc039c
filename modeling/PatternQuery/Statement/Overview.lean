import PatternQuery.Statement.Compile

/-!
# All statements of a diagram

`Compiler.overview` writes the result statement of a diagram and the statements of each of its
nodes, candidate values apart.
-/

namespace PatternQuery

/-- The statements of a node. Nodes that are not counted have no count statement. -/
structure NodeStatements where
  node : Node
  count : Option Statement
  value : Statement
  relation : Statement

/-- The statements of a diagram. -/
structure Overview where
  result : Statement
  nodes : List NodeStatements

namespace Compiler

def nodeStatements (c : Compiler) (d : Diagram) (node : Node) :
    Except GraphError NodeStatements := do
  let count ← if node.isCountable then (c.countQuery d node.id).map some else pure none
  let value ← c.valueQuery d node.id
  let relation ← c.relationQuery d node.id
  return { node, count, value, relation }

def overview (c : Compiler) (d : Diagram) (graphMode : Bool) : Except GraphError Overview := do
  let nodes ← (d.nodes.filter fun n => n.kind != .value).mapM (c.nodeStatements d)
  let result ← c.resultQuery d graphMode
  return { result, nodes }

end Compiler

end PatternQuery
