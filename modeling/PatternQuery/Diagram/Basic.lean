import PatternQuery.Diagram.Node
import PatternQuery.Variables

/-!
# Query diagrams

A `Diagram` is a query under construction: its nodes and links in the order in which they were
made, and what the next ones are to be called. Its relation links form a tree whose root is the
first node.

Operations that can fail give back an error and the diagram as they left it.
-/

namespace PatternQuery

/-- Why an operation on a diagram or a session is refused. -/
inductive GraphError where
  | nodeNotFound (id : NodeId)
  | notAValueNode (id : NodeId)
  | segmentNotFound (id : NodeId) (index : Nat)
  | emptyGraph
  | valueFetchInProgress
  deriving DecidableEq, Repr

def GraphError.message : GraphError → String
  | nodeNotFound id => "node " ++ toString id ++ " not found"
  | notAValueNode id => "node " ++ toString id ++ " is not a value node"
  | segmentNotFound id index =>
    "node " ++ toString id ++ " has no relationship segment at index " ++ toString index
  | emptyGraph => "the query graph is empty"
  | valueFetchInProgress => "a value fetch is already in progress"

/-- A query under construction. -/
structure Diagram where
  nodes : List Node := []
  links : List Link := []
  names : VariableNames := {}
  /-- The number of the next node. Numbers are never used again. -/
  nextNode : Nat := 0
  nextLink : Nat := 0
  /-- How many candidate values are shown at once. -/
  pageSize : Nat
  pageSize_pos : 0 < pageSize := by omega
  deriving DecidableEq

namespace Diagram

/-- A diagram without nodes. -/
def new (pageSize : Nat) : Diagram := { pageSize := max pageSize 1 }

instance : Inhabited Diagram := ⟨new 1⟩

def isEmpty (d : Diagram) : Bool := d.nodes.isEmpty

def node? (d : Diagram) (id : NodeId) : Option Node := d.nodes.find? fun n => n.id == id

/-- Changes the node `id`, if there is one. -/
def modify (d : Diagram) (id : NodeId) (f : Node → Node) : Diagram :=
  { d with nodes := d.nodes.map fun n => if n.id = id then f n else n }

def root? (d : Diagram) : Option Node := d.nodes.head?.filter Node.isRoot

def relationLinks (d : Diagram) : List Link := d.links.filter fun l => l.kind == .relation

/-- The relation that leads to a node. -/
def incomingRelation? (d : Diagram) (id : NodeId) : Option Link :=
  d.relationLinks.find? fun l => l.target == id

/-- The nodes that relations lead to from a node, in the order of the links. -/
def children (d : Diagram) (id : NodeId) : List NodeId :=
  (d.relationLinks.filter fun l => l.source == id).map Link.target

/-- The links from a node to its candidate values. -/
def valueLinks (d : Diagram) (id : NodeId) : List Link :=
  d.links.filter fun l => l.isValueOf id

/-- The candidate values shown under a node. -/
def valueNodes (d : Diagram) (id : NodeId) : List Node :=
  (d.valueLinks id).filterMap fun l => d.node? l.target

/-! ## Walks towards the root

Whatever leads to a node was made before it, so the numbers decrease along every walk. -/

/-- The parents of a node up to the root, the nearest one first. -/
def ancestors (d : Diagram) (id : NodeId) : List NodeId :=
  match (d.node? id).bind Node.parent with
  | none => []
  | some p => if p.number < id.number then p :: d.ancestors p else []
termination_by id.number

def isAncestorOrSelf (d : Diagram) (ancestor id : NodeId) : Bool :=
  ancestor == id || (d.ancestors id).contains ancestor

/-- The relations that lead to a node from the root, the last one first. -/
def incomingPath (d : Diagram) (id : NodeId) : List Link :=
  match d.incomingRelation? id with
  | none => []
  | some l => if l.source.number < id.number then l :: d.incomingPath l.source else []
termination_by id.number

/-- Whether links of any kind lead from `top` to a node, or it is `top` itself. -/
def isReachableFrom (d : Diagram) (top id : NodeId) : Bool :=
  id == top || match d.links.find? fun l => l.target == id with
    | none => false
    | some l => if l.source.number < id.number then d.isReachableFrom top l.source else false
termination_by id.number

end Diagram

end PatternQuery
