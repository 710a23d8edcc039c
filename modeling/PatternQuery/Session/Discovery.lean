import PatternQuery.Session.Basic

/-!
# Relations of a node

Loading the relations that lead on from a node: at once from a schema of its label, or by a request
(`Session.beginDiscovery`, `Session.applyDiscovery`). Nodes of some labels then expand all their
relations on their own.
-/

namespace PatternQuery

/-- What came of the start of a discovery. -/
inductive Discovery where
  /-- The relations came from a schema; these children were expanded on their own. -/
  | loaded (children : List NodeId)
  | pending (fetch : Fetch NodeId)
  deriving DecidableEq

/-- The segment that a row of a discovery describes. -/
def Segment.ofRow? (row : Row) : Option Segment := do
  let label ← (← row.get? "label").toText?
  let target ← (← row.get? "target").toText?
  return { label, target, count := Row.count row }

namespace Session

/-- Whether a label occurs on the way from a node to the root, the node itself apart. -/
def hasAncestorLabeled (d : Diagram) (id : NodeId) (label : String) : Bool :=
  (d.ancestors id).any fun a =>
    match d.node? a with
    | some node => node.label == label
    | none => false

/-- Expands the segments of a node from `index` on, `count` of them. -/
def expandSegments (id : NodeId) : Nat → Nat → Call (List NodeId)
  | _, 0 => return []
  | index, count + 1 => do
    let s ← Call.get
    let child ← Call.onDiagram (Diagram.expandRelationship s.compiler.provider id index)
    return child :: (← expandSegments id (index + 1) count)

/-- Expands every segment of a node whose label asks for it. Where the label occurs above the node
already this would never end, so nothing is expanded there. -/
def autoExpand (id : NodeId) : Call (List NodeId) := do
  let node ← Call.requireNode id
  let s ← Call.get
  if !(s.properties node.label).autoExpand || hasAncestorLabeled s.diagram id node.label then
    return []
  else
    let children ← expandSegments id 0 node.relationships.length
    if !children.isEmpty then Call.emit .graphChanged
    return children

/-- Stores the segments of a node and tells so. -/
def storeRelations (id : NodeId) (segments : List Segment) : Call (List NodeId) := do
  Call.onDiagram (Diagram.setRelationships id segments)
  Call.emit (.relationsLoaded id)
  autoExpand id

/-- Loads the segments of a node from the schema of its label, or issues a discovery. -/
def beginDiscovery (id : NodeId) : Call Discovery := do
  let node ← Call.requireNode id
  let s ← Call.get
  match (s.properties node.label).schema with
  | some schema => return .loaded (← storeRelations id schema.segments)
  | none =>
    let statement ← Call.lift (s.compiler.relationQuery s.diagram id)
    return .pending (← Call.onRequests (Lifecycle.issueDiscovery id [statement]))

/-- The segments that the answer to a discovery describes; none if it failed. -/
def discoveredSegments : Outcome → List Segment
  | .completed (rows :: _) => rows.filterMap Segment.ofRow?
  | _ => []

/-- Merges the answer to a discovery. Gives back the children that were expanded. -/
def applyDiscovery (r : Fetched NodeId) : Call (List NodeId) := do
  let accepted ← Call.onRequests (Lifecycle.acceptDiscovery r)
  let s ← Call.get
  if accepted && (s.diagram.node? r.context).isSome then
    storeRelations r.context (discoveredSegments r.outcome)
  else return []

end Session

end PatternQuery
