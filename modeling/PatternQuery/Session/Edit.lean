import PatternQuery.Session.Discovery
import PatternQuery.Session.Update

/-!
# Changes of the query

Changing the diagram of a session: each change is made at once and followed by an update. Candidate
values of a node are fetched under a guard, one node at a time (`Session.beginValueFetch`).
-/

namespace PatternQuery.Session

/-! ## Candidate values -/

/-- Asks for the candidate values of a node, unless another such request is pending. -/
def beginValueFetch (id : NodeId) : Call (Fetch NodeId) := do
  let _ ← Call.requireNode id
  let s ← Call.get
  if s.requests.isValueBusy then Call.refuse .valueFetchInProgress
  else
    let statement ← Call.lift (s.compiler.valueQuery s.diagram id)
    fun s =>
      let (r, requests) := s.requests.issueValue [statement] id
      (r, { s with requests })

/-- Merges candidate values and shows the first page, those that are selected apart. Gives back how
many are shown. -/
def applyValueFetch (r : Fetched NodeId) : Call Nat := do
  let accepted ← Call.onRequests (Lifecycle.accept r)
  let s ← Call.get
  match accepted, s.diagram.node? r.context, r.outcome with
  | true, some _, .completed results =>
    storeCandidates r.context (results.head?.getD [])
    let shown ← Call.onDiagram (Diagram.expandValues r.context)
    Call.emit (.valuesLoaded r.context)
    return shown
  | _, _, _ => return 0

/-! ## Changes -/

/-- Tells that the diagram changed and asks for everything again. -/
def changed : Call Update := do
  Call.emit .graphChanged
  beginUpdate

/-- Adds a child, starts the discovery of its relations and asks for everything again. -/
def beginExpand (id : NodeId) (index : Nat) : Call (NodeId × Discovery × Update) := do
  let s ← Call.get
  let child ← Call.onDiagram (Diagram.expandRelationship s.compiler.provider id index)
  Call.emit .graphChanged
  let discovery ← beginDiscovery child
  return (child, discovery, ← beginUpdate)

/-- Selects a candidate value. Gives back the node it constrains. -/
def beginSelectValue (id : NodeId) : Call (NodeId × Update) := do
  let parent ← Call.onDiagram (Diagram.selectValue id)
  return (parent, ← changed)

/-- Unselects a value. Nothing is asked if it was not selected. -/
def beginRemoveValue (id value : NodeId) : Call (Bool × Update) := do
  if ← Call.onDiagram (Diagram.removeValue id value) then return (true, ← changed)
  else return (false, {})

/-- Negates a node or takes its negation back. Nothing is asked if that changes nothing. -/
def beginNegate (id : NodeId) : Call (Bool × Update) := do
  if ← Call.onDiagram (Diagram.negate id) then return (true, ← changed)
  else return (false, {})

/-- Removes a node with everything below it. With the root the session is reset, and nothing is
asked. -/
def beginRemoveNode (id : NodeId) : Call (Bool × Update) := do
  let held ← Call.onDiagram (Diagram.removeNode id)
  let s ← Call.get
  if s.diagram.isEmpty then
    reset
    return (held, {})
  else return (held, ← changed)

end PatternQuery.Session
