import PatternQuery.Session.Basic

/-!
# Counts, candidates and results

What is asked again after every change of the query: the counts of the nodes, the candidate values
of nodes that load them on their own, and the rows of the result. The three are issued together
(`Session.beginUpdate`), and a later update supersedes an earlier one.
-/

namespace PatternQuery

/-- The requests of an update, each if there is something to ask. -/
structure Update where
  counts : Option (Fetch (List NodeId)) := none
  autoLoad : Option (Fetch (List NodeId)) := none
  results : Option (Fetch Bool) := none
  deriving DecidableEq

def Update.isEmpty (u : Update) : Bool :=
  u.counts.isNone && u.autoLoad.isNone && u.results.isNone

/-- The answers to an update. -/
structure UpdateFetched where
  counts : Option (Fetched (List NodeId)) := none
  autoLoad : Option (Fetched (List NodeId)) := none
  results : Option (Fetched Bool) := none
  deriving DecidableEq

namespace Session

/-- Issues one statement for each of some nodes, if there are any. -/
def issueForNodes (c : Concern) (nodes : List NodeId)
    (statement : NodeId → Except GraphError Statement) : Call (Option (Fetch (List NodeId))) := do
  if nodes.isEmpty then return none
  else
    let statements ← Call.lift (nodes.mapM statement)
    return some (← Call.onRequests (Lifecycle.issue c statements nodes))

/-! ## Counts -/

/-- The nodes that are counted. -/
def countedNodes (d : Diagram) : List NodeId := (d.nodes.filter Node.isCountable).map Node.id

/-- Asks for the counts of all nodes that are counted. -/
def beginCounts : Call (Option (Fetch (List NodeId))) := do
  let s ← Call.get
  issueForNodes .count (countedNodes s.diagram) (s.compiler.countQuery s.diagram)

/-- The counts in an answer; none if it failed. -/
def answeredCounts : Outcome → List Nat
  | .completed results => results.map fun rows => (rows.head?.map Row.count).getD 0
  | _ => []

/-- Stores the count of each node, 0 where the answer has none. -/
def storeCounts (nodes : List NodeId) (counts : List Nat) (d : Diagram) : Diagram :=
  (nodes.zipIdx).foldl (fun d e => d.modify e.1 fun n => { n with count := counts[e.2]?.getD 0 }) d

/-- What holds on after one count is stored, holds on after all are. -/
theorem storeCounts_induction {P : Diagram → Prop}
    (hstep : ∀ d id count, P d → P (d.modify id fun n => { n with count })) {d : Diagram}
    (hd : P d) (nodes : List NodeId) (counts : List Nat) : P (storeCounts nodes counts d) := by
  unfold storeCounts
  exact List.foldlRecOn _ _ hd fun d hd e _ => hstep d e.1 _ hd

/-- Merges counts. Gives back whether they were accepted. -/
def applyCounts (r : Fetched (List NodeId)) : Call Bool := do
  if ← Call.onRequests (Lifecycle.accept r) then
    Call.modify fun s =>
      { s with diagram := storeCounts r.context (answeredCounts r.outcome) s.diagram }
    Call.emit .countsUpdated
    return true
  else return false

/-! ## Candidate values of nodes that load them on their own -/

/-- The nodes that load their candidates on their own. -/
def autoLoadNodes (d : Diagram) : List NodeId :=
  (d.nodes.filter fun n => n.isCountable && n.autoLoad).map Node.id

/-- Asks for the candidates of all nodes that load them on their own. -/
def beginAutoLoad : Call (Option (Fetch (List NodeId))) := do
  let s ← Call.get
  issueForNodes .autoLoad (autoLoadNodes s.diagram) (s.compiler.valueQuery s.diagram)

/-- The rows whose value is not selected on the node. -/
def unselectedRows (s : Session) (node : Node) (rows : List Row) : List Row :=
  let a := (s.properties node.label).constraintAttribute
  rows.filter fun row =>
    !node.selected.any fun v => (v.constraintValue a).equals (Row.constraintValue row a)

/-- Stores the candidates of a node, those that are selected apart. -/
def storeCandidates (id : NodeId) (rows : List Row) : Call Unit := do
  let node ← Call.requireNode id
  let s ← Call.get
  Call.onDiagram (Diagram.setData id (unselectedRows s node rows))

/-- Stores the candidates of a node that still exists, and shows them anew if it shows any. -/
def storeLoaded (id : NodeId) (rows : List Row) : Call Unit := do
  let s ← Call.get
  match s.diagram.node? id with
  | none => return ()
  | some node =>
    storeCandidates id rows
    if node.expanded then
      let _ ← Call.onDiagram (Diagram.expandValues id)
    Call.emit (.valuesLoaded id)

/-- Stores the candidates of several nodes in turn; a node without any rows gets none. -/
def storeAllLoaded : List NodeId → List (List Row) → Call Unit
  | [], _ => return ()
  | id :: nodes, results => do
    storeLoaded id (results.head?.getD [])
    storeAllLoaded nodes results.tail

/-- The rows in an answer, statement by statement; none if it failed. -/
def answeredRows : Outcome → List (List Row)
  | .completed results => results
  | _ => []

/-- Merges candidates. Gives back whether they were accepted. -/
def applyAutoLoad (r : Fetched (List NodeId)) : Call Bool := do
  if ← Call.onRequests (Lifecycle.accept r) then
    storeAllLoaded r.context (answeredRows r.outcome)
    return true
  else return false

/-! ## Results -/

/-- The statements for the rows of the result, in graph mode too while someone listens. -/
def resultStatements (s : Session) : Except GraphError Batch := do
  let flat ← s.compiler.resultQuery s.diagram false
  if s.listening then return [flat, ← s.compiler.resultQuery s.diagram true] else return [flat]

/-- Asks for the rows of the result. -/
def beginResults : Call (Option (Fetch Bool)) := do
  let s ← Call.get
  if s.diagram.isEmpty then return none
  else
    let statements ← Call.lift (resultStatements s)
    return some (← Call.onRequests (Lifecycle.issue .results statements s.listening))

/-- Stores rows in graph mode and sends them to the listener. -/
def storeGraphResults (rows : List Row) : Call Unit := do
  Call.modify fun s => { s with
    graphResults := rows
    graphFeed := if s.listening then s.graphFeed ++ [rows] else s.graphFeed }
  Call.emit (.graphResultsUpdated rows.length)

/-- Merges the rows of the result. Gives back whether they were accepted. -/
def applyResults (r : Fetched Bool) : Call Bool := do
  if ← Call.onRequests (Lifecycle.accept r) then
    let results := answeredRows r.outcome
    let flat := results.head?.getD []
    Call.modify fun s => { s with results := flat }
    Call.emit (.resultsUpdated flat.length)
    if r.context then storeGraphResults (results.tail.head?.getD [])
    return true
  else return false

/-! ## All together -/

/-- Asks for counts, candidates and results. -/
def beginUpdate : Call Update := do
  let counts ← beginCounts
  let autoLoad ← beginAutoLoad
  let results ← beginResults
  return { counts, autoLoad, results }

/-- Merges an answer if there is one. -/
def applyIfAny {α : Type} (f : α → Call Bool) : Option α → Call Bool
  | some a => f a
  | none => return false

/-- Merges what is still current. Gives back whether anything is. -/
def applyUpdate (r : UpdateFetched) : Call Bool := do
  let counts ← applyIfAny applyCounts r.counts
  let autoLoad ← applyIfAny applyAutoLoad r.autoLoad
  let results ← applyIfAny applyResults r.results
  return counts || autoLoad || results

end Session

end PatternQuery
