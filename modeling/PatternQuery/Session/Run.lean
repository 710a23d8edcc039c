import PatternQuery.Session.Edit

/-!
# Calls that run to their end

Operations of a session that issue requests and merge the answers in one go. The endpoint that
answers is given as a function. Where it keeps a request, the operation is given up: what it did so
far stays, its requests stay on their way, and only a fetch that holds the guard is dropped.
-/

namespace PatternQuery

/-- Why an operation did not come to its end. -/
inductive Halt where
  | refused (e : GraphError)
  /-- A request was kept by the endpoint. -/
  | waiting
  /-- There was more to do than was allowed for. -/
  | unfinished
  deriving DecidableEq, Repr

/-- An operation of a session that waits for answers. -/
abbrev Run (α : Type) : Type := Session → Except Halt α × Session

namespace Run

variable {α β κ : Type}

def pure (a : α) : Run α := fun s => (.ok a, s)

def bind (c : Run α) (f : α → Run β) : Run β := fun s =>
  match c s with
  | (.ok a, s) => f a s
  | (.error e, s) => (.error e, s)

instance : Monad Run where
  pure := Run.pure
  bind := Run.bind

def halt (h : Halt) : Run α := fun s => (.error h, s)

/-- An operation that does not wait. -/
def ofCall (c : Call α) : Run α := fun s =>
  match c s with
  | (.ok a, s) => (.ok a, s)
  | (.error e, s) => (.error (.refused e), s)

/-- Waits for a request. If it is kept, it is dropped. -/
def await (e : Endpoint) (f : Fetch κ) : Run (Fetched κ) := fun s =>
  match (s.requests.consult e f.generation).wait f with
  | (some r, requests) => (.ok r, { s with requests })
  | (none, requests) => (.error .waiting, { s with requests := requests.drop f })

/-- Waits for a request if there is one. -/
def awaitIfAny (e : Endpoint) : Option (Fetch κ) → Run (Option (Fetched κ))
  | some f => do return some (← await e f)
  | none => return none

end Run

/-- What came of a click on a node. -/
inductive ChooseOutcome where
  /-- The candidates that were shown are hidden. -/
  | collapsed
  /-- So many candidates are shown. -/
  | expanded (shown : Nat)
  /-- The node offers no candidates. -/
  | ignored
  /-- Another fetch of candidates is pending. -/
  | rejected
  deriving DecidableEq, Repr

namespace Session

/-- Loads the relations of some nodes, then of the nodes that are expanded by that, the last one
first. At most `fuel` nodes are taken up. -/
def loadAll (e : Endpoint) : Nat → List NodeId → Run Unit
  | _, [] => return ()
  | 0, _ :: _ => Run.halt .unfinished
  | fuel + 1, id :: rest => do
    let children ← match ← Run.ofCall (beginDiscovery id) with
      | .loaded children => Run.pure children
      | .pending f => do
        let r ← Run.await e f
        Run.ofCall (applyDiscovery r)
    loadAll e fuel (children.reverse ++ rest)

/-- Waits for an update and merges it. -/
def finishUpdate (e : Endpoint) (u : Update) : Run Bool := do
  if u.isEmpty then return false
  else
    let counts ← Run.awaitIfAny e u.counts
    let autoLoad ← Run.awaitIfAny e u.autoLoad
    let results ← Run.awaitIfAny e u.results
    Run.ofCall (applyUpdate { counts, autoLoad, results })

/-- Asks for counts, candidates and results and merges them. -/
def update (e : Endpoint) : Run Unit := do
  let _ ← finishUpdate e (← Run.ofCall beginUpdate)

/-- Puts a new query in place of the one there is. -/
def replaceDiagram (f : Diagram → NodeId × Diagram) : Call NodeId := do
  let s ← Call.get
  if !s.diagram.isEmpty then reset
  let root ← Call.onDiagram fun d => let (root, d) := f d; (.ok root, d)
  Call.emit .graphChanged
  return root

/-- Starts a query with a root. -/
def start (e : Endpoint) (fuel : Nat) (label : String) (anchor : Option Position) :
    Run NodeId := do
  let s ← Run.ofCall Call.get
  let root ← Run.ofCall (replaceDiagram (Diagram.addRoot s.compiler.provider label anchor))
  loadAll e fuel [root]
  update e
  return root

/-- Starts a query with the tree of a schema. -/
def startSchema (e : Endpoint) (schema : Schema) (anchor : Option Position) : Run NodeId := do
  let s ← Run.ofCall Call.get
  let root ← Run.ofCall (replaceDiagram (Diagram.addSchema s.compiler.provider schema anchor))
  update e
  return root

/-- Adds a child along a segment, loads its relations and asks for everything again. -/
def expand (e : Endpoint) (fuel : Nat) (id : NodeId) (index : Nat) : Run NodeId := do
  let s ← Run.ofCall Call.get
  let child ← Run.ofCall do
    let child ← Call.onDiagram (Diagram.expandRelationship s.compiler.provider id index)
    Call.emit .graphChanged
    return child
  loadAll e fuel [child]
  update e
  return child

/-- Shows the candidates that a node has. -/
def showCandidates (id : NodeId) : Call ChooseOutcome := do
  let shown ← Call.onDiagram (Diagram.expandValues id)
  Call.emit .graphChanged
  return .expanded shown

/-- Hides the candidates of a node. -/
def hideCandidates (id : NodeId) : Call ChooseOutcome := do
  Call.onDiagram (Diagram.collapseValues id)
  Call.emit .graphChanged
  return .collapsed

/-- Shows the candidates of a node, fetching them if need be, or hides them. -/
def choose (e : Endpoint) (id : NodeId) : Run ChooseOutcome := do
  let node ← Run.ofCall (Call.requireNode id)
  let s ← Run.ofCall Call.get
  if node.expanded then Run.ofCall (hideCandidates id)
  else if node.immutable || !(node.kind == .root || node.kind == .choose) then return .ignored
  else if node.autoLoad && node.data.isSome then Run.ofCall (showCandidates id)
  else if s.requests.isValueBusy then return .rejected
  else
    let f ← Run.ofCall (beginValueFetch id)
    let r ← Run.await e f
    return .expanded (← Run.ofCall (applyValueFetch r))

/-- Carries out a change and the update that follows it. -/
def runChange {α : Type} (e : Endpoint) (change : Call (α × Update)) : Run α := do
  let (a, u) ← Run.ofCall change
  let _ ← finishUpdate e u
  return a

def selectValue (e : Endpoint) (id : NodeId) : Run NodeId := runChange e (beginSelectValue id)

def removeValue (e : Endpoint) (id value : NodeId) : Run Bool :=
  runChange e (beginRemoveValue id value)

def negate (e : Endpoint) (id : NodeId) : Run Bool := runChange e (beginNegate id)

def removeNode (e : Endpoint) (id : NodeId) : Run Bool := runChange e (beginRemoveNode id)

/-! ## Taxonomies -/

/-- The statements that count the nodes of some labels. -/
def taxonomyBatch (s : Session) (labels : List String) : Batch :=
  labels.map s.compiler.taxonomyQuery

/-- Each label with its count in the answer, as far as there are results. -/
def taxonomyCounts (labels : List String) (response : BatchResponse) : List (String × Nat) :=
  labels.zip ((response.rows labels.length).map fun rows => (rows.head?.map Row.count).getD 0)

end Session

end PatternQuery
