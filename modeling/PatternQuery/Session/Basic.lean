import PatternQuery.Diagram.Prune
import PatternQuery.Request.Lifecycle
import PatternQuery.Session.Event
import PatternQuery.Statement.Compile

/-!
# Sessions

A `Session` ties a diagram, the compiler of its statements and the requests for them together. Each
fetch has two halves: one compiles the statements and issues the request, the other merges its
answer, so that several requests may be under way at once. What a session publishes is collected in
`Session.events`.

A `Call` is an operation of a session that may be refused. What it did before it is refused stays.
-/

namespace PatternQuery

/-- A query that is worked on, with its requests and results. -/
structure Session where
  diagram : Diagram
  compiler : Compiler
  requests : Lifecycle := {}
  /-- The rows of the result that was merged last. -/
  results : List Row := []
  /-- The rows of the result in graph mode that was merged last. -/
  graphResults : List Row := []
  /-- Someone listens to the results in graph mode. -/
  listening : Bool := false
  events : List EventKind := []
  /-- The results in graph mode that the listener was sent. -/
  graphFeed : List (List Row) := []

/-- An operation of a session. -/
abbrev Call (α : Type) : Type := Session → Except GraphError α × Session

namespace Call

variable {α β : Type}

def pure (a : α) : Call α := fun s => (.ok a, s)

def bind (c : Call α) (f : α → Call β) : Call β := fun s =>
  match c s with
  | (.ok a, s) => f a s
  | (.error e, s) => (.error e, s)

instance : Monad Call where
  pure := Call.pure
  bind := Call.bind

def refuse (e : GraphError) : Call α := fun s => (.error e, s)

def get : Call Session := fun s => (.ok s, s)

def modify (f : Session → Session) : Call Unit := fun s => (.ok (), f s)

/-- What may fail without a change. -/
def lift (r : Except GraphError α) : Call α := fun s => (r, s)

/-- An operation on the diagram. -/
def onDiagram (f : Diagram → Except GraphError α × Diagram) : Call α := fun s =>
  let (r, diagram) := f s.diagram
  (r, { s with diagram })

/-- An operation on the requests. -/
def onRequests (f : Lifecycle → α × Lifecycle) : Call α := fun s =>
  let (a, requests) := f s.requests
  (.ok a, { s with requests })

/-- Publishes an event. -/
def emit (k : EventKind) : Call Unit := modify fun s => { s with events := s.events ++ [k] }

/-- A node that has to exist. -/
def requireNode (id : NodeId) : Call Node := fun s =>
  match s.diagram.node? id with
  | some node => (.ok node, s)
  | none => (.error (.nodeNotFound id), s)

end Call

namespace Session

/-- A session without nodes. -/
def new (provider : Provider) (settings : QuerySettings) : Session :=
  { diagram := Diagram.new settings.pageSize, compiler := { provider, settings } }

def isValueFetchInProgress (s : Session) : Bool := s.requests.isValueBusy

def properties (s : Session) (label : String) : LabelProperties := s.compiler.properties label

/-- Cancels all requests and removes all nodes and results. -/
def reset : Call Unit := do
  Call.modify fun s => { s with
    requests := s.requests.cancelAll
    diagram := s.diagram.clear
    results := []
    graphResults := [] }
  Call.emit .graphChanged

/-- Shows the next page of candidates. -/
def nextPage (id : NodeId) : Call Bool := do
  let moved ← Call.onDiagram (Diagram.nextPage id)
  if moved then Call.emit .graphChanged
  return moved

/-- Shows the page of candidates before. -/
def previousPage (id : NodeId) : Call Bool := do
  let moved ← Call.onDiagram (Diagram.previousPage id)
  if moved then Call.emit .graphChanged
  return moved

/-- Listens to results in graph mode from now on. -/
def listen (s : Session) : Session := { s with listening := true }

def unlisten (s : Session) : Session := { s with listening := false }

end Session

end PatternQuery
