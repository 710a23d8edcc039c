import PatternQuery.Endpoint.Exchange
import PatternQuery.Request.Ticket
import PatternQuery.Session.Run

/-!
# Rehearsals

A `Rehearsal` plays a session against a scripted endpoint. What the session issues is kept under a
name until it is merged or dropped, so that requests may be answered and merged in any order.
-/

namespace PatternQuery

/-- What is kept under a name. -/
inductive Kept where
  | counts (t : Ticket (List NodeId))
  | autoLoad (t : Ticket (List NodeId))
  | results (t : Ticket Bool)
  | value (t : Ticket NodeId)
  | discovery (t : Ticket NodeId)
  | update (u : Update)
  deriving DecidableEq

/-- Lets go of what is kept. -/
def Kept.drop (k : Kept) (l : Lifecycle) : Lifecycle :=
  match k with
  | counts t | autoLoad t => t.drop l
  | results t => t.drop l
  | value t | discovery t => t.drop l
  | update _ => l

/-- What came of merging. -/
inductive Merged where
  | flag (accepted : Bool)
  | shown (count : Nat)
  | children (ids : List NodeId)
  deriving DecidableEq

structure Rehearsal where
  session : Session
  exchange : Exchange
  shelf : Table Kept := Table.empty

namespace Rehearsal

variable {α κ : Type}

def new (provider : Provider) (settings : QuerySettings) (script : Script) : Rehearsal :=
  { session := Session.new provider settings, exchange := { script } }

/-- Clears what is told of a step only. -/
def beginStep (r : Rehearsal) : Rehearsal :=
  { r with
    session := { r.session with events := [], graphFeed := [] }
    exchange := r.exchange.clearLog }

/-- Hands the requests of a step over. -/
def endStep (r : Rehearsal) : Rehearsal :=
  let (exchange, requests) := r.exchange.handOver r.session.requests
  { r with exchange, session := { r.session with requests } }

/-- Carries out an operation of the session. -/
def call (c : Call α) (r : Rehearsal) : Except GraphError α × Rehearsal :=
  let (a, session) := c r.session
  (a, { r with session })

/-- Carries out an operation that waits for answers. -/
def run (c : Endpoint → Run α) (r : Rehearsal) : Except Halt α × Rehearsal :=
  let (a, session) := c r.exchange.endpoint r.session
  (a, { r with session })

/-- How many relations may lead on from a node, by the schemas and the rules. -/
def breadth (c : Catalogue) (s : Script) : Nat :=
  let schemas := (c.common :: c.labels.toList.map (·.2)).filterMap LabelSettings.schema
  (schemas.map fun s => s.relations.length).foldl max
    ((s.rules.map fun r => r.result.data.length).foldl max 0)

/-- How many labels relations may lead to, by the schemas and the rules. -/
def labelCount (c : Catalogue) (s : Script) : Nat :=
  let schemas := (c.common :: c.labels.toList.map (·.2)).filterMap LabelSettings.schema
  (schemas.map fun s => s.relations.length).foldl (· + ·)
    ((s.rules.map fun r => r.result.data.length).foldl (· + ·) 0)

/-- How many nodes can be taken up when relations are loaded. Nodes on one path that expand their
relations have different labels, so paths are no longer than there are labels. -/
def fuel (c : Catalogue) (s : Script) : Nat := Nat.pow (breadth c s + 1) (labelCount c s + 3)

/-- Keeps something under a name, in place of what is kept there. -/
def keep (name : String) (k : Kept) (r : Rehearsal) : Rehearsal :=
  let requests := match r.shelf.get? name with
    | some old => old.drop r.session.requests
    | none => r.session.requests
  { r with shelf := r.shelf.insert name k, session := { r.session with requests } }

/-- Drops what is kept under a name. Gives back whether there was something. -/
def dropKept (name : String) (r : Rehearsal) : Bool × Rehearsal :=
  match r.shelf.get? name with
  | none => (false, r)
  | some old =>
    (true, { r with
      shelf := r.shelf.erase name
      session := { r.session with requests := old.drop r.session.requests } })

/-! ## Waiting and merging -/

/-- The ticket of a fetch and, if it has ended, its answer. -/
def waitTicket (name : String) (keepAs : Ticket κ → Kept) (t : Ticket κ) (r : Rehearsal) :
    Option (Fetched κ) × Rehearsal :=
  let (t, requests) := t.wait r.session.requests
  (t.answer?,
    { r with shelf := r.shelf.insert name (keepAs t), session := { r.session with requests } })

/-- The answer to a part of an update: nothing if it has no such part. -/
def partAnswer (l : Lifecycle) : Option (Fetch κ) → Option (Option (Fetched κ))
  | none => some none
  | some f => (l.wait f).1.map some

/-- The answers to an update, once all its parts have one. -/
def updateAnswer (u : Update) (l : Lifecycle) : Option UpdateFetched := do
  let counts ← partAnswer l u.counts
  let autoLoad ← partAnswer l u.autoLoad
  let results ← partAnswer l u.results
  return { counts, autoLoad, results }

/-- Waits for a fetch and merges its answer; nothing is merged while it is held. -/
def applyTicket (name : String) (keepAs : Ticket κ → Kept) (t : Ticket κ)
    (merge : Fetched κ → Call α) (result : α → Merged) (r : Rehearsal) :
    Option (Except GraphError Merged) × Rehearsal :=
  match r.waitTicket name keepAs t with
  | (none, r) => (none, r)
  | (some answer, r) =>
    let (a, r) := r.call (merge answer)
    (some (a.map result), r)

/-- Waits for what is kept and merges it; nothing is merged while it is held. An update that has
been merged is kept no longer. -/
def apply (name : String) (k : Kept) (r : Rehearsal) :
    Option (Except GraphError Merged) × Rehearsal :=
  match k with
  | .counts t => r.applyTicket name .counts t Session.applyCounts .flag
  | .autoLoad t => r.applyTicket name .autoLoad t Session.applyAutoLoad .flag
  | .results t => r.applyTicket name .results t Session.applyResults .flag
  | .value t => r.applyTicket name .value t Session.applyValueFetch .shown
  | .discovery t => r.applyTicket name .discovery t Session.applyDiscovery .children
  | .update u =>
    match updateAnswer u r.session.requests with
    | none => (none, r)
    | some answer =>
      let (a, r) := { r with shelf := r.shelf.erase name }.call (Session.applyUpdate answer)
      (some (a.map .flag), r)

/-! ## The endpoint -/

/-- Releases requests that are held. -/
def release (number : Option Nat) (r : Rehearsal) : List Nat × Rehearsal :=
  let (numbers, exchange, requests) := r.exchange.release number r.session.requests
  (numbers, { r with exchange, session := { r.session with requests } })

/-- What came of counting labels. -/
inductive Taxonomy where
  | counts (counts : List (String × Nat))
  | failed (message : String)
  /-- The request was held, and given up. -/
  | abandoned
  deriving DecidableEq, Repr

/-- Counts the nodes of some labels, without any part of the session. -/
def taxonomy (labels : List String) (r : Rehearsal) : Taxonomy × Rehearsal :=
  let batch := r.session.taxonomyBatch labels
  let (_, exchange) := r.exchange.record batch
  let result :=
    if r.exchange.holding then .abandoned
    else match r.exchange.script.answer batch with
      | .ok response => .counts (Session.taxonomyCounts labels response)
      | .error message => .failed message
  (result, { r with exchange })

end Rehearsal

end PatternQuery
