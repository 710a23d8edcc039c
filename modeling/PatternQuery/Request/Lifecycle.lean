import PatternQuery.Diagram.Basic
import PatternQuery.Endpoint.Response

/-!
# The life of a request

At most one request per concern is live. Every request takes the next generation of one counter;
issuing another one for the same concern cancels it, and an answer is accepted only while its
generation is the one on record (`Lifecycle.accept`). Discoveries have a record for every node.

Fetching candidate values also takes a guard, of which there is one. It is let go when the fetch is
accepted, waited for to its end, or dropped; dropping the fetch cancels it.
-/

namespace PatternQuery

/-- What a request is for. -/
inductive Concern where
  /-- The counts of all nodes that are counted. -/
  | count
  /-- The candidate values of nodes that load them on their own. -/
  | autoLoad
  /-- The rows of the result. -/
  | results
  /-- The candidate values of a node that was chosen. -/
  | value
  /-- The relations that lead on from a node. -/
  | relations
  deriving DecidableEq, Repr

def Concern.word : Concern → String
  | count => "Count"
  | autoLoad => "AutoLoad"
  | results => "Results"
  | value => "Value"
  | relations => "Relations"

def Concern.ofWord? : String → Option Concern
  | "Count" => some count
  | "AutoLoad" => some autoLoad
  | "Results" => some results
  | "Value" => some value
  | "Relations" => some relations
  | _ => none

/-- What became of a request. -/
inductive Outcome where
  /-- The rows of each statement of the batch. -/
  | completed (rows : List (List Row))
  /-- The batch never got an answer. -/
  | failed (reason : String)
  /-- It was cancelled before there was an answer. -/
  | aborted
  deriving DecidableEq

/-- A request that was issued, with what it was issued for. -/
structure Fetch (κ : Type) where
  concern : Concern
  generation : Nat
  context : κ
  /-- It took the guard of candidate values. -/
  guarded : Bool := false
  deriving DecidableEq

/-- A request that has come to its end. -/
structure Fetched (κ : Type) where
  concern : Concern
  generation : Nat
  context : κ
  outcome : Outcome
  deriving DecidableEq

/-- A batch on its way, or what became of it. -/
structure Flight where
  generation : Nat
  batch : Batch
  outcome : Option Outcome := none
  deriving DecidableEq

/-- What becomes of a batch, nothing as long as the endpoint keeps it. -/
abbrev Endpoint : Type := Flight → Option Outcome

/-- The generation of the live request of every concern. -/
structure Slots where
  count : Option Nat := none
  autoLoad : Option Nat := none
  results : Option Nat := none
  value : Option Nat := none
  relations : Option Nat := none
  deriving DecidableEq

namespace Slots

def get (s : Slots) : Concern → Option Nat
  | .count => s.count
  | .autoLoad => s.autoLoad
  | .results => s.results
  | .value => s.value
  | .relations => s.relations

def set (s : Slots) (c : Concern) (generation : Option Nat) : Slots :=
  match c with
  | .count => { s with count := generation }
  | .autoLoad => { s with autoLoad := generation }
  | .results => { s with results := generation }
  | .value => { s with value := generation }
  | .relations => { s with relations := generation }

@[simp] theorem get_set (s : Slots) (c c' : Concern) (g : Option Nat) :
    (s.set c g).get c' = if c' = c then g else s.get c' := by
  cases c <;> cases c' <;> rfl

def toList (s : Slots) : List Nat :=
  [s.count, s.autoLoad, s.results, s.value, s.relations].filterMap id

end Slots

/-- All requests of a session. -/
structure Lifecycle where
  /-- The generation that was given out last. -/
  generation : Nat := 0
  slots : Slots := {}
  /-- The live discovery of every node that has one. -/
  discoveries : List (NodeId × Nat) := []
  flights : List Flight := []
  /-- The generation of the fetch that holds the guard. -/
  valueOwner : Option Nat := none
  deriving DecidableEq

namespace Lifecycle

variable {κ : Type}

def flight? (l : Lifecycle) (generation : Nat) : Option Flight :=
  l.flights.find? fun f => f.generation == generation

/-- Records what became of a batch, unless that is known already. -/
def settle (generation : Nat) (o : Outcome) (l : Lifecycle) : Lifecycle :=
  { l with flights := l.flights.map fun f =>
      if f.generation = generation ∧ f.outcome = none then { f with outcome := some o } else f }

/-- Cancels a request that has not been answered. -/
def cancel (generation : Nat) (l : Lifecycle) : Lifecycle := l.settle generation .aborted

/-- Cancels some requests. -/
def cancelEach (generations : List Nat) (l : Lifecycle) : Lifecycle :=
  generations.foldl (fun l g => l.cancel g) l

/-- Sends a batch under the next generation. -/
def send (batch : Batch) (l : Lifecycle) : Nat × Lifecycle :=
  let g := l.generation + 1
  (g, { l with generation := g, flights := l.flights ++ [{ generation := g, batch }] })

/-- Issues a request for a concern in place of the live one. -/
def issue (c : Concern) (batch : Batch) (context : κ) (l : Lifecycle) : Fetch κ × Lifecycle :=
  let l := l.cancelEach (l.slots.get c).toList
  let (g, l) := l.send batch
  ({ concern := c, generation := g, context }, { l with slots := l.slots.set c (some g) })

def isCurrent (l : Lifecycle) (c : Concern) (generation : Nat) : Bool :=
  l.slots.get c == some generation

/-- Lets go of the guard if the given fetch holds it. -/
def releaseGuard (generation : Nat) (l : Lifecycle) : Lifecycle :=
  if l.valueOwner = some generation then { l with valueOwner := none } else l

/-- Decides whether an answer may be merged, and clears the record if so. -/
def accept (r : Fetched κ) (l : Lifecycle) : Bool × Lifecycle :=
  if r.outcome = .aborted ∨ l.isCurrent r.concern r.generation = false then (false, l)
  else
    let l := { l with slots := l.slots.set r.concern none }
    (true, if r.concern = .value then l.releaseGuard r.generation else l)

/-! ## Candidate values -/

def isValueBusy (l : Lifecycle) : Bool := l.valueOwner.isSome

/-- Issues a fetch of candidate values under the guard, unless another one holds it. -/
def issueValue (batch : Batch) (context : κ) (l : Lifecycle) :
    Except GraphError (Fetch κ) × Lifecycle :=
  if l.isValueBusy then (.error .valueFetchInProgress, l)
  else
    let (f, l) := l.issue .value batch context
    (.ok { f with guarded := true }, { l with valueOwner := some f.generation })

/-! ## Discoveries -/

def discovery? (l : Lifecycle) (node : NodeId) : Option Nat :=
  (l.discoveries.find? fun e => e.1 == node).map (·.2)

/-- Removes the record of a node's discovery. -/
def forgetDiscovery (node : NodeId) (l : Lifecycle) : Lifecycle :=
  { l with discoveries := l.discoveries.filter fun e => e.1 != node }

/-- Issues a discovery in place of the live one of the same node. -/
def issueDiscovery (node : NodeId) (batch : Batch) (l : Lifecycle) : Fetch NodeId × Lifecycle :=
  let l := l.cancelEach (l.discovery? node).toList
  let (g, l) := (l.forgetDiscovery node).send batch
  ({ concern := .relations, generation := g, context := node },
    { l with discoveries := l.discoveries ++ [(node, g)] })

/-- Decides whether the answer to a discovery may be merged, and clears the record if so. -/
def acceptDiscovery (r : Fetched NodeId) (l : Lifecycle) : Bool × Lifecycle :=
  if r.outcome = .aborted ∨ l.discovery? r.context ≠ some r.generation then (false, l)
  else (true, l.forgetDiscovery r.context)

def pendingDiscoveries (l : Lifecycle) : Nat := l.discoveries.length

/-! ## The end of a request -/

/-- Cancels all requests and lets go of the guard. -/
def cancelAll (l : Lifecycle) : Lifecycle :=
  let l := (l.cancelEach l.slots.toList).cancelEach (l.discoveries.map (·.2))
  { l with slots := {}, discoveries := [], valueOwner := none }

/-- Lets an endpoint answer a request, unless it keeps it. -/
def consult (e : Endpoint) (generation : Nat) (l : Lifecycle) : Lifecycle :=
  match l.flight? generation with
  | some f =>
    match e f with
    | some o => l.settle generation o
    | none => l
  | none => l

/-- Waits for a request, which has to be answered. This lets go of the guard. -/
def wait (f : Fetch κ) (l : Lifecycle) : Option (Fetched κ) × Lifecycle :=
  match (l.flight? f.generation).bind Flight.outcome with
  | none => (none, l)
  | some outcome =>
    let { concern, generation, context, guarded } := f
    (some { concern, generation, context, outcome },
      if guarded then l.releaseGuard generation else l)

/-- Drops a request without waiting for it. One that holds the guard is cancelled. -/
def drop (f : Fetch κ) (l : Lifecycle) : Lifecycle :=
  if f.guarded then (l.cancel f.generation).releaseGuard f.generation else l

end Lifecycle

end PatternQuery
