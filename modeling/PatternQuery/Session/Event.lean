import PatternQuery.Diagram.Node

/-!
# Events of a session

A session tells its listeners which part of it changed, so that they read it again.
-/

namespace PatternQuery

inductive EventKind where
  | graphChanged
  | relationsLoaded (node : NodeId)
  | countsUpdated
  | valuesLoaded (node : NodeId)
  | resultsUpdated (rows : Nat)
  | graphResultsUpdated (rows : Nat)
  deriving DecidableEq, Repr

namespace EventKind

/-- The kind with a given name or number, from the fields that go with it. -/
def read (fields : RecordFields) : String → Option EventKind
  | "graph_changed" => some graphChanged
  | "relations_loaded" => (fields.required "node" NodeId.decode).map relationsLoaded
  | "counts_updated" => some countsUpdated
  | "values_loaded" => (fields.required "node" NodeId.decode).map valuesLoaded
  | "results_updated" => (fields.required "rows" Decoder.nat).map resultsUpdated
  | "graph_results_updated" => (fields.required "rows" Decoder.nat).map graphResultsUpdated
  | _ => none

def decode : Decoder EventKind := Decoder.record fun fields => do
  let type ← fields.required "type" Decoder.text
  read fields type

/-- The fields of an event of this kind. -/
def entries : EventKind → List (String × Value)
  | graphChanged => [("type", .str "graph_changed")]
  | relationsLoaded node => [("type", .str "relations_loaded"), ("node", node.toValue)]
  | countsUpdated => [("type", .str "counts_updated")]
  | valuesLoaded node => [("type", .str "values_loaded"), ("node", node.toValue)]
  | resultsUpdated rows => [("type", .str "results_updated"), ("rows", .ofNat rows)]
  | graphResultsUpdated rows => [("type", .str "graph_results_updated"), ("rows", .ofNat rows)]

def toValue (k : EventKind) : Value := .record k.entries

/-- The names of the kinds, in the order of their numbers. -/
def names : List String :=
  ["graph_changed", "relations_loaded", "counts_updated", "values_loaded", "results_updated",
    "graph_results_updated"]

/-- The name of a kind, which may be given by its number. -/
def nameOrNumber : Decoder String := fun d =>
  match d.scalarValue? with
  | some (.str name) => some name
  | some (.int n) => if 0 ≤ n then names[n.toNat]? else none
  | _ => none

end EventKind

/-- An event with the time at which it happened. -/
structure Event where
  kind : EventKind
  timestamp : String
  deriving DecidableEq, Repr

namespace Event

/-- Within an event its kind may also be given by number. -/
def decode : Decoder Event := Decoder.record fun fields => do
  let type ← fields.required "type" EventKind.nameOrNumber
  let kind ← EventKind.read fields type
  let timestamp ← fields.required "timestamp" Decoder.text
  return { kind, timestamp }

def toValue (e : Event) : Value := .record (e.kind.entries ++ [("timestamp", .str e.timestamp)])

end Event

end PatternQuery
