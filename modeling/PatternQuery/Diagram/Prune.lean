import PatternQuery.Diagram.Build
import PatternQuery.Diagram.Values

/-!
# Removal and negation

Nodes go together with everything below them (`Diagram.removeNode`). A node that is negated without
any selected value says that nothing of its kind exists, so nothing below it can constrain the
query any more (`Diagram.negate`, `Diagram.removeValue`).
-/

namespace PatternQuery.Diagram

/-- Whether a node constrains the query. -/
def constrains (n : Node) : Bool := n.hasValue || n.negative

/-- Removes a node with everything below it. Gives back whether any of it constrained the query. -/
def removeSubtree (id : NodeId) (d : Diagram) : Bool × Diagram :=
  let doomed := d.isReachableFrom id
  let held := d.nodes.any fun n => doomed n.id && constrains n
  (held, { d with
    links := d.links.filter fun l => !doomed l.source && !doomed l.target
    nodes := d.nodes.filter fun n => !doomed n.id })

/-- Removes what a negation without values cannot constrain, and sets the count to zero. -/
def pruneNegated (id : NodeId) (d : Diagram) : Diagram :=
  let d := (d.children id).foldl (fun d child => (d.removeSubtree child).2) d
  let d := (d.collapseValues id).2
  d.modify id fun n => { n with count := 0 }

/-- Unselects a value. Gives back whether it was selected. -/
def removeValue (id value : NodeId) (d : Diagram) : Except GraphError Bool × Diagram :=
  match d.node? id with
  | none => (.error (.nodeNotFound id), d)
  | some node =>
    let rest := node.selected.filter fun v => v.id != value
    if rest.length = node.selected.length then (.ok false, d)
    else
      let d := d.modify id fun n => { n with selected := rest }
      (.ok true, if node.negative && rest.isEmpty then d.pruneNegated id else d)

/-- Negates a node that is still to be chosen, or takes its negation back. Gives back whether the
query changed. -/
def negate (id : NodeId) (d : Diagram) : Except GraphError Bool × Diagram :=
  match d.node? id with
  | none => (.error (.nodeNotFound id), d)
  | some node =>
    if node.kind != .choose then (.ok false, d)
    else if node.negative then (.ok true, d.modify id fun n => { n with negative := false })
    else
      let d := if node.hasValue then d else d.pruneNegated id
      (.ok true, d.modify id fun n => { n with negative := true })

/-- Removes a node with everything below it, with the root everything. Gives back whether any of it
constrained the query. -/
def removeNode (id : NodeId) (d : Diagram) : Except GraphError Bool × Diagram :=
  match d.node? id with
  | none => (.error (.nodeNotFound id), d)
  | some node =>
    if node.isRoot then (.ok (d.nodes.any constrains), d.clear)
    else
      let (held, d) := d.removeSubtree id
      (.ok held, d)

end PatternQuery.Diagram
