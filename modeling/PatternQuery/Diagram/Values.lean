import PatternQuery.Diagram.Basic

/-!
# Candidate and selected values

A node whose candidates were fetched can show them as value nodes, a page at a time
(`Diagram.expandValues`, `Diagram.nextPage`). Selecting one of them turns it into a constraint of
the node (`Diagram.selectValue`).
-/

namespace PatternQuery.Diagram

/-- Stores candidates and goes back to the first page. -/
def setData (id : NodeId) (rows : List Row) (d : Diagram) : Except GraphError Unit × Diagram :=
  match d.node? id with
  | none => (.error (.nodeNotFound id), d)
  | some _ => (.ok (), d.modify id fun n => { n with data := some rows, page := 1 })

/-- Pins a parent or unpins it. The root stays as it is. -/
def setPinned (parent : Option NodeId) (fixed : Bool) (d : Diagram) : Diagram :=
  match parent with
  | none => d
  | some id => d.modify id fun n => if n.isRoot then n else { n with fixed }

/-- Removes the value nodes shown under a node and unpins it. -/
def collapseValues (id : NodeId) (d : Diagram) : Except GraphError Unit × Diagram :=
  match d.node? id with
  | none => (.error (.nodeNotFound id), d)
  | some node =>
    if node.expanded then
      let shown := (d.valueLinks id).map Link.target
      let d := { d with
        links := d.links.filter fun l => !l.isValueOf id
        nodes := d.nodes.filter fun n => !shown.contains n.id }
      let d := d.modify id fun n => { n with expanded := false, fixed := n.isRoot && n.fixed }
      (.ok (), d.setPinned node.parent false)
    else (.ok (), d)

/-- Adds a value node for a candidate. -/
def addValueNode (id : NodeId) (label : String) (d : Diagram) (row : Row) : Diagram :=
  let value : NodeId := ⟨d.nextNode⟩
  let node : Node :=
    { id := value, kind := .value, label, var := "", parent := some id,
      internalId := Row.internalId row, count := Row.count row, attributes := some row }
  let link : Link :=
    { id := ⟨d.nextLink⟩, kind := .value, source := id, target := value, label := "" }
  { d with
    nodes := d.nodes ++ [node], links := d.links ++ [link]
    nextNode := d.nextNode + 1, nextLink := d.nextLink + 1 }

/-- The candidates on the page that a node shows. -/
def pageRows (pageSize : Nat) (node : Node) (rows : List Row) : List Row :=
  (rows.drop ((max node.page 1 - 1) * pageSize)).take pageSize

/-- Shows the current page of candidates in place of what is shown. Does nothing on a node for
which none were fetched. Gives back how many there are. -/
def expandValues (id : NodeId) (d : Diagram) : Except GraphError Nat × Diagram :=
  match d.node? id with
  | none => (.error (.nodeNotFound id), d)
  | some node =>
    let d := (d.collapseValues id).2
    match node.data with
    | none => (.ok 0, d)
    | some rows =>
      let shown := pageRows d.pageSize node rows
      let d := shown.foldl (addValueNode id node.label) d
      let d := d.modify id fun n => { n with fixed := true, expanded := true }
      (.ok shown.length, d.setPinned node.parent true)

/-- Selects a value node on its parent and hides the candidates. Gives back the parent. -/
def selectValue (id : NodeId) (d : Diagram) : Except GraphError NodeId × Diagram :=
  match d.node? id with
  | none => (.error (.nodeNotFound id), d)
  | some node =>
    match node.kind, node.parent with
    | .value, some parent =>
      match d.node? parent with
      | none => (.error (.nodeNotFound parent), d)
      | some _ =>
        let value : SelectedValue :=
          { id := node.id, label := node.label, attributes := node.attributes.getD Table.empty,
            internalId := node.internalId, count := node.count }
        let d := d.modify parent fun n => { n with selected := n.selected ++ [value] }
        (.ok parent, (d.collapseValues parent).2)
    | _, _ => (.error (.notAValueNode id), d)

/-! ## Pages -/

/-- What was fetched last decides, not the count of the node. -/
def hasNextPage (d : Diagram) (id : NodeId) : Bool :=
  match d.node? id with
  | none => false
  | some node =>
    match node.data with
    | none => false
    | some rows => node.page * d.pageSize < rows.length

def hasPreviousPage (d : Diagram) (id : NodeId) : Bool :=
  match d.node? id with
  | none => false
  | some node => 1 < node.page

/-- Goes to another page and shows it. -/
def turnPage (id : NodeId) (turn : Nat → Nat) (d : Diagram) : Except GraphError Bool × Diagram :=
  match (d.modify id fun n => { n with page := turn n.page }).expandValues id with
  | (.ok _, d) => (.ok true, d)
  | (.error e, d) => (.error e, d)

/-- Shows the next page, if there is one. -/
def nextPage (id : NodeId) (d : Diagram) : Except GraphError Bool × Diagram :=
  if d.hasNextPage id then d.turnPage id (· + 1) else (.ok false, d)

/-- Shows the page before, if there is one. -/
def previousPage (id : NodeId) (d : Diagram) : Except GraphError Bool × Diagram :=
  if d.hasPreviousPage id then d.turnPage id (· - 1) else (.ok false, d)

end PatternQuery.Diagram
