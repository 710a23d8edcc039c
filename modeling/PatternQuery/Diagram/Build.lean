import PatternQuery.Catalogue.Provider
import PatternQuery.Diagram.Basic

/-!
# Building a diagram

Making nodes: the root (`Diagram.addRoot`), a child along one of a node's relations
(`Diagram.expandRelationship`), or a whole tree from a schema (`Diagram.addSchema`).
-/

namespace PatternQuery.Diagram

/-- Without nodes and links. Their numbers go on, so an answer that comes late finds no other node
under its number. -/
def clear (d : Diagram) : Diagram := { d with nodes := [], links := [], names := {} }

/-- Adds a node to which the label's properties apply, changed by `f`. -/
def addNode (p : Provider) (kind : NodeKind) (label : String) (f : Node → Node) (d : Diagram) :
    NodeId × Diagram :=
  let id : NodeId := ⟨d.nextNode⟩
  let (var, names) := d.names.generate label
  let properties := p.properties label
  let node : Node :=
    { id, kind, label, var, autoLoad := properties.autoLoad, immutable := properties.immutable }
  (id, { d with nodes := d.nodes ++ [f node], names, nextNode := d.nextNode + 1 })

/-- Starts with a root, in place of whatever there is. -/
def addRoot (p : Provider) (label : String) (anchor : Option Position) (d : Diagram) :
    NodeId × Diagram :=
  let d := if d.isEmpty then d else d.clear
  d.addNode p .root label fun n => { n with fixed := true, position := anchor }

def addLink (kind : LinkKind) (source target : NodeId) (label : String) (d : Diagram) : Diagram :=
  { d with
    links := d.links ++ [{ id := ⟨d.nextLink⟩, kind, source, target, label }]
    nextLink := d.nextLink + 1 }

/-- Adds a child of `parent` at the other end of a segment. -/
def attachChild (p : Provider) (parent : NodeId) (s : Segment) (kind : NodeKind) (d : Diagram) :
    NodeId × Diagram :=
  let (id, d) := d.addNode p kind s.target fun n =>
    { n with parent := some parent, parentRelation := some s.label, isReversed := s.isReverse }
  (id, d.addLink .relation parent id s.label)

/-- Adds a child along the segment at `index`. -/
def expandRelationship (p : Provider) (id : NodeId) (index : Nat) (d : Diagram) :
    Except GraphError NodeId × Diagram :=
  match d.node? id with
  | none => (.error (.nodeNotFound id), d)
  | some node =>
    match node.relationships[index]? with
    | none => (.error (.segmentNotFound id index), d)
    | some s =>
      let (child, d) := d.attachChild p id s .choose
      (.ok child, d)

/-- Replaces the segments of a node. -/
def setRelationships (id : NodeId) (segments : List Segment) (d : Diagram) :
    Except GraphError Unit × Diagram :=
  match d.node? id with
  | none => (.error (.nodeNotFound id), d)
  | some _ =>
    (.ok (), d.modify id fun n =>
      { n with relationships := Segment.layout segments, relationshipsLoaded := true })

/-! ## Schemas -/

/-- Selects rows on a node, each under an id of its own. -/
def selectRows (id : NodeId) (label : String) (rows : List Row) (d : Diagram) : Diagram :=
  let selected := rows.mapIdx fun i row => SelectedValue.ofRow ⟨d.nextNode + i⟩ label row
  { d with nextNode := d.nextNode + rows.length }.modify id fun n => { n with selected }

/-- The kind of the node for a schema at the end of a relation. -/
def childKind (s : Schema) : NodeKind := if s.isGroup then .group else .choose

mutual

/-- Fills a node in from its schema and adds the nodes that the relations lead to. -/
def applySchema (p : Provider) (id : NodeId) : Schema → Diagram → Diagram
  | .node label rows relations _, d =>
    let d := d.selectRows id label rows
    let segments := Segment.layout (relations.map Schema.segmentOf)
    let d := d.modify id fun n =>
      { n with relationships := segments, relationshipsLoaded := true }
    applyRelations p id relations d

def applyRelations (p : Provider) (id : NodeId) :
    List (SchemaRelation Schema) → Diagram → Diagram
  | [], d => d
  | ⟨label, target, isReverse⟩ :: rest, d =>
    let (child, d) :=
      d.attachChild p id (Schema.segmentOf ⟨label, target, isReverse⟩) (childKind target)
    applyRelations p id rest (applySchema p child target d)

end

/-- Starts with the tree of a schema, in place of whatever there is. -/
def addSchema (p : Provider) (s : Schema) (anchor : Option Position) (d : Diagram) :
    NodeId × Diagram :=
  let (root, d) := d.addRoot p s.label anchor
  (root, d.applySchema p root s)

end PatternQuery.Diagram
