import PatternQuery.Statement.Elements

/-!
# The statements of a diagram

A `Compiler` writes statements about a diagram: its result rows, the count and the candidate values
of a node, and the relations that lead on from a node. Every statement is amended by the provider
before it is written. Statements about all nodes of a label need no diagram.
-/

namespace PatternQuery

/-- What statements depend on besides the diagram. -/
structure Compiler where
  provider : Provider
  settings : QuerySettings

namespace Compiler

/-- The variable of discovered relations. -/
def relationVariable : String := "r"

/-- The variable of the nodes that discovered relations lead to. -/
def relationTargetVariable : String := "x"

/-- The variable of the nodes that a taxonomy counts. -/
def taxonomyVariable : String := "n"

/-- The column that holds the relations collected with a value. -/
def incomingRelationsColumn : String := "incomingRels"

def direction (ascending : Bool) : String := if ascending then "ASC" else "DESC"

def limit (n : Nat) : String := "LIMIT " ++ toString n

/-- The clauses of the relevant relations. -/
def elements (c : Compiler) (d : Diagram) (target : NodeId) : Except GraphError QueryElements :=
  generateElements d c.provider c.settings target (d.relevantLinks target) true

def properties (c : Compiler) (label : String) : LabelProperties := c.provider.properties label

/-- The parts of a statement that has some clauses. -/
def partsOf (e : QueryElements) : StatementParts :=
  { patterns := e.patterns, conditions := e.conditions, parameters := e.parameters }

/-- Adds the constraint of the node itself to its values. -/
def constrain (c : Compiler) (node : Node) (parts : StatementParts) : StatementParts :=
  let (predicate, parameters) :=
    node.valueConstraints (c.properties node.label).constraintAttribute
  { parts with
    conditions := parts.conditions ++ predicate.toList
    parameters := parts.parameters.merge parameters }

/-- Amends the parts of a statement about a node and writes them. -/
def finish (c : Compiler) (kind : StatementKind) (node : Node) (parts : StatementParts) :
    Statement :=
  (c.provider.amend kind node parts).compile c.settings.preamble

/-! ## Results -/

/-- The order of the result rows. The last direction goes for all further attributes. -/
def resultOrder (c : Compiler) (root : Node) (graphMode : Bool) : List String :=
  let properties := c.properties root.label
  let ascending := properties.resultOrderAscending
  let term (i : Nat) (column : String) : String :=
    let up := (ascending[i]?.or ascending.getLast?).getD true
    (if graphMode then root.var ++ "." ++ column else column) ++ " " ++ direction up
  if properties.resultOrderBy.isEmpty then []
  else ["ORDER BY " ++ ", ".intercalate (properties.resultOrderBy.mapIdx term)]

/-- The rows of the root: its attributes or, in graph mode, the root and every matched relation. -/
def resultQuery (c : Compiler) (d : Diagram) (graphMode : Bool) : Except GraphError Statement :=
  match d.root? with
  | none => .error .emptyGraph
  | some root =>
    match c.elements d root.id with
    | .error e => .error e
    | .ok elements =>
      let parts := c.constrain root (partsOf elements)
      let returns :=
        if graphMode then root.var :: elements.relations
        else (c.properties root.label).returnAttributes.map (·.returnElement root.var)
      let trailing := c.resultOrder root graphMode ++ [limit c.settings.maxResults]
      .ok (c.finish .result root { parts with distinct := true, returns, trailing })

/-! ## Nodes -/

/-- How many nodes match a node under all constraints of the diagram. -/
def countQuery (c : Compiler) (d : Diagram) (id : NodeId) : Except GraphError Statement :=
  match d.node? id with
  | none => .error (.nodeNotFound id)
  | some node =>
    match c.elements d id with
    | .error e => .error e
    | .ok elements =>
      let a := (c.properties node.label).constraintAttribute
      let returns := ["count(DISTINCT " ++ a.expression node.var ++ ") AS " ++ countColumn]
      .ok (c.finish .nodeCount node { c.constrain node (partsOf elements) with returns })

/-- The attributes that a candidate value is returned with, the constraint attribute among them. -/
def candidateAttributes (p : LabelProperties) : List Attribute :=
  if p.returnAttributes.contains p.constraintAttribute then p.returnAttributes
  else p.returnAttributes ++ [p.constraintAttribute]

/-- The element that collects the matched relations with a value. -/
def collectedRelations : List String → List String
  | [] => []
  | [r] => ["COLLECT(" ++ r ++ ") AS " ++ incomingRelationsColumn]
  | rs => ["COLLECT([" ++ ", ".intercalate rs ++ "]) AS " ++ incomingRelationsColumn]

/-- The candidate values of a node, each with the number of roots that match. The values selected on
the node itself do not constrain it. -/
def valueQuery (c : Compiler) (d : Diagram) (id : NodeId) : Except GraphError Statement :=
  match d.node? id with
  | none => .error (.nodeNotFound id)
  | some node =>
    match d.root? with
    | none => .error .emptyGraph
    | some root =>
      match c.elements d id with
      | .error e => .error e
      | .ok elements =>
        let properties := c.properties node.label
        let returns :=
          (candidateAttributes properties).map (·.returnElement node.var)
            ++ ["count(" ++ root.var ++ ") AS " ++ countColumn]
            ++ (if c.settings.collectRelations then collectedRelations elements.relations else [])
        let order := properties.valueOrderBy.toList.map fun column =>
          "ORDER BY " ++ column ++ " " ++ direction properties.valueOrderAscending
        let trailing := order ++ [limit c.settings.valueLimit]
        .ok (c.finish .nodeValue node { partsOf elements with returns, trailing })

/-- The types and target labels of the relations that lead on from a node. Only the path from the
root is matched, since other constraints would hide relations. -/
def relationQuery (c : Compiler) (d : Diagram) (id : NodeId) : Except GraphError Statement :=
  match d.node? id with
  | none => .error (.nodeNotFound id)
  | some node =>
    let links := d.linksToRoot id
    match generateElements d c.provider c.settings id links false with
    | .error e => .error e
    | .ok elements =>
      let discovered := "-[" ++ relationVariable ++ "]->(" ++ relationTargetVariable ++ ")"
      let patterns :=
        if links.isEmpty then [node.pattern ++ discovered]
        else elements.patterns ++ ["(" ++ node.var ++ ")" ++ discovered]
      let returns := [
        "type(" ++ relationVariable ++ ") AS label",
        c.settings.targetLabel.function ++ "(labels(" ++ relationTargetVariable ++ ")) AS target",
        "count(" ++ relationVariable ++ ") AS " ++ countColumn]
      let trailing := ["ORDER BY count(" ++ relationVariable ++ ") DESC"]
      .ok (c.finish .nodeRelation node { partsOf elements with patterns, returns, trailing })

/-! ## Taxonomies -/

/-- How many nodes have a label and meet its predefined constraints. -/
def taxonomyQuery (c : Compiler) (label : String) : Statement :=
  let properties := c.properties label
  let parts : StatementParts := {
    patterns := ["(" ++ taxonomyVariable ++ ":`" ++ label ++ "`)"]
    conditions :=
      properties.predefinedConstraints.map (Text.replace identifierPlaceholder taxonomyVariable)
    returns := ["count(DISTINCT " ++ properties.constraintAttribute.expression taxonomyVariable
      ++ ") AS " ++ countColumn] }
  parts.compile c.settings.preamble

end Compiler

end PatternQuery
