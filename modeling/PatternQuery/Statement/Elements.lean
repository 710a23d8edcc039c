import PatternQuery.Catalogue.Provider
import PatternQuery.Statement.Relevance
import PatternQuery.Statement.Settings

/-!
# Clauses from relations

`generateElements` turns relations of a diagram into patterns, conditions and parameters: a pattern
for every relation, a condition for the values and the predefined constraints of every node it
binds, and a `NOT` clause for every negated node that need not be matched.
-/

namespace PatternQuery

/-- What relations contribute to a statement. -/
structure QueryElements where
  patterns : List String := []
  conditions : List String := []
  /-- The identifiers of the matched relations. -/
  relations : List String := []
  parameters : Parameters := Table.empty
  deriving DecidableEq

/-- What stands for the variable of a node in a predefined constraint. -/
def identifierPlaceholder : String := "$identifier"

namespace Node

/-- The variable of a node with its label. -/
def pattern (n : Node) : String := "(" ++ n.var ++ ":`" ++ n.label ++ "`)"

/-- The parameter that constrains a node. -/
def parameterName (n : Node) (a : Attribute) : String := n.var ++ "_" ++ a.parameterSuffix

/-- The parameters of a node that is negated take one value each. Their names are the parameter's
and numbers behind it, from 2 on. -/
def valueParameterName (base : String) (index : Nat) : String :=
  if index = 0 then base else base ++ toString (index + 1)

/-- The parameters for the values of a negated node. -/
def negatedParameters (n : Node) (a : Attribute) : Parameters :=
  Table.ofList <| n.selected.mapIdx fun i v =>
    (valueParameterName (n.parameterName a) i, v.constraintValue a)

/-- The condition that restricts a node to its values, and the parameters. A negated node has
parameters only. -/
def valueConstraints (n : Node) (a : Attribute) : Option String × Parameters :=
  if n.negative then (none, n.negatedParameters a)
  else
    let base := n.parameterName a
    match n.selected with
    | [] => (none, Table.empty)
    | [v] =>
      (some (a.expression n.var ++ " = $" ++ base), Table.empty.insert base (v.constraintValue a))
    | vs =>
      (some (a.expression n.var ++ " IN $" ++ base),
        Table.empty.insert base (.ofList (·.constraintValue a) vs))

/-- The predefined constraints of a node, about its variable. -/
def predefinedConstraints (n : Node) (p : Provider) : List String :=
  (p.properties n.label).predefinedConstraints.map (Text.replace identifierPlaceholder n.var)

end Node

/-- Clauses under construction, with the nodes whose constraints are in already. -/
structure ElementsDraft where
  elements : QueryElements := {}
  predefinedDone : List NodeId := []
  valuesDone : List NodeId := []

namespace ElementsDraft

/-- Adds the predefined constraints of a node, once. -/
def addPredefined (p : Provider) (n : Node) (b : ElementsDraft) : ElementsDraft :=
  if b.predefinedDone.contains n.id then b
  else { b with
    predefinedDone := n.id :: b.predefinedDone
    elements := { b.elements with
      conditions := b.elements.conditions ++ n.predefinedConstraints p } }

/-- Adds the constraint of a node to its values, once. The values of the target never constrain it
here, those of another node do if they are needed or can never change. -/
def addValueConstraints (p : Provider) (target : NodeId) (needed : Bool) (n : Node)
    (b : ElementsDraft) : ElementsDraft :=
  if n.id == target || !(needed || n.immutable) || b.valuesDone.contains n.id then b
  else
    let (predicate, parameters) := n.valueConstraints (p.properties n.label).constraintAttribute
    { b with
      valuesDone := n.id :: b.valuesDone
      elements := { b.elements with
        conditions := b.elements.conditions ++ predicate.toList
        parameters := b.elements.parameters.merge parameters } }

/-- Adds the pattern of a relation under a new identifier. -/
def addRelation (source : Node) (l : Link) (target : Node) (arrow : String) (b : ElementsDraft) :
    ElementsDraft :=
  let identifier := "r" ++ toString b.elements.relations.length
  { b with
    elements := { b.elements with
      patterns := b.elements.patterns ++
        [source.pattern ++ "-[" ++ identifier ++ ":`" ++ l.label ++ "`]" ++ arrow ++ target.pattern]
      relations := b.elements.relations ++ [identifier] } }

/-- The `NOT` clause for one value of a negated node. -/
def negatedValue (relation : String) (target : Node) (a : Attribute) (parameter : String) :
    String :=
  match a with
  | .internalId =>
    "NOT EXISTS \x7b MATCH " ++ relation ++ target.pattern ++ " WHERE " ++ a.expression target.var
      ++ " = $" ++ parameter ++ " \x7d"
  | .property name =>
    "NOT " ++ relation ++ "(:`" ++ target.label ++ "` \x7b" ++ name ++ ": $" ++ parameter ++ "\x7d)"

/-- Adds the `NOT` clauses of a relation to a negated node: one for each of its values, or one for
all its nodes. -/
def addNegation (p : Provider) (source : Node) (l : Link) (target : Node) (arrow : String)
    (b : ElementsDraft) : ElementsDraft :=
  let relation := "(" ++ source.var ++ ")-[:`" ++ l.label ++ "`]" ++ arrow
  if target.hasValue then
    let a := (p.properties target.label).constraintAttribute
    let clauses := target.selected.mapIdx fun i _ =>
      negatedValue relation target a (Node.valueParameterName (target.parameterName a) i)
    { b with
      elements := { b.elements with
        conditions := b.elements.conditions ++ clauses
        parameters := b.elements.parameters.merge (target.negatedParameters a) } }
  else
    { b with
      elements := { b.elements with
        conditions :=
          b.elements.conditions ++ ["NOT " ++ relation ++ "(:`" ++ target.label ++ "`)"] } }

/-- Adds what a relation contributes to a statement about `target`. -/
def addLink (d : Diagram) (p : Provider) (settings : QuerySettings) (target : NodeId)
    (needed : Bool) (b : ElementsDraft) (l : Link) : Except GraphError ElementsDraft :=
  match d.node? l.source, d.node? l.target with
  | none, _ => .error (.nodeNotFound l.source)
  | some _, none => .error (.nodeNotFound l.target)
  | some source, some node =>
    let arrow := if settings.useDirection && !node.isReversed then "->" else "-"
    let b := b.addPredefined p source
    let b :=
      if node.negative && d.negationApplies node.id target then b.addNegation p source l node arrow
      else (b.addRelation source l node arrow).addPredefined p node
    .ok (b.addValueConstraints p target needed node)

end ElementsDraft

/-- The clauses of relations in a statement about `target`. Where no relation binds the root, its
own pattern does. -/
def generateElements (d : Diagram) (p : Provider) (settings : QuerySettings) (target : NodeId)
    (links : List Link) (needed : Bool) : Except GraphError QueryElements :=
  match d.root? with
  | none => .error .emptyGraph
  | some root =>
    let start := (ElementsDraft.addPredefined p root {}).addValueConstraints p target needed root
    match links.foldlM (ElementsDraft.addLink d p settings target needed) start with
    | .error e => .error e
    | .ok b =>
      let elements := b.elements
      .ok (if elements.patterns.isEmpty then { elements with patterns := [root.pattern] }
        else elements)

end PatternQuery
