import PatternQuery.Catalogue.Settings
import PatternQuery.Diagram.Node

/-!
# Properties of a label

`Catalogue.resolve` gives the properties of a label: for each the first value defined along the
label, its parent, the parent's parent and so on, then in the common record, then built in.
-/

namespace PatternQuery

/-- The properties of a label. -/
structure LabelProperties where
  constraintAttribute : Attribute := .internalId
  returnAttributes : List Attribute := [.internalId]
  predefinedConstraints : List String := []
  valueOrderBy : Option String := some countColumn
  valueOrderAscending : Bool := false
  resultOrderBy : List String := []
  resultOrderAscending : List Bool := [true]
  autoLoad : Bool := false
  autoExpand : Bool := false
  immutable : Bool := false
  schema : Option Schema := none

namespace LabelProperties

def toValue (p : LabelProperties) : Value := .record [
  ("constraint_attribute", p.constraintAttribute.toValue),
  ("return_attributes", .ofList Attribute.toValue p.returnAttributes),
  ("predefined_constraints", .ofList .str p.predefinedConstraints),
  ("value_order_by_attribute", .ofOption .str p.valueOrderBy),
  ("value_order_ascending", .bool p.valueOrderAscending),
  ("result_order_by_attributes", .ofList .str p.resultOrderBy),
  ("result_order_ascending", .ofList .bool p.resultOrderAscending),
  ("auto_load_value", .bool p.autoLoad), ("auto_expand_relations", .bool p.autoExpand),
  ("immutable", .bool p.immutable), ("schema", .ofOption Schema.toValue p.schema)]

end LabelProperties

namespace Catalogue

/-- The parent that is configured for a label. -/
def parent? (c : Catalogue) (label : String) : Option String :=
  (c.labels.get? label).bind LabelSettings.parent

/-- The label, its parent, the parent's parent and so on, each once. Of `fuel` configured labels at
most `fuel` have a parent. -/
def lineageFrom (c : Catalogue) : Nat → List String → String → List String
  | 0, _, label => [label]
  | fuel + 1, seen, label =>
    match c.parent? label with
    | some parent =>
      if (label :: seen).contains parent then [label]
      else label :: c.lineageFrom fuel (label :: seen) parent
    | none => [label]

def lineage (c : Catalogue) (label : String) : List String :=
  c.lineageFrom c.labels.toList.length [] label

/-- The records to consult for a label, the most specific one first. -/
def chain (c : Catalogue) (label : String) : List LabelSettings :=
  (c.lineage label).filterMap c.labels.get? ++ [c.common]

/-- The properties of a label. -/
def resolve (c : Catalogue) (label : String) : LabelProperties :=
  let chain := c.chain label
  let builtIn : LabelProperties := {}
  { constraintAttribute :=
      (chain.findSome? LabelSettings.constraintAttribute).getD builtIn.constraintAttribute
    returnAttributes :=
      (chain.findSome? LabelSettings.returnAttributes).getD builtIn.returnAttributes
    predefinedConstraints :=
      (chain.findSome? LabelSettings.predefinedConstraints).getD builtIn.predefinedConstraints
    valueOrderBy := (chain.findSome? LabelSettings.valueOrderBy).or builtIn.valueOrderBy
    valueOrderAscending :=
      (chain.findSome? LabelSettings.valueOrderAscending).getD builtIn.valueOrderAscending
    resultOrderBy := (chain.findSome? LabelSettings.resultOrderBy).getD builtIn.resultOrderBy
    resultOrderAscending :=
      (chain.findSome? LabelSettings.resultOrderAscending).getD builtIn.resultOrderAscending
    autoLoad := (chain.findSome? LabelSettings.autoLoad).getD builtIn.autoLoad
    autoExpand := (chain.findSome? LabelSettings.autoExpand).getD builtIn.autoExpand
    immutable := (chain.findSome? LabelSettings.immutable).getD builtIn.immutable
    schema := chain.findSome? LabelSettings.schema }

end Catalogue

end PatternQuery
