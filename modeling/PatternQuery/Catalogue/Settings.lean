import PatternQuery.Attribute
import PatternQuery.Schema

/-!
# The catalogue of labels

A `Catalogue` holds what is configured for each label. Every property of a label is optional and is
inherited from the label named as its parent, and in the end from the record for all labels.
-/

namespace PatternQuery

/-- What is configured for one label. -/
structure LabelSettings where
  parent : Option String := none
  constraintAttribute : Option Attribute := none
  returnAttributes : Option (List Attribute) := none
  predefinedConstraints : Option (List String) := none
  valueOrderBy : Option String := none
  valueOrderAscending : Option Bool := none
  resultOrderBy : Option (List String) := none
  resultOrderAscending : Option (List Bool) := none
  autoLoad : Option Bool := none
  autoExpand : Option Bool := none
  immutable : Option Bool := none
  schema : Option Schema := none

namespace LabelSettings

def decode : Decoder LabelSettings := Decoder.record fun fields => do
  let parent ← fields.optional "parent" Decoder.text
  let constraintAttribute ← fields.optional "constraint_attribute" Attribute.decode
  let returnAttributes ← fields.optional "return_attributes" (Decoder.list Attribute.decode)
  let predefinedConstraints ←
    fields.optional "predefined_constraints" (Decoder.list Decoder.text)
  let valueOrderBy ← fields.optional "value_order_by_attribute" Decoder.text
  let valueOrderAscending ← fields.optional "value_order_ascending" Decoder.bool
  let resultOrderBy ← fields.optional "result_order_by_attributes" (Decoder.list Decoder.text)
  let resultOrderAscending ← fields.optional "result_order_ascending" (Decoder.list Decoder.bool)
  let autoLoad ← fields.optional "auto_load_value" Decoder.bool
  let autoExpand ← fields.optional "auto_expand_relations" Decoder.bool
  let immutable ← fields.optional "immutable" Decoder.bool
  let schema ← fields.optional "schema" Schema.decode
  return {
    parent, constraintAttribute, returnAttributes, predefinedConstraints, valueOrderBy,
    valueOrderAscending, resultOrderBy, resultOrderAscending, autoLoad, autoExpand, immutable,
    schema }

def toValue (s : LabelSettings) : Value := .record [
  ("parent", .ofOption .str s.parent),
  ("constraint_attribute", .ofOption Attribute.toValue s.constraintAttribute),
  ("return_attributes", .ofOption (.ofList Attribute.toValue) s.returnAttributes),
  ("predefined_constraints", .ofOption (.ofList .str) s.predefinedConstraints),
  ("value_order_by_attribute", .ofOption .str s.valueOrderBy),
  ("value_order_ascending", .ofOption .bool s.valueOrderAscending),
  ("result_order_by_attributes", .ofOption (.ofList .str) s.resultOrderBy),
  ("result_order_ascending", .ofOption (.ofList .bool) s.resultOrderAscending),
  ("auto_load_value", .ofOption .bool s.autoLoad),
  ("auto_expand_relations", .ofOption .bool s.autoExpand),
  ("immutable", .ofOption .bool s.immutable),
  ("schema", .ofOption Schema.toValue s.schema)]

end LabelSettings

/-- What is configured for all labels. -/
structure Catalogue where
  /-- Consulted where neither a label nor its parents define a property. -/
  common : LabelSettings := {}
  labels : Table LabelSettings := Table.empty

namespace Catalogue

instance : Inhabited Catalogue := ⟨{}⟩

def decode : Decoder Catalogue := Decoder.record fun fields => do
  let common ← fields.withDefault "default_label" LabelSettings.decode {}
  let labels ← fields.withDefault "labels" (Decoder.table LabelSettings.decode) Table.empty
  return { common, labels }

def toValue (c : Catalogue) : Value := .record [
  ("default_label", c.common.toValue), ("labels", .ofTable LabelSettings.toValue c.labels)]

end Catalogue

end PatternQuery
