import PatternQuery.Data.Document

/-!
# Settings of the compiler
-/

namespace PatternQuery

/-- Which label of a discovered node names the target of a relation. -/
inductive TargetLabel where
  | first
  | last
  deriving DecidableEq, Repr

namespace TargetLabel

/-- The list function that takes the label. -/
def function : TargetLabel → String
  | first => "head"
  | last => "last"

def word : TargetLabel → String
  | first => "first"
  | last => "last"

def decode : Decoder TargetLabel := Decoder.word fun
  | "first" => some first
  | "last" => some last
  | _ => none

def toValue (t : TargetLabel) : Value := .str t.word

end TargetLabel

/-- How many candidate values are shown at once unless configured otherwise. -/
def defaultPageSize : Nat := 10

/-- How statements are written and how much they return. -/
structure QuerySettings where
  /-- Limit of the result statement. -/
  maxResults : Nat := 100
  /-- Limit of statements for candidate values. -/
  valueLimit : Nat := 100
  pageSize : Nat := defaultPageSize
  /-- Relations are matched along their direction, otherwise in both. -/
  useDirection : Bool := true
  /-- Statements for candidate values return the matched relations too. -/
  collectRelations : Bool := false
  /-- Text in front of every statement. -/
  preamble : String := ""
  targetLabel : TargetLabel := .last
  deriving DecidableEq, Repr

namespace QuerySettings

def decode : Decoder QuerySettings := Decoder.record fun fields => do
  let d : QuerySettings := {}
  let maxResults ← fields.withDefault "max_results_count" Decoder.nat d.maxResults
  let valueLimit ← fields.withDefault "value_query_limit" Decoder.nat d.valueLimit
  let pageSize ← fields.withDefault "page_size" Decoder.nat d.pageSize
  let useDirection ← fields.withDefault "use_relation_direction" Decoder.bool d.useDirection
  let collectRelations ←
    fields.withDefault "collect_relations_with_values" Decoder.bool d.collectRelations
  let preamble ← fields.withDefault "statement_prefix" Decoder.text d.preamble
  let targetLabel ← fields.withDefault "relation_target_label" TargetLabel.decode d.targetLabel
  return { maxResults, valueLimit, pageSize, useDirection, collectRelations, preamble, targetLabel }

def toValue (q : QuerySettings) : Value := .record [
  ("max_results_count", .ofNat q.maxResults), ("value_query_limit", .ofNat q.valueLimit),
  ("page_size", .ofNat q.pageSize), ("use_relation_direction", .bool q.useDirection),
  ("collect_relations_with_values", .bool q.collectRelations),
  ("statement_prefix", .str q.preamble), ("relation_target_label", q.targetLabel.toValue)]

end QuerySettings

end PatternQuery
