import PatternQuery.Segment

/-!
# Schemas

A `Schema` describes a diagram ahead of time: a label, rows that are selected from the start, and
the relations that lead on to further schemas. It is read from YAML or JSON.
-/

namespace PatternQuery

/-- A relation of a schema to something at its other end. -/
structure SchemaRelation (τ : Type) where
  label : String
  target : τ
  isReverse : Bool := false
  deriving DecidableEq

inductive Schema where
  /-- `group` asks for a node that only holds others together. -/
  | node (label : String) (rows : List Row) (relations : List (SchemaRelation Schema))
      (group : Bool)

namespace SchemaRelation

variable {τ : Type}

def decode (target : Decoder τ) : Decoder (SchemaRelation τ) := Decoder.record fun fields => do
  let label ← fields.required "label" Decoder.text
  let target ← fields.required "target" target
  let isReverse ← fields.withDefault "is_reverse" Decoder.bool false
  return { label, target, isReverse }

end SchemaRelation

namespace Schema

instance : Inhabited Schema := ⟨.node "" [] [] false⟩

def label : Schema → String
  | node label _ _ _ => label

def rows : Schema → List Row
  | node _ rows _ _ => rows

def relations : Schema → List (SchemaRelation Schema)
  | node _ _ relations _ => relations

def isGroup : Schema → Bool
  | node _ _ _ group => group

/-- Reads a schema in a document that is nested at most `depth` deep. -/
def decodeWithin : Nat → Decoder Schema
  | 0 => fun _ => none
  | depth + 1 => Decoder.record fun fields => do
    let label ← fields.required "label" Decoder.text
    let rows ← fields.withDefault "value" (Decoder.list Decoder.row) []
    let relations ←
      fields.withDefault "rel" (Decoder.list (SchemaRelation.decode (decodeWithin depth))) []
    let group ← fields.withDefault "group" Decoder.bool false
    return node label rows relations group

def decode : Decoder Schema := fun d => decodeWithin d.depth d

mutual

def toValue : Schema → Value
  | node label rows relations group => .record [
    ("label", .str label), ("value", .ofList Value.obj rows),
    ("rel", .arr (relationsToValues relations)), ("group", .bool group)]

def relationsToValues : List (SchemaRelation Schema) → List Value
  | [] => []
  | ⟨label, target, isReverse⟩ :: rest =>
    .record [("label", .str label), ("target", target.toValue), ("is_reverse", .bool isReverse)]
      :: relationsToValues rest

end

/-- The segment of a relation. Nothing has been counted yet. -/
def segmentOf (r : SchemaRelation Schema) : Segment :=
  { label := r.label, target := r.target.label, count := 0, isReverse := r.isReverse }

/-- The segments of the relations that lead on. -/
def segments (s : Schema) : List Segment := Segment.layout (s.relations.map segmentOf)

end Schema

namespace SchemaRelation

def toValue (r : SchemaRelation Schema) : Value := .record [
  ("label", .str r.label), ("target", r.target.toValue), ("is_reverse", .bool r.isReverse)]

end SchemaRelation

end PatternQuery
