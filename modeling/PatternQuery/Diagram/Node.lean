import PatternQuery.Attribute
import PatternQuery.Segment

/-!
# Nodes and links

What a diagram consists of. A `Node` is a placeholder of the query: the root, whose rows are
returned, a node still to be chosen, a candidate value of such a node, or a group. A `Link` joins a
node to one that was made from it. A `SelectedValue` turns a node into a concrete constraint.
-/

namespace PatternQuery

structure NodeId where
  number : Nat
  deriving DecidableEq, Repr

structure LinkId where
  number : Nat
  deriving DecidableEq, Repr

namespace NodeId

instance : ToString NodeId := ⟨fun id => "n" ++ toString id.number⟩

def decode : Decoder NodeId := fun d => (Decoder.nat d).map NodeId.mk

def toValue (id : NodeId) : Value := .ofNat id.number

end NodeId

namespace LinkId

instance : ToString LinkId := ⟨fun id => "l" ++ toString id.number⟩

def decode : Decoder LinkId := fun d => (Decoder.nat d).map LinkId.mk

def toValue (id : LinkId) : Value := .ofNat id.number

end LinkId

inductive NodeKind where
  | root
  | choose
  | value
  | group
  deriving DecidableEq, Repr

namespace NodeKind

def word : NodeKind → String
  | root => "ROOT"
  | choose => "CHOOSE"
  | value => "VALUE"
  | group => "GROUP"

def decode : Decoder NodeKind := Decoder.word fun
  | "ROOT" => some root
  | "CHOOSE" => some choose
  | "VALUE" => some value
  | "GROUP" => some group
  | _ => none

def toValue (k : NodeKind) : Value := .str k.word

end NodeKind

inductive LinkKind where
  /-- An edge of the pattern that is searched for. -/
  | relation
  /-- From a node to one of its candidate values. -/
  | value
  /-- Drawn, but of no meaning. -/
  | segment
  deriving DecidableEq, Repr

namespace LinkKind

def word : LinkKind → String
  | relation => "RELATION"
  | value => "VALUE"
  | segment => "SEGMENT"

def decode : Decoder LinkKind := Decoder.word fun
  | "RELATION" => some relation
  | "VALUE" => some value
  | "SEGMENT" => some segment
  | _ => none

def toValue (k : LinkKind) : Value := .str k.word

end LinkKind

/-! ## Rows -/

/-- The column that holds counts. -/
def countColumn : String := "count"

namespace Row

/-- What a row holds for an attribute, null if nothing. -/
def constraintValue (row : Row) (a : Attribute) : Value := (row.get? a.column).getD .null

/-- The identifier that the database gave the node of a row. -/
def internalId (row : Row) : Option Int64 := (row.get? internalIdColumn).bind Value.toInt64?

/-- The count of a row, 0 if it has none. -/
def count (row : Row) : Nat := ((row.get? countColumn).bind Value.toNat?).getD 0

end Row

/-! ## Selected values -/

/-- A value selected on a node. Its id is that of the value node it was selected from. -/
structure SelectedValue where
  id : NodeId
  label : String
  attributes : Row
  internalId : Option Int64
  count : Nat
  deriving DecidableEq

namespace SelectedValue

/-- What the value binds its node's parameter to. -/
def constraintValue (v : SelectedValue) : Attribute → Value
  | .internalId => Value.ofOption Value.ofInt64 v.internalId
  | .property name => (v.attributes.get? name).getD .null

/-- The value that a row stands for. -/
def ofRow (id : NodeId) (label : String) (row : Row) : SelectedValue :=
  { id, label, attributes := row, internalId := Row.internalId row, count := Row.count row }

def decode : Decoder SelectedValue := Decoder.record fun fields => do
  let id ← fields.required "id" NodeId.decode
  let label ← fields.required "label" Decoder.text
  let attributes ← fields.required "attributes" Decoder.row
  let internalId ← fields.optional "internal_id" Decoder.int64
  let count ← fields.required "count" Decoder.nat
  return { id, label, attributes, internalId, count }

def toValue (v : SelectedValue) : Value := .record [
  ("id", v.id.toValue), ("label", .str v.label), ("attributes", .obj v.attributes),
  ("internal_id", .ofOption .ofInt64 v.internalId), ("count", .ofNat v.count)]

end SelectedValue

/-! ## Nodes -/

/-- A placeholder of the query. -/
structure Node where
  id : NodeId
  kind : NodeKind
  label : String
  /-- The variable of the node in statements; empty for a candidate value. -/
  var : String
  parent : Option NodeId := none
  parentRelation : Option String := none
  /-- The relation from the parent is followed against its direction. -/
  isReversed : Bool := false
  relationships : List Segment := []
  relationshipsLoaded : Bool := false
  selected : List SelectedValue := []
  /-- The candidates that were fetched last. -/
  data : Option (List Row) := none
  /-- The page of `data` that is shown, from 1 on. -/
  page : Nat := 1
  count : Nat := 0
  expanded : Bool := false
  negative : Bool := false
  autoLoad : Bool := false
  immutable : Bool := false
  fixed : Bool := false
  position : Option Position := none
  /-- The row of a candidate value. -/
  attributes : Option Row := none
  internalId : Option Int64 := none
  deriving DecidableEq

namespace Node

/-- At least one value is selected. -/
def hasValue (n : Node) : Bool := !n.selected.isEmpty

def isRoot (n : Node) : Bool := n.kind == .root

/-- Nodes of which the matches are counted. -/
def isCountable (n : Node) : Bool := (n.kind == .root || n.kind == .choose) && !n.negative

def decode : Decoder Node := Decoder.record fun fields => do
  let id ← fields.required "id" NodeId.decode
  let kind ← fields.required "node_type" NodeKind.decode
  let label ← fields.required "label" Decoder.text
  let var ← fields.required "internal_label" Decoder.text
  let parent ← fields.optional "parent" NodeId.decode
  let parentRelation ← fields.optional "parent_rel" Decoder.text
  let isReversed ← fields.required "is_parent_rel_reverse" Decoder.bool
  let relationships ← fields.required "relationships" (Decoder.list Segment.decode)
  let relationshipsLoaded ← fields.required "relationships_loaded" Decoder.bool
  let selected ← fields.required "value" (Decoder.list SelectedValue.decode)
  let data ← fields.optional "data" (Decoder.list Decoder.row)
  let page ← fields.required "page" Decoder.nat
  let count ← fields.required "count" Decoder.nat
  let expanded ← fields.required "value_expanded" Decoder.bool
  let negative ← fields.required "is_negative" Decoder.bool
  let autoLoad ← fields.required "is_auto_load_value" Decoder.bool
  let immutable ← fields.required "immutable" Decoder.bool
  let fixed ← fields.required "fixed" Decoder.bool
  let position ← fields.optional "position" Position.decode
  let attributes ← fields.optional "attributes" Decoder.row
  let internalId ← fields.optional "internal_id" Decoder.int64
  return {
    id, kind, label, var, parent, parentRelation, isReversed, relationships, relationshipsLoaded,
    selected, data, page, count, expanded, negative, autoLoad, immutable, fixed, position,
    attributes, internalId }

def toValue (n : Node) : Value := .record [
  ("id", n.id.toValue), ("node_type", n.kind.toValue), ("label", .str n.label),
  ("internal_label", .str n.var), ("parent", .ofOption NodeId.toValue n.parent),
  ("parent_rel", .ofOption .str n.parentRelation), ("is_parent_rel_reverse", .bool n.isReversed),
  ("relationships", .ofList Segment.toValue n.relationships),
  ("relationships_loaded", .bool n.relationshipsLoaded),
  ("value", .ofList SelectedValue.toValue n.selected),
  ("data", .ofOption (.ofList .obj) n.data), ("page", .ofNat n.page), ("count", .ofNat n.count),
  ("value_expanded", .bool n.expanded), ("is_negative", .bool n.negative),
  ("is_auto_load_value", .bool n.autoLoad), ("immutable", .bool n.immutable),
  ("fixed", .bool n.fixed), ("position", .ofOption Position.toValue n.position),
  ("attributes", .ofOption .obj n.attributes),
  ("internal_id", .ofOption .ofInt64 n.internalId)]

end Node

/-! ## Links -/

/-- An edge of a diagram. The label of a relation is its type, that of a value link is empty. -/
structure Link where
  id : LinkId
  kind : LinkKind
  source : NodeId
  target : NodeId
  label : String
  deriving DecidableEq, Repr

namespace Link

/-- Whether the link leads to a candidate value of a node. -/
def isValueOf (l : Link) (id : NodeId) : Bool := l.kind == .value && l.source == id

def decode : Decoder Link := Decoder.record fun fields => do
  let id ← fields.required "id" LinkId.decode
  let kind ← fields.required "link_type" LinkKind.decode
  let source ← fields.required "source" NodeId.decode
  let target ← fields.required "target" NodeId.decode
  let label ← fields.required "label" Decoder.text
  return { id, kind, source, target, label }

def toValue (l : Link) : Value := .record [
  ("id", l.id.toValue), ("link_type", l.kind.toValue), ("source", l.source.toValue),
  ("target", l.target.toValue), ("label", .str l.label)]

end Link

end PatternQuery
