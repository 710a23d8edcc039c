import PatternQuery.Data.Document

/-!
# Relationship segments

A `Segment` is one kind of relation that leads on from a node: its type, the label at its other end
and how many relations of that kind there are. Around the node the segments share a full turn
(`Segment.layout`).
-/

namespace PatternQuery

/-- A point of the drawing. -/
structure Position where
  x : Double
  y : Double
  deriving DecidableEq, Repr

namespace Position

def decode : Decoder Position := Decoder.record fun fields => do
  let x ← fields.required "x" Decoder.double
  let y ← fields.required "y" Decoder.double
  return { x, y }

def toValue (p : Position) : Value := .record [("x", .float p.x), ("y", .float p.y)]

end Position

/-- A kind of relation that leads on from a node. The angles only matter for drawing. -/
structure Segment where
  label : String
  target : String
  count : Nat
  isReverse : Bool := false
  startAngle : Double := Double.zero
  endAngle : Double := Double.zero
  directionAngle : Double := Double.zero
  deriving DecidableEq, Repr

namespace Segment

/-- Gives a segment the place `i` of the places that are `slice` wide. -/
def place (slice : Double) (i : Nat) (s : Segment) : Segment :=
  let start := slice.scale i
  let stop := slice.scale (i + 1)
  { s with startAngle := start, endAngle := stop, directionAngle := (start.add stop).divide 2 }

/-- Gives every segment an equal slice of the full turn, in order. -/
def layout (segments : List Segment) : List Segment :=
  let slice := Double.fullTurn.divide segments.length
  segments.mapIdx fun i s => s.place slice i

def decode : Decoder Segment := Decoder.record fun fields => do
  let label ← fields.required "label" Decoder.text
  let target ← fields.required "target" Decoder.text
  let count ← fields.required "count" Decoder.nat
  let isReverse ← fields.withDefault "is_reverse" Decoder.bool false
  let startAngle ← fields.withDefault "start_angle" Decoder.double Double.zero
  let endAngle ← fields.withDefault "end_angle" Decoder.double Double.zero
  let directionAngle ← fields.withDefault "direction_angle" Decoder.double Double.zero
  return { label, target, count, isReverse, startAngle, endAngle, directionAngle }

def toValue (s : Segment) : Value := .record [
  ("label", .str s.label), ("target", .str s.target), ("count", .ofNat s.count),
  ("is_reverse", .bool s.isReverse), ("start_angle", .float s.startAngle),
  ("end_angle", .float s.endAngle), ("direction_angle", .float s.directionAngle)]

end Segment

end PatternQuery
