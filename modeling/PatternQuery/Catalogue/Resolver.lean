import PatternQuery.Catalogue.Resolve

/-!
# Resolving labels with a memory

A `Resolver` gives the properties of labels and keeps what it gave, so that what is configured for a
label is looked up at most once.
-/

namespace PatternQuery

/-- A catalogue with the properties that were resolved from it. -/
structure Resolver where
  catalogue : Catalogue
  known : Table LabelProperties := Table.empty

namespace Resolver

/-- The properties of a label. -/
def resolve (label : String) (r : Resolver) : LabelProperties × Resolver :=
  match r.known.get? label with
  | some properties => (properties, r)
  | none =>
    let properties := r.catalogue.resolve label
    (properties, { r with known := r.known.insert label properties })

/-- The properties of several labels, one after the other. -/
def resolveAll : List String → Resolver → List LabelProperties × Resolver
  | [], r => ([], r)
  | label :: rest, r =>
    let (properties, r) := r.resolve label
    let (others, r) := r.resolveAll rest
    (properties :: others, r)

end Resolver

end PatternQuery
