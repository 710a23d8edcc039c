import PatternQuery.Catalogue.Resolve
import PatternQuery.Statement.Parts
import PatternQuery.Text.Search

/-!
# Providers

A `Provider` is what the rest of the library knows about labels: the properties of each, and how
the statements about a node are amended before they are written. `Provider.ofCatalogue` makes one
from a catalogue and a list of amendments, which are inherited like any property.
-/

namespace PatternQuery

/-- Properties of labels and amendments of statements. -/
structure Provider where
  properties : String → LabelProperties
  amend : StatementKind → Node → StatementParts → StatementParts

/-- A change to the parts of a statement. In its text `{var}` stands for the variable of the
node. -/
inductive Amendment where
  | addPattern (text : String)
  | addCondition (text : String)
  | addReturn (text : String)
  | addTrailing (text : String)
  | clearTrailing
  | flipDistinct
  deriving DecidableEq, Repr

namespace Amendment

/-- What stands for the node's variable in the text of an amendment. -/
def placeholder : String := "\x7bvar\x7d"

def fill (node : Node) (text : String) : String := Text.replace placeholder node.var text

def apply (node : Node) (p : StatementParts) : Amendment → StatementParts
  | addPattern text => { p with patterns := p.patterns ++ [fill node text] }
  | addCondition text => { p with conditions := p.conditions ++ [fill node text] }
  | addReturn text => { p with returns := p.returns ++ [fill node text] }
  | addTrailing text => { p with trailing := p.trailing ++ [fill node text] }
  | clearTrailing => { p with trailing := [] }
  | flipDistinct => { p with distinct := !p.distinct }

end Amendment

/-- A function registered for the statements of one kind about the nodes of one label. -/
structure Hook where
  label : String
  kind : StatementKind
  amend : Node → StatementParts → StatementParts

namespace Provider

/-- The hook registered last for a label and a kind. -/
def hook? (hooks : List Hook) (label : String) (kind : StatementKind) : Option Hook :=
  hooks.reverse.find? fun h => h.label == label && h.kind == kind

/-- Applies the hook of the first label of the node's lineage that has one. -/
def amendWith (c : Catalogue) (hooks : List Hook) (kind : StatementKind) (node : Node)
    (p : StatementParts) : StatementParts :=
  match (c.lineage node.label).findSome? fun label => hook? hooks label kind with
  | some h => h.amend node p
  | none => p

def ofCatalogue (c : Catalogue) (hooks : List Hook := []) : Provider :=
  { properties := c.resolve, amend := amendWith c hooks }

end Provider

end PatternQuery
