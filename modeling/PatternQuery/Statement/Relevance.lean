import PatternQuery.Diagram.Basic

/-!
# Relevant relations

Which relations a statement about a node has to mention (`Diagram.relevantLinks`): those that lead
to nodes with values, to negated nodes and to the node itself, unless a negation takes them in, and
those on the way there from the root.
-/

namespace PatternQuery.Diagram

/-- Whether the negation of a node shapes statements about `target`. To get to the negated node or
below it, a statement has to match it. -/
def negationApplies (d : Diagram) (negated target : NodeId) : Bool :=
  !d.isAncestorOrSelf negated target

/-- Whether a node lies below a negated one whose negation applies, and so within its clause. -/
def underAppliedNegation (d : Diagram) (id target : NodeId) : Bool :=
  (d.ancestors id).any fun a =>
    match d.node? a with
    | some node => node.negative && d.negationApplies a target
    | none => false

/-- Whether statements about `target` have to mention the relation for the sake of the node it leads
to. -/
def isLeafLink (d : Diagram) (target : NodeId) (l : Link) : Bool :=
  match d.node? l.target with
  | some node =>
    (node.hasValue || node.negative || node.id == target) && !d.underAppliedNegation l.target target
  | none => false

/-- Adds the links of a path that are not there yet. -/
def addPath (links path : List Link) : List Link :=
  path.foldl (fun links l => if links.any fun k => k.id == l.id then links else links ++ [l]) links

/-- The relations that a statement about `target` has to mention: first those that lead to nodes
that matter, in the order of the links, then those on the way from the root, each once. -/
def relevantLinks (d : Diagram) (target : NodeId) : List Link :=
  match d.root? with
  | none => []
  | some _ =>
    let leaves := d.relationLinks.filter (d.isLeafLink target)
    leaves.foldl (fun links leaf => addPath links (d.incomingPath leaf.source)) leaves

/-- The relations that lead from the root to a node, the first one first. -/
def linksToRoot (d : Diagram) (id : NodeId) : List Link := (d.incomingPath id).reverse

end PatternQuery.Diagram
