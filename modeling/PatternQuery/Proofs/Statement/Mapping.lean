import PatternQuery.Statement.Relevance

/-!
# Changes that walks do not see

The walks through a diagram, and the choice of the relevant relations, read of a node no more than
its id, its parent, whether it is the root, whether it is negated and whether it has a value. If all
nodes are changed without a change of these (`Node.Unseen`), the walks and the relevant relations
are the same (`Diagram.relevantLinks_mapNodes`). Nothing is assumed about the diagram.
-/

namespace PatternQuery

/-- A change of a node that no walk sees. -/
structure Node.Unseen (f : Node → Node) : Prop where
  id : ∀ n, (f n).id = n.id
  parent : ∀ n, (f n).parent = n.parent
  isRoot : ∀ n, (f n).isRoot = n.isRoot
  negative : ∀ n, (f n).negative = n.negative
  hasValue : ∀ n, (f n).hasValue = n.hasValue

namespace Diagram

/-- Changes every node. -/
def mapNodes (f : Node → Node) (d : Diagram) : Diagram := { d with nodes := d.nodes.map f }

theorem modify_eq_mapNodes (d : Diagram) (id : NodeId) (f : Node → Node) :
    d.modify id f = d.mapNodes fun n => if n.id = id then f n else n :=
  rfl

variable {f : Node → Node}

theorem node?_mapNodes (hf : Node.Unseen f) (d : Diagram) (id : NodeId) :
    (d.mapNodes f).node? id = (d.node? id).map f := by
  simp only [node?, mapNodes, List.find?_map]
  congr 2
  funext n
  simp only [Function.comp, hf.id]

theorem root?_mapNodes (hf : Node.Unseen f) (d : Diagram) :
    (d.mapNodes f).root? = d.root?.map f := by
  simp only [root?, mapNodes, List.head?_map]
  cases d.nodes.head? with
  | none => rfl
  | some n =>
    simp only [Option.map_some, Option.filter_some, hf.isRoot]
    split <;> rfl

theorem ancestors_mapNodes (hf : Node.Unseen f) (d : Diagram) (id : NodeId) :
    (d.mapNodes f).ancestors id = d.ancestors id := by
  have hparent (id : NodeId) :
      ((d.mapNodes f).node? id).bind Node.parent = (d.node? id).bind Node.parent := by
    rw [node?_mapNodes hf]
    cases d.node? id with
    | none => rfl
    | some n => exact hf.parent n
  fun_induction Diagram.ancestors d id with
  | case1 id h => rw [ancestors, hparent, h]
  | case2 id p h hlt ih => rw [ancestors, hparent, h]; simp only [hlt, if_true, ih]
  | case3 id p h hlt => rw [ancestors, hparent, h]; simp only [hlt, if_false]

theorem incomingPath_mapNodes (f : Node → Node) (d : Diagram) (id : NodeId) :
    (d.mapNodes f).incomingPath id = d.incomingPath id := by
  have hincoming (id : NodeId) : (d.mapNodes f).incomingRelation? id = d.incomingRelation? id := rfl
  fun_induction Diagram.incomingPath d id with
  | case1 id h => rw [incomingPath, hincoming, h]
  | case2 id l h hlt ih => rw [incomingPath, hincoming, h]; simp only [hlt, if_true, ih]
  | case3 id l h hlt => rw [incomingPath, hincoming, h]; simp only [hlt, if_false]

theorem negationApplies_mapNodes (hf : Node.Unseen f) (d : Diagram) (negated target : NodeId) :
    (d.mapNodes f).negationApplies negated target = d.negationApplies negated target := by
  simp only [negationApplies, isAncestorOrSelf, ancestors_mapNodes hf]

theorem underAppliedNegation_mapNodes (hf : Node.Unseen f) (d : Diagram) (id target : NodeId) :
    (d.mapNodes f).underAppliedNegation id target = d.underAppliedNegation id target := by
  simp only [underAppliedNegation, ancestors_mapNodes hf, negationApplies_mapNodes hf,
    node?_mapNodes hf]
  congr 1
  funext a
  cases d.node? a with
  | none => rfl
  | some n => simp only [Option.map_some, hf.negative]

theorem isLeafLink_mapNodes (hf : Node.Unseen f) (d : Diagram) (target : NodeId) (l : Link) :
    (d.mapNodes f).isLeafLink target l = d.isLeafLink target l := by
  simp only [isLeafLink, node?_mapNodes hf, underAppliedNegation_mapNodes hf]
  cases d.node? l.target with
  | none => rfl
  | some n => simp only [Option.map_some, hf.id, hf.negative, hf.hasValue]

theorem relevantLinks_mapNodes (hf : Node.Unseen f) (d : Diagram) (target : NodeId) :
    (d.mapNodes f).relevantLinks target = d.relevantLinks target := by
  have hleaf : (d.mapNodes f).isLeafLink target = d.isLeafLink target :=
    funext (isLeafLink_mapNodes hf d target)
  simp only [relevantLinks, root?_mapNodes hf, hleaf, incomingPath_mapNodes]
  cases d.root? <;> rfl

theorem linksToRoot_mapNodes (f : Node → Node) (d : Diagram) (id : NodeId) :
    (d.mapNodes f).linksToRoot id = d.linksToRoot id := by
  rw [linksToRoot, linksToRoot, incomingPath_mapNodes]

end Diagram

end PatternQuery
