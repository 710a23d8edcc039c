import PatternQuery.Proofs.Diagram.Renumbering
import PatternQuery.Proofs.Statement.Statements

/-!
# Statements about renumbered diagrams

No number gets into a statement, so a statement about a node is the same about the node under its
other number (`Compiler.countQuery_shift` and the like), as long as amendments do not look at
numbers (`Provider.IgnoresNumbers`). Errors name the other number.
-/

namespace PatternQuery

variable {a b : Nat}

/-- Amendments do not look at the numbers of a node. -/
def Provider.IgnoresNumbers (p : Provider) : Prop :=
  ∀ (a : Nat) kind (n : Node) parts, p.amend kind (n.shift a) parts = p.amend kind n parts

/-- The function of a hook does not look at the numbers of a node. -/
def Hook.IgnoresNumbers (h : Hook) : Prop :=
  ∀ (a : Nat) (n : Node) parts, h.amend (n.shift a) parts = h.amend n parts

theorem Provider.ignoresNumbers_ofCatalogue (cat : Catalogue) {hooks : List Hook}
    (hh : ∀ h ∈ hooks, h.IgnoresNumbers) : (Provider.ofCatalogue cat hooks).IgnoresNumbers := by
  intro a kind n parts
  show amendWith cat hooks kind (n.shift a) parts = amendWith cat hooks kind n parts
  have hlabel : (n.shift a).label = n.label := rfl
  unfold amendWith
  rw [hlabel]
  split
  · rename_i h hfound
    obtain ⟨label, -, hlast⟩ := List.exists_of_findSome?_eq_some hfound
    exact hh h (List.mem_reverse.1 (List.mem_of_find?_eq_some hlast)) a n parts
  · rfl

/-- Amendments write nothing of a node but its variable. -/
theorem Hook.ignoresNumbers_of_amendments (label : String) (kind : StatementKind)
    (amendments : List Amendment) :
    Hook.IgnoresNumbers ⟨label, kind, fun n x => amendments.foldl (Amendment.apply n) x⟩ :=
  fun _ _ _ => rfl

/-! ## Relevant relations -/

namespace Diagram

theorem negationApplies_shift (d : Diagram) (negated target : NodeId) :
    (d.shift a b).negationApplies (negated.shift a) (target.shift a) =
      d.negationApplies negated target := by
  rw [negationApplies, isAncestorOrSelf_shift, negationApplies]

theorem underAppliedNegation_shift (d : Diagram) (id target : NodeId) :
    (d.shift a b).underAppliedNegation (id.shift a) (target.shift a) =
      d.underAppliedNegation id target := by
  rw [underAppliedNegation, ancestors_shift, List.any_map, underAppliedNegation]
  congr 1
  funext x
  simp only [Function.comp, node?_shift, negationApplies_shift]
  cases d.node? x <;> rfl

theorem isLeafLink_shift (d : Diagram) (target : NodeId) (l : Link) :
    (d.shift a b).isLeafLink (target.shift a) (l.shift a b) = d.isLeafLink target l := by
  have hnode : (d.shift a b).node? (l.shift a b).target = (d.node? l.target).map (Node.shift a) :=
    node?_shift d l.target
  have hunder : (d.shift a b).underAppliedNegation (l.shift a b).target (target.shift a) =
      d.underAppliedNegation l.target target :=
    underAppliedNegation_shift d l.target target
  rw [isLeafLink, hnode, hunder, isLeafLink]
  cases d.node? l.target with
  | none => rfl
  | some n =>
    have hid : ((n.shift a).id == target.shift a) = (n.id == target) := NodeId.beq_shift n.id target
    have hnegative : (n.shift a).negative = n.negative := rfl
    simp only [Option.map_some, Node.hasValue_shift, hid, hnegative]

theorem addPath_shift (links path : List Link) :
    addPath (links.map (Link.shift a b)) (path.map (Link.shift a b)) =
      (addPath links path).map (Link.shift a b) := by
  induction path generalizing links with
  | nil => rfl
  | cons l path ih =>
    have hany : ((links.map (Link.shift a b)).any fun k => k.id == (l.shift a b).id) =
        links.any fun k => k.id == l.id := by
      rw [List.any_map]
      congr 1
      funext k
      exact LinkId.beq_shift k.id l.id
    have hstep : (if (links.map (Link.shift a b)).any fun k => k.id == (l.shift a b).id then
        links.map (Link.shift a b) else links.map (Link.shift a b) ++ [l.shift a b]) =
        (if links.any fun k => k.id == l.id then links else links ++ [l]).map (Link.shift a b) := by
      rw [hany]
      split
      · rfl
      · rw [List.map_append, List.map_singleton]
    rw [List.map_cons, addPath, List.foldl_cons, hstep]
    exact ih _

theorem relevantLinks_shift (d : Diagram) (target : NodeId) :
    (d.shift a b).relevantLinks (target.shift a) =
      (d.relevantLinks target).map (Link.shift a b) := by
  have hleaves : (d.shift a b).relationLinks.filter ((d.shift a b).isLeafLink (target.shift a)) =
      (d.relationLinks.filter (d.isLeafLink target)).map (Link.shift a b) := by
    rw [relationLinks_shift, List.filter_map]
    congr 2
    funext l
    exact isLeafLink_shift d target l
  have hpaths (leaves links : List Link) : (leaves.map (Link.shift a b)).foldl
      (fun links leaf => addPath links ((d.shift a b).incomingPath leaf.source))
      (links.map (Link.shift a b)) =
      (leaves.foldl (fun links leaf => addPath links (d.incomingPath leaf.source)) links).map
        (Link.shift a b) := by
    induction leaves generalizing links with
    | nil => rfl
    | cons leaf leaves ih =>
      have hpath : (d.shift a b).incomingPath (leaf.shift a b).source =
          (d.incomingPath leaf.source).map (Link.shift a b) := incomingPath_shift d leaf.source
      rw [List.map_cons, List.foldl_cons, hpath, addPath_shift, ih, List.foldl_cons]
  rw [relevantLinks, root?_shift, hleaves, relevantLinks]
  cases d.root? with
  | none => rfl
  | some _ => exact hpaths _ _

theorem linksToRoot_shift (d : Diagram) (id : NodeId) :
    (d.shift a b).linksToRoot (id.shift a) = (d.linksToRoot id).map (Link.shift a b) := by
  rw [linksToRoot, incomingPath_shift, linksToRoot, List.map_reverse]

end Diagram

/-! ## Clauses -/

theorem mapIdx_map {α β γ : Type} (f : α → β) (g : Nat → β → γ) (l : List α) :
    (l.map f).mapIdx g = l.mapIdx fun i x => g i (f x) :=
  List.ext_getElem (by simp) fun i _ _ => by simp

theorem Node.negatedParameters_shift (n : Node) (x : Attribute) :
    (n.shift a).negatedParameters x = n.negatedParameters x :=
  congrArg Table.ofList (mapIdx_map _ _ n.selected)

theorem Node.valueConstraints_shift (n : Node) (x : Attribute) :
    (n.shift a).valueConstraints x = n.valueConstraints x := by
  have hnegative : (n.shift a).negative = n.negative := rfl
  have hselected : (n.shift a).selected = n.selected.map (SelectedValue.shift a) := rfl
  rw [valueConstraints, hnegative, negatedParameters_shift, hselected, valueConstraints]
  cases n.negative with
  | true => rfl
  | false =>
    match n.selected with
    | [] | [_] => rfl
    | v :: w :: rest =>
      have hvalues : Value.ofList (SelectedValue.constraintValue · x)
          ((v :: w :: rest).map (SelectedValue.shift a)) =
          Value.ofList (SelectedValue.constraintValue · x) (v :: w :: rest) := by
        rw [Value.ofList, List.map_map]
        rfl
      exact congrArg (fun value => (some (x.expression n.var ++ " IN $" ++ n.parameterName x),
        Table.empty.insert (n.parameterName x) value)) hvalues

namespace ElementsDraft

variable {p : Provider} {settings : QuerySettings} {needed : Bool}

/-- The clauses stay, the numbers of the nodes whose constraints are in do not. -/
def shift (a : Nat) (x : ElementsDraft) : ElementsDraft :=
  { x with
    predefinedDone := x.predefinedDone.map (NodeId.shift a)
    valuesDone := x.valuesDone.map (NodeId.shift a) }

theorem addPredefined_shift (n : Node) (x : ElementsDraft) :
    (x.shift a).addPredefined p (n.shift a) = (x.addPredefined p n).shift a := by
  have hdone :
      (x.shift a).predefinedDone.contains (n.shift a).id = x.predefinedDone.contains n.id :=
    NodeId.contains_map_shift _ _
  rw [addPredefined, hdone, addPredefined]
  split <;> rfl

theorem addValueConstraints_shift (target : NodeId) (n : Node) (x : ElementsDraft) :
    (x.shift a).addValueConstraints p (target.shift a) needed (n.shift a) =
      (x.addValueConstraints p target needed n).shift a := by
  have hdone : (x.shift a).valuesDone.contains (n.shift a).id = x.valuesDone.contains n.id :=
    NodeId.contains_map_shift _ _
  have hid : ((n.shift a).id == target.shift a) = (n.id == target) := NodeId.beq_shift n.id target
  have himmutable : (n.shift a).immutable = n.immutable := rfl
  rw [addValueConstraints, hdone, hid, Node.valueConstraints_shift, himmutable,
    addValueConstraints]
  split <;> rfl

theorem addNegation_shift (source : Node) (l : Link) (target : Node) (arrow : String)
    (x : ElementsDraft) :
    (x.shift a).addNegation p (source.shift a) (l.shift a b) (target.shift a) arrow =
      (x.addNegation p source l target arrow).shift a := by
  have hselected : (target.shift a).selected = target.selected.map (SelectedValue.shift a) := rfl
  simp only [addNegation, Node.hasValue_shift, Node.negatedParameters_shift, hselected, mapIdx_map]
  split <;> rfl

theorem addEnds_shift (target : NodeId) (applies : Bool) (l : Link) (source node : Node)
    (x : ElementsDraft) :
    (x.shift a).addEnds p settings (target.shift a) needed applies (l.shift a b) (source.shift a)
      (node.shift a) = (x.addEnds p settings target needed applies l source node).shift a := by
  have hrelation (x : ElementsDraft) (arrow : String) :
      (x.shift a).addRelation (source.shift a) (l.shift a b) (node.shift a) arrow =
        (x.addRelation source l node arrow).shift a := rfl
  have hnegative : (node.shift a).negative = node.negative := rfl
  have hreversed : (node.shift a).isReversed = node.isReversed := rfl
  simp only [addEnds, addPredefined_shift, addNegation_shift, hrelation, hnegative, hreversed]
  split <;> exact addValueConstraints_shift target node _

theorem addLink_shift (d : Diagram) (target : NodeId) (l : Link) (x : ElementsDraft) :
    addLink (d.shift a b) p settings (target.shift a) needed (x.shift a) (l.shift a b) =
      ((addLink d p settings target needed x l).mapError (GraphError.shift a)).map (shift a) := by
  have hsource : (d.shift a b).node? (l.shift a b).source = (d.node? l.source).map (Node.shift a) :=
    Diagram.node?_shift d l.source
  have htarget : (d.shift a b).node? (l.shift a b).target = (d.node? l.target).map (Node.shift a) :=
    Diagram.node?_shift d l.target
  cases hs : d.node? l.source with
  | none =>
    rw [hs] at hsource
    simp only [addLink, hs, hsource]
    rfl
  | some s =>
    rw [hs] at hsource
    cases hn : d.node? l.target with
    | none =>
      rw [hn] at htarget
      simp only [addLink, hs, hsource, hn, htarget]
      rfl
    | some n =>
      rw [hn] at htarget
      rw [Diagram.addLink_eq hsource htarget, Diagram.addLink_eq hs hn]
      have happlies : (d.shift a b).negationApplies (l.shift a b).target (target.shift a) =
          d.negationApplies l.target target := Diagram.negationApplies_shift d l.target target
      rw [happlies, addEnds_shift]
      rfl

theorem addLinks_shift (d : Diagram) (target : NodeId) (links : List Link) (x : ElementsDraft) :
    (links.map (Link.shift a b)).foldlM
      (addLink (d.shift a b) p settings (target.shift a) needed) (x.shift a) =
      ((links.foldlM (addLink d p settings target needed) x).mapError (GraphError.shift a)).map
        (shift a) := by
  induction links generalizing x with
  | nil => rfl
  | cons l links ih =>
    rw [List.map_cons, List.foldlM_cons, addLink_shift, List.foldlM_cons]
    cases addLink d p settings target needed x l with
    | error e => rfl
    | ok y => exact ih y

end ElementsDraft

theorem generateElements_shift (p : Provider) (settings : QuerySettings) (needed : Bool)
    (d : Diagram) (target : NodeId) (links : List Link) :
    generateElements (d.shift a b) p settings (target.shift a) (links.map (Link.shift a b)) needed =
      (generateElements d p settings target links needed).mapError (GraphError.shift a) := by
  rw [generateElements, Diagram.root?_shift, generateElements]
  cases d.root? with
  | none => rfl
  | some r =>
    have hstart : (ElementsDraft.addPredefined p (r.shift a) {}).addValueConstraints p
        (target.shift a) needed (r.shift a) =
        ((ElementsDraft.addPredefined p r {}).addValueConstraints p target needed r).shift a := by
      rw [← ElementsDraft.addValueConstraints_shift, ← ElementsDraft.addPredefined_shift]
      rfl
    simp only [Option.map_some, hstart, ElementsDraft.addLinks_shift]
    cases links.foldlM (ElementsDraft.addLink d p settings target needed) _ <;> rfl

/-! ## Statements -/

namespace Compiler

variable {c : Compiler}

theorem elements_shift (c : Compiler) (d : Diagram) (target : NodeId) :
    c.elements (d.shift a b) (target.shift a) =
      (c.elements d target).mapError (GraphError.shift a) := by
  rw [elements, Diagram.relevantLinks_shift, generateElements_shift, elements]

theorem constrain_shift (c : Compiler) (n : Node) (parts : StatementParts) :
    c.constrain (n.shift a) parts = c.constrain n parts := by
  have hlabel : (n.shift a).label = n.label := rfl
  rw [constrain, hlabel, Node.valueConstraints_shift, constrain]

theorem finish_shift (hc : c.provider.IgnoresNumbers) (kind : StatementKind) (n : Node)
    (parts : StatementParts) : c.finish kind (n.shift a) parts = c.finish kind n parts := by
  rw [finish, hc, finish]

theorem resultQuery_shift (hc : c.provider.IgnoresNumbers) (d : Diagram) (graphMode : Bool) :
    c.resultQuery (d.shift a b) graphMode =
      (c.resultQuery d graphMode).mapError (GraphError.shift a) := by
  rw [resultQuery, Diagram.root?_shift, resultQuery]
  cases d.root? with
  | none => rfl
  | some r =>
    have helements : c.elements (d.shift a b) (r.shift a).id =
        (c.elements d r.id).mapError (GraphError.shift a) := elements_shift c d r.id
    simp only [Option.map_some, helements]
    cases c.elements d r.id with
    | error e => rfl
    | ok e =>
      simp only [Except.mapError, finish_shift hc, constrain_shift]
      rfl

theorem countQuery_shift (hc : c.provider.IgnoresNumbers) (d : Diagram) (id : NodeId) :
    c.countQuery (d.shift a b) (id.shift a) =
      (c.countQuery d id).mapError (GraphError.shift a) := by
  rw [countQuery, Diagram.node?_shift, elements_shift, countQuery]
  cases d.node? id with
  | none => rfl
  | some n =>
    simp only [Option.map_some]
    cases c.elements d id with
    | error e => rfl
    | ok e =>
      simp only [Except.mapError, finish_shift hc, constrain_shift]
      rfl

theorem valueQuery_shift (hc : c.provider.IgnoresNumbers) (d : Diagram) (id : NodeId) :
    c.valueQuery (d.shift a b) (id.shift a) =
      (c.valueQuery d id).mapError (GraphError.shift a) := by
  rw [valueQuery, Diagram.node?_shift, Diagram.root?_shift, elements_shift, valueQuery]
  cases d.node? id with
  | none => rfl
  | some n =>
    cases d.root? with
    | none => rfl
    | some r =>
      simp only [Option.map_some]
      cases c.elements d id with
      | error e => rfl
      | ok e =>
        simp only [Except.mapError, finish_shift hc]
        rfl

theorem relationQuery_shift (hc : c.provider.IgnoresNumbers) (d : Diagram) (id : NodeId) :
    c.relationQuery (d.shift a b) (id.shift a) =
      (c.relationQuery d id).mapError (GraphError.shift a) := by
  rw [relationQuery, Diagram.node?_shift, Diagram.linksToRoot_shift, relationQuery]
  cases d.node? id with
  | none => rfl
  | some n =>
    simp only [Option.map_some, generateElements_shift, List.isEmpty_map]
    cases generateElements d c.provider c.settings id (d.linksToRoot id) false with
    | error e => rfl
    | ok e =>
      simp only [Except.mapError, finish_shift hc]
      rfl

end Compiler

end PatternQuery
