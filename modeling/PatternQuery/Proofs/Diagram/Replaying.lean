import PatternQuery.Proofs.Diagram.Renumbering

/-!
# Operations in a renumbered diagram

An operation whose arguments are renumbered like the diagram gives back what it gives back in the
diagram, renumbered, and so does a whole sequence of operations, step by step
(`Operation.trace_shift`). Besides the diagrams this goes for everything that callers get
(`Operation.answer`): numbers of nodes, counts, flags and errors.
-/

namespace PatternQuery

variable {a b : Nat}

/-! ## Answers -/

/-- An answer with other numbers; those of its result are changed by `f`. -/
def shiftAnswer {α : Type} (a b : Nat) (f : α → α) (r : Except GraphError α × Diagram) :
    Except GraphError α × Diagram :=
  ((r.1.mapError (GraphError.shift a)).map f, r.2.shift a b)

namespace Diagram

/-! ### Children and segments -/

theorem expandRelationship_shift (p : Provider) (id : NodeId) (index : Nat) (d : Diagram) :
    (d.shift a b).expandRelationship p (id.shift a) index =
      shiftAnswer a b (NodeId.shift a) (d.expandRelationship p id index) := by
  rw [expandRelationship, node?_shift, expandRelationship]
  cases d.node? id with
  | none => rfl
  | some n =>
    have hrelationships : (n.shift a).relationships = n.relationships := rfl
    simp only [Option.map_some, hrelationships, attachChild_shift]
    cases n.relationships[index]? <;> rfl

theorem setRelationships_shift (id : NodeId) (segments : List Segment) (d : Diagram) :
    (d.shift a b).setRelationships (id.shift a) segments =
      shiftAnswer a b (fun x => x) (d.setRelationships id segments) := by
  rw [setRelationships, node?_shift, relate_shift, setRelationships]
  cases d.node? id <;> rfl

/-! ### Candidates -/

theorem setData_shift (id : NodeId) (rows : List Row) (d : Diagram) :
    (d.shift a b).setData (id.shift a) rows =
      shiftAnswer a b (fun x => x) (d.setData id rows) := by
  have hstore : ((d.shift a b).modify (id.shift a) fun n =>
      { n with data := some rows, page := 1 }) =
      (d.modify id fun n => { n with data := some rows, page := 1 }).shift a b := by
    refine modify_shift (fun n => ?_) d id
    rfl
  rw [setData, node?_shift, hstore, setData]
  cases d.node? id <;> rfl

theorem setPinned_shift (parent : Option NodeId) (fixed : Bool) (d : Diagram) :
    (d.shift a b).setPinned (parent.map (NodeId.shift a)) fixed =
      (d.setPinned parent fixed).shift a b := by
  cases parent with
  | none => rfl
  | some id =>
    refine modify_shift (fun n => ?_) d id
    have hroot : (n.shift a).isRoot = n.isRoot := rfl
    rw [hroot]
    split <;> rfl

theorem withoutValues_shift (id : NodeId) (d : Diagram) :
    (d.shift a b).withoutValues (id.shift a) = (d.withoutValues id).shift a b := by
  refine keep_shift (fun x => ?_) (fun l => ?_) d
  · have htargets : ((d.shift a b).valueLinks (id.shift a)).map Link.target =
        ((d.valueLinks id).map Link.target).map (NodeId.shift a) := by
      rw [valueLinks_shift, List.map_map, List.map_map]
      rfl
    rw [htargets, NodeId.contains_map_shift]
  · rw [Link.isValueOf_shift]

theorem collapseValues_shift (id : NodeId) (d : Diagram) :
    (d.shift a b).collapseValues (id.shift a) =
      shiftAnswer a b (fun x => x) (d.collapseValues id) := by
  have hfold : (((d.shift a b).withoutValues (id.shift a)).modify (id.shift a) fun n =>
      { n with expanded := false, fixed := n.isRoot && n.fixed }) =
      ((d.withoutValues id).modify id fun n =>
        { n with expanded := false, fixed := n.isRoot && n.fixed }).shift a b := by
    rw [withoutValues_shift]
    refine modify_shift (fun n => ?_) _ id
    rfl
  rw [collapseValues, node?_shift, collapseValues]
  cases d.node? id with
  | none => rfl
  | some n =>
    have hexpanded : (n.shift a).expanded = n.expanded := rfl
    simp only [Option.map_some, hexpanded]
    cases n.expanded with
    | false => rfl
    | true =>
      refine Prod.ext rfl ?_
      show Diagram.setPinned (n.parent.map (NodeId.shift a)) false
        (((d.shift a b).withoutValues (id.shift a)).modify (id.shift a) _) = _
      rw [hfold, setPinned_shift]
      rfl

theorem addValueNodes_shift (id : NodeId) (label : String) (rows : List Row) (d : Diagram) :
    rows.foldl (addValueNode (id.shift a) label) (d.shift a b) =
      (rows.foldl (addValueNode id label) d).shift a b := by
  induction rows generalizing d with
  | nil => rfl
  | cons row rows ih =>
    have hadd : addValueNode (id.shift a) label (d.shift a b) row =
        (addValueNode id label d row).shift a b := by
      have hnode : shownNode (id.shift a) label row (d.shift a b) =
          (shownNode id label row d).shift a := rfl
      have hlink : shownLink (id.shift a) (d.shift a b) = (shownLink id d).shift a b := rfl
      rw [addValueNode_eq, hnode, hlink, attach_shift, addValueNode_eq]
    rw [List.foldl_cons, hadd, ih, List.foldl_cons]

theorem expandValues_shift (id : NodeId) (d : Diagram) :
    (d.shift a b).expandValues (id.shift a) =
      shiftAnswer a b (fun x => x) (d.expandValues id) := by
  have hcollapse : ((d.shift a b).collapseValues (id.shift a)).2 =
      (d.collapseValues id).2.shift a b := by
    rw [collapseValues_shift]
    rfl
  have hshow (d : Diagram) : ((d.shift a b).modify (id.shift a) fun n =>
      { n with fixed := true, expanded := true }) =
      (d.modify id fun n => { n with fixed := true, expanded := true }).shift a b := by
    refine modify_shift (fun n => ?_) d id
    rfl
  rw [expandValues, node?_shift, hcollapse, expandValues]
  cases d.node? id with
  | none => rfl
  | some n =>
    have hdata : (n.shift a).data = n.data := rfl
    simp only [Option.map_some, hdata]
    cases n.data with
    | none => rfl
    | some rows =>
      refine Prod.ext rfl ?_
      show Diagram.setPinned (n.parent.map (NodeId.shift a)) true
        (((pageRows (d.collapseValues id).2.pageSize n rows).foldl
          (addValueNode (id.shift a) n.label) ((d.collapseValues id).2.shift a b)).modify
            (id.shift a) _) = _
      rw [addValueNodes_shift, hshow, setPinned_shift]
      rfl

theorem selectValue_shift (id : NodeId) (d : Diagram) :
    (d.shift a b).selectValue (id.shift a) =
      shiftAnswer a b (NodeId.shift a) (d.selectValue id) := by
  have hselect (parent : NodeId) (v : SelectedValue) :
      (((d.shift a b).modify (parent.shift a) fun n =>
        { n with selected := n.selected ++ [v.shift a] }).collapseValues (parent.shift a)).2 =
      ((d.modify parent fun n =>
        { n with selected := n.selected ++ [v] }).collapseValues parent).2.shift a b := by
    have hmodify : ((d.shift a b).modify (parent.shift a) fun n =>
        { n with selected := n.selected ++ [v.shift a] }) =
        (d.modify parent fun n => { n with selected := n.selected ++ [v] }).shift a b := by
      refine modify_shift (fun n => ?_) d parent
      simp [Node.shift]
    rw [hmodify, collapseValues_shift]
    rfl
  rw [selectValue, node?_shift, selectValue]
  cases d.node? id with
  | none => rfl
  | some n =>
    have hkind : (n.shift a).kind = n.kind := rfl
    have hparent : (n.shift a).parent = n.parent.map (NodeId.shift a) := rfl
    simp only [Option.map_some, hkind, hparent]
    cases n.kind with
    | root | choose | group => rfl
    | value =>
      cases n.parent with
      | none => rfl
      | some parent =>
        simp only [Option.map_some, node?_shift]
        cases d.node? parent with
        | none => rfl
        | some _ =>
          exact Prod.ext rfl (hselect parent
            ⟨n.id, n.label, n.attributes.getD Table.empty, n.internalId, n.count⟩)

/-! ### Pages -/

theorem hasNextPage_shift (id : NodeId) (d : Diagram) :
    (d.shift a b).hasNextPage (id.shift a) = d.hasNextPage id := by
  rw [hasNextPage, node?_shift, hasNextPage]
  cases d.node? id <;> rfl

theorem hasPreviousPage_shift (id : NodeId) (d : Diagram) :
    (d.shift a b).hasPreviousPage (id.shift a) = d.hasPreviousPage id := by
  rw [hasPreviousPage, node?_shift, hasPreviousPage]
  cases d.node? id <;> rfl

theorem turnPage_shift (id : NodeId) (turn : Nat → Nat) (d : Diagram) :
    (d.shift a b).turnPage (id.shift a) turn =
      shiftAnswer a b (fun x => x) (d.turnPage id turn) := by
  have hturn : ((d.shift a b).modify (id.shift a) fun n => { n with page := turn n.page }) =
      (d.modify id fun n => { n with page := turn n.page }).shift a b := by
    refine modify_shift (fun n => ?_) d id
    rfl
  rw [turnPage, hturn, expandValues_shift, turnPage]
  cases (d.modify id fun n => { n with page := turn n.page }).expandValues id with
  | mk result d' => cases result <;> rfl

theorem nextPage_shift (id : NodeId) (d : Diagram) :
    (d.shift a b).nextPage (id.shift a) = shiftAnswer a b (fun x => x) (d.nextPage id) := by
  rw [nextPage, hasNextPage_shift, turnPage_shift, nextPage]
  split <;> rfl

theorem previousPage_shift (id : NodeId) (d : Diagram) :
    (d.shift a b).previousPage (id.shift a) = shiftAnswer a b (fun x => x) (d.previousPage id) := by
  rw [previousPage, hasPreviousPage_shift, turnPage_shift, previousPage]
  split <;> rfl

/-! ### Pruning -/

theorem constrains_shift (n : Node) : constrains (n.shift a) = constrains n := by
  rw [constrains, Node.hasValue_shift, constrains]
  rfl

theorem removeSubtree_shift (id : NodeId) (d : Diagram) :
    (d.shift a b).removeSubtree (id.shift a) =
      ((d.removeSubtree id).1, (d.removeSubtree id).2.shift a b) := by
  refine Prod.ext ?_ ?_
  · show (d.nodes.map (Node.shift a)).any _ = d.nodes.any _
    rw [List.any_map]
    congr 1
    funext n
    show ((d.shift a b).isReachableFrom (id.shift a) (n.id.shift a) && constrains (n.shift a)) = _
    rw [isReachableFrom_shift, constrains_shift]
  · rw [removeSubtree_snd, removeSubtree_snd]
    refine keep_shift (fun x => ?_) (fun l => ?_) d
    · rw [isReachableFrom_shift]
    · show (!(d.shift a b).isReachableFrom (id.shift a) (l.source.shift a) &&
        !(d.shift a b).isReachableFrom (id.shift a) (l.target.shift a)) = _
      rw [isReachableFrom_shift, isReachableFrom_shift]

theorem removeSubtrees_shift (ids : List NodeId) (d : Diagram) :
    (ids.map (NodeId.shift a)).foldl (fun d x => (d.removeSubtree x).2) (d.shift a b) =
      (ids.foldl (fun d x => (d.removeSubtree x).2) d).shift a b := by
  induction ids generalizing d with
  | nil => rfl
  | cons x ids ih => rw [List.map_cons, List.foldl_cons, removeSubtree_shift, ih, List.foldl_cons]

theorem pruneNegated_shift (id : NodeId) (d : Diagram) :
    (d.shift a b).pruneNegated (id.shift a) = (d.pruneNegated id).shift a b := by
  rw [pruneNegated, children_shift, removeSubtrees_shift, collapseValues_shift]
  refine modify_shift (fun n => ?_) _ id
  rfl

theorem removeValue_shift (id value : NodeId) (d : Diagram) :
    (d.shift a b).removeValue (id.shift a) (value.shift a) =
      shiftAnswer a b (fun x => x) (d.removeValue id value) := by
  rw [removeValue, node?_shift, removeValue]
  cases d.node? id with
  | none => rfl
  | some n =>
    have hrest : ((n.shift a).selected.filter fun v => v.id != value.shift a) =
        (n.selected.filter fun v => v.id != value).map (SelectedValue.shift a) := by
      show (n.selected.map (SelectedValue.shift a)).filter _ = _
      rw [List.filter_map]
      congr 2
      funext v
      exact NodeId.bne_shift v.id value
    have hlength : (n.shift a).selected.length = n.selected.length := List.length_map _
    have hnegative : (n.shift a).negative = n.negative := rfl
    have hselect (rest : List SelectedValue) : ((d.shift a b).modify (id.shift a) fun m =>
        { m with selected := rest.map (SelectedValue.shift a) }) =
        (d.modify id fun m => { m with selected := rest }).shift a b := by
      refine modify_shift (fun n => ?_) d id
      rfl
    simp only [Option.map_some, hrest, hlength, hnegative, List.length_map, hselect,
      pruneNegated_shift, List.isEmpty_map]
    split
    · rfl
    · split <;> rfl

theorem negate_shift (id : NodeId) (d : Diagram) :
    (d.shift a b).negate (id.shift a) = shiftAnswer a b (fun x => x) (d.negate id) := by
  have hset (negative : Bool) (d : Diagram) :
      ((d.shift a b).modify (id.shift a) fun n => { n with negative }) =
      (d.modify id fun n => { n with negative }).shift a b := by
    refine modify_shift (fun n => ?_) d id
    rfl
  rw [negate, node?_shift, negate]
  cases d.node? id with
  | none => rfl
  | some n =>
    have hkind : (n.shift a).kind = n.kind := rfl
    have hnegative : (n.shift a).negative = n.negative := rfl
    simp only [Option.map_some, hkind, hnegative, Node.hasValue_shift, pruneNegated_shift]
    split
    · rfl
    · split
      · rw [hset]
        rfl
      · split <;> rw [hset] <;> rfl

theorem removeNode_shift (id : NodeId) (d : Diagram) :
    (d.shift a b).removeNode (id.shift a) = shiftAnswer a b (fun x => x) (d.removeNode id) := by
  have hany : (d.shift a b).nodes.any constrains = d.nodes.any constrains := by
    show (d.nodes.map (Node.shift a)).any _ = _
    rw [List.any_map]
    congr 1
    funext n
    exact constrains_shift n
  rw [removeNode, node?_shift, removeNode]
  cases d.node? id with
  | none => rfl
  | some n =>
    have hroot : (n.shift a).isRoot = n.isRoot := rfl
    simp only [Option.map_some, hroot, hany, removeSubtree_shift]
    split <;> rfl

end Diagram

/-! ## Operations -/

/-- What an operation gives back if it is not refused. -/
inductive Reply where
  | done
  | node (id : NodeId)
  | count (n : Nat)
  | flag (b : Bool)
  deriving DecidableEq

def Reply.shift (a : Nat) : Reply → Reply
  | node id => node (id.shift a)
  | r => r

namespace Operation

/-- The operation about the same nodes under other numbers. -/
def shift (a : Nat) : Operation → Operation
  | expandRelationship id index => expandRelationship (id.shift a) index
  | setRelationships id segments => setRelationships (id.shift a) segments
  | setData id rows => setData (id.shift a) rows
  | expandValues id => expandValues (id.shift a)
  | collapseValues id => collapseValues (id.shift a)
  | selectValue id => selectValue (id.shift a)
  | removeValue id value => removeValue (id.shift a) (value.shift a)
  | negate id => negate (id.shift a)
  | removeNode id => removeNode (id.shift a)
  | nextPage id => nextPage (id.shift a)
  | previousPage id => previousPage (id.shift a)
  | o => o

/-- An answer whose result is a reply. -/
def replying {α : Type} (f : α → Reply) (r : Except GraphError α × Diagram) :
    Except GraphError Reply × Diagram :=
  (r.1.map f, r.2)

/-- Carries out an operation and keeps all that it gives back. -/
def answer (p : Provider) (o : Operation) (d : Diagram) : Except GraphError Reply × Diagram :=
  match o with
  | addRoot label anchor => (.ok (.node (d.addRoot p label anchor).1), (d.addRoot p label anchor).2)
  | addSchema s anchor => (.ok (.node (d.addSchema p s anchor).1), (d.addSchema p s anchor).2)
  | clear => (.ok .done, d.clear)
  | expandRelationship id index => replying .node (d.expandRelationship p id index)
  | setRelationships id segments => replying (fun _ => .done) (d.setRelationships id segments)
  | setData id rows => replying (fun _ => .done) (d.setData id rows)
  | expandValues id => replying .count (d.expandValues id)
  | collapseValues id => replying (fun _ => .done) (d.collapseValues id)
  | selectValue id => replying .node (d.selectValue id)
  | removeValue id value => replying .flag (d.removeValue id value)
  | negate id => replying .flag (d.negate id)
  | removeNode id => replying .flag (d.removeNode id)
  | nextPage id => replying .flag (d.nextPage id)
  | previousPage id => replying .flag (d.previousPage id)

/-- The answers to operations that are carried out in turn, each with the diagram after it. -/
def trace (p : Provider) : List Operation → Diagram → List (Except GraphError Reply × Diagram)
  | [], _ => []
  | o :: rest, d => o.answer p d :: trace p rest (o.answer p d).2

theorem replying_shift {α : Type} {f : α → Reply} {g : α → α} {r r' : Except GraphError α × Diagram}
    (h : r' = shiftAnswer a b g r) (hfg : ∀ x, f (g x) = (f x).shift a) :
    replying f r' = shiftAnswer a b (Reply.shift a) (replying f r) := by
  obtain ⟨result, d⟩ := r
  rw [h]
  cases result with
  | error e => rfl
  | ok x => exact Prod.ext (congrArg Except.ok (hfg x)) rfl

/-- In a renumbered diagram an operation does the same under other numbers. -/
theorem answer_shift (p : Provider) (o : Operation) (d : Diagram) :
    (o.shift a).answer p (d.shift a b) = shiftAnswer a b (Reply.shift a) (o.answer p d) := by
  cases o with
  | addRoot label anchor =>
    show (Except.ok (Reply.node ((d.shift a b).addRoot p label anchor).1), _) = _
    rw [Diagram.addRoot_shift]
    rfl
  | addSchema s anchor =>
    show (Except.ok (Reply.node ((d.shift a b).addSchema p s anchor).1), _) = _
    rw [Diagram.addSchema_shift]
    rfl
  | clear => rfl
  | expandRelationship id index =>
    exact replying_shift (Diagram.expandRelationship_shift p id index d) fun _ => rfl
  | setRelationships id segments =>
    exact replying_shift (Diagram.setRelationships_shift id segments d) fun _ => rfl
  | setData id rows => exact replying_shift (Diagram.setData_shift id rows d) fun _ => rfl
  | expandValues id => exact replying_shift (Diagram.expandValues_shift id d) fun _ => rfl
  | collapseValues id => exact replying_shift (Diagram.collapseValues_shift id d) fun _ => rfl
  | selectValue id => exact replying_shift (Diagram.selectValue_shift id d) fun _ => rfl
  | removeValue id value => exact replying_shift (Diagram.removeValue_shift id value d) fun _ => rfl
  | negate id => exact replying_shift (Diagram.negate_shift id d) fun _ => rfl
  | removeNode id => exact replying_shift (Diagram.removeNode_shift id d) fun _ => rfl
  | nextPage id => exact replying_shift (Diagram.nextPage_shift id d) fun _ => rfl
  | previousPage id => exact replying_shift (Diagram.previousPage_shift id d) fun _ => rfl

/-- What a sequence of operations does in a renumbered diagram. -/
theorem trace_shift (p : Provider) (ops : List Operation) (d : Diagram) :
    trace p (ops.map (shift a)) (d.shift a b) =
      (trace p ops d).map (shiftAnswer a b (Reply.shift a)) := by
  induction ops generalizing d with
  | nil => rfl
  | cons o rest ih =>
    rw [List.map_cons, trace, answer_shift, trace, List.map_cons]
    exact congrArg _ (ih _)

end Operation

end PatternQuery
