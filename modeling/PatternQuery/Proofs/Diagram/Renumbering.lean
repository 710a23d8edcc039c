import PatternQuery.Proofs.Diagram.Operation

/-!
# Renumbering

Only the order and the equality of numbers count. So where all numbers of nodes go up by `a` and
those of links by `b` (`Diagram.shift`), every edit of the shifted diagram gives what the edit of
the diagram gives, shifted. Nothing is assumed about the diagram: numbers that belong to no node are
shifted, too.
-/

namespace PatternQuery

variable {a b : Nat}

def NodeId.shift (a : Nat) (id : NodeId) : NodeId := ⟨id.number + a⟩

def LinkId.shift (b : Nat) (id : LinkId) : LinkId := ⟨id.number + b⟩

def SelectedValue.shift (a : Nat) (v : SelectedValue) : SelectedValue :=
  { v with id := v.id.shift a }

def Node.shift (a : Nat) (n : Node) : Node :=
  { n with
    id := n.id.shift a
    parent := n.parent.map (NodeId.shift a)
    selected := n.selected.map (SelectedValue.shift a) }

def Link.shift (a b : Nat) (l : Link) : Link :=
  { l with id := l.id.shift b, source := l.source.shift a, target := l.target.shift a }

def GraphError.shift (a : Nat) : GraphError → GraphError
  | nodeNotFound id => nodeNotFound (id.shift a)
  | notAValueNode id => notAValueNode (id.shift a)
  | segmentNotFound id index => segmentNotFound (id.shift a) index
  | emptyGraph => emptyGraph
  | valueFetchInProgress => valueFetchInProgress

def Diagram.shift (a b : Nat) (d : Diagram) : Diagram :=
  { d with
    nodes := d.nodes.map (Node.shift a)
    links := d.links.map (Link.shift a b)
    nextNode := d.nextNode + a
    nextLink := d.nextLink + b }

/-! ## Numbers -/

theorem NodeId.shift_inj {x y : NodeId} : x.shift a = y.shift a ↔ x = y := by
  obtain ⟨x⟩ := x
  obtain ⟨y⟩ := y
  simp [shift]

@[simp]
theorem NodeId.beq_shift (x y : NodeId) : (x.shift a == y.shift a) = (x == y) := by
  rw [Bool.eq_iff_iff, beq_iff_eq, beq_iff_eq, shift_inj]

@[simp]
theorem NodeId.bne_shift (x y : NodeId) : (x.shift a != y.shift a) = (x != y) := by
  rw [bne, beq_shift, bne]

@[simp]
theorem LinkId.beq_shift (x y : LinkId) : (x.shift b == y.shift b) = (x == y) := by
  obtain ⟨x⟩ := x
  obtain ⟨y⟩ := y
  rw [Bool.eq_iff_iff, beq_iff_eq, beq_iff_eq]
  simp [shift]

theorem NodeId.number_shift_lt {x y : NodeId} :
    (x.shift a).number < (y.shift a).number ↔ x.number < y.number := by
  simp [shift]

theorem NodeId.contains_map_shift (l : List NodeId) (x : NodeId) :
    (l.map (NodeId.shift a)).contains (x.shift a) = l.contains x := by
  induction l with
  | nil => rfl
  | cons y l ih => rw [List.map_cons, List.contains_cons, List.contains_cons, ih, beq_shift]

theorem Node.hasValue_shift (n : Node) : (n.shift a).hasValue = n.hasValue := by
  simp [hasValue, shift]

theorem Link.isValueOf_shift (l : Link) (id : NodeId) :
    (l.shift a b).isValueOf (id.shift a) = l.isValueOf id := by
  simp [isValueOf, shift]

namespace Diagram

variable {d : Diagram} {id : NodeId} {n : Node}

/-! ## Looking up -/

theorem node?_shift (d : Diagram) (id : NodeId) :
    (d.shift a b).node? (id.shift a) = (d.node? id).map (Node.shift a) := by
  simp only [node?, shift, List.find?_map]
  congr 2
  funext n
  exact NodeId.beq_shift n.id id

theorem isEmpty_shift (d : Diagram) : (d.shift a b).isEmpty = d.isEmpty := by
  simp [isEmpty, shift]

theorem root?_shift (d : Diagram) : (d.shift a b).root? = d.root?.map (Node.shift a) := by
  simp only [root?, shift, List.head?_map]
  cases d.nodes.head? with
  | none => rfl
  | some n =>
    simp only [Option.map_some, Option.filter_some]
    have hr : (n.shift a).isRoot = n.isRoot := rfl
    rw [hr]
    cases n.isRoot <;> rfl

theorem relationLinks_shift (d : Diagram) :
    (d.shift a b).relationLinks = d.relationLinks.map (Link.shift a b) := by
  simp only [relationLinks, shift, List.filter_map]
  rfl

theorem incomingRelation?_shift (d : Diagram) (id : NodeId) :
    (d.shift a b).incomingRelation? (id.shift a) =
      (d.incomingRelation? id).map (Link.shift a b) := by
  rw [incomingRelation?, relationLinks_shift, List.find?_map, incomingRelation?]
  congr 2
  funext l
  exact NodeId.beq_shift l.target id

theorem children_shift (d : Diagram) (id : NodeId) :
    (d.shift a b).children (id.shift a) = (d.children id).map (NodeId.shift a) := by
  have hsource : ((fun l : Link => l.source == id.shift a) ∘ Link.shift a b) =
      fun l => l.source == id := funext fun l => NodeId.beq_shift l.source id
  rw [children, relationLinks_shift, List.filter_map, hsource, List.map_map, children, List.map_map]
  rfl

theorem valueLinks_shift (d : Diagram) (id : NodeId) :
    (d.shift a b).valueLinks (id.shift a) = (d.valueLinks id).map (Link.shift a b) := by
  simp only [valueLinks, shift, List.filter_map]
  congr 2
  funext l
  exact Link.isValueOf_shift l id

/-! ## Walks -/

theorem ancestors_shift (d : Diagram) (id : NodeId) :
    (d.shift a b).ancestors (id.shift a) = (d.ancestors id).map (NodeId.shift a) := by
  have hparent (id : NodeId) : ((d.shift a b).node? (id.shift a)).bind Node.parent =
      ((d.node? id).bind Node.parent).map (NodeId.shift a) := by
    rw [node?_shift]
    cases d.node? id <;> rfl
  fun_induction Diagram.ancestors d id with
  | case1 id h =>
    rw [ancestors, hparent, h]
    rfl
  | case2 id p h hlt ih =>
    rw [ancestors, hparent, h]
    simp only [Option.map_some, NodeId.number_shift_lt.2 hlt, if_true, ih, List.map_cons]
  | case3 id p h hlt =>
    rw [ancestors, hparent, h]
    simp only [Option.map_some, NodeId.number_shift_lt, hlt, if_false, List.map_nil]

theorem isAncestorOrSelf_shift (d : Diagram) (x id : NodeId) :
    (d.shift a b).isAncestorOrSelf (x.shift a) (id.shift a) = d.isAncestorOrSelf x id := by
  rw [isAncestorOrSelf, ancestors_shift, NodeId.beq_shift, NodeId.contains_map_shift,
    isAncestorOrSelf]

theorem incomingPath_shift (d : Diagram) (id : NodeId) :
    (d.shift a b).incomingPath (id.shift a) = (d.incomingPath id).map (Link.shift a b) := by
  fun_induction Diagram.incomingPath d id with
  | case1 id h =>
    rw [incomingPath, incomingRelation?_shift, h]
    rfl
  | case2 id l h hlt ih =>
    have hlt' : (l.shift a b).source.number < (id.shift a).number := NodeId.number_shift_lt.2 hlt
    rw [incomingPath, incomingRelation?_shift, h]
    simp only [Option.map_some, hlt', if_true, List.map_cons]
    exact congrArg _ ih
  | case3 id l h hlt =>
    have hlt' : ¬ (l.shift a b).source.number < (id.shift a).number :=
      fun h => hlt (NodeId.number_shift_lt.1 h)
    rw [incomingPath, incomingRelation?_shift, h]
    simp only [Option.map_some, hlt', if_false, List.map_nil]

theorem isReachableFrom_shift (d : Diagram) (top id : NodeId) :
    (d.shift a b).isReachableFrom (top.shift a) (id.shift a) = d.isReachableFrom top id := by
  have hlink (id : NodeId) : ((d.shift a b).links.find? fun l => l.target == id.shift a) =
      (d.links.find? fun l => l.target == id).map (Link.shift a b) := by
    simp only [shift, List.find?_map]
    congr 2
    funext l
    exact NodeId.beq_shift l.target id
  generalize hk : id.number = k
  induction k using Nat.strongRecOn generalizing id with
  | ind k ih =>
    rw [isReachableFrom, hlink, isReachableFrom, NodeId.beq_shift]
    cases d.links.find? fun l => l.target == id with
    | none => rfl
    | some l =>
      simp only [Option.map_some]
      by_cases hlt : l.source.number < id.number
      · have hlt' : (l.shift a b).source.number < (id.shift a).number :=
          NodeId.number_shift_lt.2 hlt
        rw [if_pos hlt, if_pos hlt']
        exact congrArg _ (ih l.source.number (by omega) l.source rfl)
      · have hlt' : ¬ (l.shift a b).source.number < (id.shift a).number :=
          fun h => hlt (NodeId.number_shift_lt.1 h)
        rw [if_neg hlt, if_neg hlt']

/-! ## Edits -/

/-- A change of nodes does not look at numbers, or its own are shifted, too. -/
theorem modify_shift {f f' : Node → Node} (hf : ∀ n, f' (n.shift a) = (f n).shift a) (d : Diagram)
    (id : NodeId) : (d.shift a b).modify (id.shift a) f' = (d.modify id f).shift a b := by
  simp only [modify, shift, List.map_map]
  congr 1
  refine List.map_congr_left fun n _ => ?_
  simp only [Function.comp]
  by_cases hid : n.id = id
  · have hid' : (n.shift a).id = id.shift a := NodeId.shift_inj.2 hid
    rw [if_pos hid, if_pos hid', hf]
  · have hid' : ¬ (n.shift a).id = id.shift a := fun h => hid (NodeId.shift_inj.1 h)
    rw [if_neg hid, if_neg hid']

theorem keep_shift {p p' : NodeId → Bool} {q q' : Link → Bool} (hp : ∀ x, p' (x.shift a) = p x)
    (hq : ∀ l, q' (l.shift a b) = q l) (d : Diagram) :
    (d.shift a b).keep p' q' = (d.keep p q).shift a b := by
  have hnodes : ((fun n : Node => p' n.id) ∘ Node.shift a) = fun n => p n.id :=
    funext fun n => hp n.id
  have hlinks : q' ∘ Link.shift a b = q := funext hq
  simp only [keep, shift, List.filter_map, hnodes, hlinks]

theorem attach_shift (d : Diagram) (n : Node) (l : Link) :
    (d.shift a b).attach (n.shift a) (l.shift a b) = (d.attach n l).shift a b := by
  simp only [attach, shift, List.map_append, List.map_singleton, Nat.add_right_comm]

theorem addNode_shift {f : Node → Node} (hf : ∀ n, f (n.shift a) = (f n).shift a) (p : Provider)
    (kind : NodeKind) (label : String) (d : Diagram) :
    addNode p kind label f (d.shift a b) =
      ((addNode p kind label f d).1.shift a, (addNode p kind label f d).2.shift a b) := by
  simp only [addNode, shift, List.map_append, List.map_singleton, Nat.add_right_comm, ← hf]
  rfl

theorem addRoot_shift (p : Provider) (label : String) (anchor : Option Position) (d : Diagram) :
    (d.shift a b).addRoot p label anchor =
      ((d.addRoot p label anchor).1.shift a, (d.addRoot p label anchor).2.shift a b) := by
  have hstart : (if (d.shift a b).isEmpty then d.shift a b else (d.shift a b).clear) =
      (if d.isEmpty then d else d.clear).shift a b := by
    rw [isEmpty_shift]
    split <;> rfl
  rw [addRoot, hstart]
  refine addNode_shift (fun n => ?_) p .root label _
  rfl

theorem attachChild_shift (p : Provider) (id : NodeId) (s : Segment) (kind : NodeKind)
    (d : Diagram) : (d.shift a b).attachChild p (id.shift a) s kind =
      ((d.attachChild p id s kind).1.shift a, (d.attachChild p id s kind).2.shift a b) := by
  have hattach := attach_shift (a := a) (b := b) d (childNode p id s kind d) (childLink id s d)
  have hnode : (childNode p id s kind d).shift a = childNode p (id.shift a) s kind (d.shift a b) :=
    rfl
  have hlink : (childLink id s d).shift a b = childLink (id.shift a) s (d.shift a b) := rfl
  rw [attachChild_eq, attachChild_eq, ← hnode, ← hlink, hattach]
  rfl

/-! ## Schemas -/

theorem selectRows_shift (id : NodeId) (label : String) (rows : List Row) (d : Diagram) :
    (d.shift a b).selectRows (id.shift a) label rows = (d.selectRows id label rows).shift a b := by
  have hselected : (rows.mapIdx fun i row =>
      SelectedValue.ofRow ⟨(d.shift a b).nextNode + i⟩ label row) =
      (rows.mapIdx fun i row => SelectedValue.ofRow ⟨d.nextNode + i⟩ label row).map
        (SelectedValue.shift a) := by
    refine List.ext_getElem (by simp) fun i _ _ => ?_
    simp [shift, SelectedValue.shift, SelectedValue.ofRow, NodeId.shift, Nat.add_right_comm]
  have hbump : ({ d.shift a b with nextNode := (d.shift a b).nextNode + rows.length } : Diagram) =
      ({ d with nextNode := d.nextNode + rows.length } : Diagram).shift a b := by
    simp only [shift, Nat.add_right_comm]
  rw [selectRows, hselected, hbump]
  refine modify_shift (fun n => ?_) _ id
  rfl

theorem relate_shift (id : NodeId) (segments : List Segment) (d : Diagram) :
    ((d.shift a b).modify (id.shift a) fun n =>
      { n with relationships := segments, relationshipsLoaded := true }) =
      (d.modify id fun n =>
        { n with relationships := segments, relationshipsLoaded := true }).shift a b := by
  refine modify_shift (fun n => ?_) d id
  rfl

theorem applySchema_shift (p : Provider) (id : NodeId) (s : Schema) (d : Diagram) :
    applySchema p (id.shift a) s (d.shift a b) = (applySchema p id s d).shift a b := by
  refine applySchema.induct p
    (fun id s d => applySchema p (id.shift a) s (d.shift a b) = (applySchema p id s d).shift a b)
    (fun id relations d => applyRelations p (id.shift a) relations (d.shift a b) =
      (applyRelations p id relations d).shift a b) ?_ ?_ ?_ id s d
  · intro id label rows relations group d d₁ segments d₂ ih
    rw [applySchema, selectRows_shift, relate_shift, applySchema]
    exact ih
  · intro id d
    rfl
  · intro id label target isReverse rest d child d' hchild ihtarget ihrest
    rw [applyRelations, attachChild_shift, applyRelations, hchild]
    simp only
    rw [ihtarget, ihrest]

theorem addSchema_shift (p : Provider) (s : Schema) (anchor : Option Position) (d : Diagram) :
    (d.shift a b).addSchema p s anchor =
      ((d.addSchema p s anchor).1.shift a, (d.addSchema p s anchor).2.shift a b) := by
  simp only [addSchema, addRoot_shift, applySchema_shift]

end Diagram

end PatternQuery
