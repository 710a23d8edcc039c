import PatternQuery.Proofs.Diagram.WellFormed

/-!
# Building well-formed diagrams

Roots, children and whole schemas are added to well-formed diagrams only. Segments may be stored on
nodes of the query alone (`WellFormed.setRelationships`): a candidate value with segments could get
children, which would outlive it.
-/

namespace PatternQuery

/-- The node with other segments. -/
def Node.withSegments (segments : List Segment) (n : Node) : Node :=
  { n with relationships := Segment.layout segments, relationshipsLoaded := true }

namespace Diagram

variable {d : Diagram} {id : NodeId} {n : Node}

/-! ## Children -/

/-- The node that is added along a segment. -/
def childNode (p : Provider) (parent : NodeId) (s : Segment) (kind : NodeKind) (d : Diagram) :
    Node :=
  { id := ⟨d.nextNode⟩, kind, label := s.target, var := (d.names.generate s.target).1
    autoLoad := (p.properties s.target).autoLoad, immutable := (p.properties s.target).immutable
    parent := some parent, parentRelation := some s.label, isReversed := s.isReverse }

/-- The link that is added along a segment. -/
def childLink (parent : NodeId) (s : Segment) (d : Diagram) : Link :=
  { id := ⟨d.nextLink⟩, kind := .relation, source := parent, target := ⟨d.nextNode⟩,
    label := s.label }

theorem attachChild_eq (p : Provider) (s : Segment) (kind : NodeKind) (d : Diagram) :
    d.attachChild p id s kind = (⟨d.nextNode⟩,
      { d.attach (childNode p id s kind d) (childLink id s d) with
        names := (d.names.generate s.target).2 }) :=
  rfl

theorem childNode_sound (p : Provider) (s : Segment) (kind : NodeKind) (d : Diagram) :
    (childNode p id s kind d).Sound := by
  constructor <;> simp [childNode]

theorem WellFormed.attachChild (h : d.WellFormed) (p : Provider) (s : Segment) {kind : NodeKind}
    (hk : kind = .choose ∨ kind = .group) (hp : d.IsQueryNode id) :
    (d.attachChild p id s kind).2.WellFormed := by
  rw [attachChild_eq]
  refine (h.attach rfl rfl ?_ ?_ ?_ hp (childNode_sound p s kind d)).withNames _
  · rcases hk with rfl | rfl <;> rfl
  · rcases hk with rfl | rfl <;> simp [childNode]
  · rcases hk with rfl | rfl <;> simp [childNode]

theorem IsQueryNode.attachChild (h : d.IsQueryNode id) (p : Provider) (parent : NodeId)
    (s : Segment) (kind : NodeKind) : (d.attachChild p parent s kind).2.IsQueryNode id :=
  h.attach (childNode p parent s kind d) (childLink parent s d)

/-- The child itself is a node of the query. -/
theorem isQueryNode_attachChild (p : Provider) (s : Segment) {kind : NodeKind}
    (hk : kind = .choose ∨ kind = .group) (d : Diagram) :
    (d.attachChild p id s kind).2.IsQueryNode (d.attachChild p id s kind).1 := by
  rw [attachChild_eq]
  refine ⟨childNode p id s kind d, List.mem_append_right _ (List.mem_singleton.2 rfl), rfl, ?_⟩
  rcases hk with rfl | rfl <;> simp [childNode]

/-! ## Roots and segments -/

theorem Linked.addNode_root (h : d.Linked) (he : d.nodes = []) (p : Provider) (label : String)
    (anchor : Option Position) :
    (d.addNode p .root label fun n => { n with fixed := true, position := anchor }).2.Linked := by
  have hlinks : d.links = [] := by
    have := h.edges
    rw [he] at this
    simpa using this
  unfold Diagram.addNode
  simp only [he, List.nil_append]
  refine ⟨⟨?_, ?_, h.linksSorted, h.linksBounded, ?_, h.sourceBefore⟩, ?_, ?_, ?_⟩
  · simp
  · simp
  · simp
  · simp [hlinks, Node.edge?]
  · simp
  · simp

theorem WellFormed.addNode_root (h : d.WellFormed) (he : d.nodes = []) (p : Provider)
    (label : String) (anchor : Option Position) :
    (d.addNode p .root label
      fun n => { n with fixed := true, position := anchor }).2.WellFormed := by
  refine ⟨⟨h.toLinked.addNode_root he p label anchor, ?_, ?_⟩, ?_⟩
  all_goals unfold Diagram.addNode; simp only [he, List.nil_append]
  · simp
  · intro n hn
    rw [List.mem_singleton.1 hn]
    constructor <;> simp
  · simp

theorem WellFormed.addRoot (h : d.WellFormed) (p : Provider) (label : String)
    (anchor : Option Position) : (d.addRoot p label anchor).2.WellFormed := by
  unfold Diagram.addRoot
  cases hd : d.isEmpty with
  | true => exact h.addNode_root (List.isEmpty_iff.1 hd) p label anchor
  | false => exact (WellFormed.clear d).addNode_root rfl p label anchor

theorem isQueryNode_addRoot (p : Provider) (label : String) (anchor : Option Position)
    (d : Diagram) : (d.addRoot p label anchor).2.IsQueryNode (d.addRoot p label anchor).1 :=
  ⟨_, List.mem_append_right _ (List.mem_singleton.2 rfl), rfl, by simp⟩

theorem WellFormed.expandRelationship (h : d.WellFormed) (p : Provider) (id : NodeId)
    (index : Nat) :
    (d.expandRelationship p id index).2.WellFormed := by
  unfold Diagram.expandRelationship
  cases hn : d.node? id with
  | none => exact h
  | some n =>
    cases hs : n.relationships[index]? with
    | none => simpa [hs] using h
    | some s =>
      have hk : n.kind ≠ .value := by
        intro hk
        rw [(h.sound n (mem_of_node? hn)).relationships hk] at hs
        simp at hs
      simpa [hs] using h.attachChild p s (.inl rfl) (isQueryNode_of_node? hn hk)

/-- A child that was added is a node of the query. -/
theorem isQueryNode_expandRelationship {p : Provider} {index : Nat} {child : NodeId} {d' : Diagram}
    (h : d.expandRelationship p id index = (.ok child, d')) : d'.IsQueryNode child := by
  unfold Diagram.expandRelationship at h
  split at h
  · simp at h
  · split at h
    · simp at h
    · rename_i s _
      obtain ⟨hchild, rfl⟩ := Prod.mk.inj h
      rw [← Except.ok.inj hchild]
      exact isQueryNode_attachChild p s (.inl rfl) d

theorem IsQueryNode.expandRelationship (h : d.IsQueryNode id) (p : Provider) (x : NodeId)
    (index : Nat) : (d.expandRelationship p x index).2.IsQueryNode id := by
  unfold Diagram.expandRelationship
  split
  · exact h
  · split
    · exact h
    · exact h.attachChild p x _ .choose

theorem expandRelationship_eq (p : Provider) {index : Nat} {s : Segment} (hn : d.node? id = some n)
    (hs : n.relationships[index]? = some s) :
    d.expandRelationship p id index = (.ok ⟨d.nextNode⟩, (d.attachChild p id s .choose).2) := by
  unfold Diagram.expandRelationship
  simp only [hn, hs]
  rfl

/-- A relation that a node has can be expanded, and the node stays the same. -/
theorem expandRelationship_ok {n : Node} (p : Provider) {index : Nat} (hn : d.node? id = some n)
    (hi : index < n.relationships.length) : ∃ child d',
      d.expandRelationship p id index = (.ok child, d') ∧ d'.node? id = some n := by
  unfold Diagram.expandRelationship
  rw [hn]
  simp only [List.getElem?_eq_getElem hi]
  exact ⟨_, _, rfl, node?_append rfl hn⟩

/-- Nothing changes where no child is added. -/
theorem expandRelationship_cases (p : Provider) (id : NodeId) (index : Nat) (d : Diagram) :
    (∃ e, d.expandRelationship p id index = (.error e, d)) ∨
      ∃ child d', d.expandRelationship p id index = (.ok child, d') := by
  unfold Diagram.expandRelationship
  split
  · exact .inl ⟨_, rfl⟩
  · split
    · exact .inl ⟨_, rfl⟩
    · exact .inr ⟨_, _, rfl⟩

theorem setRelationships_eq (hn : d.node? id = some n) (segments : List Segment) :
    d.setRelationships id segments = (.ok (), d.modify id (Node.withSegments segments)) := by
  unfold Diagram.setRelationships
  rw [hn]
  rfl

theorem setRelationships_ok {n : Node} (hn : d.node? id = some n) (segments : List Segment) :
    (d.setRelationships id segments).1 = .ok () ∧
      ∃ n', (d.setRelationships id segments).2.node? id = some n' := by
  unfold Diagram.setRelationships
  rw [hn]
  refine ⟨rfl, _, node?_modify_of_some ?_ hn id⟩
  exact fun _ => rfl

theorem IsQueryNode.setRelationships (h : d.IsQueryNode id) (x : NodeId)
    (segments : List Segment) : (d.setRelationships x segments).2.IsQueryNode id := by
  unfold Diagram.setRelationships
  split
  · exact h
  · exact h.modify fun _ => rfl

theorem WellFormed.setRelationships (h : d.WellFormed) (segments : List Segment)
    (hid : ∀ n, d.node? id = some n → n.kind ≠ .value) :
    (d.setRelationships id segments).2.WellFormed := by
  unfold Diagram.setRelationships
  cases hn : d.node? id with
  | none => exact h
  | some n =>
    refine h.modify (fun _ => rfl) (fun m hm => ?_) fun _ => rfl
    exact .of_ne_value (hid m hm) (h.sound m (mem_of_node? hm)).choose

/-! ## Schemas -/

theorem childKind_cases (s : Schema) : childKind s = .choose ∨ childKind s = .group := by
  unfold childKind
  split
  · exact .inr rfl
  · exact .inl rfl

theorem WellFormed.selectRows (h : d.WellFormed) (label : String) (rows : List Row)
    (hid : d.IsQueryNode id) : (d.selectRows id label rows).WellFormed := by
  have hbump : WellFormed { d with nextNode := d.nextNode + rows.length } :=
    ⟨⟨h.toLinked.setAside rows.length, h.parentLive, h.sound⟩, h.shown⟩
  exact hbump.reselect hid _

theorem WellFormed.relate (h : d.WellFormed) (segments : List Segment) (hid : d.IsQueryNode id) :
    (d.modify id fun n =>
      { n with relationships := segments, relationshipsLoaded := true }).WellFormed := by
  refine h.modify (fun _ => rfl) (fun n hn => ?_) fun _ => rfl
  obtain ⟨m, hm, hk⟩ := h.isQueryNode_iff.1 hid
  obtain rfl : m = n := Option.some.inj (hm.symm.trans hn)
  exact .of_ne_value hk (h.sound m (mem_of_node? hm)).choose

theorem IsQueryNode.selectRows (h : d.IsQueryNode id) (x : NodeId) (label : String)
    (rows : List Row) :
    (d.selectRows x label rows).IsQueryNode id := by
  have hbump : IsQueryNode { d with nextNode := d.nextNode + rows.length } id := h
  unfold Diagram.selectRows
  exact hbump.modify fun _ => rfl

/-- What selecting rows, storing segments and adding children keep, a schema keeps. -/
theorem applySchema_induction {P : Diagram → Prop} (p : Provider)
    (select : ∀ d id label rows, P d → d.IsQueryNode id → P (d.selectRows id label rows))
    (relate : ∀ d id segments, P d → d.IsQueryNode id →
      P (d.modify id fun n => { n with relationships := segments, relationshipsLoaded := true }))
    (attach : ∀ d id s kind, kind = .choose ∨ kind = .group → P d → d.IsQueryNode id →
      P (d.attachChild p id s kind).2)
    (id : NodeId) (s : Schema) (d : Diagram) (h : P d) (hid : d.IsQueryNode id) :
    P (applySchema p id s d) ∧ ∀ x, d.IsQueryNode x → (applySchema p id s d).IsQueryNode x := by
  refine applySchema.induct p
    (fun id s d => P d → d.IsQueryNode id → P (applySchema p id s d) ∧
      ∀ x, d.IsQueryNode x → (applySchema p id s d).IsQueryNode x)
    (fun id relations d => P d → d.IsQueryNode id → P (applyRelations p id relations d) ∧
      ∀ x, d.IsQueryNode x → (applyRelations p id relations d).IsQueryNode x)
    ?_ ?_ ?_ id s d h hid
  · intro id label rows relations group d d₁ segments d₂ ih h hid
    have hid₁ : d₁.IsQueryNode id := hid.selectRows id label rows
    have h₂ : P d₂ := relate d₁ id segments (select d id label rows h hid) hid₁
    obtain ⟨hP, hq⟩ := ih h₂ (hid₁.modify fun _ => rfl)
    refine ⟨hP, fun x hx => hq x ?_⟩
    exact (hx.selectRows id label rows).modify fun _ => rfl
  · intro id d h hid
    exact ⟨h, fun _ hx => hx⟩
  · intro id label target isReverse rest d child d' hchild ihtarget ihrest h hid
    have hkind := childKind_cases target
    obtain ⟨rfl, rfl⟩ := Prod.ext_iff.1 hchild
    obtain ⟨hP, hq⟩ := ihtarget (attach d id _ _ hkind h hid) (isQueryNode_attachChild p _ hkind d)
    obtain ⟨hP', hq'⟩ := ihrest hP (hq id (hid.attachChild p id _ _))
    exact ⟨hP', fun x hx => hq' x (hq x (hx.attachChild p id _ _))⟩

theorem WellFormed.addSchema (h : d.WellFormed) (p : Provider) (s : Schema)
    (anchor : Option Position) : (d.addSchema p s anchor).2.WellFormed :=
  (applySchema_induction p (fun _ _ label rows h hid => h.selectRows label rows hid)
    (fun _ _ segments h hid => h.relate segments hid)
    (fun _ _ s _ hk h hid => h.attachChild p s hk hid) _ s _ (h.addRoot p s.label anchor)
    (isQueryNode_addRoot p s.label anchor d)).1

theorem isQueryNode_addSchema (p : Provider) (s : Schema) (anchor : Option Position)
    (d : Diagram) : (d.addSchema p s anchor).2.IsQueryNode (d.addSchema p s anchor).1 := by
  have hroot := isQueryNode_addRoot p s.label anchor d
  obtain ⟨-, hkept⟩ := applySchema_induction (P := fun _ => True) p (fun _ _ _ _ _ _ => trivial)
    (fun _ _ _ _ _ => trivial) (fun _ _ _ _ _ _ _ => trivial) _ s _ trivial hroot
  exact hkept _ hroot

end Diagram

end PatternQuery
