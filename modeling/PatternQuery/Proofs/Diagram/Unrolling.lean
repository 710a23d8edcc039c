import PatternQuery.Proofs.Diagram.Reading

/-!
# Schemas as operations

What a schema without values and groups makes of a lone root can be made with operations, too: the
segments of each node are stored and expanded one after the other, in pre-order (`Schema.steps`).
The nodes and links are the same, with the same numbers and variables
(`Diagram.ReachableBy.addSchema_eq_runAll`).
-/

namespace PatternQuery

/-! ## Segments -/

namespace Segment

theorem layout_layout (segments : List Segment) : layout (layout segments) = layout segments := by
  have hplace (slice : Double) (i : Nat) (s : Segment) :
      (s.place slice i).place slice i = s.place slice i := rfl
  rw [layout, layout, List.length_mapIdx, List.mapIdx_mapIdx]
  exact congrArg (List.mapIdx · segments) (funext fun i => funext fun s => hplace _ i s)

/-- Segments are laid out one by one. -/
theorem getElem?_layout (segments : List Segment) (index : Nat) : ∃ slice,
    (layout segments)[index]? = segments[index]?.map fun s => s.place slice index :=
  ⟨_, List.getElem?_mapIdx⟩

end Segment

/-! ## Steps -/

namespace Schema

mutual

/-- The operations that place a schema at a node where `next` is the number of the next node. -/
def steps (id : NodeId) (next : Nat) : Schema → List Operation
  | node label rows relations group =>
    .setRelationships id (node label rows relations group).segments ::
      relationSteps id next 0 relations

/-- The operations that place relations at a node, the first of them for the segment at `index`. -/
def relationSteps (id : NodeId) (next index : Nat) : List (SchemaRelation Schema) → List Operation
  | [] => []
  | ⟨_, target, _⟩ :: rest =>
    .expandRelationship id index :: target.steps ⟨next⟩ (next + 1) ++
      relationSteps id (next + target.preorder.length) (index + 1) rest

end

/-- Nothing is selected from the start, and no node only holds others together. -/
def IsPlain (s : Schema) : Prop := ∀ t ∈ s.preorder, t.rows = [] ∧ t.isGroup = false

instance (s : Schema) : Decidable s.IsPlain :=
  inferInstanceAs (Decidable (∀ t ∈ s.preorder, t.rows = [] ∧ t.isGroup = false))

variable {s : Schema} {relations : List (SchemaRelation Schema)}

theorem IsPlain.rows (h : s.IsPlain) : s.rows = [] := by
  rw [IsPlain, preorder_eq] at h
  exact (h s List.mem_cons_self).1

theorem IsPlain.isGroup (h : s.IsPlain) : s.isGroup = false := by
  rw [IsPlain, preorder_eq] at h
  exact (h s List.mem_cons_self).2

theorem preorder_subset_preorderAll {r : SchemaRelation Schema} (hr : r ∈ relations) :
    r.target.preorder ⊆ preorderAll relations := by
  induction relations with
  | nil => cases hr
  | cons r' rest ih =>
    rw [preorderAll]
    rcases List.mem_cons.1 hr with rfl | hr
    · exact List.subset_append_left _ _
    · exact List.Subset.trans (ih hr) (List.subset_append_right _ _)

theorem IsPlain.target (h : s.IsPlain) {r : SchemaRelation Schema} (hr : r ∈ s.relations) :
    r.target.IsPlain := by
  rw [IsPlain, preorder_eq] at h
  exact fun t ht => h t (List.mem_cons_of_mem _ (preorder_subset_preorderAll hr ht))

end Schema

namespace Diagram

variable {d : Diagram} {id : NodeId} {n : Node} {s : Schema}

/-! ## Numbers -/

theorem nextNode_fill (hrows : s.rows = []) : (d.fill id s).nextNode = d.nextNode := by
  rw [fill, hrows]
  rfl

mutual

/-- A schema without values takes one number for each of its nodes but the first, which is there. -/
theorem nextNode_applySchema (p : Provider) : ∀ (s : Schema) (id : NodeId) (d : Diagram),
    s.IsPlain → (applySchema p id s d).nextNode = d.nextNode + s.descendants.length
  | .node label rows relations group, id, d, h => by
    rw [applySchema_eq, nextNode_applyRelations p _ id _ fun r hr => h.target hr,
      nextNode_fill h.rows]
    rfl

theorem nextNode_applyRelations (p : Provider) : ∀ (relations : List (SchemaRelation Schema))
    (id : NodeId) (d : Diagram), (∀ r ∈ relations, r.target.IsPlain) →
    (applyRelations p id relations d).nextNode =
      d.nextNode + (Schema.preorderAll relations).length
  | [], id, d, h => rfl
  | ⟨label, target, isReverse⟩ :: rest, id, d, h => by
    rw [applyRelations, nextNode_applyRelations p rest id _ fun r hr => h r (.tail _ hr),
      nextNode_applySchema p target _ _ (h _ List.mem_cons_self), Schema.preorderAll,
      Schema.preorder_eq, List.length_append, List.length_cons, attachChild_eq]
    show d.nextNode + 1 + _ + _ = _
    omega

end

/-! ## Steps at work -/

/-- The other end of a segment and the relation to it are what a child is made from. -/
theorem attachChild_congr {s s' : Segment} (hlabel : s.label = s'.label)
    (htarget : s.target = s'.target) (hreverse : s.isReverse = s'.isReverse) (p : Provider)
    (id : NodeId) (kind : NodeKind) (d : Diagram) :
    d.attachChild p id s kind = d.attachChild p id s' kind := by
  unfold attachChild
  rw [hlabel, htarget, hreverse]

/-- To store the segments of a schema without values fills a node in that selects nothing. -/
theorem Numbered.setRelationships_segments (h : d.Numbered) (hn : d.node? id = some n)
    (hselected : n.selected = []) (hrows : s.rows = []) :
    (d.setRelationships id s.segments).2 = d.fill id s := by
  have hfill : d.fill id s = d.modify id (d.filled s) := by
    rw [fill, hrows]
    rfl
  rw [setRelationships_eq hn, hfill]
  refine h.modify_congr hn ?_
  rw [filled, hrows, List.mapIdx_nil, Node.withSegments, Schema.segments, Segment.layout_layout,
    ← hselected]

/-- To expand a segment that stands for a relation adds a child along the relation. -/
theorem expandRelationship_segments {before rest : List (SchemaRelation Schema)}
    {r : SchemaRelation Schema} (hn : d.node? id = some n)
    (h : n.relationships = Segment.layout ((before ++ r :: rest).map Schema.segmentOf))
    (p : Provider) : (d.expandRelationship p id before.length).2 =
      (d.attachChild p id (Schema.segmentOf r) .choose).2 := by
  obtain ⟨slice, hslice⟩ :=
    Segment.getElem?_layout ((before ++ r :: rest).map Schema.segmentOf) before.length
  have hsegment : n.relationships[before.length]? =
      some ((Schema.segmentOf r).place slice before.length) := by
    rw [h, hslice]
    simp
  rw [expandRelationship_eq p hn hsegment]
  exact congrArg Prod.snd (attachChild_congr rfl rfl rfl p id .choose d)

mutual

/-- The steps of a schema place it at a node that selects nothing. -/
theorem WellFormed.runAll_steps (p : Provider) : ∀ (s : Schema) {d : Diagram} {id : NodeId}
    {n : Node}, s.IsPlain → d.WellFormed → d.node? id = some n → n.kind ≠ .value →
    n.selected = [] → Operation.runAll p (s.steps id d.nextNode) d = applySchema p id s d
  | .node label rows relations group, d, id, n, hs, h, hn, hk, hselected => by
    have hset : (Operation.run p (.setRelationships id
        (Schema.node label rows relations group).segments) d).2 =
          d.fill id (.node label rows relations group) :=
      h.toNumbered.setRelationships_segments hn hselected hs.rows
    have hrelations := WellFormed.runAll_relationSteps p relations []
      (fun r hr => hs.target hr) (h.fill (isQueryNode_of_node? hn hk) _)
      (node?_fill hn (.node label rows relations group)) hk rfl
    rw [nextNode_fill hs.rows] at hrelations
    rw [Schema.steps, Operation.runAll, hset, applySchema_eq]
    exact hrelations

theorem WellFormed.runAll_relationSteps (p : Provider) :
    ∀ (relations before : List (SchemaRelation Schema)) {d : Diagram} {id : NodeId} {n : Node},
    (∀ r ∈ relations, r.target.IsPlain) →
    d.WellFormed → d.node? id = some n → n.kind ≠ .value →
    n.relationships = Segment.layout ((before ++ relations).map Schema.segmentOf) →
    Operation.runAll p (Schema.relationSteps id d.nextNode before.length relations) d =
      applyRelations p id relations d
  | [], before, d, id, n, hplain, h, hn, hk, hrelations => rfl
  | ⟨label, target, isReverse⟩ :: rest, before, d, id, n, hplain, h, hn, hk, hrelations => by
    let r : SchemaRelation Schema := ⟨label, target, isReverse⟩
    let d₁ := (d.attachChild p id (Schema.segmentOf r) .choose).2
    have htarget : target.IsPlain := hplain r List.mem_cons_self
    have hkind : childKind target = .choose := by rw [childKind, htarget.isGroup]; rfl
    have hquery := isQueryNode_of_node? hn hk
    have hexpand : (Operation.run p (.expandRelationship id before.length) d).2 = d₁ :=
      expandRelationship_segments (r := r) hn hrelations p
    have hd₁ : d₁.WellFormed := h.attachChild p (Schema.segmentOf r) (.inl rfl) hquery
    have hchild := h.node?_child hquery p (Schema.segmentOf r) (.inl rfl)
    have hsteps := WellFormed.runAll_steps p target htarget hd₁ hchild (by simp [childNode]) rfl
    -- what this child added leaves the node with its segments
    obtain ⟨new, hgrown⟩ := h.grown_applyRelations p [r] hquery
    have hfirst : applyRelations p id [r] d = applySchema p ⟨d.nextNode⟩ target d₁ := by
      show applySchema p _ target (d.attachChild p id (Schema.segmentOf r) (childKind target)).2 = _
      rw [hkind]
    have hn₁ : (applyRelations p id [r] d).node? id = some n :=
      (hgrown.node?_eq (h.number_lt_of_node? hn)).trans hn
    have hnext : (applyRelations p id [r] d).nextNode = d.nextNode + target.preorder.length := by
      rw [nextNode_applyRelations p [r] id d (by simpa using htarget)]
      simp [Schema.preorderAll, r]
    have hrest := WellFormed.runAll_relationSteps p rest (before ++ [r])
      (fun r hr => hplain r (.tail _ hr)) hgrown.wellFormed hn₁ hk
      (by rw [hrelations, List.append_assoc]; rfl)
    rw [hnext, List.length_append, List.length_singleton] at hrest
    rw [Schema.relationSteps, List.cons_append, Operation.runAll, hexpand, Operation.runAll_append]
    refine Eq.trans ?_ hrest
    rw [hfirst, ← hsteps]
    rfl

end

/-- What a schema makes is made by its steps, too, if it has neither values nor groups. -/
theorem ReachableBy.addSchema_eq_runAll {q : Provider} {admits : Operation → Diagram → Prop}
    (h : d.ReachableBy q admits) (hs : s.IsPlain) (p : Provider) (anchor : Option Position) :
    (d.addSchema p s anchor).2 =
      Operation.runAll p (.addRoot s.label anchor :: s.steps ⟨d.nextNode⟩ (d.nextNode + 1)) d := by
  have hroot := (WellFormed.clear d).addRoot p s.label anchor
  obtain ⟨n, hnodes, hid, hkind, -, hselected⟩ := exists_addRoot_clear p s.label anchor d
  have hn := hroot.node?_of_mem (n := n) (by rw [hnodes]; exact List.mem_singleton.2 rfl)
  have hsteps := hroot.runAll_steps p s hs hn (by simp [hkind]) hselected
  rw [hid] at hsteps
  have hrun : (Operation.run p (.addRoot s.label anchor) d).2 =
      (d.clear.addRoot p s.label anchor).2 := congrArg Prod.snd (h.addRoot_clear p s.label anchor)
  rw [addSchema, h.addRoot_clear p s.label anchor, Operation.runAll, hrun]
  exact hsteps.symm

/-- A schema is read back off the diagram that it makes, whatever was there before, but for a group
in front, which a root cannot be. The nodes are those of the schema, in pre-order. If it has neither
values nor groups, its steps make the same diagram from a root. -/
theorem read_addSchema {q : Provider} {admits : Operation → Diagram → Prop}
    (h : d.ReachableBy q admits) (p : Provider) (s : Schema) (anchor : Option Position) :
    let made := d.addSchema p s anchor
    made.2.readSchema made.1 = some (s.withGroup false) ∧
      made.2.nodes.map (fun n => (n.kind, made.2.readSchema n.id)) =
        (.root, some (s.withGroup false)) :: s.descendants.map (fun t => (childKind t, some t)) ∧
      (s.IsPlain → made.2 = Operation.runAll p
        (.addRoot s.label anchor :: s.steps ⟨d.nextNode⟩ (d.nextNode + 1)) d) := by
  obtain ⟨hread, hnodes⟩ := h.readSchema_addSchema p s anchor
  exact ⟨hread, hnodes, fun hs => h.addSchema_eq_runAll hs p anchor⟩

/-- A group of friends of Ann, who live in cities, is read back from where a company was before. The
friends and cities alone can be placed step by step. -/
theorem read_addSchema_of_friends :
    let d := Operation.runAll .plain [.addRoot "Company" none,
      .setRelationships ⟨0⟩ [{ label := "IN", target := "City", count := 1 }],
      .expandRelationship ⟨0⟩ 0] (.new 10)
    let ann : Row := Table.empty.insert "name" (.str "Ann")
    let city : Schema := .node "City" [] [] false
    let friends : Schema :=
      .node "Person" [] [⟨"LIVES_IN", city, false⟩, ⟨"BORN_IN", city, false⟩] false
    let s : Schema := .node "Person" [ann] [⟨"KNOWS", .node "Person" [ann, ann]
      [⟨"LIVES_IN", city, false⟩, ⟨"KNOWS", friends, true⟩] true, false⟩] true
    d.nodes.length = 2 ∧
      (d.addSchema .plain s none).2.readSchema ⟨2⟩ = some (s.withGroup false) ∧
      (d.addSchema .plain s none).2.nodes.map (fun n => (n.id.number, n.kind)) =
        [(2, .root), (4, .group), (7, .choose), (8, .choose), (9, .choose), (10, .choose)] ∧
      (d.addSchema .plain friends none).2 = Operation.runAll .plain [.addRoot "Person" none,
        .setRelationships ⟨2⟩ friends.segments, .expandRelationship ⟨2⟩ 0,
        .setRelationships ⟨3⟩ [], .expandRelationship ⟨2⟩ 1, .setRelationships ⟨4⟩ []] d := by
  intro d ann city friends s
  have hd : d.ReachableBy .plain fun _ _ => True := .runAll (.new 10) _
  have hlength : d.nodes.length = 2 := by decide +kernel
  have hnext : d.nextNode = 2 := by decide +kernel
  have hroot : (d.addSchema .plain s none).1 = ⟨2⟩ := by decide +kernel
  have hnodes : (d.addSchema .plain s none).2.nodes.map (fun n => (n.id.number, n.kind)) =
      [(2, .root), (4, .group), (7, .choose), (8, .choose), (9, .choose), (10, .choose)] := by
    decide +kernel
  have hplain : friends.IsPlain := by decide +kernel
  clear_value d
  obtain ⟨hread, -, -⟩ := read_addSchema hd .plain s none
  obtain ⟨-, -, hsteps⟩ := read_addSchema hd .plain friends none
  rw [hroot] at hread
  replace hsteps := hsteps hplain
  rw [hnext] at hsteps
  exact ⟨hlength, hread, hnodes, hsteps⟩

end Diagram

end PatternQuery
