import PatternQuery.Proofs.Diagram.WellFormed

/-!
# Values in well-formed diagrams

Showing, hiding and selecting candidate values keeps a diagram well formed. Candidates may be stored
on nodes of the query alone (`WellFormed.setData`).
-/

namespace PatternQuery.Diagram

variable {d : Diagram} {id : NodeId} {n : Node}

theorem WellFormed.setData (h : d.WellFormed) (rows : List Row)
    (hid : ∀ n, d.node? id = some n → n.kind ≠ .value) : (d.setData id rows).2.WellFormed := by
  unfold Diagram.setData
  cases hn : d.node? id with
  | none => exact h
  | some n =>
    refine h.modify (fun _ => rfl) (fun m hm => ?_) fun _ => rfl
    exact .of_ne_value (hid m hm) (h.sound m (mem_of_node? hm)).choose

theorem setData_ok (hn : d.node? id = some n) (rows : List Row) :
    (d.setData id rows).1 = .ok () ∧ ∃ n', (d.setData id rows).2.node? id = some n' := by
  unfold Diagram.setData
  rw [hn]
  refine ⟨rfl, _, node?_modify_of_some ?_ hn id⟩
  exact fun _ => rfl

theorem expandValues_ok (hn : d.node? id = some n) :
    ∃ shown d', d.expandValues id = (.ok shown, d') := by
  unfold Diagram.expandValues
  rw [hn]
  dsimp only
  split
  · exact ⟨_, _, rfl⟩
  · exact ⟨_, _, rfl⟩

theorem WellFormed.setPinned (h : d.WellFormed) (parent : Option NodeId) (fixed : Bool) :
    (d.setPinned parent fixed).WellFormed := by
  cases parent with
  | none => exact h
  | some p =>
    refine h.restyle fun n => ?_
    split <;> rfl

theorem IsQueryNode.setPinned (h : d.IsQueryNode id) (parent : Option NodeId) (fixed : Bool) :
    (d.setPinned parent fixed).IsQueryNode id := by
  cases parent with
  | none => exact h
  | some p =>
    refine IsQueryNode.modify h fun n => ?_
    split <;> rfl

theorem Within.setPinned {e : Diagram} (h : e.Within d) (parent : Option NodeId) (fixed : Bool) :
    (e.setPinned parent fixed).Within d := by
  cases parent with
  | none => exact h
  | some p =>
    refine Within.modify h fun n => ?_
    split <;> rfl

/-! ## Hiding -/

/-- The value nodes that hang from a node are those that its value links lead to. -/
theorem Linked.mem_shown_iff (h : d.Linked) (id : NodeId) (hn : n ∈ d.nodes) :
    n.id ∈ (d.valueLinks id).map Link.target ↔ n.kind = .value ∧ n.parent = some id := by
  simp only [valueLinks, Link.isValueOf, List.mem_map, List.mem_filter, Bool.and_eq_true,
    beq_iff_eq]
  constructor
  · rintro ⟨l, ⟨hl, hkind, rfl⟩, ht⟩
    obtain ⟨hparent, hk⟩ := h.parent_of_link hl hn ht.symm
    rw [hkind] at hk
    exact ⟨NodeKind.link_eq_value_iff.1 hk.symm, hparent⟩
  · rintro ⟨hk, hparent⟩
    obtain ⟨l, hl, ht, hs, hkind⟩ := h.link_of_parent hn hparent
    exact ⟨l, ⟨hl, by rw [hkind, hk]; rfl, hs⟩, ht⟩

/-- The diagram without the value nodes that hang from a node. -/
def withoutValues (id : NodeId) (d : Diagram) : Diagram :=
  d.keep (fun x => !((d.valueLinks id).map Link.target).contains x) fun l => !l.isValueOf id

/-- A value link goes together with the value node that it leads to. -/
theorem Linked.isValueOf_eq (h : d.Linked) (id : NodeId) {l : Link} (hl : l ∈ d.links) :
    l.isValueOf id = ((d.valueLinks id).map Link.target).contains l.target := by
  obtain ⟨n, hn, ht, hparent, hkind⟩ := h.edge_mem hl
  have hmem := h.mem_shown_iff id hn
  rw [hparent, ht] at hmem
  rw [Bool.eq_iff_iff, List.contains_iff_mem, hmem, Link.isValueOf, hkind]
  simp [NodeKind.link_eq_value_iff]

theorem Linked.withoutValues (h : d.Linked) (id : NodeId) : (d.withoutValues id).Linked :=
  h.keep fun l hl => by rw [h.isValueOf_eq id hl]

theorem WellFormed.withoutValues (h : d.WellFormed) (id : NodeId) :
    (d.withoutValues id).WellFormed := by
  refine h.keep (fun l hl => by rw [h.isValueOf_eq id hl]) fun n hn hp x hx => ?_
  obtain ⟨m, hm, rfl, hk⟩ := h.parentLive n hn x hx
  have hmem := h.mem_shown_iff id hm
  simp only [Bool.not_eq_true', ← Bool.not_eq_true, List.contains_iff_mem, hmem]
  exact fun hv => hk hv.1

theorem collapseValues_eq (hn : d.node? id = some n) (he : n.expanded = true) :
    (d.collapseValues id).2 = ((d.withoutValues id).modify id fun n =>
      { n with expanded := false, fixed := n.isRoot && n.fixed }).setPinned n.parent false := by
  unfold collapseValues
  simp only [hn, he, ↓reduceIte]
  rfl

theorem collapseValues_of_collapsed (hn : ∀ n, d.node? id = some n → n.expanded = false) :
    (d.collapseValues id).2 = d := by
  unfold collapseValues
  cases hd : d.node? id with
  | none => rfl
  | some n => simp [hn n hd]

/-- A node whose value nodes are gone shows no candidates any more. -/
theorem WellFormed.hideRows (h : d.WellFormed) (id : NodeId) :
    ((d.withoutValues id).modify id fun n =>
      { n with expanded := false, fixed := n.isRoot && n.fixed }).WellFormed := by
  have hw := h.withoutValues id
  refine hw.toShape.wellFormed_modify (fun _ => rfl) (fun m hm => ?_) ?_
  · have hs := hw.sound m (mem_of_node? hm)
    exact ⟨hs.relationships, hs.selected, hs.data, fun _ => rfl, hs.choose⟩
  · intro v hv hk m hm hp
    obtain ⟨hvd, hgone⟩ := List.mem_filter.1 hv
    have hne : m.id ≠ id := by
      rintro rfl
      rw [Bool.not_eq_true', ← Bool.not_eq_true, List.contains_iff_mem] at hgone
      exact hgone ((h.mem_shown_iff _ hvd).2 ⟨hk, hp⟩)
    rw [if_neg hne]
    exact hw.shown v hv hk m hm hp

theorem WellFormed.collapseValues (h : d.WellFormed) (id : NodeId) :
    (d.collapseValues id).2.WellFormed := by
  cases hn : d.node? id with
  | none => rwa [collapseValues_of_collapsed (by simp [hn])]
  | some n =>
    cases he : n.expanded with
    | false => rwa [collapseValues_of_collapsed (by simp [hn, he])]
    | true =>
      rw [collapseValues_eq hn he]
      exact (h.hideRows id).setPinned _ _

theorem IsQueryNode.withoutValues (h : d.Shape) {x : NodeId} (hx : d.IsQueryNode x) (id : NodeId) :
    (d.withoutValues id).IsQueryNode x := by
  obtain ⟨n, hn, rfl, hk⟩ := hx
  refine ⟨n, List.mem_filter.2 ⟨hn, ?_⟩, rfl, hk⟩
  rw [Bool.not_eq_true', ← Bool.not_eq_true, List.contains_iff_mem, h.mem_shown_iff _ hn]
  exact fun hv => hk hv.1

theorem IsQueryNode.collapseValues (h : d.Shape) {x : NodeId} (hx : d.IsQueryNode x) (id : NodeId) :
    (d.collapseValues id).2.IsQueryNode x := by
  cases hn : d.node? id with
  | none => rwa [collapseValues_of_collapsed (by simp [hn])]
  | some n =>
    cases he : n.expanded with
    | false => rwa [collapseValues_of_collapsed (by simp [hn, he])]
    | true =>
      rw [collapseValues_eq hn he]
      refine IsQueryNode.setPinned ?_ _ _
      exact (hx.withoutValues h id).modify fun _ => rfl

theorem Within.collapseValues {e : Diagram} (h : e.Within d) (id : NodeId) :
    (e.collapseValues id).2.Within d := by
  cases hn : e.node? id with
  | none => rwa [collapseValues_of_collapsed (by simp [hn])]
  | some n =>
    cases he : n.expanded with
    | false => rwa [collapseValues_of_collapsed (by simp [hn, he])]
    | true =>
      rw [collapseValues_eq hn he]
      refine Within.setPinned ?_ _ _
      exact Within.modify (h.keep _ _) fun _ => rfl

/-! ## Showing -/

/-- The value node that is added for a candidate. -/
def shownNode (id : NodeId) (label : String) (row : Row) (d : Diagram) : Node :=
  { id := ⟨d.nextNode⟩, kind := .value, label, var := "", parent := some id
    internalId := Row.internalId row, count := Row.count row, attributes := some row }

/-- The link that is added for a candidate. -/
def shownLink (id : NodeId) (d : Diagram) : Link :=
  { id := ⟨d.nextLink⟩, kind := .value, source := id, target := ⟨d.nextNode⟩, label := "" }

theorem addValueNode_eq (id : NodeId) (label : String) (d : Diagram) (row : Row) :
    addValueNode id label d row = d.attach (shownNode id label row d) (shownLink id d) :=
  rfl

theorem shownNode_sound (id : NodeId) (label : String) (row : Row) (d : Diagram) :
    (shownNode id label row d).Sound := by
  constructor <;> simp [shownNode]

theorem Shape.addValueNodes (h : d.Shape) (hid : d.IsQueryNode id) (label : String)
    (rows : List Row) :
    (rows.foldl (addValueNode id label) d).Shape := by
  induction rows generalizing d with
  | nil => exact h
  | cons row rows ih =>
    rw [List.foldl_cons, addValueNode_eq]
    refine ih ?_ (hid.attach _ _)
    exact h.attach rfl rfl rfl (by simp [shownNode]) hid (shownNode_sound id label row d)

/-- Value nodes and value links are added behind what there is. -/
theorem addValueNodes_append (id : NodeId) (label : String) (rows : List Row) (d : Diagram) :
    ∃ vs ls, (rows.foldl (addValueNode id label) d).nodes = d.nodes ++ vs ∧
      (rows.foldl (addValueNode id label) d).links = d.links ++ ls ∧
      (∀ v ∈ vs, v.kind = .value ∧ v.parent = some id) ∧ ∀ l ∈ ls, l.kind = .value := by
  induction rows generalizing d with
  | nil => exact ⟨[], [], by simp, by simp, by simp, by simp⟩
  | cons row rows ih =>
    rw [List.foldl_cons, addValueNode_eq]
    obtain ⟨vs, ls, hvs, hls, hv, hl⟩ := ih (d.attach (shownNode id label row d) (shownLink id d))
    refine ⟨shownNode id label row d :: vs, shownLink id d :: ls, ?_, ?_, ?_, ?_⟩
    · rw [hvs]
      simp [Diagram.attach]
    · rw [hls]
      simp [Diagram.attach]
    · rintro v (_ | ⟨_, hm⟩)
      · exact ⟨rfl, rfl⟩
      · exact hv v hm
    · rintro l (_ | ⟨_, hm⟩)
      · rfl
      · exact hl l hm

theorem expandValues_eq {rows : List Row} (hn : d.node? id = some n) (hr : n.data = some rows) :
    (d.expandValues id).2 =
      (((pageRows (d.collapseValues id).2.pageSize n rows).foldl (addValueNode id n.label)
        (d.collapseValues id).2).modify id fun n =>
          { n with fixed := true, expanded := true }).setPinned n.parent true := by
  unfold expandValues
  simp only [hn, hr]

theorem expandValues_of_none (hr : ∀ n, d.node? id = some n → n.data = none) :
    (d.expandValues id).2 = (d.collapseValues id).2 := by
  unfold expandValues
  cases hn : d.node? id with
  | none => rw [collapseValues_of_collapsed (by simp [hn])]
  | some n => simp only [hr n hn]

/-- Only nodes of the query hold candidates. -/
theorem Shape.isQueryNode_of_data (h : d.Shape) {rows : List Row} (hn : d.node? id = some n)
    (hr : n.data = some rows) : d.IsQueryNode id := by
  refine isQueryNode_of_node? hn fun hk => ?_
  rw [(h.sound n (mem_of_node? hn)).data hk] at hr
  simp at hr

/-- Value nodes may be added to a node that shows its candidates from then on. -/
theorem WellFormed.showRows (h : d.WellFormed) (hid : d.IsQueryNode id) (label : String)
    (rows : List Row) : ((rows.foldl (addValueNode id label) d).modify id fun n =>
      { n with fixed := true, expanded := true }).WellFormed := by
  obtain ⟨vs, ls, hvs, -, hv, -⟩ := addValueNodes_append id label rows d
  have hs := h.toShape.addValueNodes hid label rows
  have hold : ∀ n ∈ d.nodes, n ∈ (rows.foldl (addValueNode id label) d).nodes := by
    intro n hn
    rw [hvs]
    exact List.mem_append_left _ hn
  obtain ⟨m, hm, rfl, hk⟩ := hid
  refine hs.wellFormed_modify (fun _ => rfl) (fun m' hm' => ?_) ?_
  · obtain rfl := hs.eq_of_node? hm' (hold m hm) rfl
    exact .of_ne_value hk (hs.sound m (hold m hm)).choose
  · intro v hvm hvk m' hm' hp
    split
    · rfl
    · rename_i hne
      have hvd : v ∈ d.nodes := by
        rw [hvs] at hvm
        rcases List.mem_append.1 hvm with hvm | hvm
        · exact hvm
        · rw [(hv v hvm).2] at hp
          exact absurd (Option.some.inj hp).symm hne
      obtain ⟨q, hq, hqid, -⟩ := h.parentLive v hvd m'.id hp
      obtain rfl := hs.eq_of_id_eq (hold q hq) hm' hqid
      exact h.shown v hvd hvk q hq hp

theorem WellFormed.expandValues (h : d.WellFormed) (id : NodeId) :
    (d.expandValues id).2.WellFormed := by
  cases hn : d.node? id with
  | none =>
    rw [expandValues_of_none (by simp [hn])]
    exact h.collapseValues id
  | some n =>
    cases hr : n.data with
    | none =>
      rw [expandValues_of_none (by simp [hn, hr])]
      exact h.collapseValues id
    | some rows =>
      rw [expandValues_eq hn hr]
      have hid := (h.isQueryNode_of_data hn hr).collapseValues h.toShape id
      exact ((h.collapseValues id).showRows hid n.label _).setPinned _ _

theorem WellFormed.selectValue (h : d.WellFormed) (id : NodeId) :
    (d.selectValue id).2.WellFormed := by
  unfold Diagram.selectValue
  split
  · exact h
  · rename_i n hn
    split
    · rename_i p hk hp
      cases hm : d.node? p with
      | none => exact h
      | some m =>
        exact (h.reselect (h.parentLive n (mem_of_node? hn) p hp) _).collapseValues p
    · exact h

/-! ## Pages -/

theorem turnPage_snd (turn : Nat → Nat) (d : Diagram) :
    (d.turnPage id turn).2 =
      ((d.modify id fun n => { n with page := turn n.page }).expandValues id).2 := by
  unfold turnPage
  split <;> rename_i hx <;> rw [hx]

theorem WellFormed.turnPage (h : d.WellFormed) (id : NodeId) (turn : Nat → Nat) :
    (d.turnPage id turn).2.WellFormed := by
  rw [turnPage_snd]
  exact (h.restyle (f := fun n => { n with page := turn n.page }) fun _ => rfl).expandValues id

theorem WellFormed.nextPage (h : d.WellFormed) (id : NodeId) : (d.nextPage id).2.WellFormed := by
  unfold Diagram.nextPage
  split
  · exact h.turnPage id _
  · exact h

theorem WellFormed.previousPage (h : d.WellFormed) (id : NodeId) :
    (d.previousPage id).2.WellFormed := by
  unfold Diagram.previousPage
  split
  · exact h.turnPage id _
  · exact h

end PatternQuery.Diagram
