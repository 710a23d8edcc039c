import PatternQuery.Proofs.Diagram.Operation

/-!
# Numbers over time

Every operation takes the numbers of its new nodes from the counter, so that what is found under a
number that was given out before is the node that was there before (`Diagram.Continues`), whatever
the arguments are. This needs no assumption about the diagram.
-/

namespace PatternQuery.Diagram

/-- `d'` may be what becomes of `d`: the counter goes up, and behind the numbers below the old
counter are nodes of `d`. -/
structure Continues (d d' : Diagram) : Prop where
  nextNode : d.nextNode ≤ d'.nextNode
  origin : ∀ n' ∈ d'.nodes, n'.id.number < d.nextNode → ∃ n ∈ d.nodes, n'.origin = n.origin

variable {d e f : Diagram} {id : NodeId} {n : Node}

theorem Continues.refl (d : Diagram) : d.Continues d := ⟨Nat.le_refl _, fun n hn _ => ⟨n, hn, rfl⟩⟩

theorem Continues.trans (h : d.Continues e) (h' : e.Continues f) : d.Continues f where
  nextNode := Nat.le_trans h.nextNode h'.nextNode
  origin n'' hn'' hlt := by
    obtain ⟨n', hn', e'⟩ := h'.origin n'' hn'' (Nat.lt_of_lt_of_le hlt h.nextNode)
    rw [Node.id_of_origin e'] at hlt
    obtain ⟨n, hn, e⟩ := h.origin n' hn' hlt
    exact ⟨n, hn, e'.trans e⟩

/-- What is found under a number that was given out is what became of the node found there. -/
theorem Continues.origin_of_node? (h : d.Continues e) (hd : d.Numbered)
    (hlt : id.number < d.nextNode) {n' : Node} (hn' : e.node? id = some n') :
    ∃ n, d.node? id = some n ∧ n'.origin = n.origin := by
  obtain rfl := id_of_node? hn'
  obtain ⟨n, hn, horigin⟩ := h.origin n' (mem_of_node? hn') hlt
  refine ⟨n, ?_, horigin⟩
  rw [Node.id_of_origin horigin]
  exact hd.node?_of_mem hn

/-- A number of a node of the query, even if the node is gone. -/
structure Knows (d : Diagram) (id : NodeId) : Prop where
  number : id.number < d.nextNode
  kind : ∀ n ∈ d.nodes, n.id = id → n.kind ≠ .value

theorem IsQueryNode.knows (h : d.IsQueryNode id) (hd : d.Numbered) : d.Knows id := by
  obtain ⟨n, hn, rfl, hk⟩ := h
  refine ⟨hd.bounded n hn, fun m hm e => ?_⟩
  rwa [hd.eq_of_id_eq hm hn e]

theorem Continues.knows (h : d.Continues e) (hid : d.Knows id) : e.Knows id where
  number := Nat.lt_of_lt_of_le hid.number h.nextNode
  kind n' hn' e' := by
    obtain ⟨n, hn, horigin⟩ := h.origin n' hn' (e' ▸ hid.number)
    rw [Node.kind_of_origin horigin]
    exact hid.kind n hn ((Node.id_of_origin horigin).symm.trans e')

/-- What is found under a known number was found there before. -/
theorem Continues.isQueryNode_of_knows (h : d.Continues e) (hid : d.Knows id) {n' : Node}
    (hn' : n' ∈ e.nodes) (e' : n'.id = id) : d.IsQueryNode id := by
  obtain ⟨n, hn, horigin⟩ := h.origin n' hn' (e' ▸ hid.number)
  have hnid := (Node.id_of_origin horigin).symm.trans e'
  exact ⟨n, hn, hnid, hid.kind n hn hnid⟩

/-! ## Edits -/

theorem Continues.of_within (h : e.Within d) (hn : d.nextNode ≤ e.nextNode) : d.Continues e :=
  ⟨hn, fun n hn _ => h n hn⟩

theorem Continues.modify (h : d.Continues e) {f : Node → Node}
    (hf : ∀ n, (f n).origin = n.origin) : d.Continues (e.modify id f) :=
  h.trans (.of_within ((Within.refl e).modify hf) (Nat.le_refl _))

theorem continues_keep (p : NodeId → Bool) (q : Link → Bool) (d : Diagram) :
    d.Continues (d.keep p q) :=
  .of_within ((Within.refl d).keep p q) (Nat.le_refl _)

theorem continues_clear (d : Diagram) : d.Continues d.clear :=
  .of_within (by simp [Within, Diagram.clear]) (Nat.le_refl _)

/-- A node with the next number may be added. -/
theorem continues_append (hn : n.id.number = d.nextNode) (hnodes : e.nodes = d.nodes ++ [n])
    (hnext : d.nextNode ≤ e.nextNode) : d.Continues e where
  nextNode := hnext
  origin m hm hlt := by
    rw [hnodes] at hm
    rcases List.mem_append.1 hm with hm | hm
    · exact ⟨m, hm, rfl⟩
    · rw [List.mem_singleton.1 hm, hn] at hlt
      exact absurd hlt (Nat.lt_irrefl _)

/-! ## Building -/

theorem continues_addRoot (p : Provider) (label : String) (anchor : Option Position) (d : Diagram) :
    d.Continues (d.addRoot p label anchor).2 := by
  unfold Diagram.addRoot
  dsimp only
  have hadd (e : Diagram) : e.Continues
      (e.addNode p .root label fun n => { n with fixed := true, position := anchor }).2 :=
    continues_append rfl rfl (Nat.le_succ _)
  split
  · exact hadd d
  · exact (continues_clear d).trans (hadd d.clear)

theorem continues_attachChild (p : Provider) (parent : NodeId) (s : Segment) (kind : NodeKind)
    (d : Diagram) : d.Continues (d.attachChild p parent s kind).2 :=
  continues_append (n := childNode p parent s kind d) rfl rfl (Nat.le_succ _)

theorem continues_expandRelationship (p : Provider) (id : NodeId) (index : Nat) (d : Diagram) :
    d.Continues (d.expandRelationship p id index).2 := by
  unfold Diagram.expandRelationship
  split
  · exact .refl d
  · split
    · exact .refl d
    · exact continues_attachChild p id _ .choose d

theorem continues_setRelationships (id : NodeId) (segments : List Segment) (d : Diagram) :
    d.Continues (d.setRelationships id segments).2 := by
  unfold Diagram.setRelationships
  split
  · exact .refl d
  · exact Continues.modify (.refl d) fun _ => rfl

theorem continues_selectRows (id : NodeId) (label : String) (rows : List Row) (d : Diagram) :
    d.Continues (d.selectRows id label rows) := by
  have hbump : d.Continues { d with nextNode := d.nextNode + rows.length } :=
    .of_within (Within.refl d) (Nat.le_add_right _ _)
  exact Continues.modify hbump fun _ => rfl

theorem continues_addSchema (p : Provider) (s : Schema) (anchor : Option Position) (d : Diagram) :
    d.Continues (d.addSchema p s anchor).2 :=
  (applySchema_induction (P := fun e => d.Continues e) p
    (fun e id label rows h _ => h.trans (continues_selectRows id label rows e))
    (fun _ _ _ h _ => Continues.modify h fun _ => rfl)
    (fun e id s kind _ h _ => h.trans (continues_attachChild p id s kind e)) _ s _
    (continues_addRoot p s.label anchor d) (isQueryNode_addRoot p s.label anchor d)).1

/-! ## Candidates -/

theorem continues_setData (id : NodeId) (rows : List Row) (d : Diagram) :
    d.Continues (d.setData id rows).2 := by
  unfold Diagram.setData
  split
  · exact .refl d
  · exact Continues.modify (.refl d) fun _ => rfl

theorem continues_setPinned (parent : Option NodeId) (fixed : Bool) (d : Diagram) :
    d.Continues (d.setPinned parent fixed) := by
  cases parent with
  | none => exact .refl d
  | some p =>
    refine Continues.modify (.refl d) fun n => ?_
    split <;> rfl

theorem continues_collapseValues (id : NodeId) (d : Diagram) :
    d.Continues (d.collapseValues id).2 := by
  cases hn : d.node? id with
  | none =>
    rw [collapseValues_of_collapsed (by simp [hn])]
    exact .refl d
  | some n =>
    cases he : n.expanded with
    | false =>
      rw [collapseValues_of_collapsed (by simp [hn, he])]
      exact .refl d
    | true =>
      rw [collapseValues_eq hn he]
      refine Continues.trans ?_ (continues_setPinned _ _ _)
      exact Continues.modify (continues_keep _ _ d) fun _ => rfl

theorem continues_addValueNodes (id : NodeId) (label : String) (rows : List Row) (d : Diagram) :
    d.Continues (rows.foldl (addValueNode id label) d) := by
  have hadd (e : Diagram) (row : Row) : e.Continues (addValueNode id label e row) :=
    continues_append (n := shownNode id label row e) rfl rfl (Nat.le_succ _)
  exact List.foldlRecOn (motive := d.Continues) rows _ (.refl d) fun e he row _ =>
    he.trans (hadd e row)

theorem continues_expandValues (id : NodeId) (d : Diagram) :
    d.Continues (d.expandValues id).2 := by
  have hc := continues_collapseValues id d
  cases hn : d.node? id with
  | none => rwa [expandValues_of_none (by simp [hn])]
  | some n =>
    cases hr : n.data with
    | none => rwa [expandValues_of_none (by simp [hn, hr])]
    | some rows =>
      rw [expandValues_eq hn hr]
      refine Continues.trans ?_ (continues_setPinned _ _ _)
      exact Continues.modify (hc.trans (continues_addValueNodes id n.label _ _)) fun _ => rfl

theorem continues_selectValue (id : NodeId) (d : Diagram) :
    d.Continues (d.selectValue id).2 := by
  unfold Diagram.selectValue
  split
  · exact .refl d
  · split
    · split
      · exact .refl d
      · refine Continues.trans ?_ (continues_collapseValues _ _)
        exact Continues.modify (.refl d) fun _ => rfl
    · exact .refl d

theorem continues_turnPage (id : NodeId) (turn : Nat → Nat) (d : Diagram) :
    d.Continues (d.turnPage id turn).2 := by
  rw [turnPage_snd]
  refine Continues.trans ?_ (continues_expandValues id _)
  exact Continues.modify (.refl d) fun _ => rfl

theorem continues_nextPage (id : NodeId) (d : Diagram) : d.Continues (d.nextPage id).2 := by
  unfold Diagram.nextPage
  split
  · exact continues_turnPage id _ d
  · exact .refl d

theorem continues_previousPage (id : NodeId) (d : Diagram) :
    d.Continues (d.previousPage id).2 := by
  unfold Diagram.previousPage
  split
  · exact continues_turnPage id _ d
  · exact .refl d

/-! ## Pruning -/

theorem continues_removeSubtree (id : NodeId) (d : Diagram) :
    d.Continues (d.removeSubtree id).2 := by
  rw [removeSubtree_snd]
  exact continues_keep _ _ d

theorem continues_pruneNegated (id : NodeId) (d : Diagram) : d.Continues (d.pruneNegated id) := by
  have hfold : d.Continues ((d.children id).foldl (fun d x => (d.removeSubtree x).2) d) :=
    List.foldlRecOn (motive := d.Continues) _ _ (.refl d) fun e he x _ =>
      he.trans (continues_removeSubtree x e)
  unfold Diagram.pruneNegated
  exact Continues.modify (hfold.trans (continues_collapseValues id _)) fun _ => rfl

theorem continues_removeValue (id value : NodeId) (d : Diagram) :
    d.Continues (d.removeValue id value).2 := by
  unfold Diagram.removeValue
  split
  · exact .refl d
  · rename_i n hn
    dsimp only
    split
    · exact .refl d
    · have hselect : d.Continues (d.modify id fun m =>
          { m with selected := n.selected.filter fun v => v.id != value }) :=
        Continues.modify (.refl d) fun _ => rfl
      dsimp only
      split
      · exact hselect.trans (continues_pruneNegated id _)
      · exact hselect

theorem continues_negate (id : NodeId) (d : Diagram) : d.Continues (d.negate id).2 := by
  unfold Diagram.negate
  split
  · exact .refl d
  · split
    · exact .refl d
    · split
      · exact Continues.modify (.refl d) fun _ => rfl
      · dsimp only
        split
        · exact Continues.modify (.refl d) fun _ => rfl
        · exact Continues.modify (continues_pruneNegated id d) fun _ => rfl

theorem continues_removeNode (id : NodeId) (d : Diagram) : d.Continues (d.removeNode id).2 := by
  unfold Diagram.removeNode
  split
  · exact .refl d
  · split
    · exact continues_clear d
    · exact continues_removeSubtree id d

/-- Every operation goes on with the numbers. -/
theorem continues_run (p : Provider) (o : Operation) (d : Diagram) : d.Continues (o.run p d).2 := by
  cases o with
  | addRoot label anchor => exact continues_addRoot p label anchor d
  | addSchema s anchor => exact continues_addSchema p s anchor d
  | clear => exact continues_clear d
  | expandRelationship id index => exact continues_expandRelationship p id index d
  | setRelationships id segments => exact continues_setRelationships id segments d
  | setData id rows => exact continues_setData id rows d
  | expandValues id => exact continues_expandValues id d
  | collapseValues id => exact continues_collapseValues id d
  | selectValue id => exact continues_selectValue id d
  | removeValue id value => exact continues_removeValue id value d
  | negate id => exact continues_negate id d
  | removeNode id => exact continues_removeNode id d
  | nextPage id => exact continues_nextPage id d
  | previousPage id => exact continues_previousPage id d

theorem continues_runAll (p : Provider) (ops : List Operation) (d : Diagram) :
    d.Continues (Operation.runAll p ops d) := by
  induction ops generalizing d with
  | nil => exact .refl d
  | cons o rest ih => exact (continues_run p o d).trans (ih _)

end PatternQuery.Diagram
