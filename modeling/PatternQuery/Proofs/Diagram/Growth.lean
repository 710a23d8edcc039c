import PatternQuery.Proofs.Diagram.Bare

/-!
# What grows from bare negations

An operation makes something hang from a bare negation if and only if it expands a segment of one
(`Orderly.severed_run`). Nothing refuses that. Storing segments and candidates and showing the
candidates leaves alone what hangs from bare negations (`Diagram.SameGrowth`).
-/

namespace PatternQuery.Diagram

variable {p : Provider} {d d' e : Diagram} {id : NodeId}

/-- Something hangs from a bare negation. -/
def HasGrowth (d : Diagram) : Prop := ∃ x, d.isBareAt x = true ∧ d.children x ≠ []

theorem Numbered.severed_iff_not_hasGrowth (h : d.Numbered) : d.Severed ↔ ¬ d.HasGrowth := by
  rw [h.severed_iff, HasGrowth]
  simp only [not_exists, not_and, not_not]

/-- Nodes and links run in step, and only nodes that are still to be chosen are negated. -/
structure Orderly (d : Diagram) : Prop extends d.Linked where
  choices : d.NegatesChoices

theorem Orderly.new (pageSize : Nat) : (Diagram.new pageSize).Orderly :=
  ⟨(WellFormed.new pageSize).toLinked, by simp [NegatesChoices, Diagram.new]⟩

theorem choices_expandRelationship (h : d.NegatesChoices) (p : Provider) (id : NodeId)
    (index : Nat) : (d.expandRelationship p id index).2.NegatesChoices := by
  unfold Diagram.expandRelationship
  split
  · exact h
  · split
    · exact h
    · exact h.append (n := childNode p id _ .choose d) rfl rfl

theorem Orderly.run (h : d.Orderly) (p : Provider) (o : Operation) : (o.run p d).2.Orderly := by
  refine ⟨h.toLinked.run o, ?_⟩
  cases hgrows : o.growsBare d with
  | false => exact (h.clears_run p o hgrows).choices h.choices
  | true =>
    cases o with
    | expandRelationship id index => exact choices_expandRelationship h.choices p id index
    | _ => simp [Operation.growsBare] at hgrows

theorem ReachableBy.orderly {admits : Operation → Diagram → Prop} (h : d.ReachableBy p admits) :
    d.Orderly := by
  induction h with
  | new pageSize => exact .new pageSize
  | step _ o _ ih => exact ih.run p o

/-- To expand a segment of a bare negation is not refused, and the child hangs from it. -/
theorem hasGrowth_expandRelationship (p : Provider) {index : Nat}
    (h : (Operation.expandRelationship id index).growsBare d = true) :
    (d.expandRelationship p id index).2.HasGrowth := by
  unfold Operation.growsBare at h
  obtain ⟨n, hn, h⟩ := Option.any_eq_true _ _ |>.1 h
  simp only [Bool.and_eq_true, decide_eq_true_eq] at h
  unfold Diagram.expandRelationship
  simp only [hn, List.getElem?_eq_getElem h.2]
  refine ⟨id, ?_, ?_⟩
  · rw [isBareAt_attachChild, isBareAt, hn]
    exact h.1
  · rw [children_attachChild, if_pos rfl]
    simp

/-- An operation leaves bare negations without children if and only if it expands no segment of
one. -/
theorem Orderly.severed_run (h : d.Orderly) (hs : d.Severed) (p : Provider) (o : Operation) :
    (o.run p d).2.Severed ↔ o.growsBare d = false := by
  have hrun := (h.run p o).toNumbered
  constructor
  · intro hsevered
    rw [hrun.severed_iff_not_hasGrowth] at hsevered
    apply Bool.eq_false_iff.2
    intro hgrows
    cases o with
    | expandRelationship id index => exact hsevered (hasGrowth_expandRelationship p hgrows)
    | _ => simp [Operation.growsBare] at hgrows
  · intro hgrows
    exact (h.clears_run p o hgrows).severed h.toNumbered hrun hs

/-! ## Growth that stays -/

/-- The same negations are bare, and the same hangs from each of them. -/
structure SameGrowth (d d' : Diagram) : Prop where
  bare : ∀ x, d'.isBareAt x = d.isBareAt x
  children : ∀ x, d.isBareAt x = true → d'.children x = d.children x

theorem SameGrowth.refl (d : Diagram) : d.SameGrowth d := ⟨fun _ => rfl, fun _ _ => rfl⟩

theorem SameGrowth.trans (h : d.SameGrowth d') (h' : d'.SameGrowth e) : d.SameGrowth e where
  bare x := (h'.bare x).trans (h.bare x)
  children x hx := (h'.children x ((h.bare x).trans hx)).trans (h.children x hx)

theorem SameGrowth.severed_iff (h : d.SameGrowth d') (hd : d.Numbered) (hd' : d'.Numbered) :
    d'.Severed ↔ d.Severed := by
  rw [hd.severed_iff, hd'.severed_iff]
  refine forall_congr' fun x => ?_
  rw [h.bare]
  refine forall_congr' fun hx => ?_
  rw [h.children x hx]

theorem sameGrowth_modify {f : Node → Node} (hf : ∀ n, (f n).id = n.id)
    (hbare : ∀ n, (f n).isBare = n.isBare) : d.SameGrowth (d.modify id f) :=
  ⟨fun _ => isBareAt_modify_eq hf hbare, fun _ _ => rfl⟩

theorem sameGrowth_setPinned (parent : Option NodeId) (fixed : Bool) (d : Diagram) :
    d.SameGrowth (d.setPinned parent fixed) := by
  cases parent with
  | none => exact .refl d
  | some id =>
    refine sameGrowth_modify (fun n => ?_) fun n => ?_
    · split <;> rfl
    · split <;> rfl

/-- Candidate values are not negated, and no relation is a value link. -/
theorem Orderly.sameGrowth_withoutValues (h : d.Orderly) (id : NodeId) :
    d.SameGrowth (d.withoutValues id) where
  bare x := by
    have hnode {n : Node} (hn : d.node? x = some n) (hk : n.kind ≠ .value) :
        (d.withoutValues id).node? x = some n := by
      refine (h.withoutValues id).node?_eq_some.2 ⟨List.mem_filter.2 ⟨mem_of_node? hn, ?_⟩,
        id_of_node? hn⟩
      rw [Bool.not_eq_true', ← Bool.not_eq_true, List.contains_iff_mem,
        h.mem_shown_iff id (mem_of_node? hn)]
      exact fun hv => hk hv.1
    rw [Bool.eq_iff_iff]
    constructor
    · intro hx
      obtain ⟨n, hn, hb⟩ := Option.any_eq_true _ _ |>.1 hx
      exact Option.any_eq_true _ _ |>.2 ⟨n, node?_of_node?_keep hn h.toNumbered, hb⟩
    · intro hx
      obtain ⟨n, hn, hb⟩ := Option.any_eq_true _ _ |>.1 hx
      refine Option.any_eq_true _ _ |>.2 ⟨n, hnode hn fun hk => ?_, hb⟩
      rw [Node.isBare, Bool.and_eq_true] at hb
      rw [h.choices n (mem_of_node? hn) hb.1] at hk
      cases hk
  children x _ := by
    have hlinks : (d.withoutValues id).relationLinks = d.relationLinks := by
      rw [relationLinks, relationLinks, Diagram.withoutValues, keep, List.filter_filter]
      refine List.filter_congr fun l _ => ?_
      cases hk : l.kind <;> simp [Link.isValueOf, hk]
    rw [children, children, hlinks]

theorem Orderly.sameGrowth_collapseValues (h : d.Orderly) (id : NodeId) :
    d.SameGrowth (d.collapseValues id).2 := by
  cases hn : d.node? id with
  | none =>
    rw [collapseValues_of_collapsed (by simp [hn])]
    exact .refl d
  | some n =>
    cases he : n.expanded with
    | false =>
      rw [collapseValues_of_collapsed (by simp [hn, he])]
      exact .refl d
    | true =>
      rw [collapseValues_eq hn he]
      refine SameGrowth.trans ?_ (sameGrowth_setPinned _ _ _)
      refine (h.sameGrowth_withoutValues id).trans ?_
      exact sameGrowth_modify (fun _ => rfl) fun _ => rfl

theorem sameGrowth_addValueNodes (id : NodeId) (label : String) (rows : List Row) (d : Diagram) :
    d.SameGrowth (rows.foldl (addValueNode id label) d) := by
  induction rows generalizing d with
  | nil => exact .refl d
  | cons row rows ih =>
    refine SameGrowth.trans ⟨fun x => ?_, fun x _ => ?_⟩ (ih _)
    · exact isBareAt_append (d := d) (n := shownNode id label row d) rfl rfl
    · simp [children, relationLinks, addValueNode, List.filter_append]

/-- Showing and hiding candidates has nothing to do with relations. -/
theorem Orderly.sameGrowth_expandValues (h : d.Orderly) (id : NodeId) :
    d.SameGrowth (d.expandValues id).2 := by
  have hc := h.sameGrowth_collapseValues id
  cases hn : d.node? id with
  | none => rwa [expandValues_of_none (by simp [hn])]
  | some n =>
    cases hr : n.data with
    | none => rwa [expandValues_of_none (by simp [hn, hr])]
    | some rows =>
      rw [expandValues_eq hn hr]
      refine SameGrowth.trans ?_ (sameGrowth_setPinned _ _ _)
      refine (hc.trans (sameGrowth_addValueNodes id n.label
        (pageRows (d.collapseValues id).2.pageSize n rows) _)).trans ?_
      exact sameGrowth_modify (fun _ => rfl) fun _ => rfl

theorem sameGrowth_setData (id : NodeId) (rows : List Row) (d : Diagram) :
    d.SameGrowth (d.setData id rows).2 := by
  unfold Diagram.setData
  split
  · exact .refl d
  · exact sameGrowth_modify (fun _ => rfl) fun _ => rfl

theorem sameGrowth_setRelationships (id : NodeId) (segments : List Segment) (d : Diagram) :
    d.SameGrowth (d.setRelationships id segments).2 := by
  unfold Diagram.setRelationships
  split
  · exact .refl d
  · exact sameGrowth_modify (fun _ => rfl) fun _ => rfl

end PatternQuery.Diagram
