import PatternQuery.Proofs.Diagram.Unselecting
import PatternQuery.Proofs.Statement.IdleOperations

/-!
# Selections that are taken back

What hangs from a negated node lies within the clause of the negation, so whatever is removed there
leaves the result as it is (`WellFormed.resultQuery_pruneNegated`). A value that is selected and
unselected again therefore changes no result, even if it was the only one of a negated node and
everything below the node goes with it (`Diagram.result_of_undone_selection`).
-/

namespace PatternQuery.Diagram

variable {q : Provider} {c : Compiler} {d : Diagram} {x y : NodeId} {m n r : Node}

/-! ## Below a negation -/

/-- The root is not negated, so every negation applies to statements about it. -/
theorem WellFormed.underAppliedNegation_root (h : d.WellFormed) (hr : r ∈ d.nodes)
    (hroot : r.kind = .root) (hn : d.node? x = some n) (hneg : n.negative = true)
    (hb : d.Below y x) : d.underAppliedNegation y r.id = true := by
  have hne : x ≠ r.id := by
    rintro rfl
    have hk := (h.sound n (mem_of_node? hn)).choose hneg
    rw [← h.eq_of_node? hn hr rfl, hroot] at hk
    cases hk
  have habove : ¬ d.BelowOrSelf r.id x := by
    intro hrx
    rcases Relation.ReflTransGen.cases_head hrx with heq | ⟨z, ⟨k, hk, hid, hp⟩, -⟩
    · exact hne heq.symm
    · rw [h.eq_of_id_eq hk hr hid, (h.parent_eq_none_iff r hr).2 hroot] at hp
      cases hp
  refine List.any_eq_true.2 ⟨x, h.mem_ancestors_iff.2 hb, ?_⟩
  simp only [hn, hneg, Bool.true_and, negationApplies, Bool.not_eq_true']
  rw [← Bool.not_eq_true, h.isAncestorOrSelf_iff]
  exact habove

/-- A child of a negated node goes with everything below it, and no leaf for the result is lost. -/
theorem WellFormed.removeSubtree_covers (h : d.WellFormed) (hr : r ∈ d.nodes)
    (hroot : r.kind = .root) (hn : d.node? x = some n) (hneg : n.negative = true)
    (hy : ∀ k ∈ d.nodes, k.id = y → k.parent = some x) : (d.removeSubtree y).2.Covers r.id d where
  toEmbeds := by
    refine h.removeSubtree_embeds fun k hk hkind hid => ?_
    have hp := hy k hk hid.symm
    rw [(h.parent_eq_none_iff k hk).2 hkind] at hp
    cases hp
  further l hl hgone := by
    obtain ⟨k, hk, ht, hkind⟩ := h.isQueryNode_target hl
    rw [← ht] at hgone
    have hky : d.BelowOrSelf k.id y :=
      h.isReachableFrom_iff.1 (isReachableFrom_of_gone hk hkind hgone)
    have hyx : d.HangsFrom y x := by
      obtain ⟨z, hz, hid⟩ : ∃ z ∈ d.nodes, z.id = y := by
        rcases Relation.ReflTransGen.cases_tail hky with heq | ⟨z, -, hz⟩
        · exact ⟨k, hk, heq.symm⟩
        · obtain ⟨w, hw, hid, -⟩ := h.isQueryNode_of_hangsFrom hz
          exact ⟨w, hw, hid⟩
      exact ⟨z, hz, hid, hy z hz hid⟩
    have hunder := h.underAppliedNegation_root hr hroot hn hneg
      (Relation.TransGen.tail' hky hyx)
    rw [ht] at hunder
    unfold isLeafLink
    rw [hunder]
    split <;> simp

theorem of_root? (hr : d.root? = some r) : r ∈ d.nodes ∧ r.kind = .root := by
  obtain ⟨hhead, hroot⟩ := Option.filter_eq_some_iff.1 hr
  exact ⟨List.mem_of_mem_head? hhead, by simpa [Node.isRoot] using hroot⟩

/-- The children of a negated node go, and the result stays. -/
theorem WellFormed.resultQuery_removeSubtrees (h : d.WellFormed) (hc : c.provider.Local)
    (hn : d.node? x = some n) (hneg : n.negative = true) {ys : List NodeId}
    (hys : ∀ y ∈ ys, x.number < y.number ∧ ∀ k ∈ d.nodes, k.id = y → k.parent = some x)
    (graphMode : Bool) :
    c.resultQuery (ys.foldl (fun d y => (d.removeSubtree y).2) d) graphMode =
      c.resultQuery d graphMode := by
  induction ys generalizing d with
  | nil => rfl
  | cons y ys ih =>
    obtain ⟨hlt, hy⟩ := hys y List.mem_cons_self
    have hw := h.removeSubtree y
    have hids : ∀ z ∈ [y], x.number < z.number := by simpa using hlt
    have hn' : (d.removeSubtree y).2.node? x = some n := (node?_removeSubtrees hids).trans hn
    have hrest := ih hw hn' fun z hz => by
      obtain ⟨hlt, hz⟩ := hys z (List.mem_cons_of_mem y hz)
      exact ⟨hlt, fun k hk => hz k (mem_removeSubtree.1 hk).1⟩
    obtain ⟨r, hr, hid⟩ := hw.toShape.exists_root (isEmpty_eq_false_of_node? hn')
    obtain ⟨hmem, hroot⟩ := of_root? hr
    have hcovers := h.removeSubtree_covers (mem_removeSubtree.1 hmem).1 hroot hn hneg hy
    rw [List.foldl_cons, hrest]
    exact (Compiler.resultQuery_eq_of_covers hc hr hid hcovers hw.toShape h.toShape graphMode).symm

/-- What negating or unselecting prunes has no part in the result. -/
theorem WellFormed.resultQuery_pruneNegated (h : d.WellFormed) (hc : c.provider.Local)
    (hn : d.node? x = some n) (hneg : n.negative = true) (graphMode : Bool) :
    c.resultQuery (d.pruneNegated x) graphMode = c.resultQuery d graphMode := by
  have hlt : ∀ y ∈ d.children x, x.number < y.number :=
    fun y hy => h.toNumbered.number_lt_of_mem_children hy
  have hbelow : ∀ y ∈ d.children x, ∀ k ∈ d.nodes, k.id = y → k.parent = some x := by
    intro y hy k hk hid
    obtain ⟨l, hl, rfl⟩ := List.mem_map.1 hy
    obtain ⟨hl, hs⟩ := List.mem_filter.1 hl
    rw [(h.parent_of_link (mem_relationLinks.1 hl).1 hk hid).1, beq_iff_eq.1 hs]
  have hchildren := h.resultQuery_removeSubtrees hc hn hneg
    (fun y hy => ⟨hlt y hy, hbelow y hy⟩) graphMode
  have hw := h.removeSubtrees (d.children x)
  have hn' := (node?_removeSubtrees hlt).trans hn
  have hcollapsed := hw.collapseValues x
  have hne := isEmpty_eq_false_of_node? hn'
  obtain ⟨m, hm, -⟩ := hw.live_collapseValues (live_of_node? hn')
  rw [← hchildren, ← Compiler.resultQuery_eq hc (hw.extends_collapseValues x) hw.toShape
    hcollapsed.toShape hne]
  refine Compiler.resultQuery_eq hc ?_ hcollapsed.toShape (h.pruneNegated x).toShape
    (isEmpty_eq_false_of_mem hm) graphMode
  exact hcollapsed.toShape.extends_modify x fun _ => rfl

/-! ## Selecting and unselecting -/

/-- To unselect what was just selected leaves nothing but that candidates are hidden, and that a
negation without values is pruned. -/
theorem WellFormed.removeValue_selectValue (h : d.WellFormed) (hr : d.Remembers) (hm : m ∈ d.nodes)
    (hk : m.kind = .value) : ∃ p d₁ n, m.parent = some p ∧ d.selectValue m.id = (.ok p, d₁) ∧
      (d.collapseValues p).2.node? p = some n ∧ d₁.removeValue p m.id = (.ok true,
        if n.negative && n.selected.isEmpty then (d.collapseValues p).2.pruneNegated p
        else (d.collapseValues p).2) := by
  obtain ⟨p, hp⟩ := h.exists_parent hm (by simp [hk])
  obtain ⟨n₀, n, hn₀, hn, hessence⟩ := (h.extends_collapseValues p).exists_node? h.toNumbered
    (h.collapseValues p).toNumbered (h.parentLive m hm p hp)
  have hselected : n.selected = n₀.selected :=
    Node.congr_essence hessence Node.selected fun _ => rfl
  have hfresh : ∀ w ∈ n.selected, w.id ≠ m.id := by
    intro w hw hid
    rw [hselected] at hw
    exact (hr n₀ (mem_of_node? hn₀) w hw).kind m hm hid.symm hk
  let v := pickedValue m
  have hpick : Node.Apart fun n => { n with selected := n.selected ++ [v] } :=
    ⟨fun _ => rfl, fun _ _ _ => rfl⟩
  have hothers : Node.others { n with selected := n.selected ++ [v] } m.id = n.selected := by
    have hstay : n.selected.filter (fun w => w.id != m.id) = n.selected :=
      List.filter_eq_self.2 fun w hw => by simpa using hfresh w hw
    simp [Node.others, List.filter_append, hstay, v, pickedValue]
  have hback : ((d.collapseValues p).2.pick p v).modify p (Node.reselect n.selected) =
      (d.collapseValues p).2 :=
    (modify_modify hpick.id (d.collapseValues p).2 p).trans
      ((h.collapseValues p).toNumbered.modify_eq_self hn rfl)
  have hpicked : ((d.collapseValues p).2.pick p v).node? p =
      some { n with selected := n.selected ++ [v] } :=
    node?_modify_self hpick.id hn
  refine ⟨p, (d.collapseValues p).2.pick p v, n, hp, ?_, hn, ?_⟩
  · rw [h.selectValue_eq hm hk hp]
    exact congrArg (Prod.mk _) (collapseValues_modify hpick p d p)
  · have hlast : ∃ w ∈ n.selected ++ [v], w.id = m.id := ⟨v, by simp, rfl⟩
    rw [removeValue_eq hpicked hlast, hothers, hback]

/-- A candidate that is selected and then unselected changes no result, wherever it hangs: the two
operations succeed, and the statements for the rows are those from before. -/
theorem result_of_undone_selection (h : d.Reachable q) (hc : c.provider.Local) (hm : m ∈ d.nodes)
    (hk : m.kind = .value) : ∃ p d₁ d₂, m.parent = some p ∧ d.selectValue m.id = (.ok p, d₁) ∧
      d₁.removeValue p m.id = (.ok true, d₂) ∧
      ∀ graphMode, ∃ s, c.resultQuery d graphMode = .ok s ∧ c.resultQuery d₂ graphMode = .ok s := by
  have hd := h.wellFormed
  obtain ⟨p, d₁, n, hp, hselect, hn, hremove⟩ := hd.removeValue_selectValue h.remembers hm hk
  refine ⟨p, d₁, _, hp, hselect, hremove, fun graphMode => ?_⟩
  have hne := isEmpty_eq_false_of_mem hm
  obtain ⟨s, hs⟩ := c.exists_resultQuery hd.toShape hne graphMode
  have hcollapsed := hd.collapseValues p
  have hsame := Compiler.resultQuery_eq hc (hd.extends_collapseValues p) hd.toShape
    hcollapsed.toShape hne graphMode
  refine ⟨s, hs, ?_⟩
  split
  · rename_i hbare
    rw [hcollapsed.resultQuery_pruneNegated hc hn (Bool.and_eq_true_iff.1 hbare).1, hsame, hs]
  · rw [hsame, hs]

/-- A friend of whom nobody is to be known has an acquaintance all the same, on whom a value is
selected. The acquaintance goes where a value of the friend is selected and unselected, and the
result stays. -/
theorem result_of_undone_selection_of_nobody :
    let d := Operation.runAll .plain [.addRoot "Person" none,
      .setRelationships ⟨0⟩ [{ label := "KNOWS", target := "Person", count := 1 }],
      .expandRelationship ⟨0⟩ 0,
      .setRelationships ⟨1⟩ [{ label := "KNOWS", target := "Person", count := 1 }],
      .setData ⟨1⟩ [Table.empty.insert "name" (.str "Ann")], .negate ⟨1⟩,
      .expandRelationship ⟨1⟩ 0, .setData ⟨2⟩ [Table.empty.insert "name" (.str "Bob")],
      .expandValues ⟨2⟩, .selectValue ⟨3⟩, .expandValues ⟨1⟩] (.new 10)
    d.Reachable .plain ∧ d.nodes.map (fun n => n.id.number) = [0, 1, 2, 4] ∧
      ∃ d₁ d₂, d.selectValue ⟨4⟩ = (.ok ⟨1⟩, d₁) ∧ d₁.removeValue ⟨1⟩ ⟨4⟩ = (.ok true, d₂) ∧
        d₂.nodes.map (fun n => n.id.number) = [0, 1] ∧
        ∃ s, Compiler.resultQuery ⟨.plain, {}⟩ d true = .ok s ∧
          Compiler.resultQuery ⟨.plain, {}⟩ d₂ true = .ok s := by
  intro d
  have hd : d.Reachable .plain := Reachable.runAll (.new 10) _ (by decide +kernel)
  have hnode : (d.node? ⟨4⟩).any (fun m => m.kind == .value && m.parent == some ⟨1⟩) = true := by
    decide +kernel
  obtain ⟨m, hm, hnode⟩ := Option.any_eq_true _ _ |>.1 hnode
  simp only [Bool.and_eq_true, beq_iff_eq] at hnode
  obtain ⟨p, d₁, d₂, hp, hselect, hremove, hresult⟩ := result_of_undone_selection hd
    (c := ⟨.plain, {}⟩) Provider.plain_local (mem_of_node? hm) hnode.1
  obtain rfl : (⟨1⟩ : NodeId) = p := Option.some.inj (hnode.2.symm.trans hp)
  rw [id_of_node? hm] at hselect hremove
  refine ⟨hd, by decide +kernel, d₁, d₂, hselect, hremove, ?_, hresult true⟩
  have hd₂ : d₂ = ((d.selectValue ⟨4⟩).2.removeValue ⟨1⟩ ⟨4⟩).2 := by rw [hselect, hremove]
  rw [hd₂]
  decide +kernel

end PatternQuery.Diagram
