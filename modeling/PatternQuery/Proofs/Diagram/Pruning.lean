import PatternQuery.Proofs.Diagram.Values

/-!
# Pruning well-formed diagrams

A node goes together with everything that links lead to from it, so what stays is well formed
(`WellFormed.removeSubtree`). Negating and unselecting prune by such removals.
-/

namespace PatternQuery.Diagram

variable {d : Diagram} {id : NodeId} {n : Node}

/-! ## Subtrees -/

/-- What a link leads to is reached where its source is. -/
theorem Linked.isReachableFrom_target (h : d.Linked) {l : Link} (hl : l ∈ d.links) (top : NodeId) :
    d.isReachableFrom top l.target = (l.target == top || d.isReachableFrom top l.source) := by
  have hfind : d.links.find? (fun k => k.target == l.target) = some l := by
    obtain ⟨k, hk⟩ : ∃ k, d.links.find? (fun k => k.target == l.target) = some k := by
      rw [← Option.isSome_iff_exists, List.find?_isSome]
      exact ⟨l, hl, by simp⟩
    have ht := List.find?_some hk
    rw [hk, h.eq_of_target_eq (List.mem_of_find?_eq_some hk) hl (by simpa using ht)]
  rw [isReachableFrom, hfind]
  simp only [h.sourceBefore l hl, ↓reduceIte]

/-- A child is reached where its parent is. -/
theorem Linked.isReachableFrom_of_parent (h : d.Linked) (hn : n ∈ d.nodes) {p : NodeId}
    (hp : n.parent = some p) (top : NodeId) :
    d.isReachableFrom top n.id = (n.id == top || d.isReachableFrom top p) := by
  obtain ⟨l, hl, ht, rfl, -⟩ := h.link_of_parent hn hp
  rw [← ht]
  exact h.isReachableFrom_target hl top

/-- What is reached from a node was not made before it. -/
theorem number_le_of_isReachableFrom {top : NodeId} (h : d.isReachableFrom top id = true) :
    top.number ≤ id.number := by
  fun_induction isReachableFrom d top id with
  | case1 id ih =>
    rcases Bool.or_eq_true_iff.1 h with heq | hlink
    · exact Nat.le_of_eq (by rw [beq_iff_eq.1 heq])
    · split at hlink
      · simp at hlink
      · rename_i l _
        by_cases hlt : l.source.number < id.number
        · rw [if_pos hlt] at hlink
          have := ih l hlt hlink
          omega
        · simp [hlt] at hlink

theorem removeSubtree_snd (id : NodeId) (d : Diagram) :
    (d.removeSubtree id).2 = d.keep (fun x => !d.isReachableFrom id x) fun l =>
      !d.isReachableFrom id l.source && !d.isReachableFrom id l.target :=
  rfl

/-- A link goes together with what it leads to. -/
theorem Linked.staysBehind_eq (h : d.Linked) (id : NodeId) {l : Link} (hl : l ∈ d.links) :
    (!d.isReachableFrom id l.source && !d.isReachableFrom id l.target) =
      !d.isReachableFrom id l.target := by
  rw [h.isReachableFrom_target hl id]
  cases d.isReachableFrom id l.source <;> simp

theorem Linked.removeSubtree (h : d.Linked) (id : NodeId) : (d.removeSubtree id).2.Linked := by
  rw [removeSubtree_snd]
  exact h.keep fun l hl => h.staysBehind_eq id hl

theorem WellFormed.removeSubtree (h : d.WellFormed) (id : NodeId) :
    (d.removeSubtree id).2.WellFormed := by
  rw [removeSubtree_snd]
  refine h.keep (fun l hl => h.staysBehind_eq id hl) fun n hn hkeep x hx => ?_
  rw [h.isReachableFrom_of_parent hn hx id] at hkeep
  simp only [Bool.not_or, Bool.and_eq_true] at hkeep
  exact hkeep.2

/-! ## Negation -/

theorem WellFormed.removeSubtrees (h : d.WellFormed) (ids : List NodeId) :
    (ids.foldl (fun d x => (d.removeSubtree x).2) d).WellFormed :=
  List.foldlRecOn ids _ h fun _ he x _ => he.removeSubtree x

theorem WellFormed.pruneNegated (h : d.WellFormed) (id : NodeId) : (d.pruneNegated id).WellFormed :=
  ((h.removeSubtrees (d.children id)).collapseValues id).restyle fun _ => rfl

/-- Only nodes of the query have values that can be unselected. -/
theorem Shape.isQueryNode_of_selected (h : d.Shape) (hn : d.node? id = some n)
    (hs : n.selected ≠ []) : d.IsQueryNode id :=
  isQueryNode_of_node? hn fun hk => hs ((h.sound n (mem_of_node? hn)).selected hk)

theorem selected_ne_nil_of_filter {selected : List SelectedValue} {p : SelectedValue → Bool}
    (h : (selected.filter p).length ≠ selected.length) : selected ≠ [] := by
  rintro rfl
  simp at h

theorem WellFormed.removeValue (h : d.WellFormed) (id value : NodeId) :
    (d.removeValue id value).2.WellFormed := by
  unfold Diagram.removeValue
  cases hn : d.node? id with
  | none => exact h
  | some n =>
    dsimp only
    split
    · exact h
    · rename_i hlen
      have hid := h.isQueryNode_of_selected hn (selected_ne_nil_of_filter hlen)
      have hw := h.reselect hid fun _ => n.selected.filter fun v => v.id != value
      dsimp only
      split
      · exact hw.pruneNegated id
      · exact hw

theorem Within.removeSubtree {e : Diagram} (h : e.Within d) (id : NodeId) :
    (e.removeSubtree id).2.Within d := by
  rw [removeSubtree_snd]
  exact h.keep _ _

theorem Within.removeSubtrees {e : Diagram} (h : e.Within d) (ids : List NodeId) :
    (ids.foldl (fun d x => (d.removeSubtree x).2) e).Within d :=
  List.foldlRecOn (motive := fun e : Diagram => e.Within d) ids _ h
    fun _ he x _ => he.removeSubtree x

theorem Within.pruneNegated {e : Diagram} (h : e.Within d) (id : NodeId) :
    (e.pruneNegated id).Within d := by
  unfold Diagram.pruneNegated
  exact Within.modify ((h.removeSubtrees _).collapseValues id) fun _ => rfl

theorem WellFormed.negate (h : d.WellFormed) (id : NodeId) : (d.negate id).2.WellFormed := by
  unfold Diagram.negate
  cases hn : d.node? id with
  | none => exact h
  | some n =>
    dsimp only
    split
    · exact h
    · rename_i hk
      have hk : n.kind = .choose := by simpa using hk
      split
      · refine h.modify (fun _ => rfl) (fun m hm => ?_) fun _ => rfl
        have hs := h.sound m (mem_of_node? hm)
        exact ⟨hs.relationships, hs.selected, hs.data, hs.collapsed, fun hneg => by simp at hneg⟩
      · -- What is left under the number of the node is the node itself, still to be chosen.
        have hset {e : Diagram} (he : e.WellFormed) (hw : e.Within d) :
            (e.modify id fun m => { m with negative := true }).WellFormed := by
          refine he.modify (fun _ => rfl) (fun m hm => ?_) fun _ => rfl
          obtain ⟨m', hm', horigin⟩ := hw m (mem_of_node? hm)
          obtain rfl := h.eq_of_node? hn hm'
            ((Node.id_of_origin horigin).symm.trans (id_of_node? hm))
          have hmk : m.kind = .choose := (Node.kind_of_origin horigin).trans hk
          exact .of_ne_value (by simp [hmk]) fun _ => hmk
        dsimp only
        split
        · exact hset h (.refl d)
        · exact hset (h.pruneNegated id) ((Within.refl d).pruneNegated id)

theorem WellFormed.removeNode (h : d.WellFormed) (id : NodeId) :
    (d.removeNode id).2.WellFormed := by
  unfold Diagram.removeNode
  split
  · exact h
  · split
    · exact .clear d
    · exact h.removeSubtree id

end PatternQuery.Diagram
