import PatternQuery.Proofs.Diagram.Pruning

/-!
# The root stays

Selecting, unselecting and negating leave the root in its place (`Linked.hasRoot_negate` and the
like), so a diagram that is not empty stays so. The root is counted always.
-/

namespace PatternQuery.Diagram

/-- The root is there under a number. -/
def HasRoot (d : Diagram) (r : NodeId) : Prop := ∃ n ∈ d.nodes, n.id = r ∧ n.kind = .root

variable {d : Diagram} {id r : NodeId} {n : Node}

theorem Shape.exists_hasRoot (h : d.Shape) (hne : d.isEmpty = false) : ∃ r, d.HasRoot r := by
  obtain ⟨r, rest, hd⟩ := List.exists_cons_of_ne_nil (List.isEmpty_eq_false_iff.1 hne)
  exact ⟨r.id, r, by simp [hd], rfl, h.head_kind hd⟩

theorem HasRoot.isEmpty_eq_false (h : d.HasRoot r) : d.isEmpty = false := by
  obtain ⟨n, hn, -⟩ := h
  exact isEmpty_eq_false_of_mem hn

/-- A root is never negated, so it is counted. -/
theorem Shape.isCountable_of_root (h : d.Shape) (hn : n ∈ d.nodes) (hk : n.kind = .root) :
    n.isCountable = true := by
  have hneg : n.negative = false := by
    cases hneg : n.negative with
    | false => rfl
    | true =>
      have := (h.sound n hn).choose hneg
      rw [hk] at this
      simp at this
  simp [Node.isCountable, hk, hneg]

/-! ## Edits -/

theorem HasRoot.modify (h : d.HasRoot r) {f : Node → Node} (hf : ∀ n, (f n).place = n.place) :
    (d.modify id f).HasRoot r := by
  obtain ⟨n, hn, hid, hk⟩ := h
  refine ⟨_, mem_modify.2 ⟨n, hn, rfl⟩, ?_⟩
  split
  · obtain ⟨hid', hk', -⟩ := Node.place_eq_iff.1 (hf n)
    rw [hid', hk']
    exact ⟨hid, hk⟩
  · exact ⟨hid, hk⟩

theorem HasRoot.keep (h : d.HasRoot r) {p : NodeId → Bool} (hp : p r = true) (q : Link → Bool) :
    (d.keep p q).HasRoot r := by
  obtain ⟨n, hn, rfl, hk⟩ := h
  exact ⟨n, List.mem_filter.2 ⟨hn, hp⟩, rfl, hk⟩

theorem HasRoot.setPinned (h : d.HasRoot r) (parent : Option NodeId) (fixed : Bool) :
    (d.setPinned parent fixed).HasRoot r := by
  cases parent with
  | none => exact h
  | some p =>
    refine HasRoot.modify h fun n => ?_
    split <;> rfl

/-! ## Operations -/

theorem Linked.hasRoot_collapseValues (h : d.Linked) (hr : d.HasRoot r) (id : NodeId) :
    (d.collapseValues id).2.HasRoot r := by
  cases hn : d.node? id with
  | none => rwa [collapseValues_of_collapsed (by simp [hn])]
  | some n =>
    cases he : n.expanded with
    | false => rwa [collapseValues_of_collapsed (by simp [hn, he])]
    | true =>
      rw [collapseValues_eq hn he]
      refine HasRoot.setPinned ?_ _ _
      refine HasRoot.modify (HasRoot.keep hr ?_ _) fun _ => rfl
      obtain ⟨m, hm, rfl, hk⟩ := hr
      rw [Bool.not_eq_true', ← Bool.not_eq_true, List.contains_iff_mem, h.mem_shown_iff _ hm, hk]
      simp

/-- No link leads to the root. -/
theorem Linked.target_ne_root (h : d.Linked) (hr : d.HasRoot r) {l : Link} (hl : l ∈ d.links) :
    l.target ≠ r := by
  rintro rfl
  obtain ⟨n, hn, hid, hk⟩ := hr
  have hp := (h.parent_of_link hl hn hid).1
  rw [(h.parent_eq_none_iff n hn).2 hk] at hp
  simp at hp

theorem Linked.isReachableFrom_root (h : d.Linked) (hr : d.HasRoot r) (hid : id ≠ r) :
    d.isReachableFrom id r = false := by
  have hnone : (d.links.find? fun l => l.target == r) = none := by
    rw [List.find?_eq_none]
    intro l hl e
    exact h.target_ne_root hr hl (by simpa using e)
  rw [isReachableFrom, hnone]
  simp [hid.symm]

theorem Linked.hasRoot_removeSubtree (h : d.Linked) (hr : d.HasRoot r) (hid : id ≠ r) :
    (d.removeSubtree id).2.HasRoot r := by
  rw [removeSubtree_snd]
  exact hr.keep (by rw [h.isReachableFrom_root hr hid]; rfl) _

theorem Linked.hasRoot_removeSubtrees (h : d.Linked) (hr : d.HasRoot r) {ids : List NodeId}
    (hids : ∀ x ∈ ids, x ≠ r) :
    (ids.foldl (fun d x => (d.removeSubtree x).2) d).Linked ∧
      (ids.foldl (fun d x => (d.removeSubtree x).2) d).HasRoot r := by
  induction ids generalizing d with
  | nil => exact ⟨h, hr⟩
  | cons x ids ih =>
    exact ih (h.removeSubtree x) (h.hasRoot_removeSubtree hr (hids x (by simp)))
      fun y hy => hids y (by simp [hy])

theorem Linked.hasRoot_pruneNegated (h : d.Linked) (hr : d.HasRoot r) (id : NodeId) :
    (d.pruneNegated id).HasRoot r := by
  have hchildren : ∀ x ∈ d.children id, x ≠ r := by
    intro x hx
    obtain ⟨l, hl, rfl⟩ := List.mem_map.1 hx
    exact h.target_ne_root hr (List.mem_filter.1 (List.mem_filter.1 hl).1).1
  obtain ⟨hlinked, hkept⟩ := h.hasRoot_removeSubtrees hr hchildren
  unfold Diagram.pruneNegated
  exact HasRoot.modify (hlinked.hasRoot_collapseValues hkept id) fun _ => rfl

theorem Linked.hasRoot_selectValue (h : d.Linked) (hr : d.HasRoot r) (id : NodeId) :
    (d.selectValue id).2.HasRoot r := by
  unfold Diagram.selectValue
  split
  · exact hr
  · split
    · split
      · exact hr
      · refine Linked.hasRoot_collapseValues ?_ ?_ _
        · exact h.modify fun _ => rfl
        · exact HasRoot.modify hr fun _ => rfl
    · exact hr

theorem Linked.hasRoot_removeValue (h : d.Linked) (hr : d.HasRoot r) (id value : NodeId) :
    (d.removeValue id value).2.HasRoot r := by
  unfold Diagram.removeValue
  split
  · exact hr
  · dsimp only
    split
    · exact hr
    · dsimp only
      split
      · refine Linked.hasRoot_pruneNegated ?_ ?_ _
        · exact h.modify fun _ => rfl
        · exact HasRoot.modify hr fun _ => rfl
      · exact HasRoot.modify hr fun _ => rfl

theorem Linked.hasRoot_negate (h : d.Linked) (hr : d.HasRoot r) (id : NodeId) :
    (d.negate id).2.HasRoot r := by
  unfold Diagram.negate
  split
  · exact hr
  · split
    · exact hr
    · split
      · exact HasRoot.modify hr fun _ => rfl
      · dsimp only
        split
        · exact HasRoot.modify hr fun _ => rfl
        · exact HasRoot.modify (h.hasRoot_pruneNegated hr id) fun _ => rfl

end PatternQuery.Diagram
