import PatternQuery.Proofs.Diagram.Edits
import PatternQuery.Proofs.Diagram.Replaying
import PatternQuery.Proofs.Diagram.Root

/-!
# What is left of a cleared diagram

A diagram keeps its root until it is cleared (`Linked.hasRoot_run`), and clearing leaves nothing but
the page size and the counters. So a reachable diagram without nodes is a new one but for the
counters (`ReachableBy.eq_clear_or_hasRoot`), and whatever starts with a root of its own does in a
reachable diagram what it does in a new one, under higher numbers (`ReachableBy.trace_eq`).
-/

namespace PatternQuery

/-- The operation starts with a root, in place of whatever there is. -/
def Operation.makesRoot : Operation → Bool
  | addRoot _ _ | addSchema _ _ => true
  | _ => false

namespace Diagram

variable {p : Provider} {d d' : Diagram} {id r : NodeId} {admits : Operation → Diagram → Prop}

/-! ## The root stays -/

theorem HasRoot.mono (hr : d.HasRoot r) (hnodes : d.nodes ⊆ d'.nodes) : d'.HasRoot r := by
  obtain ⟨n, hn, hroot⟩ := hr
  exact ⟨n, hnodes hn, hroot⟩

theorem HasRoot.expandRelationship (hr : d.HasRoot r) (p : Provider) (id : NodeId) (index : Nat) :
    (d.expandRelationship p id index).2.HasRoot r := by
  unfold Diagram.expandRelationship
  split
  · exact hr
  · split
    · exact hr
    · exact hr.mono (List.subset_append_left _ _)

theorem HasRoot.setRelationships (hr : d.HasRoot r) (id : NodeId) (segments : List Segment) :
    (d.setRelationships id segments).2.HasRoot r := by
  unfold Diagram.setRelationships
  split
  · exact hr
  · exact HasRoot.modify hr fun _ => rfl

theorem HasRoot.setData (hr : d.HasRoot r) (id : NodeId) (rows : List Row) :
    (d.setData id rows).2.HasRoot r := by
  unfold Diagram.setData
  split
  · exact hr
  · exact HasRoot.modify hr fun _ => rfl

theorem Linked.hasRoot_expandValues (h : d.Linked) (hr : d.HasRoot r) (id : NodeId) :
    (d.expandValues id).2.HasRoot r := by
  have hcollapsed := h.hasRoot_collapseValues hr id
  cases hn : d.node? id with
  | none => rwa [expandValues_of_none (by simp [hn])]
  | some n =>
    cases hrows : n.data with
    | none => rwa [expandValues_of_none (by simp [hn, hrows])]
    | some rows =>
      obtain ⟨vs, -, hvs, -⟩ := addValueNodes_append id n.label
        (pageRows (d.collapseValues id).2.pageSize n rows) (d.collapseValues id).2
      rw [expandValues_eq hn hrows]
      refine HasRoot.setPinned ?_ _ _
      refine HasRoot.modify (hcollapsed.mono ?_) fun _ => rfl
      rw [hvs]
      exact List.subset_append_left _ _

theorem Linked.hasRoot_turnPage (h : d.Linked) (hr : d.HasRoot r) (id : NodeId)
    (turn : Nat → Nat) : (d.turnPage id turn).2.HasRoot r := by
  rw [turnPage_snd]
  refine Linked.hasRoot_expandValues ?_ ?_ id
  · exact h.modify fun _ => rfl
  · exact HasRoot.modify hr fun _ => rfl

theorem Linked.hasRoot_nextPage (h : d.Linked) (hr : d.HasRoot r) (id : NodeId) :
    (d.nextPage id).2.HasRoot r := by
  unfold Diagram.nextPage
  split
  · exact h.hasRoot_turnPage hr id _
  · exact hr

theorem Linked.hasRoot_previousPage (h : d.Linked) (hr : d.HasRoot r) (id : NodeId) :
    (d.previousPage id).2.HasRoot r := by
  unfold Diagram.previousPage
  split
  · exact h.hasRoot_turnPage hr id _
  · exact hr

theorem Linked.hasRoot_removeNode (h : d.Linked) (hr : d.HasRoot r) {id : NodeId}
    (hid : (d.node? id).any Node.isRoot = false) : (d.removeNode id).2.HasRoot r := by
  unfold Diagram.removeNode
  cases hn : d.node? id with
  | none => exact hr
  | some n =>
    have hroot : n.isRoot = false := by simpa [hn] using hid
    simp only [hroot, Bool.false_eq_true, if_false]
    refine h.hasRoot_removeSubtree hr ?_
    rintro rfl
    obtain ⟨m, hm, hmid, hk⟩ := hr
    rw [← h.eq_of_node? hn hm hmid, Node.isRoot, hk] at hroot
    simp at hroot

/-- An operation that does not clear the diagram leaves its root. -/
theorem Linked.hasRoot_run (h : d.Linked) (hr : d.HasRoot r) {o : Operation}
    (ho : o.clears d = false) : (o.run p d).2.HasRoot r := by
  cases o with
  | addRoot label anchor => simp [Operation.clears, hr.isEmpty_eq_false] at ho
  | addSchema s anchor => simp [Operation.clears, hr.isEmpty_eq_false] at ho
  | clear => simp [Operation.clears] at ho
  | expandRelationship id index => exact hr.expandRelationship p id index
  | setRelationships id segments => exact hr.setRelationships id segments
  | setData id rows => exact hr.setData id rows
  | expandValues id => exact h.hasRoot_expandValues hr id
  | collapseValues id => exact h.hasRoot_collapseValues hr id
  | selectValue id => exact h.hasRoot_selectValue hr id
  | removeValue id value => exact h.hasRoot_removeValue hr id value
  | negate id => exact h.hasRoot_negate hr id
  | removeNode id => exact h.hasRoot_removeNode hr ho
  | nextPage id => exact h.hasRoot_nextPage hr id
  | previousPage id => exact h.hasRoot_previousPage hr id

/-! ## New roots -/

theorem hasRoot_addRoot (p : Provider) (label : String) (anchor : Option Position) (d : Diagram) :
    (d.addRoot p label anchor).2.HasRoot (d.addRoot p label anchor).1 :=
  ⟨_, List.mem_append_right _ (List.mem_singleton.2 rfl), rfl, rfl⟩

theorem hasRoot_addSchema (p : Provider) (s : Schema) (anchor : Option Position) (d : Diagram) :
    (d.addSchema p s anchor).2.HasRoot (d.addRoot p s.label anchor).1 :=
  (applySchema_induction (P := fun e => e.HasRoot _) p
    (fun _ _ _ _ hr _ => HasRoot.modify (hr.mono (List.Subset.refl _)) fun _ => rfl)
    (fun _ _ _ hr _ => HasRoot.modify hr fun _ => rfl)
    (fun _ _ _ _ _ hr _ => hr.mono (List.subset_append_left _ _)) _ s _
    (hasRoot_addRoot p s.label anchor d) (isQueryNode_addRoot p s.label anchor d)).1

theorem exists_hasRoot_of_makesRoot {o : Operation} (ho : o.makesRoot = true) (p : Provider)
    (d : Diagram) : ∃ r, (o.run p d).2.HasRoot r := by
  cases o with
  | addRoot label anchor => exact ⟨_, hasRoot_addRoot p label anchor d⟩
  | addSchema s anchor => exact ⟨_, hasRoot_addSchema p s anchor d⟩
  | _ => cases ho

/-! ## Cleared diagrams -/

/-- In a cleared diagram nothing but a root of its own gets an operation going. -/
theorem run_clear {o : Operation} (ho : o.makesRoot = false) (p : Provider) (d : Diagram) :
    (o.run p d.clear).2 = d.clear := by
  cases o with
  | addRoot _ _ | addSchema _ _ => cases ho
  | _ => rfl

/-- An operation that clears the diagram and does not start with a root leaves it cleared. -/
theorem run_of_clears {o : Operation} (ho : o.makesRoot = false) (hclears : o.clears d = true)
    (p : Provider) : (o.run p d).2 = d.clear := by
  cases o with
  | addRoot _ _ | addSchema _ _ => cases ho
  | clear => rfl
  | removeNode id =>
    cases hn : d.node? id with
    | none => simp [Operation.clears, hn] at hclears
    | some n =>
      have hroot : n.isRoot = true := by simpa [Operation.clears, hn] using hclears
      show (d.removeNode id).2 = d.clear
      simp [Diagram.removeNode, hn, hroot]
  | _ => cases hclears

/-- A reachable diagram has a root, or nothing is left in it. -/
theorem ReachableBy.eq_clear_or_hasRoot (h : d.ReachableBy p admits) :
    d = d.clear ∨ ∃ r, d.HasRoot r := by
  induction h with
  | new pageSize => exact .inl rfl
  | @step d h o _ ih =>
    cases hmakes : o.makesRoot with
    | true => exact .inr (exists_hasRoot_of_makesRoot hmakes p d)
    | false =>
      rcases ih with hclear | ⟨r, hr⟩
      · rw [hclear, run_clear hmakes]
        exact .inl rfl
      · cases hclears : o.clears d with
        | true =>
          rw [run_of_clears hmakes hclears]
          exact .inl rfl
        | false => exact .inr ⟨r, h.linked.hasRoot_run hr hclears⟩

theorem Linked.pageSize_run (h : d.Linked) (p : Provider) (o : Operation) :
    (o.run p d).2.pageSize = d.pageSize := by
  have hstart : (o.start d).pageSize = d.pageSize := by
    unfold Operation.start
    split <;> rfl
  rw [← hstart]
  have hrun := h.strokes_run (p := p) o
  generalize (o.run p d).2 = d' at hrun
  induction hrun with
  | refl => rfl
  | tail _ hlast ih =>
    rw [← ih]
    cases hlast <;> rfl

/-- Clearing leaves a new diagram but for the counters. -/
theorem clear_eq_shift (d : Diagram) :
    d.clear = (Diagram.new d.pageSize).shift d.nextNode d.nextLink := by
  have hpos := d.pageSize_pos
  have hsize : max d.pageSize 1 = d.pageSize := by omega
  simp [clear, Diagram.shift, Diagram.new, hsize]

theorem ReachableBy.pageSize_runAll (h : d.ReachableBy p fun _ _ => True) (ops : List Operation) :
    (Operation.runAll p ops d).pageSize = d.pageSize := by
  induction ops generalizing d with
  | nil => rfl
  | cons o rest ih => exact (ih (.step h o trivial)).trans (h.linked.pageSize_run p o)

/-- A root of its own is made in a reachable diagram as in the cleared one. -/
theorem ReachableBy.addRoot_clear (h : d.ReachableBy p admits) (q : Provider) (label : String)
    (anchor : Option Position) : d.addRoot q label anchor = d.clear.addRoot q label anchor := by
  rcases h.eq_clear_or_hasRoot with hclear | ⟨r, hr⟩
  · rw [← hclear]
  · simp only [addRoot, hr.isEmpty_eq_false, Bool.false_eq_true, if_false]
    rfl

theorem ReachableBy.answer_clear (h : d.ReachableBy p admits) {o : Operation}
    (ho : o.makesRoot = true) : o.answer p d = o.answer p d.clear := by
  cases o with
  | addRoot label anchor => simp only [Operation.answer, h.addRoot_clear]
  | addSchema s anchor => simp only [Operation.answer, addSchema, h.addRoot_clear p s.label anchor]
  | _ => cases ho

/-- What starts with a root of its own does in a reachable diagram what it does in a new one, under
numbers that begin where those of the diagram end. -/
theorem ReachableBy.trace_eq (h : d.ReachableBy p admits) {first : Operation}
    (hfirst : first.makesRoot = true) (rest : List Operation) :
    Operation.trace p ((first :: rest).map (Operation.shift d.nextNode)) d =
      (Operation.trace p (first :: rest) (.new d.pageSize)).map
        (shiftAnswer d.nextNode d.nextLink (Reply.shift d.nextNode)) := by
  have hshift : first.shift d.nextNode = first := by
    cases first with
    | addRoot _ _ | addSchema _ _ => rfl
    | _ => cases hfirst
  rw [← Operation.trace_shift, ← clear_eq_shift, List.map_cons, hshift, Operation.trace,
    h.answer_clear hfirst, Operation.trace]

end Diagram

end PatternQuery
