import PatternQuery.Proofs.Session.Asking
import PatternQuery.Proofs.Session.Loading

/-!
# Changes with their updates

A change of the query either changes nothing or is followed by an update, which supersedes the
counts and results that were waited for. A change is never left without its update, since an update
cannot be refused.
-/

namespace PatternQuery.Session

variable {s : Session}

/-- After a change of its diagram that leaves nodes, a session is updated. -/
theorem Valid.changed (h : s.Valid) {d : Diagram} (hw : d.WellFormed)
    (hc : s.diagram.Continues d) (hne : d.isEmpty = false) :
    ∃ u s', Session.changed { s with diagram := d } = (.ok u, s') ∧ s.Updates u s' := by
  have h₁ : Valid { s with diagram := d, events := s.events ++ [.graphChanged] } :=
    ⟨hw, h.requests, by simp [hne]⟩
  obtain ⟨u, s', hu, hupdates, -⟩ := h₁.beginUpdate
  exact ⟨u, s', hu, hupdates.after_change rfl hc rfl⟩

/-! ## What becomes of the diagram -/

theorem selectValue_cases (id : NodeId) (d : Diagram) :
    (∃ e, d.selectValue id = (.error e, d)) ∨
      ∃ p d', d.selectValue id = (.ok p, d') ∧ d.isEmpty = false := by
  unfold Diagram.selectValue
  split
  · exact .inl ⟨_, rfl⟩
  · rename_i n hn
    split
    · split
      · exact .inl ⟨_, rfl⟩
      · exact .inr ⟨_, _, rfl, Diagram.isEmpty_eq_false_of_node? hn⟩
    · exact .inl ⟨_, rfl⟩

theorem removeValue_cases (id value : NodeId) (d : Diagram) :
    (∃ e, d.removeValue id value = (.error e, d)) ∨ d.removeValue id value = (.ok false, d) ∨
      ∃ d', d.removeValue id value = (.ok true, d') ∧ d.isEmpty = false := by
  unfold Diagram.removeValue
  split
  · exact .inl ⟨_, rfl⟩
  · rename_i n hn
    dsimp only
    split
    · exact .inr (.inl rfl)
    · exact .inr (.inr ⟨_, rfl, Diagram.isEmpty_eq_false_of_node? hn⟩)

theorem negate_cases (id : NodeId) (d : Diagram) :
    (∃ e, d.negate id = (.error e, d)) ∨ d.negate id = (.ok false, d) ∨
      ∃ d', d.negate id = (.ok true, d') ∧ d.isEmpty = false := by
  unfold Diagram.negate
  split
  · exact .inl ⟨_, rfl⟩
  · rename_i n hn
    split
    · exact .inr (.inl rfl)
    · split
      · exact .inr (.inr ⟨_, rfl, Diagram.isEmpty_eq_false_of_node? hn⟩)
      · exact .inr (.inr ⟨_, rfl, Diagram.isEmpty_eq_false_of_node? hn⟩)

theorem removeNode_cases (id : NodeId) (d : Diagram) :
    (∃ e, d.removeNode id = (.error e, d)) ∨ ∃ held d', d.removeNode id = (.ok held, d') := by
  unfold Diagram.removeNode
  split
  · exact .inl ⟨_, rfl⟩
  · split
    · exact .inr ⟨_, _, rfl⟩
    · exact .inr ⟨_, _, rfl⟩

/-- A diagram in which something was selected, unselected or negated has its root still. -/
theorem isEmpty_eq_false_of_root {d d' : Diagram} (hd : d.WellFormed) (hne : d.isEmpty = false)
    (hroot : ∀ r, d.HasRoot r → d'.HasRoot r) : d'.isEmpty = false := by
  obtain ⟨r, hr⟩ := hd.toShape.exists_hasRoot hne
  exact (hroot r hr).isEmpty_eq_false

/-! ## Changes -/

theorem Valid.beginSelectValue (h : s.Valid) (id : NodeId) :
    (∃ e, (s.diagram.selectValue id).1 = .error e ∧
      Session.beginSelectValue id s = (.error e, s)) ∨
    ∃ p u s', (s.diagram.selectValue id).1 = .ok p ∧
      Session.beginSelectValue id s = (.ok (p, u), s') ∧ s.Updates u s' := by
  unfold Session.beginSelectValue
  rcases selectValue_cases id s.diagram with ⟨e, he⟩ | ⟨p, d, hd, hne⟩
  · exact .inl ⟨e, congrArg Prod.fst he, Call.bind_error (Call.onDiagram_eq he)⟩
  · have hw := h.diagram.selectValue id
    have hc := Diagram.continues_selectValue id s.diagram
    have hne' := isEmpty_eq_false_of_root h.diagram hne fun r hr =>
      h.diagram.hasRoot_selectValue hr id
    rw [hd] at hw hc hne'
    obtain ⟨u, s', hu, hupdates⟩ := h.changed hw hc hne'
    refine .inr ⟨p, u, s', congrArg Prod.fst hd, ?_, hupdates⟩
    rw [Call.bind_ok (Call.onDiagram_eq hd), Call.bind_ok hu]
    rfl

theorem Valid.beginRemoveValue (h : s.Valid) (id value : NodeId) :
    (∃ e, (s.diagram.removeValue id value).1 = .error e ∧
      Session.beginRemoveValue id value s = (.error e, s)) ∨
    (s.diagram.removeValue id value).1 = .ok false ∧
      Session.beginRemoveValue id value s = (.ok (false, {}), s) ∨
    ∃ u s', (s.diagram.removeValue id value).1 = .ok true ∧
      Session.beginRemoveValue id value s = (.ok (true, u), s') ∧ s.Updates u s' := by
  unfold Session.beginRemoveValue
  rcases removeValue_cases id value s.diagram with ⟨e, he⟩ | he | ⟨d, hd, hne⟩
  · exact .inl ⟨e, congrArg Prod.fst he, Call.bind_error (Call.onDiagram_eq he)⟩
  · exact .inr (.inl ⟨congrArg Prod.fst he, Call.bind_ok (Call.onDiagram_eq he)⟩)
  · have hw := h.diagram.removeValue id value
    have hc := Diagram.continues_removeValue id value s.diagram
    have hne' := isEmpty_eq_false_of_root h.diagram hne fun r hr =>
      h.diagram.hasRoot_removeValue hr id value
    rw [hd] at hw hc hne'
    obtain ⟨u, s', hu, hupdates⟩ := h.changed hw hc hne'
    refine .inr (.inr ⟨u, s', congrArg Prod.fst hd, ?_, hupdates⟩)
    rw [Call.bind_ok (Call.onDiagram_eq hd), if_pos rfl, Call.bind_ok hu]
    rfl

theorem Valid.beginNegate (h : s.Valid) (id : NodeId) :
    (∃ e, (s.diagram.negate id).1 = .error e ∧ Session.beginNegate id s = (.error e, s)) ∨
    (s.diagram.negate id).1 = .ok false ∧ Session.beginNegate id s = (.ok (false, {}), s) ∨
    ∃ u s', (s.diagram.negate id).1 = .ok true ∧
      Session.beginNegate id s = (.ok (true, u), s') ∧ s.Updates u s' := by
  unfold Session.beginNegate
  rcases negate_cases id s.diagram with ⟨e, he⟩ | he | ⟨d, hd, hne⟩
  · exact .inl ⟨e, congrArg Prod.fst he, Call.bind_error (Call.onDiagram_eq he)⟩
  · exact .inr (.inl ⟨congrArg Prod.fst he, Call.bind_ok (Call.onDiagram_eq he)⟩)
  · have hw := h.diagram.negate id
    have hc := Diagram.continues_negate id s.diagram
    have hne' := isEmpty_eq_false_of_root h.diagram hne fun r hr => h.diagram.hasRoot_negate hr id
    rw [hd] at hw hc hne'
    obtain ⟨u, s', hu, hupdates⟩ := h.changed hw hc hne'
    refine .inr (.inr ⟨u, s', congrArg Prod.fst hd, ?_, hupdates⟩)
    rw [Call.bind_ok (Call.onDiagram_eq hd), if_pos rfl, Call.bind_ok hu]
    rfl

/-- With the root all requests go, which leaves nothing to supersede. -/
theorem Valid.updates_reset (h : s.Valid) {d : Diagram} (hc : s.diagram.Continues d) :
    s.Updates {} (reset { s with diagram := d }).2 where
  evolves := by
    have hcancel := h.evolves_requests h.requests.later_cancelAll fun _ => cancelAll_quiet _
    have hclear := hcancel.valid.evolves_diagram_of_quiet (cancelAll_quiet _) (.clear d)
      (hc.trans (Diagram.continues_clear d))
    exact Evolves.modify (f := fun s' => { s' with
      results := [], graphResults := [], events := s.events ++ [.graphChanged] })
      (hcancel.trans hclear) rfl rfl rfl
  counts := by simp
  autoLoad := by simp
  results := by simp
  superseded := by
    rintro c (rfl | rfl) g -
    · simp [reset_slots, Slots.get]
    · simp [reset_slots, Slots.get]
  autoLoad_superseded _ g _ := by simp [reset_slots]
  autoLoad_kept _ hne := by
    have : d.clear.isEmpty = false := hne
    simp [Diagram.clear, Diagram.isEmpty] at this
  autoLoad_eq_none_iff := by
    refine iff_of_true rfl ?_
    rfl

theorem Valid.beginRemoveNode (h : s.Valid) (id : NodeId) :
    (∃ e, (s.diagram.removeNode id).1 = .error e ∧
      Session.beginRemoveNode id s = (.error e, s)) ∨
    ∃ held u s', (s.diagram.removeNode id).1 = .ok held ∧
      Session.beginRemoveNode id s = (.ok (held, u), s') ∧ s.Updates u s' := by
  unfold Session.beginRemoveNode
  rcases removeNode_cases id s.diagram with ⟨e, he⟩ | ⟨held, d, hd⟩
  · exact .inl ⟨e, congrArg Prod.fst he, Call.bind_error (Call.onDiagram_eq he)⟩
  · have hw := h.diagram.removeNode id
    have hc := Diagram.continues_removeNode id s.diagram
    rw [hd] at hw hc
    rw [Call.bind_ok (Call.onDiagram_eq hd)]
    cases hne : d.isEmpty with
    | true =>
      refine .inr ⟨held, {}, _, congrArg Prod.fst hd, ?_, h.updates_reset hc⟩
      show (if d.isEmpty = true then _ else _ : Call _) _ = _
      rw [if_pos hne]
      rfl
    | false =>
      obtain ⟨u, s', hu, hupdates⟩ := h.changed hw hc hne
      refine .inr ⟨held, u, s', congrArg Prod.fst hd, ?_, hupdates⟩
      show (if d.isEmpty = true then _ else _ : Call _) _ = _
      rw [if_neg (by simp [hne]), Call.bind_ok hu]
      rfl

/-- The relations of a child that was added are loaded or asked for, whatever they are. -/
theorem Valid.beginExpand (h : s.Valid) (id : NodeId) (index : Nat) :
    (∃ e, (s.diagram.expandRelationship s.compiler.provider id index).1 = .error e ∧
      Session.beginExpand id index s = (.error e, s)) ∨
    ∃ child discovery u s',
      (s.diagram.expandRelationship s.compiler.provider id index).1 = .ok child ∧
      Session.beginExpand id index s = (.ok (child, discovery, u), s') ∧ s.Updates u s' := by
  unfold Session.beginExpand
  rw [Call.get_bind]
  rcases Diagram.expandRelationship_cases s.compiler.provider id index s.diagram with
    ⟨e, he⟩ | ⟨child, d, hd⟩
  · exact .inl ⟨e, congrArg Prod.fst he, Call.bind_error (Call.onDiagram_eq he)⟩
  · have hrefines := h.diagram.refines_expandRelationship s.compiler.provider id index
    rw [hd] at hrefines
    let s₁ : Session := { s with diagram := d, events := s.events ++ [.graphChanged] }
    have hadded := h.evolves_diagram hrefines
    have hs₁ : s.Evolves s₁ := hadded.trans (Call.evolves_emit hadded.valid .graphChanged)
    have hchild : s₁.diagram.IsQueryNode child := Diagram.isQueryNode_expandRelationship hd
    obtain ⟨n, hn, -⟩ := hs₁.valid.diagram.isQueryNode_iff.1 hchild
    obtain ⟨discovery, s₂, hr⟩ := hs₁.valid.succeeds_beginDiscovery hn
    have hdiscovery := hs₁.valid.evolves_beginDiscovery (hs₁.valid.spares hchild).schema
    obtain ⟨hslots, -⟩ := retains_beginDiscovery child s₁
    rw [hr] at hdiscovery hslots
    obtain ⟨u, s', hu, hupdates, -⟩ := hdiscovery.valid.beginUpdate
    refine .inr ⟨child, discovery, u, s', congrArg Prod.fst hd, ?_,
      hupdates.after_evolution (hs₁.trans hdiscovery) hslots⟩
    rw [Call.bind_ok (Call.onDiagram_eq hd)]
    exact (Call.bind_ok hr).trans (Call.bind_ok hu)

end PatternQuery.Session
