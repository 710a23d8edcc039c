import PatternQuery.Proofs.Statement.Relevance

/-!
# Extensions of a diagram

A diagram extends another one if the nodes of the query are still there, as far as statements show
them (`Node.essence`), and what came in addition constrains nothing (`Diagram.Extends`). Statements
about one node allow for more: relations to what came in addition must be no leaves for its sake
(`Diagram.Covers`). The relevant relations are the same in both then (`Covers.relevantLinks_eq`).
-/

namespace PatternQuery

/-- What statements, and the walks through a diagram, read of a node. -/
def Node.essence (n : Node) : Node :=
  { id := n.id, kind := n.kind, label := n.label, var := n.var, parent := n.parent
    isReversed := n.isReversed, selected := n.selected, negative := n.negative
    immutable := n.immutable }

/-- What is read off the essence of nodes alone does not tell nodes of one essence apart. -/
theorem Node.congr_essence {α : Type} {m n : Node} (h : m.essence = n.essence) (f : Node → α)
    (hf : ∀ n, f n.essence = f n) : f m = f n := by
  rw [← hf m, h, hf n]

theorem Node.place_of_essence {m n : Node} (h : m.essence = n.essence) : m.place = n.place :=
  Node.congr_essence h Node.place fun _ => rfl

/-- A node neither selects anything nor is negated. -/
def Node.Idle (n : Node) : Prop := n.selected = [] ∧ n.negative = false

theorem Node.Idle.of_essence {m n : Node} (hn : n.Idle) (h : m.essence = n.essence) : m.Idle := by
  have := Node.congr_essence h (fun n => (n.selected, n.negative)) fun _ => rfl
  rw [Prod.mk.injEq] at this
  exact ⟨this.1.trans hn.1, this.2.trans hn.2⟩

namespace Diagram

/-- The nodes of the query of `d` are there in `d'`, with the relations that lead to them. -/
structure Embeds (d d' : Diagram) : Prop where
  root : d'.root?.map Node.essence = d.root?.map Node.essence
  node : ∀ n ∈ d.nodes, n.kind ≠ .value → ∃ n' ∈ d'.nodes, n'.essence = n.essence
  relations : d.relationLinks = d'.relationLinks.filter fun l => d.IsQueryNode l.target

/-- The nodes of the query of `d` are there in `d'`, and further nodes of the query are idle. -/
structure Extends (d d' : Diagram) : Prop extends Embeds d d' where
  idle : ∀ n' ∈ d'.nodes, n'.kind ≠ .value → ¬ d.IsQueryNode n'.id → n'.Idle

variable {d d' d'' : Diagram} {id target : NodeId} {l : Link}

theorem Extends.refl (h : d.Shape) : d.Extends d where
  root := rfl
  node n hn _ := ⟨n, hn, rfl⟩
  relations := by
    refine (List.filter_eq_self.2 fun l hl => ?_).symm
    simpa using h.isQueryNode_target hl
  idle n' hn' hk hnot := absurd ⟨n', hn', rfl, hk⟩ hnot

theorem Embeds.isQueryNode (h : d.Embeds d') (hid : d.IsQueryNode id) : d'.IsQueryNode id := by
  obtain ⟨n, hn, rfl, hk⟩ := hid
  obtain ⟨n', hn', e⟩ := h.node n hn hk
  obtain ⟨hid, hkind, -⟩ := Node.place_eq_iff.1 (Node.place_of_essence e)
  exact ⟨n', hn', hid, by rwa [hkind]⟩

theorem Embeds.isEmpty_of_isEmpty (h : d.Embeds d') (hd : d.Shape) (he : d'.isEmpty = true) :
    d.isEmpty = true := by
  cases hn : d.nodes with
  | nil => rw [isEmpty, hn, List.isEmpty_nil]
  | cons r rest =>
    obtain ⟨n', hn', -⟩ := h.node r (by simp [hn]) (by simp [hd.head_kind hn])
    rw [List.isEmpty_iff.1 he] at hn'
    simp at hn'

theorem Extends.trans (h : d.Extends d') (h' : d'.Extends d'') (hd : d''.Numbered) :
    d.Extends d'' where
  root := h'.root.trans h.root
  node n hn hk := by
    obtain ⟨n', hn', e⟩ := h.node n hn hk
    have hk' : n'.kind ≠ .value := by
      rwa [(Node.place_eq_iff.1 (Node.place_of_essence e)).2.1]
    obtain ⟨n'', hn'', e'⟩ := h'.node n' hn' hk'
    exact ⟨n'', hn'', e'.trans e⟩
  relations := by
    rw [h.relations, h'.relations, List.filter_filter]
    refine List.filter_congr fun l _ => ?_
    by_cases ht : d.IsQueryNode l.target
    · simp [ht, h.isQueryNode ht]
    · simp [ht]
  idle n'' hn'' hk hnot := by
    by_cases ht : d'.IsQueryNode n''.id
    · obtain ⟨n', hn', hid, hk'⟩ := ht
      obtain ⟨m, hm, e⟩ := h'.node n' hn' hk'
      obtain rfl : m = n'' :=
        hd.eq_of_id_eq hm hn'' ((Node.place_eq_iff.1 (Node.place_of_essence e)).1.trans hid)
      rw [← hid] at hnot
      exact (h.idle n' hn' hk' hnot).of_essence e
    · exact h'.idle n'' hn'' hk ht

/-! ## Walks -/

theorem Embeds.exists_node? (h : d.Embeds d') (hd : d.Numbered) (hd' : d'.Numbered)
    (hid : d.IsQueryNode id) :
    ∃ n n', d.node? id = some n ∧ d'.node? id = some n' ∧ n'.essence = n.essence := by
  obtain ⟨n, hn, hk⟩ := hd.isQueryNode_iff.1 hid
  obtain ⟨n', hn', e⟩ := h.node n (mem_of_node? hn) hk
  have hid' := (Node.place_eq_iff.1 (Node.place_of_essence e)).1.trans (id_of_node? hn)
  exact ⟨n, n', hn, hd'.node?_eq_some.2 ⟨hn', hid'⟩, e⟩

theorem Embeds.ancestors_eq (h : d.Embeds d') (hd : d.Shape) (hd' : d'.Shape)
    (hid : d.IsQueryNode id) : d'.ancestors id = d.ancestors id := by
  generalize hk : id.number = k
  induction k using Nat.strongRecOn generalizing id with
  | ind k ih =>
    have hp : (d'.node? id).bind Node.parent = (d.node? id).bind Node.parent := by
      obtain ⟨n, n', hn, hn', e⟩ := h.exists_node? hd.toNumbered hd'.toNumbered hid
      rw [hn, hn']
      exact Node.congr_essence e Node.parent fun _ => rfl
    cases hn : (d.node? id).bind Node.parent with
    | none => rw [ancestors_eq_nil hn, ancestors_eq_nil (hp.trans hn)]
    | some p =>
      have hpar : d.HangsFrom id p := hd.hangsFrom_iff.2 hn
      have hpar' : d'.HangsFrom id p := hd'.hangsFrom_iff.2 (hp.trans hn)
      have hlt := hd.number_lt hpar
      rw [hd.ancestors_eq_cons hpar, hd'.ancestors_eq_cons hpar',
        ih p.number (by omega) (hd.isQueryNode_of_hangsFrom hpar) rfl]

theorem Embeds.negationApplies_eq (h : d.Embeds d') (hd : d.Shape) (hd' : d'.Shape)
    (ht : d.IsQueryNode target) (a : NodeId) :
    d'.negationApplies a target = d.negationApplies a target := by
  rw [negationApplies, negationApplies, isAncestorOrSelf, isAncestorOrSelf,
    h.ancestors_eq hd hd' ht]

theorem Embeds.incomingPath_eq (h : d.Embeds d') (hd : d.Shape) (hd' : d'.Shape)
    (hid : d.IsQueryNode id) : d'.incomingPath id = d.incomingPath id := by
  generalize hk : id.number = k
  induction k using Nat.strongRecOn generalizing id with
  | ind k ih =>
    have hin : d'.incomingRelation? id = d.incomingRelation? id := by
      rw [incomingRelation?, incomingRelation?, h.relations, List.find?_filter]
      congr 1
      funext l
      by_cases e : l.target = id
      · simp [e, hid]
      · simp [e]
    cases hl : d.incomingRelation? id with
    | none => rw [incomingPath_eq_nil hl, incomingPath_eq_nil (hin.trans hl)]
    | some l =>
      obtain ⟨hmem, rfl⟩ := mem_of_incomingRelation? hl
      have hlt := hd.sourceBefore l (mem_relationLinks.1 hmem).1
      rw [hd.incomingPath_target hmem,
        hd'.incomingPath_target (mem_of_incomingRelation? (hin.trans hl)).1,
        ih l.source.number (by omega) (hd.isQueryNode_source hmem) rfl]

/-! ## Relevant relations -/

theorem Embeds.underAppliedNegation_eq (h : d.Embeds d') (hd : d.Shape) (hd' : d'.Shape)
    (hid : d.IsQueryNode id) (ht : d.IsQueryNode target) :
    d'.underAppliedNegation id target = d.underAppliedNegation id target := by
  rw [underAppliedNegation, underAppliedNegation, h.ancestors_eq hd hd' hid, Bool.eq_iff_iff]
  simp only [List.any_eq_true]
  refine exists_congr fun a => and_congr_right fun ha => ?_
  have hquery := hd.isQueryNode_of_below (hd.mem_ancestors_iff.1 ha)
  obtain ⟨n, n', hn, hn', e⟩ := h.exists_node? hd.toNumbered hd'.toNumbered hquery
  simp only [hn, hn', h.negationApplies_eq hd hd' ht,
    Node.congr_essence e Node.negative fun _ => rfl]

theorem Embeds.isLeafLink_eq (h : d.Embeds d') (hd : d.Shape) (hd' : d'.Shape)
    (ht : d.IsQueryNode target) (hl : d.IsQueryNode l.target) :
    d'.isLeafLink target l = d.isLeafLink target l := by
  obtain ⟨n, n', hn, hn', e⟩ := h.exists_node? hd.toNumbered hd'.toNumbered hl
  have hcause := Node.congr_essence e (fun n => n.hasValue || n.negative || n.id == target)
    fun _ => rfl
  simp only [isLeafLink, hn, hn', h.underAppliedNegation_eq hd hd' hl ht, hcause]

/-- The nodes of the query of `d` are there in `d'`, and no relation to a further one is a leaf in
statements about `target`. -/
structure Covers (target : NodeId) (d d' : Diagram) : Prop extends Embeds d d' where
  further : ∀ l ∈ d'.relationLinks, ¬ d.IsQueryNode l.target → d'.isLeafLink target l = false

/-- A relation to a node that came in addition is no leaf. -/
theorem Extends.isLeafLink_eq_false (h : d.Extends d') (hd' : d'.Shape)
    (ht : d.IsQueryNode target) (hl : l ∈ d'.relationLinks) (hnot : ¬ d.IsQueryNode l.target) :
    d'.isLeafLink target l = false := by
  obtain ⟨n', hn', hk⟩ := hd'.isQueryNode_iff.1 (hd'.isQueryNode_target hl)
  have hid := id_of_node? hn'
  obtain ⟨hselected, hnegative⟩ := h.idle n' (mem_of_node? hn') hk (by rwa [hid])
  have hne : n'.id ≠ target := by
    rintro rfl
    rw [hid] at ht
    exact hnot ht
  simp [isLeafLink, hn', Node.hasValue, hselected, hnegative, hne]

theorem Extends.covers (h : d.Extends d') (hd' : d'.Shape) (ht : d.IsQueryNode target) :
    d.Covers target d' :=
  ⟨h.toEmbeds, fun _ hl hnot => h.isLeafLink_eq_false hd' ht hl hnot⟩

theorem Covers.leafLinks_eq (h : d.Covers target d') (hd : d.Shape) (hd' : d'.Shape)
    (ht : d.IsQueryNode target) : d'.leafLinks target = d.leafLinks target := by
  rw [leafLinks, leafLinks, h.relations, List.filter_filter]
  refine List.filter_congr fun l hl => ?_
  by_cases hq : d.IsQueryNode l.target
  · simp [hq, h.isLeafLink_eq hd hd' ht hq]
  · simp [hq, h.further l hl hq]

theorem Covers.pathLinks_eq (h : d.Covers target d') (hd : d.Shape) (hd' : d'.Shape)
    (ht : d.IsQueryNode target) : d'.pathLinks target = d.pathLinks target := by
  rw [pathLinks, pathLinks, h.leafLinks_eq hd hd' ht]
  refine List.flatMap_congr fun l hl => ?_
  exact h.incomingPath_eq hd hd' (hd.isQueryNode_source (List.mem_filter.1 hl).1)

theorem Covers.relevantLinks_eq (h : d.Covers target d') (hd : d.Shape) (hd' : d'.Shape)
    (ht : d.IsQueryNode target) : d'.relevantLinks target = d.relevantLinks target := by
  obtain ⟨r, hr⟩ := hd.exists_root? ht
  obtain ⟨r', hr'⟩ := hd'.exists_root? (h.isQueryNode ht)
  rw [Diagram.relevantLinks_eq hr, Diagram.relevantLinks_eq hr', h.leafLinks_eq hd hd' ht,
    h.pathLinks_eq hd hd' ht]

end Diagram

end PatternQuery
