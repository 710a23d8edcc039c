import Mathlib.Logic.Relation
import PatternQuery.Proofs.Diagram.WellFormed

/-!
# Walks towards the root

The walks of a diagram follow the relation `Diagram.HangsFrom` from a node to its parent: the list
of ancestors holds what is above a node (`Numbered.mem_ancestors_iff`), and the path of relations
that leads to a node holds the relations to the node and to what is above it
(`Shape.mem_incomingPath_iff`).
-/

namespace PatternQuery.Diagram

/-- A node has another one for its parent. -/
def HangsFrom (d : Diagram) (id parent : NodeId) : Prop :=
  ∃ n ∈ d.nodes, n.id = id ∧ n.parent = some parent

/-- A node is below another one. -/
def Below (d : Diagram) (id top : NodeId) : Prop := Relation.TransGen d.HangsFrom id top

/-- A node is below another one, or the same. -/
def BelowOrSelf (d : Diagram) (id top : NodeId) : Prop := Relation.ReflTransGen d.HangsFrom id top

variable {d : Diagram} {id a : NodeId} {n : Node}

/-! ## Ancestors -/

theorem Numbered.hangsFrom_iff (h : d.Numbered) {p : NodeId} :
    d.HangsFrom id p ↔ (d.node? id).bind Node.parent = some p := by
  rw [Option.bind_eq_some_iff]
  constructor
  · rintro ⟨n, hn, rfl, hp⟩
    exact ⟨n, h.node?_of_mem hn, hp⟩
  · rintro ⟨n, hn, hp⟩
    exact ⟨n, mem_of_node? hn, id_of_node? hn, hp⟩

theorem Numbered.number_lt (h : d.Numbered) {p : NodeId} (hp : d.HangsFrom id p) :
    p.number < id.number := by
  obtain ⟨n, hn, rfl, hp⟩ := hp
  exact h.parentBefore n hn p hp

theorem ancestors_eq_nil (hp : (d.node? id).bind Node.parent = none) : d.ancestors id = [] := by
  rw [ancestors, hp]

theorem Numbered.ancestors_eq_cons (h : d.Numbered) {p : NodeId} (hp : d.HangsFrom id p) :
    d.ancestors id = p :: d.ancestors p := by
  rw [ancestors, h.hangsFrom_iff.1 hp]
  simp only [h.number_lt hp, ↓reduceIte]

theorem Numbered.mem_ancestors_iff (h : d.Numbered) : a ∈ d.ancestors id ↔ d.Below id a := by
  generalize hk : id.number = k
  induction k using Nat.strongRecOn generalizing id with
  | ind k ih =>
    cases hp : (d.node? id).bind Node.parent with
    | none =>
      rw [ancestors_eq_nil hp]
      refine iff_of_false (by simp) fun hb => ?_
      obtain ⟨p, hpar, -⟩ := Relation.TransGen.head'_iff.1 hb
      rw [h.hangsFrom_iff, hp] at hpar
      simp at hpar
    | some p =>
      have hpar : d.HangsFrom id p := h.hangsFrom_iff.2 hp
      have hlt := h.number_lt hpar
      rw [h.ancestors_eq_cons hpar, List.mem_cons, ih p.number (by omega) rfl]
      constructor
      · rintro (rfl | hb)
        · exact .single hpar
        · exact .head hpar hb
      · intro hb
        obtain ⟨q, hq, hqa⟩ := Relation.TransGen.head'_iff.1 hb
        obtain rfl : p = q := by
          rw [h.hangsFrom_iff, hp] at hq
          exact Option.some.inj hq
        rcases Relation.reflTransGen_iff_eq_or_transGen.1 hqa with rfl | hqa
        · exact .inl rfl
        · exact .inr hqa

theorem Numbered.isAncestorOrSelf_iff (h : d.Numbered) :
    d.isAncestorOrSelf a id = true ↔ d.BelowOrSelf id a := by
  rw [BelowOrSelf, Relation.reflTransGen_iff_eq_or_transGen, isAncestorOrSelf]
  simp only [Bool.or_eq_true, beq_iff_eq, List.contains_iff_mem]
  rw [h.mem_ancestors_iff]
  rfl

/-- The parents of nodes are nodes of the query. -/
theorem Shape.isQueryNode_of_hangsFrom (h : d.Shape) {p : NodeId} (hp : d.HangsFrom id p) :
    d.IsQueryNode p := by
  obtain ⟨n, hn, -, hp⟩ := hp
  exact h.parentLive n hn p hp

theorem Shape.isQueryNode_of_below (h : d.Shape) (hb : d.Below id a) : d.IsQueryNode a := by
  obtain ⟨b, -, hp⟩ := Relation.TransGen.tail'_iff.1 hb
  exact h.isQueryNode_of_hangsFrom hp

/-! ## Paths of relations -/

theorem mem_relationLinks {l : Link} : l ∈ d.relationLinks ↔ l ∈ d.links ∧ l.kind = .relation := by
  simp [relationLinks]

/-- A relation leads from the parent of its target, which is a node of the query. -/
theorem Shape.hangsFrom_of_link (h : d.Shape) {l : Link} (hl : l ∈ d.links) :
    d.HangsFrom l.target l.source := by
  obtain ⟨n, hn, ht, hp, -⟩ := h.edge_mem hl
  exact ⟨n, hn, ht, hp⟩

theorem Shape.isQueryNode_target (h : d.Shape) {l : Link} (hl : l ∈ d.relationLinks) :
    d.IsQueryNode l.target := by
  obtain ⟨hl, hk⟩ := mem_relationLinks.1 hl
  obtain ⟨n, hn, ht, -, hnk⟩ := h.edge_mem hl
  exact ⟨n, hn, ht, NodeKind.link_eq_relation_iff.1 (hnk.symm.trans hk)⟩

theorem Shape.isQueryNode_source (h : d.Shape) {l : Link} (hl : l ∈ d.relationLinks) :
    d.IsQueryNode l.source :=
  h.isQueryNode_of_hangsFrom (h.hangsFrom_of_link (mem_relationLinks.1 hl).1)

theorem Shape.incomingRelation?_target (h : d.Shape) {l : Link} (hl : l ∈ d.relationLinks) :
    d.incomingRelation? l.target = some l := by
  obtain ⟨k, hk⟩ : ∃ k, d.incomingRelation? l.target = some k := by
    rw [← Option.isSome_iff_exists, incomingRelation?, List.find?_isSome]
    exact ⟨l, hl, by simp⟩
  have ht := List.find?_some hk
  have hkl := mem_relationLinks.1 (List.mem_of_find?_eq_some hk)
  rw [hk, h.eq_of_target_eq hkl.1 (mem_relationLinks.1 hl).1 (by simpa using ht)]

theorem mem_of_incomingRelation? {l : Link} (hl : d.incomingRelation? id = some l) :
    l ∈ d.relationLinks ∧ l.target = id :=
  ⟨List.mem_of_find?_eq_some hl, by simpa using List.find?_some hl⟩

/-- A relation leads to every node of the query that has a parent. -/
theorem Shape.relation_of_hangsFrom (h : d.Shape) (hid : d.IsQueryNode id) {p : NodeId}
    (hp : d.HangsFrom id p) : ∃ l ∈ d.relationLinks, l.target = id ∧ l.source = p := by
  obtain ⟨n, hn, rfl, hp⟩ := hp
  obtain ⟨m, hm, hmid, hk⟩ := hid
  obtain rfl := h.eq_of_id_eq hm hn hmid
  obtain ⟨l, hl, ht, hs, hlk⟩ := h.link_of_parent hn hp
  exact ⟨l, mem_relationLinks.2 ⟨hl, hlk.trans (NodeKind.link_eq_relation_iff.2 hk)⟩, ht, hs⟩

theorem incomingPath_eq_nil (hl : d.incomingRelation? id = none) : d.incomingPath id = [] := by
  rw [incomingPath, hl]

/-- Paths are made of relations, whatever they lead to. -/
theorem incomingPath_subset (d : Diagram) (id : NodeId) : d.incomingPath id ⊆ d.relationLinks := by
  fun_induction Diagram.incomingPath d id with
  | case1 id h => simp
  | case2 id l h _ ih => exact List.cons_subset.2 ⟨(mem_of_incomingRelation? h).1, ih⟩
  | case3 id l h => simp

theorem Shape.incomingPath_target (h : d.Shape) {l : Link} (hl : l ∈ d.relationLinks) :
    d.incomingPath l.target = l :: d.incomingPath l.source := by
  rw [incomingPath, h.incomingRelation?_target hl]
  simp only [h.sourceBefore l (mem_relationLinks.1 hl).1, ↓reduceIte]

/-- The path to a node consists of the relations that lead to it and to what is above it. -/
theorem Shape.mem_incomingPath_iff (h : d.Shape) (hid : d.IsQueryNode id) {l : Link} :
    l ∈ d.incomingPath id ↔ l ∈ d.relationLinks ∧ d.BelowOrSelf id l.target := by
  generalize hk : id.number = k
  induction k using Nat.strongRecOn generalizing id with
  | ind k ih =>
    cases hin : d.incomingRelation? id with
    | none =>
      rw [incomingPath_eq_nil hin]
      refine iff_of_false (by simp) fun ⟨hl, hb⟩ => ?_
      rcases Relation.ReflTransGen.cases_head hb with rfl | ⟨p, hp, -⟩
      · rw [h.incomingRelation?_target hl] at hin
        simp at hin
      · obtain ⟨m, hm, rfl, -⟩ := h.relation_of_hangsFrom hid hp
        rw [h.incomingRelation?_target hm] at hin
        simp at hin
    | some k =>
      obtain ⟨hkl, rfl⟩ := mem_of_incomingRelation? hin
      have hlinks := (mem_relationLinks.1 hkl).1
      have hlt := h.sourceBefore k hlinks
      rw [h.incomingPath_target hkl, List.mem_cons,
        ih k.source.number (by omega) (h.isQueryNode_source hkl) rfl]
      constructor
      · rintro (rfl | ⟨hl, hb⟩)
        · exact ⟨hkl, .refl⟩
        · exact ⟨hl, .head (h.hangsFrom_of_link hlinks) hb⟩
      · rintro ⟨hl, hb⟩
        rcases Relation.ReflTransGen.cases_head hb with e | ⟨p, hp, hb⟩
        · exact .inl (h.eq_of_target_eq (mem_relationLinks.1 hl).1 hlinks e.symm)
        · obtain rfl : k.source = p := by
            have hk' := h.hangsFrom_iff.1 (h.hangsFrom_of_link hlinks)
            exact Option.some.inj (hk'.symm.trans (h.hangsFrom_iff.1 hp))
          exact .inr ⟨hl, hb⟩

/-- What is above a node was made before it. -/
theorem Numbered.number_le (h : d.Numbered) (hb : d.BelowOrSelf id a) : a.number ≤ id.number := by
  induction hb with
  | refl => exact Nat.le_refl _
  | tail _ hp ih => exact Nat.le_trans (Nat.le_of_lt (h.number_lt hp)) ih

theorem Shape.nodup_incomingPath (h : d.Shape) (hid : d.IsQueryNode id) :
    (d.incomingPath id).Nodup := by
  generalize hk : id.number = k
  induction k using Nat.strongRecOn generalizing id with
  | ind k ih =>
    cases hin : d.incomingRelation? id with
    | none =>
      rw [incomingPath_eq_nil hin]
      exact List.nodup_nil
    | some l =>
      obtain ⟨hl, rfl⟩ := mem_of_incomingRelation? hin
      have hsource := h.isQueryNode_source hl
      have hlt := h.sourceBefore l (mem_relationLinks.1 hl).1
      rw [h.incomingPath_target hl, List.nodup_cons]
      refine ⟨fun hmem => ?_, ih _ (by omega) hsource rfl⟩
      have hle := h.number_le ((h.mem_incomingPath_iff hsource).1 hmem).2
      omega

end PatternQuery.Diagram
