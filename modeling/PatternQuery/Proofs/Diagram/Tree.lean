import Mathlib.Data.List.Nodup
import PatternQuery.Proofs.Diagram.Operation
import PatternQuery.Proofs.Diagram.Walks

/-!
# Diagrams are trees

What the list of nodes and the list of links say about each other in every reachable diagram
(`Diagram.isTree_of_reachable`): the root comes first, each other node has one incoming link, which
comes from its parent and has the kind that goes with the node, candidate values are leaves under
nodes that show them, and parents lead from everywhere to the root.
-/

namespace PatternQuery.Diagram

/-- Nodes and links form a tree. -/
structure IsTree (d : Diagram) : Prop where
  ids_distinct : (d.nodes.map Node.id).Nodup
  links_of_empty : d.nodes = [] → d.links = []
  root : ∀ r rest, d.nodes = r :: rest →
    r.kind = .root ∧ r.parent = none ∧ ∀ n ∈ rest, n.kind ≠ .root
  endpoints : ∀ l ∈ d.links, (∃ n ∈ d.nodes, n.id = l.source) ∧ ∃ n ∈ d.nodes, n.id = l.target
  incoming : ∀ r rest, d.nodes = r :: rest → ∀ n ∈ rest,
    ∃ l, d.links.filter (fun l => l.target == n.id) = [l] ∧ n.parent = some l.source ∧
      l.kind = if n.kind = .value then .value else .relation
  no_link_to_root : ∀ r rest, d.nodes = r :: rest → ∀ l ∈ d.links, l.target ≠ r.id
  values_are_leaves : ∀ l ∈ d.links, ∀ n ∈ d.nodes, n.id = l.source → n.kind ≠ .value
  values_are_shown : ∀ v ∈ d.nodes, v.kind = .value →
    ∃ n ∈ d.nodes, v.parent = some n.id ∧ n.expanded = true
  rooted : ∀ r rest, d.nodes = r :: rest →
    ∀ n ∈ d.nodes, d.BelowOrSelf n.id r.id

variable {d : Diagram} {n r : Node} {rest : List Node}

/-- The only link that leads to a node, as the links are searched for it. -/
theorem Shape.filter_target (h : d.Shape) {l : Link} (hl : l ∈ d.links) :
    d.links.filter (fun k => k.target == l.target) = [l] := by
  have hp : ∀ k ∈ d.links, (k.target == l.target) = (k == l) := by
    intro k hk
    rw [Bool.eq_iff_iff, beq_iff_eq, beq_iff_eq]
    exact ⟨fun e => h.eq_of_target_eq hk hl e, fun e => by rw [e]⟩
  rw [List.filter_congr hp, List.filter_beq, List.count_eq_one_of_mem h.links_nodup hl]
  rfl

theorem Shape.belowOrSelf_root (h : d.Shape) (hd : d.nodes = r :: rest) (hn : n ∈ d.nodes) :
    d.BelowOrSelf n.id r.id := by
  generalize hk : n.id.number = k
  induction k using Nat.strongRecOn generalizing n with
  | ind k ih =>
    cases hp : n.parent with
    | none =>
      have hkind := (h.parent_eq_none_iff n hn).1 hp
      rw [hd] at hn
      rcases List.mem_cons.1 hn with rfl | hn
      · exact .refl
      · exact absurd hkind (h.rootFirst n (by rw [hd]; exact hn))
    | some p =>
      obtain ⟨m, hm, rfl, -⟩ := h.parentLive n hn p hp
      have hlt := h.parentBefore n hn _ hp
      exact .head ⟨n, hn, rfl, hp⟩ (ih m.id.number (by omega) hm rfl)

theorem WellFormed.isTree (h : d.WellFormed) : d.IsTree where
  ids_distinct := by
    refine List.pairwise_map.2 (h.sorted.imp fun hlt e => ?_)
    rw [e] at hlt
    omega
  links_of_empty hd := by
    have he := h.edges
    rw [hd] at he
    simpa using he
  root r rest hd := by
    refine ⟨h.head_kind hd, h.head_parent hd, fun n hn => h.rootFirst n ?_⟩
    rwa [hd]
  endpoints l hl := by
    obtain ⟨n, hn, ht, hp, -⟩ := h.edge_mem hl
    obtain ⟨m, hm, hs, -⟩ := h.parentLive n hn _ hp
    exact ⟨⟨m, hm, hs⟩, n, hn, ht⟩
  incoming r rest hd n hn := by
    have hkind := h.rootFirst n (by rw [hd]; exact hn)
    have hmem : n ∈ d.nodes := by simp [hd, hn]
    obtain ⟨p, hp⟩ := h.exists_parent hmem hkind
    obtain ⟨l, hl, ht, rfl, hlk⟩ := h.link_of_parent hmem hp
    refine ⟨l, ht ▸ h.filter_target hl, hp, ?_⟩
    rw [hlk]
    cases n.kind <;> rfl
  no_link_to_root r rest hd l hl ht := by
    have hr : r ∈ d.nodes := by simp [hd]
    have hp := (h.parent_of_link hl hr ht.symm).1
    rw [h.head_parent hd] at hp
    simp at hp
  values_are_leaves l hl n hn e := by
    obtain ⟨t, ht, -, hp, -⟩ := h.edge_mem hl
    obtain ⟨m, hm, hs, hk⟩ := h.parentLive t ht _ hp
    obtain rfl := h.eq_of_id_eq hm hn (hs.trans e.symm)
    exact hk
  values_are_shown v hv hk := by
    obtain ⟨p, hp⟩ := h.exists_parent hv (by simp [hk])
    obtain ⟨m, hm, rfl, -⟩ := h.parentLive v hv p hp
    exact ⟨m, hm, hp, h.shown v hv hk m hm hp⟩
  rooted r rest hd n hn := h.belowOrSelf_root hd hn

/-- Whatever operations make, they make trees. -/
theorem isTree_of_reachable {p : Provider} (h : d.Reachable p) : d.IsTree := h.wellFormed.isTree

/-- A root with a child that shows its second page of candidates after one of the first was
selected. -/
theorem isTree_of_second_page :
    let d := Operation.runAll .plain [.addRoot "Person" none,
      .setRelationships ⟨0⟩ [{ label := "KNOWS", target := "Person", count := 1 }],
      .expandRelationship ⟨0⟩ 0, .setData ⟨1⟩ [Table.empty, Table.empty, Table.empty],
      .expandValues ⟨1⟩, .selectValue ⟨3⟩, .nextPage ⟨1⟩] (.new 2)
    d.Reachable .plain ∧ d.nodes.map (fun n => n.id.number) = [0, 1, 4] ∧ d.IsTree := by
  intro d
  have hd : d.Reachable .plain := Reachable.runAll (.new 2) _ (by decide +kernel)
  exact ⟨hd, by decide +kernel, isTree_of_reachable hd⟩

end PatternQuery.Diagram
