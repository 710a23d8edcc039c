import Mathlib.Data.List.Basic
import PatternQuery.Proofs.Diagram.Numbering

/-!
# The shape of a diagram

Every node but the root came with the one link that leads to it, so the lists of nodes and of links
run in step (`Diagram.Linked`, field `edges`); what it hangs from is there too (`Diagram.Shape`).
Candidate values are leaves: they offer no relations, hold no data and select nothing
(`Node.Sound`), and they hang only from nodes that show them (`Diagram.WellFormed`).
-/

namespace PatternQuery

/-- The kind of the link that leads to a node. -/
def NodeKind.link : NodeKind → LinkKind
  | .value => .value
  | _ => .relation

/-- What the link that leads to a node looks like. -/
def Node.edge? (n : Node) : Option (LinkKind × NodeId × NodeId) :=
  n.parent.map fun p => (n.kind.link, p, n.id)

def Link.edge (l : Link) : LinkKind × NodeId × NodeId := (l.kind, l.source, l.target)

theorem Node.edge?_eq_some {n : Node} {l : Link} (he : n.edge? = some l.edge) :
    n.kind.link = l.kind ∧ n.parent = some l.source ∧ n.id = l.target := by
  obtain ⟨x, hx, he⟩ := Option.map_eq_some_iff.1 he
  obtain ⟨hkind, hsource, htarget⟩ : n.kind.link = l.kind ∧ x = l.source ∧ n.id = l.target := by
    simpa [Link.edge] using he
  exact ⟨hkind, by rw [hx, hsource], htarget⟩

/-- A candidate value has nothing below it, and only nodes to be chosen are negated. -/
structure Node.Sound (n : Node) : Prop where
  relationships : n.kind = .value → n.relationships = []
  selected : n.kind = .value → n.selected = []
  data : n.kind = .value → n.data = none
  collapsed : n.kind = .value → n.expanded = false
  choose : n.negative = true → n.kind = .choose

/-- A node that is no candidate value is sound as soon as only nodes to be chosen are negated. -/
theorem Node.Sound.of_ne_value {n : Node} (hk : n.kind ≠ .value)
    (hn : n.negative = true → n.kind = .choose) : n.Sound :=
  ⟨fun h => absurd h hk, fun h => absurd h hk, fun h => absurd h hk, fun h => absurd h hk, hn⟩

namespace Diagram

/-- Nodes, each with the link that leads to it, a root at most in front. What a node hangs from may
be gone. -/
structure Linked (d : Diagram) : Prop extends Numbered d where
  edges : d.links.map Link.edge = d.nodes.filterMap Node.edge?
  rootFirst : ∀ n ∈ d.nodes.tail, n.kind ≠ .root
  parent_eq_none_iff : ∀ n ∈ d.nodes, n.parent = none ↔ n.kind = .root

/-- A tree of nodes, each with the link that leads to it, with the root in front. -/
structure Shape (d : Diagram) : Prop extends Linked d where
  parentLive : ∀ n ∈ d.nodes, ∀ p, n.parent = some p → ∃ m ∈ d.nodes, m.id = p ∧ m.kind ≠ .value
  sound : ∀ n ∈ d.nodes, n.Sound

/-- A shape in which candidate values hang only from nodes that show them. -/
structure WellFormed (d : Diagram) : Prop extends Shape d where
  shown : ∀ v ∈ d.nodes, v.kind = .value → ∀ n ∈ d.nodes, v.parent = some n.id → n.expanded = true

/-- There is a node with this id, and it is no candidate value. -/
def IsQueryNode (d : Diagram) (id : NodeId) : Prop := ∃ n ∈ d.nodes, n.id = id ∧ n.kind ≠ .value

instance (d : Diagram) (id : NodeId) : Decidable (d.IsQueryNode id) :=
  inferInstanceAs (Decidable (∃ n ∈ d.nodes, n.id = id ∧ n.kind ≠ .value))

variable {d : Diagram} {id : NodeId} {n : Node}

/-! ## Nodes and their links -/

theorem Linked.edge_mem (h : d.Linked) {l : Link} (hl : l ∈ d.links) :
    ∃ n ∈ d.nodes, n.id = l.target ∧ n.parent = some l.source ∧ l.kind = n.kind.link := by
  have hm : l.edge ∈ d.nodes.filterMap Node.edge? := by
    rw [← h.edges]
    exact List.mem_map_of_mem hl
  obtain ⟨n, hn, he⟩ := List.mem_filterMap.1 hm
  obtain ⟨hkind, hparent, htarget⟩ := Node.edge?_eq_some he
  exact ⟨n, hn, htarget, hparent, hkind.symm⟩

theorem Linked.link_of_parent (h : d.Linked) (hn : n ∈ d.nodes) {p : NodeId}
    (hp : n.parent = some p) :
    ∃ l ∈ d.links, l.target = n.id ∧ l.source = p ∧ l.kind = n.kind.link := by
  have hm : (n.kind.link, p, n.id) ∈ d.links.map Link.edge := by
    rw [h.edges]
    exact List.mem_filterMap.2 ⟨n, hn, by simp [Node.edge?, hp]⟩
  obtain ⟨l, hl, he⟩ := List.mem_map.1 hm
  obtain ⟨hkind, hsource, htarget⟩ : l.kind = n.kind.link ∧ l.source = p ∧ l.target = n.id := by
    simpa [Link.edge] using he
  exact ⟨l, hl, htarget, hsource, hkind⟩

/-- Links are listed in the order of the nodes that they lead to. -/
theorem Linked.targets_sorted (h : d.Linked) :
    d.links.Pairwise fun k l => k.target.number < l.target.number := by
  have hs : (d.nodes.filterMap Node.edge?).Pairwise fun a b => a.2.2.number < b.2.2.number := by
    refine List.Pairwise.filterMap Node.edge? ?_ h.sorted
    intro m n hmn a ha b hb
    obtain ⟨p, -, rfl⟩ := Option.map_eq_some_iff.1 ha
    obtain ⟨q, -, rfl⟩ := Option.map_eq_some_iff.1 hb
    exact hmn
  rw [← h.edges, List.pairwise_map] at hs
  exact hs

theorem Linked.eq_of_target_eq (h : d.Linked) {k l : Link} (hk : k ∈ d.links) (hl : l ∈ d.links)
    (e : k.target = l.target) : k = l :=
  eq_of_pairwise_lt (f := fun l : Link => l.target.number) h.targets_sorted hk hl (by rw [e])

theorem Linked.links_nodup (h : d.Linked) : d.links.Nodup :=
  h.targets_sorted.imp fun hlt e => by
    rw [e] at hlt
    omega

/-- A node hangs from the source of the link that leads to it. -/
theorem Linked.parent_of_link (h : d.Linked) {l : Link} (hl : l ∈ d.links) (hn : n ∈ d.nodes)
    (e : n.id = l.target) : n.parent = some l.source ∧ l.kind = n.kind.link := by
  obtain ⟨m, hm, hid, hp, hk⟩ := h.edge_mem hl
  obtain rfl := h.eq_of_id_eq hm hn (hid.trans e.symm)
  exact ⟨hp, hk⟩

theorem NodeKind.link_eq_value_iff {k : NodeKind} : k.link = .value ↔ k = .value := by
  cases k <;> simp [NodeKind.link]

theorem NodeKind.link_eq_relation_iff {k : NodeKind} : k.link = .relation ↔ k ≠ .value := by
  cases k <;> simp [NodeKind.link]

theorem Linked.exists_parent (h : d.Linked) (hn : n ∈ d.nodes) (hk : n.kind ≠ .root) :
    ∃ x, n.parent = some x := by
  rw [← Option.ne_none_iff_exists', Ne, h.parent_eq_none_iff n hn]
  exact hk

/-! ## The root -/

/-- The first node has nothing to hang from. -/
theorem Shape.head_parent (h : d.Shape) {r : Node} {rest : List Node} (hd : d.nodes = r :: rest) :
    r.parent = none := by
  cases hp : r.parent with
  | none => rfl
  | some p =>
    have hr : r ∈ d.nodes := by simp [hd]
    obtain ⟨m, hm, rfl, -⟩ := h.parentLive r hr p hp
    have hbefore := h.parentBefore r hr _ hp
    have hs := h.sorted
    rw [hd] at hm hs
    rcases List.mem_cons.1 hm with rfl | hm
    · omega
    · have := (List.pairwise_cons.1 hs).1 m hm
      omega

theorem Shape.head_kind (h : d.Shape) {r : Node} {rest : List Node} (hd : d.nodes = r :: rest) :
    r.kind = .root :=
  (h.parent_eq_none_iff r (by simp [hd])).1 (h.head_parent hd)

theorem Shape.root?_eq_head? (h : d.Shape) : d.root? = d.nodes.head? := by
  cases hd : d.nodes with
  | nil => simp [root?, hd]
  | cons r rest => simp [root?, hd, Node.isRoot, h.head_kind hd]

/-! ## Edits that keep nodes and links in step -/

theorem Linked.clear (d : Diagram) : d.clear.Linked where
  toNumbered := Numbered.clear d
  edges := rfl
  rootFirst := by simp [Diagram.clear]
  parent_eq_none_iff := by simp [Diagram.clear]

theorem place_ite {f : Node → Node} (hf : ∀ n, (f n).place = n.place) (id : NodeId) (n : Node) :
    (if n.id = id then f n else n).place = n.place := by
  split
  · exact hf n
  · rfl

theorem Linked.modify (h : d.Linked) {f : Node → Node} (hf : ∀ n, (f n).place = n.place) :
    (d.modify id f).Linked := by
  have hid (n : Node) := (Node.place_eq_iff.1 (place_ite hf id n)).1
  have hkind (n : Node) := (Node.place_eq_iff.1 (place_ite hf id n)).2.1
  have hparent (n : Node) := (Node.place_eq_iff.1 (place_ite hf id n)).2.2
  refine ⟨h.toNumbered.modify hf, ?_, ?_, ?_⟩
  · simp only [h.edges, Diagram.modify, List.filterMap_map]
    refine List.filterMap_congr fun n _ => ?_
    simp only [Function.comp, Node.edge?, hid, hkind, hparent]
  · intro n hn
    simp only [Diagram.modify, ← List.map_tail, List.mem_map] at hn
    obtain ⟨m, hm, rfl⟩ := hn
    rw [hkind]
    exact h.rootFirst m hm
  · intro n hn
    obtain ⟨m, hm, rfl⟩ := mem_modify.1 hn
    rw [hkind, hparent]
    exact h.parent_eq_none_iff m hm

theorem mem_tail_of_mem_filter_tail {α : Type} {p : α → Bool} {l : List α} {a : α}
    (h : a ∈ (l.filter p).tail) : a ∈ l.tail := by
  cases l with
  | nil => simp at h
  | cons b l =>
    rw [List.filter_cons] at h
    split at h
    · exact (List.mem_filter.1 h).1
    · exact (List.mem_filter.1 (List.mem_of_mem_tail h)).1

/-- Nodes may go where the links to them go too. -/
theorem Linked.keep (h : d.Linked) {p : NodeId → Bool} {q : Link → Bool}
    (hq : ∀ l ∈ d.links, q l = p l.target) : (d.keep p q).Linked where
  toNumbered := h.toNumbered.keep p q
  edges := by
    have hlinks : (d.links.filter q).map Link.edge =
        (d.links.map Link.edge).filter fun e => p e.2.2 := by
      rw [List.filter_map]
      exact congrArg (List.map Link.edge) (List.filter_congr hq)
    show (d.links.filter q).map Link.edge = (d.nodes.filter fun n => p n.id).filterMap Node.edge?
    rw [hlinks, h.edges, List.filter_filterMap, List.filterMap_filter]
    refine List.filterMap_congr fun n _ => ?_
    cases hn : n.parent <;> cases hx : p n.id <;> simp [Node.edge?, hn, hx]
  rootFirst n hn := h.rootFirst n (mem_tail_of_mem_filter_tail hn)
  parent_eq_none_iff n hn := h.parent_eq_none_iff n (List.mem_filter.1 hn).1

/-- A new node may come with the link that leads to it. -/
theorem Linked.attach (h : d.Linked) {l : Link} (hn : n.id.number = d.nextNode)
    (hl : l.id.number = d.nextLink) (he : n.edge? = some l.edge) (hr : n.kind ≠ .root)
    (hs : l.source.number < d.nextNode) : (d.attach n l).Linked := by
  obtain ⟨-, hparent, htarget⟩ := Node.edge?_eq_some he
  refine ⟨h.toNumbered.attach hn hl ?_ (by rw [← htarget, hn]; exact hs), ?_, ?_, ?_⟩
  · intro x hx
    obtain rfl : l.source = x := by simpa [hparent] using hx
    exact hs
  · show (d.links ++ [l]).map Link.edge = (d.nodes ++ [n]).filterMap Node.edge?
    rw [List.map_append, List.filterMap_append, h.edges]
    simp [he]
  · intro n' hn'
    simp only [Diagram.attach, List.tail_append] at hn'
    split at hn'
    · simp at hn'
    · rcases List.mem_append.1 hn' with hn' | hn'
      · exact h.rootFirst n' hn'
      · rw [List.mem_singleton.1 hn']
        exact hr
  · intro n' hn'
    rcases List.mem_append.1 hn' with hn' | hn'
    · exact h.parent_eq_none_iff n' hn'
    · rw [List.mem_singleton.1 hn', hparent]
      simp [hr]

/-! ## Edits of a shape -/

theorem Shape.clear (d : Diagram) : d.clear.Shape where
  toLinked := Linked.clear d
  parentLive := by simp [Diagram.clear]
  sound := by simp [Diagram.clear]

theorem Shape.modify (h : d.Shape) {f : Node → Node} (hf : ∀ n, (f n).place = n.place)
    (hs : ∀ n, d.node? id = some n → (f n).Sound) : (d.modify id f).Shape := by
  have hplace (n : Node) := Node.place_eq_iff.1 (place_ite hf id n)
  refine ⟨h.toLinked.modify hf, ?_, ?_⟩
  · intro n hn p hp
    obtain ⟨m, hm, rfl⟩ := mem_modify.1 hn
    rw [(hplace m).2.2] at hp
    obtain ⟨q, hq, hqid, hqk⟩ := h.parentLive m hm p hp
    exact ⟨_, mem_modify.2 ⟨q, hq, rfl⟩, by rw [(hplace q).1, hqid], by rwa [(hplace q).2.1]⟩
  · intro n hn
    obtain ⟨m, hm, rfl⟩ := mem_modify.1 hn
    split
    · exact hs m (h.node?_eq_some.2 ⟨hm, ‹_›⟩)
    · exact h.sound m hm

/-- Nodes may go where the links to them and the nodes below them go too. -/
theorem Shape.keep (h : d.Shape) {p : NodeId → Bool} {q : Link → Bool}
    (hq : ∀ l ∈ d.links, q l = p l.target)
    (hp : ∀ n ∈ d.nodes, p n.id = true → ∀ x, n.parent = some x → p x = true) :
    (d.keep p q).Shape where
  toLinked := h.toLinked.keep hq
  parentLive n hn x hx := by
    obtain ⟨hn, hpn⟩ := List.mem_filter.1 hn
    obtain ⟨m, hm, rfl, hk⟩ := h.parentLive n hn x hx
    exact ⟨m, List.mem_filter.2 ⟨hm, hp n hn hpn _ hx⟩, rfl, hk⟩
  sound n hn := h.sound n (List.mem_filter.1 hn).1

/-- A new node may hang from any node that is no candidate value. -/
theorem Shape.attach (h : d.Shape) {l : Link} (hn : n.id.number = d.nextNode)
    (hl : l.id.number = d.nextLink) (he : n.edge? = some l.edge) (hr : n.kind ≠ .root)
    (hp : d.IsQueryNode l.source) (hs : n.Sound) : (d.attach n l).Shape := by
  obtain ⟨-, hparent, -⟩ := Node.edge?_eq_some he
  obtain ⟨m, hm, hmid, hmk⟩ := hp
  have hbefore : l.source.number < d.nextNode := by
    have := h.bounded m hm
    rwa [hmid] at this
  refine ⟨h.toLinked.attach hn hl he hr hbefore, ?_, ?_⟩
  · intro n' hn' x hx
    rcases List.mem_append.1 hn' with hn' | hn'
    · obtain ⟨q, hq, hqid, hqk⟩ := h.parentLive n' hn' x hx
      exact ⟨q, List.mem_append_left _ hq, hqid, hqk⟩
    · rw [List.mem_singleton.1 hn', hparent] at hx
      obtain rfl : l.source = x := by simpa using hx
      exact ⟨m, List.mem_append_left _ hm, hmid, hmk⟩
  · intro n' hn'
    rcases List.mem_append.1 hn' with hn' | hn'
    · exact h.sound n' hn'
    · rw [List.mem_singleton.1 hn']
      exact hs

end Diagram

end PatternQuery
