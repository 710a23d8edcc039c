import PatternQuery.Diagram.Prune

/-!
# The numbering of a diagram

Nodes and links are numbered in the order in which they are made, and whatever a node or a link
hangs from was made before it (`Diagram.Numbered`). Every operation is put together from four kinds
of edits: nodes change without moving (`Numbered.modify`), some of them go (`Numbered.keep`), a node
comes with the link that leads to it (`Numbered.attach`), or everything goes (`Numbered.clear`).
Whatever changes, a node keeps what it was made with (`Node.origin`).
-/

namespace PatternQuery

/-! ## What a node keeps -/

/-- Where a node hangs: what a change of its content leaves alone. -/
def Node.place (n : Node) : NodeId × NodeKind × Option NodeId := (n.id, n.kind, n.parent)

theorem Node.place_eq_iff {m n : Node} :
    m.place = n.place ↔ m.id = n.id ∧ m.kind = n.kind ∧ m.parent = n.parent := by
  simp [Node.place]

/-- What a node is made with and has for good. -/
def Node.origin (n : Node) : Node :=
  { id := n.id, kind := n.kind, label := n.label, var := n.var, parent := n.parent
    parentRelation := n.parentRelation, isReversed := n.isReversed, autoLoad := n.autoLoad
    immutable := n.immutable, position := n.position, attributes := n.attributes
    internalId := n.internalId }

/-- What is read off the origins of nodes alone does not tell nodes of one origin apart. -/
theorem Node.congr_origin {α : Type} {m n : Node} (h : m.origin = n.origin) (f : Node → α)
    (hf : ∀ n, f n.origin = f n) : f m = f n := by
  rw [← hf m, h, hf n]

section Origin

variable {m n : Node}

theorem Node.id_of_origin (h : m.origin = n.origin) : m.id = n.id :=
  Node.congr_origin h Node.id fun _ => rfl

theorem Node.kind_of_origin (h : m.origin = n.origin) : m.kind = n.kind :=
  Node.congr_origin h Node.kind fun _ => rfl

theorem Node.label_of_origin (h : m.origin = n.origin) : m.label = n.label :=
  Node.congr_origin h Node.label fun _ => rfl

theorem Node.var_of_origin (h : m.origin = n.origin) : m.var = n.var :=
  Node.congr_origin h Node.var fun _ => rfl

theorem Node.parent_of_origin (h : m.origin = n.origin) : m.parent = n.parent :=
  Node.congr_origin h Node.parent fun _ => rfl

theorem Node.place_of_origin (h : m.origin = n.origin) : m.place = n.place :=
  Node.congr_origin h Node.place fun _ => rfl

end Origin

/-! ## Numbers -/

/-- Numbers that grow along a list tell its members apart. -/
theorem eq_of_pairwise_lt {α : Type} {f : α → Nat} {l : List α} (h : l.Pairwise (f · < f ·))
    {a b : α} (ha : a ∈ l) (hb : b ∈ l) (e : f a = f b) : a = b := by
  obtain ⟨i, hi, rfl⟩ := List.getElem_of_mem ha
  obtain ⟨j, hj, rfl⟩ := List.getElem_of_mem hb
  have hs := List.pairwise_iff_getElem.1 h
  rcases Nat.lt_trichotomy i j with hij | rfl | hij
  · have := hs i j hi hj hij
    omega
  · rfl
  · have := hs j i hj hi hij
    omega

namespace Diagram

/-- Numbers grow along the lists and away from the root, and are below those of the next node and
the next link. -/
structure Numbered (d : Diagram) : Prop where
  sorted : d.nodes.Pairwise fun m n => m.id.number < n.id.number
  bounded : ∀ n ∈ d.nodes, n.id.number < d.nextNode
  linksSorted : d.links.Pairwise fun k l => k.id.number < l.id.number
  linksBounded : ∀ l ∈ d.links, l.id.number < d.nextLink
  parentBefore : ∀ n ∈ d.nodes, ∀ p, n.parent = some p → p.number < n.id.number
  sourceBefore : ∀ l ∈ d.links, l.source.number < l.target.number

variable {d : Diagram} {id : NodeId} {n : Node}

/-! ## Looking nodes up -/

theorem mem_of_node? (h : d.node? id = some n) : n ∈ d.nodes := List.mem_of_find?_eq_some h

theorem isEmpty_eq_false_of_mem (h : n ∈ d.nodes) : d.isEmpty = false :=
  List.isEmpty_eq_false_iff.2 (List.ne_nil_of_mem h)

theorem isEmpty_eq_false_of_node? (h : d.node? id = some n) : d.isEmpty = false :=
  isEmpty_eq_false_of_mem (mem_of_node? h)

theorem id_of_node? (h : d.node? id = some n) : n.id = id := by
  have hp := List.find?_some h
  simpa using hp

theorem node?_isSome_iff : (d.node? id).isSome ↔ ∃ n ∈ d.nodes, n.id = id := by
  simp [node?]

theorem Numbered.eq_of_id_eq (h : d.Numbered) {m : Node} (hm : m ∈ d.nodes) (hn : n ∈ d.nodes)
    (e : m.id = n.id) : m = n :=
  eq_of_pairwise_lt (f := fun n : Node => n.id.number) h.sorted hm hn (by rw [e])

theorem Numbered.link_eq_of_id_eq (h : d.Numbered) {k l : Link} (hk : k ∈ d.links)
    (hl : l ∈ d.links) (e : k.id = l.id) : k = l :=
  eq_of_pairwise_lt (f := fun l : Link => l.id.number) h.linksSorted hk hl (by rw [e])

theorem Numbered.node?_eq_some (h : d.Numbered) :
    d.node? id = some n ↔ n ∈ d.nodes ∧ n.id = id := by
  refine ⟨fun hn => ⟨mem_of_node? hn, id_of_node? hn⟩, fun ⟨hn, e⟩ => ?_⟩
  obtain ⟨m, hm⟩ := Option.isSome_iff_exists.1 (node?_isSome_iff.2 ⟨n, hn, e⟩)
  rw [hm, h.eq_of_id_eq (mem_of_node? hm) hn ((id_of_node? hm).trans e.symm)]

theorem Numbered.node?_of_mem (h : d.Numbered) (hn : n ∈ d.nodes) : d.node? n.id = some n :=
  h.node?_eq_some.2 ⟨hn, rfl⟩

theorem Numbered.eq_of_node? (h : d.Numbered) (hn : d.node? id = some n) {m : Node}
    (hm : m ∈ d.nodes) (e : m.id = id) : m = n :=
  h.eq_of_id_eq hm (mem_of_node? hn) (e.trans (id_of_node? hn).symm)

/-! ## Edits -/

/-- Removes the nodes that `p` does not hold of and the links that `q` does not hold of. -/
def keep (p : NodeId → Bool) (q : Link → Bool) (d : Diagram) : Diagram :=
  { d with nodes := d.nodes.filter fun n => p n.id, links := d.links.filter q }

/-- Adds a node and the link that leads to it. -/
def attach (n : Node) (l : Link) (d : Diagram) : Diagram :=
  { d with
    nodes := d.nodes ++ [n], links := d.links ++ [l]
    nextNode := d.nextNode + 1, nextLink := d.nextLink + 1 }

/-- New nodes do not come before one that is there. -/
theorem node?_append {d' : Diagram} {new : List Node} (hnodes : d'.nodes = d.nodes ++ new)
    (hn : d.node? id = some n) : d'.node? id = some n := by
  rw [node?, hnodes, List.find?_append, ← node?, hn, Option.some_or]

theorem mem_modify {f : Node → Node} :
    n ∈ (d.modify id f).nodes ↔ ∃ m ∈ d.nodes, (if m.id = id then f m else m) = n := by
  simp [modify]

theorem node?_modify {f : Node → Node} (hf : ∀ n, (f n).id = n.id) (x : NodeId) :
    (d.modify id f).node? x = (d.node? x).map fun n => if n.id = id then f n else n := by
  simp only [node?, modify, List.find?_map]
  congr 2
  funext n
  simp only [Function.comp]
  split
  · rw [hf]
  · rfl

theorem node?_modify_of_some {f : Node → Node} (hf : ∀ n, (f n).id = n.id) {x : NodeId}
    (hn : d.node? x = some n) (id : NodeId) :
    (d.modify id f).node? x = some (if n.id = id then f n else n) := by
  rw [node?_modify hf, hn, Option.map_some]

/-- A change matters at the one node that it changes. -/
theorem Numbered.modify_congr (h : d.Numbered) {f g : Node → Node}
    (hn : d.node? id = some n) (hfg : f n = g n) : d.modify id f = d.modify id g := by
  simp only [Diagram.modify]
  congr 1
  refine List.map_congr_left fun m hm => ?_
  split
  · rw [h.eq_of_node? hn hm ‹_›, hfg]
  · rfl

theorem Numbered.modify_eq_self (h : d.Numbered) {f : Node → Node}
    (hn : d.node? id = some n) (hf : f n = n) : d.modify id f = d := by
  rw [h.modify_congr (g := fun m => m) hn hf]
  simp [Diagram.modify]

theorem Numbered.modify (h : d.Numbered) {f : Node → Node} (hf : ∀ n, (f n).place = n.place) :
    (d.modify id f).Numbered := by
  have hid (n : Node) : (if n.id = id then f n else n).id = n.id := by
    split
    · exact (Node.place_eq_iff.1 (hf n)).1
    · rfl
  have hparent (n : Node) : (if n.id = id then f n else n).parent = n.parent := by
    split
    · exact (Node.place_eq_iff.1 (hf n)).2.2
    · rfl
  refine ⟨?_, ?_, h.linksSorted, h.linksBounded, ?_, h.sourceBefore⟩
  · simp only [Diagram.modify, List.pairwise_map, hid]
    exact h.sorted
  · intro n hn
    obtain ⟨m, hm, rfl⟩ := mem_modify.1 hn
    rw [hid]
    exact h.bounded m hm
  · intro n hn p hp
    obtain ⟨m, hm, rfl⟩ := mem_modify.1 hn
    rw [hparent] at hp
    rw [hid]
    exact h.parentBefore m hm p hp

theorem Numbered.keep (h : d.Numbered) (p : NodeId → Bool) (q : Link → Bool) :
    (d.keep p q).Numbered where
  sorted := h.sorted.filter _
  bounded n hn := h.bounded n (List.mem_filter.1 hn).1
  linksSorted := h.linksSorted.filter q
  linksBounded l hl := h.linksBounded l (List.mem_filter.1 hl).1
  parentBefore n hn := h.parentBefore n (List.mem_filter.1 hn).1
  sourceBefore l hl := h.sourceBefore l (List.mem_filter.1 hl).1

theorem Numbered.attach (h : d.Numbered) {n : Node} {l : Link} (hn : n.id.number = d.nextNode)
    (hl : l.id.number = d.nextLink) (hp : ∀ p, n.parent = some p → p.number < d.nextNode)
    (hs : l.source.number < l.target.number) : (d.attach n l).Numbered where
  sorted := by
    refine List.pairwise_append.2 ⟨h.sorted, by simp, ?_⟩
    intro m hm n' hn'
    rw [List.mem_singleton.1 hn', hn]
    exact h.bounded m hm
  bounded m hm := by
    show m.id.number < d.nextNode + 1
    rcases List.mem_append.1 hm with hm | hm
    · have := h.bounded m hm
      omega
    · rw [List.mem_singleton.1 hm]
      omega
  linksSorted := by
    refine List.pairwise_append.2 ⟨h.linksSorted, by simp, ?_⟩
    intro k hk l' hl'
    rw [List.mem_singleton.1 hl', hl]
    exact h.linksBounded k hk
  linksBounded k hk := by
    show k.id.number < d.nextLink + 1
    rcases List.mem_append.1 hk with hk | hk
    · have := h.linksBounded k hk
      omega
    · rw [List.mem_singleton.1 hk]
      omega
  parentBefore m hm p hmp := by
    rcases List.mem_append.1 hm with hm | hm
    · exact h.parentBefore m hm p hmp
    · rw [List.mem_singleton.1 hm] at hmp ⊢
      have := hp p hmp
      omega
  sourceBefore k hk := by
    rcases List.mem_append.1 hk with hk | hk
    · exact h.sourceBefore k hk
    · rw [List.mem_singleton.1 hk]
      exact hs

theorem Numbered.clear (d : Diagram) : d.clear.Numbered := by
  constructor <;> simp [Diagram.clear]

end Diagram

end PatternQuery
