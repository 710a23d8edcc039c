import PatternQuery.Proofs.Diagram.Shape

/-!
# Well-formed diagrams

The edits that operations are put together from keep a diagram well formed: changes of nodes in
their places (`WellFormed.modify`), removals (`WellFormed.keep`) and new nodes of the query
(`WellFormed.attach`). The nodes of the query are those that are no candidate values.
-/

namespace PatternQuery

/-- A change of how a node is drawn, counted and paged through. -/
def Node.Restyles (f : Node → Node) : Prop :=
  ∀ n, f n = { n with fixed := (f n).fixed, count := (f n).count, page := (f n).page }

theorem Node.Restyles.place {f : Node → Node} (hf : Node.Restyles f) (n : Node) :
    (f n).place = n.place := by
  rw [hf n]
  rfl

theorem Node.Restyles.sound {f : Node → Node} (hf : Node.Restyles f) {n : Node} (h : n.Sound) :
    (f n).Sound := by
  rw [hf n]
  exact ⟨h.relationships, h.selected, h.data, h.collapsed, h.choose⟩

namespace Diagram

variable {d : Diagram} {id : NodeId} {n : Node}

/-! ## Nodes of the query -/

theorem isQueryNode_of_node? (h : d.node? id = some n) (hk : n.kind ≠ .value) : d.IsQueryNode id :=
  ⟨n, mem_of_node? h, id_of_node? h, hk⟩

theorem Numbered.isQueryNode_iff (h : d.Numbered) :
    d.IsQueryNode id ↔ ∃ n, d.node? id = some n ∧ n.kind ≠ .value := by
  constructor
  · rintro ⟨n, hn, rfl, hk⟩
    exact ⟨n, h.node?_of_mem hn, hk⟩
  · rintro ⟨n, hn, hk⟩
    exact isQueryNode_of_node? hn hk

theorem Numbered.number_lt_of_isQueryNode (h : d.Numbered) (hid : d.IsQueryNode id) :
    id.number < d.nextNode := by
  obtain ⟨n, hn, rfl, -⟩ := hid
  exact h.bounded n hn

theorem IsQueryNode.modify (h : d.IsQueryNode id) {x : NodeId} {f : Node → Node}
    (hf : ∀ n, (f n).place = n.place) : (d.modify x f).IsQueryNode id := by
  obtain ⟨n, hn, hid, hk⟩ := h
  refine ⟨_, mem_modify.2 ⟨n, hn, rfl⟩, ?_⟩
  split
  · obtain ⟨hid', hk', -⟩ := Node.place_eq_iff.1 (hf n)
    rw [hid', hk']
    exact ⟨hid, hk⟩
  · exact ⟨hid, hk⟩

theorem IsQueryNode.attach (h : d.IsQueryNode id) (n : Node) (l : Link) :
    (d.attach n l).IsQueryNode id := by
  obtain ⟨m, hm, hid, hk⟩ := h
  exact ⟨m, List.mem_append_left _ hm, hid, hk⟩

/-! ## Nodes that stay -/

/-- Every node of a diagram is what became of one of the other diagram. -/
def Within (d' d : Diagram) : Prop := ∀ n' ∈ d'.nodes, ∃ n ∈ d.nodes, n'.origin = n.origin

theorem Within.refl (d : Diagram) : d.Within d := fun n hn => ⟨n, hn, rfl⟩

theorem Within.keep {e : Diagram} (h : e.Within d) (p : NodeId → Bool) (q : Link → Bool) :
    (e.keep p q).Within d :=
  fun n hn => h n (List.mem_filter.1 hn).1

theorem Within.modify {e : Diagram} (h : e.Within d) {f : Node → Node}
    (hf : ∀ n, (f n).origin = n.origin) : (e.modify id f).Within d := by
  intro n hn
  obtain ⟨m, hm, rfl⟩ := mem_modify.1 hn
  obtain ⟨k, hk, hkm⟩ := h m hm
  refine ⟨k, hk, ?_⟩
  split
  · exact (hf m).trans hkm
  · exact hkm

/-! ## Edits -/

/-- Nothing but the lists and the numbers matters to a shape. -/
theorem Linked.withNames (h : d.Linked) (names : VariableNames) : Linked { d with names } :=
  ⟨⟨h.sorted, h.bounded, h.linksSorted, h.linksBounded, h.parentBefore, h.sourceBefore⟩, h.edges,
    h.rootFirst, h.parent_eq_none_iff⟩

theorem Shape.withNames (h : d.Shape) (names : VariableNames) : Shape { d with names } :=
  ⟨h.toLinked.withNames names, h.parentLive, h.sound⟩

/-- Numbers may be set aside. -/
theorem Linked.setAside (h : d.Linked) (k : Nat) : Linked { d with nextNode := d.nextNode + k } :=
  ⟨⟨h.sorted, fun n hn => Nat.lt_of_lt_of_le (h.bounded n hn) (Nat.le_add_right _ _),
    h.linksSorted, h.linksBounded, h.parentBefore, h.sourceBefore⟩, h.edges, h.rootFirst,
    h.parent_eq_none_iff⟩

theorem WellFormed.withNames (h : d.WellFormed) (names : VariableNames) :
    WellFormed { d with names } :=
  ⟨h.toShape.withNames names, h.shown⟩

theorem WellFormed.clear (d : Diagram) : d.clear.WellFormed where
  toShape := Shape.clear d
  shown := by simp [Diagram.clear]

/-- A changed node may only stop to show its candidates where there are none. -/
theorem Shape.wellFormed_modify (h : d.Shape) {f : Node → Node} (hf : ∀ n, (f n).place = n.place)
    (hs : ∀ n, d.node? id = some n → (f n).Sound)
    (hv : ∀ v ∈ d.nodes, v.kind = .value → ∀ n ∈ d.nodes, v.parent = some n.id →
      (if n.id = id then f n else n).expanded = true) : (d.modify id f).WellFormed where
  toShape := h.modify hf hs
  shown := by
    have hplace (n : Node) : (if n.id = id then f n else n).place = n.place := by
      split
      · exact hf n
      · rfl
    intro v hv' hk n hn hp
    obtain ⟨v, hvm, rfl⟩ := mem_modify.1 hv'
    obtain ⟨n, hnm, rfl⟩ := mem_modify.1 hn
    obtain ⟨-, hkind, hparent⟩ := Node.place_eq_iff.1 (hplace v)
    rw [hkind] at hk
    rw [hparent, (Node.place_eq_iff.1 (hplace n)).1] at hp
    exact hv v hvm hk n hnm hp

theorem WellFormed.modify (h : d.WellFormed) {f : Node → Node} (hf : ∀ n, (f n).place = n.place)
    (hs : ∀ n, d.node? id = some n → (f n).Sound)
    (he : ∀ n, (f n).expanded = n.expanded) : (d.modify id f).WellFormed := by
  refine h.toShape.wellFormed_modify hf hs fun v hv hk n hn hp => ?_
  have := h.shown v hv hk n hn hp
  split
  · rw [he, this]
  · exact this

/-- Anything may be selected on a node of the query. -/
theorem WellFormed.reselect (h : d.WellFormed) (hid : d.IsQueryNode id)
    (g : Node → List SelectedValue) :
    (d.modify id fun n => { n with selected := g n }).WellFormed := by
  refine h.modify (fun _ => rfl) (fun n hn => ?_) fun _ => rfl
  obtain ⟨m, hm, hk⟩ := h.isQueryNode_iff.1 hid
  obtain rfl : m = n := Option.some.inj (hm.symm.trans hn)
  exact .of_ne_value hk (h.sound m (mem_of_node? hm)).choose

theorem WellFormed.restyle (h : d.WellFormed) {f : Node → Node} (hf : Node.Restyles f) :
    (d.modify id f).WellFormed :=
  h.modify hf.place (fun n hn => hf.sound (h.sound n (mem_of_node? hn))) fun n => by rw [hf n]

theorem WellFormed.keep (h : d.WellFormed) {p : NodeId → Bool} {q : Link → Bool}
    (hq : ∀ l ∈ d.links, q l = p l.target)
    (hp : ∀ n ∈ d.nodes, p n.id = true → ∀ x, n.parent = some x → p x = true) :
    (d.keep p q).WellFormed where
  toShape := h.toShape.keep hq hp
  shown v hv hk n hn := h.shown v (List.mem_filter.1 hv).1 hk n (List.mem_filter.1 hn).1

theorem WellFormed.attach (h : d.WellFormed) {l : Link} (hn : n.id.number = d.nextNode)
    (hl : l.id.number = d.nextLink) (he : n.edge? = some l.edge) (hr : n.kind ≠ .root)
    (hk : n.kind ≠ .value) (hp : d.IsQueryNode l.source) (hs : n.Sound) :
    (d.attach n l).WellFormed where
  toShape := h.toShape.attach hn hl he hr hp hs
  shown v hv hvk m hm hvp := by
    have hold : v ∈ d.nodes := by
      rcases List.mem_append.1 hv with hv | hv
      · exact hv
      · rw [List.mem_singleton.1 hv] at hvk
        exact absurd hvk hk
    rcases List.mem_append.1 hm with hm | hm
    · exact h.shown v hold hvk m hm hvp
    · rw [List.mem_singleton.1 hm] at hvp
      have h1 := h.parentBefore v hold _ hvp
      have h2 := h.bounded v hold
      omega

end Diagram

end PatternQuery
