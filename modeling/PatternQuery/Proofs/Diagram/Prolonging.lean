import PatternQuery.Proofs.Diagram.Traces
import PatternQuery.Proofs.Diagram.Walks

/-!
# Diagrams that grow downwards

New nodes may come after those that are there, which keep what they were made with
(`Diagram.Prolongs`). So nothing changes above a node that was there before.
-/

namespace PatternQuery.Diagram

variable {d d' d'' : Diagram} {new more : List Node} {id x : NodeId} {n : Node}

/-! ## Labels on the way to the root -/

/-- The label of a node. -/
def label? (d : Diagram) (id : NodeId) : Option String := (d.node? id).map Node.label

/-- The labels of the ancestors of a node, the nearest one first. -/
def labelsAbove (d : Diagram) (id : NodeId) : List (Option String) :=
  (d.ancestors id).map d.label?

theorem Numbered.labelsAbove_eq_cons (h : d.Numbered) {p : NodeId} (hp : d.HangsFrom id p) :
    d.labelsAbove id = d.label? p :: d.labelsAbove p := by
  rw [labelsAbove, h.ancestors_eq_cons hp, List.map_cons, labelsAbove]

theorem Numbered.number_lt_of_label? (h : d.Numbered) {l : String} (hl : d.label? id = some l) :
    id.number < d.nextNode := by
  obtain ⟨n, hn, -⟩ := Option.map_eq_some_iff.1 hl
  exact h.number_lt_of_node? hn

theorem number_lt_of_mem_ancestors (hx : x ∈ d.ancestors id) : x.number < id.number := by
  fun_induction Diagram.ancestors d id with
  | case1 id h => simp at hx
  | case2 id p h hlt ih =>
    rcases List.mem_cons.1 hx with rfl | hx
    · exact hlt
    · exact Nat.lt_trans (ih hx) hlt
  | case3 id p h hlt => simp at hx

/-- On the way from a node to the root, each node is above all those before. -/
theorem pairwise_ancestors (d : Diagram) (id : NodeId) :
    (id :: d.ancestors id).Pairwise fun a b => b ∈ d.ancestors a := by
  fun_induction Diagram.ancestors d id with
  | case1 id h => simp
  | case2 id p h hlt ih =>
    have hcons : d.ancestors id = p :: d.ancestors p := by
      rw [ancestors, h]
      simp only [hlt, if_true]
    exact List.pairwise_cons.2 ⟨fun b hb => by rwa [hcons], ih⟩
  | case3 id p h hlt => simp

/-! ## New nodes -/

/-- The nodes are there still, and new ones come after them. -/
structure Prolongs (d d' : Diagram) (new : List Node) : Prop where
  nodes : d'.nodes.map Node.origin = (d.nodes ++ new).map Node.origin
  numbers : ∀ n ∈ new, d.nextNode ≤ n.id.number
  nextNode : d.nextNode ≤ d'.nextNode

theorem Prolongs.refl (d : Diagram) : d.Prolongs d [] :=
  ⟨by rw [List.append_nil], by simp, Nat.le_refl _⟩

theorem Prolongs.trans (h : d.Prolongs d' new) (h' : d'.Prolongs d'' more) :
    d.Prolongs d'' (new ++ more) where
  nodes := by
    rw [h'.nodes, List.map_append, h.nodes, ← List.map_append, List.append_assoc]
  numbers n hn := by
    rcases List.mem_append.1 hn with hn | hn
    · exact h.numbers n hn
    · exact Nat.le_trans h.nextNode (h'.numbers n hn)
  nextNode := Nat.le_trans h.nextNode h'.nextNode

theorem Prolongs.exists_origin (h : d.Prolongs d' new) (hn : n ∈ d'.nodes) :
    ∃ m ∈ d.nodes ++ new, m.origin = n.origin := by
  have hmem : n.origin ∈ (d.nodes ++ new).map Node.origin := by
    rw [← h.nodes]
    exact List.mem_map_of_mem hn
  exact List.mem_map.1 hmem

theorem Prolongs.exists_of_mem_new (h : d.Prolongs d' new) (hn : n ∈ new) :
    ∃ m ∈ d'.nodes, m.origin = n.origin := by
  have hmem : n.origin ∈ d'.nodes.map Node.origin := by
    rw [h.nodes]
    exact List.mem_map_of_mem (List.mem_append_right _ hn)
  exact List.mem_map.1 hmem

/-- A node with a number that was not given out before is new. -/
theorem Prolongs.mem_new (h : d.Prolongs d' new) (hd : d.Numbered) (hn : n ∈ d'.nodes)
    (hnumber : d.nextNode ≤ n.id.number) : ∃ m ∈ new, m.origin = n.origin := by
  obtain ⟨m, hm, ho⟩ := h.exists_origin hn
  rcases List.mem_append.1 hm with hm | hm
  · have := hd.bounded m hm
    rw [Node.id_of_origin ho] at this
    omega
  · exact ⟨m, hm, ho⟩

/-! ### What was there before -/

theorem node?_map_origin (d : Diagram) (id : NodeId) :
    (d.node? id).map Node.origin = (d.nodes.map Node.origin).find? fun n => n.id == id := by
  rw [List.find?_map]
  rfl

theorem Prolongs.node?_eq (h : d.Prolongs d' new) (hx : x.number < d.nextNode) :
    (d'.node? x).map Node.origin = (d.node? x).map Node.origin := by
  have hnone : (new.map Node.origin).find? (fun n => n.id == x) = none := by
    rw [List.find?_eq_none]
    intro m hm he
    obtain ⟨n, hn, rfl⟩ := List.mem_map.1 hm
    have hnumber := h.numbers n hn
    rw [show n.id = x by simpa [Node.origin] using he] at hnumber
    omega
  rw [node?_map_origin, h.nodes, List.map_append, List.find?_append, hnone, Option.or_none,
    node?_map_origin]

/-- What is read off the origin of a node does not change. -/
theorem Prolongs.read_eq {α : Type} (h : d.Prolongs d' new) (hx : x.number < d.nextNode)
    (f : Node → α) (hf : ∀ n, f n.origin = f n) : (d'.node? x).map f = (d.node? x).map f := by
  have hread (o : Option Node) : o.map f = (o.map Node.origin).map f := by
    cases o with
    | none => rfl
    | some n => simp [hf]
  rw [hread, h.node?_eq hx, ← hread]

theorem Prolongs.label?_eq (h : d.Prolongs d' new) (hx : x.number < d.nextNode) :
    d'.label? x = d.label? x :=
  h.read_eq hx Node.label fun _ => rfl

theorem Prolongs.ancestors_eq (h : d.Prolongs d' new) (hx : x.number < d.nextNode) :
    d'.ancestors x = d.ancestors x := by
  have hparent {y : NodeId} (hy : y.number < d.nextNode) :
      (d'.node? y).bind Node.parent = (d.node? y).bind Node.parent := by
    have hbind (o : Option Node) : o.bind Node.parent = (o.map Node.parent).bind id := by
      cases o <;> rfl
    rw [hbind, h.read_eq hy Node.parent fun _ => rfl, ← hbind]
  fun_induction Diagram.ancestors d x with
  | case1 x hn => rw [ancestors, hparent hx, hn]
  | case2 x p hn hlt ih =>
    rw [ancestors, hparent hx, hn]
    simp only [hlt, if_true, ih (Nat.lt_trans hlt hx)]
  | case3 x p hn hlt =>
    rw [ancestors, hparent hx, hn]
    simp only [hlt, if_false]

theorem Prolongs.labelsAbove_eq (h : d.Prolongs d' new) (hx : x.number < d.nextNode) :
    d'.labelsAbove x = d.labelsAbove x := by
  rw [labelsAbove, h.ancestors_eq hx]
  refine List.map_congr_left fun a ha => h.label?_eq ?_
  exact Nat.lt_trans (number_lt_of_mem_ancestors ha) hx

/-! ## Relations -/

theorem prolongs_setRelationships (id : NodeId) (segments : List Segment) (d : Diagram) :
    d.Prolongs (d.setRelationships id segments).2 [] := by
  unfold Diagram.setRelationships
  split
  · exact .refl d
  · refine ⟨?_, by simp, Nat.le_refl _⟩
    rw [List.append_nil]
    show (d.nodes.map _).map Node.origin = _
    rw [List.map_map]
    refine List.map_congr_left fun n _ => ?_
    simp only [Function.comp]
    split <;> rfl

/-- The new child of a node. -/
theorem prolongs_attachChild (p : Provider) (id : NodeId) (s : Segment) (kind : NodeKind)
    (d : Diagram) : d.Prolongs (d.attachChild p id s kind).2 [childNode p id s kind d] := by
  rw [attachChild_eq]
  refine ⟨rfl, fun n hn => ?_, Nat.le_succ _⟩
  rw [List.mem_singleton.1 hn]
  exact Nat.le_refl _

end PatternQuery.Diagram
