import PatternQuery.Proofs.Diagram.Attempts
import PatternQuery.Proofs.Diagram.Growth
import PatternQuery.Proofs.Diagram.Interchange
import PatternQuery.Proofs.Diagram.Showing

/-!
# Unselecting on negated nodes

The last value of a negated node is unselected with what hangs from the node, and a node without
values is negated with what hangs from it. The one prunes after the change of the node and the other
before it, but the flag has no part in pruning (`Diagram.pruneNegated_modify`), so a value may as
well be unselected while the negation is taken back (`Diagram.removeValue_between_negations`).
-/

namespace PatternQuery

/-! ## Flags and values have no part in pruning -/

namespace Node

/-- Negates a node, or takes its negation back. -/
def flag (negative : Bool) (n : Node) : Node := { n with negative }

/-- Selects these values and no others. -/
def reselect (selected : List SelectedValue) (n : Node) : Node := { n with selected }

/-- The values of a node but one. -/
def others (n : Node) (v : NodeId) : List SelectedValue := n.selected.filter fun w => w.id != v

theorem apart_flag (negative : Bool) : Apart (flag negative) := ⟨fun _ => rfl, fun _ _ _ => rfl⟩

theorem apart_reselect (selected : List SelectedValue) : Apart (reselect selected) :=
  ⟨fun _ => rfl, fun _ _ _ => rfl⟩

end Node

namespace Diagram

variable {p : Provider} {admits : Operation → Diagram → Prop} {d : Diagram} {x v : NodeId}
  {n : Node}

/-! ## What the operations do -/

theorem length_others_ne (hv : ∃ w ∈ n.selected, w.id = v) :
    (n.others v).length ≠ n.selected.length := by
  obtain ⟨w, hw, hid⟩ := hv
  refine Nat.ne_of_lt ?_
  rw [Node.others, List.length_filter_lt_length_iff_exists]
  exact ⟨w, hw, by simp [hid]⟩

theorem removeValue_eq (hn : d.node? x = some n) (hv : ∃ w ∈ n.selected, w.id = v) :
    d.removeValue x v = (.ok true,
      if n.negative && (n.others v).isEmpty then
        (d.modify x (Node.reselect (n.others v))).pruneNegated x
      else d.modify x (Node.reselect (n.others v))) := by
  simp only [removeValue, hn]
  exact if_neg (length_others_ne hv)

theorem negate_of_negative (hn : d.node? x = some n) (hk : n.kind = .choose)
    (hneg : n.negative = true) : d.negate x = (.ok true, d.modify x (Node.flag false)) := by
  simp only [negate, hn, hk, hneg]
  rfl

theorem negate_of_positive (hn : d.node? x = some n) (hk : n.kind = .choose)
    (hneg : n.negative = false) : d.negate x =
      (.ok true, (if n.hasValue then d else d.pruneNegated x).modify x (Node.flag true)) := by
  simp only [negate, hn, hk, hneg]
  rfl

/-- A negation that is taken back may be renewed. -/
theorem modify_flag_flag (d : Diagram) (x : NodeId) :
    (d.modify x (Node.flag false)).modify x (Node.flag true) = d.modify x (Node.flag true) :=
  modify_modify (Node.apart_flag false).id d x

/-- A node that is pruned may be negated before. -/
theorem pruneNegated_modify_flag (negative : Bool) (d : Diagram) (x : NodeId) :
    (d.modify x (Node.flag negative)).pruneNegated x =
      (d.pruneNegated x).modify x (Node.flag negative) :=
  pruneNegated_modify (Node.apart_flag negative) (fun _ _ => rfl) x d x

/-! ## What is left of a node that is pruned -/

theorem Linked.node?_pruneNegated (h : d.Linked) (hn : d.node? x = some n) :
    ∃ m, (d.pruneNegated x).node? x = some m ∧ n.Keeps m ∧ m.count = 0 ∧ m.expanded = false := by
  obtain ⟨m, hm⟩ := exists_node? (h.live_pruneNegated (live_of_node? hn))
  have hkeeps := ((Traces.refl d).pruneNegated x).keeps_of_node? h.toNumbered hn (mem_of_node? hm)
    (id_of_node? hm)
  obtain ⟨k, hk, rfl⟩ := mem_modify.1 (mem_of_node? hm)
  have hid := id_of_node? hm
  split at hid
  · rename_i hkid
    have hcollapsed : k.expanded = false :=
      (h.toNumbered.removeSubtrees _).collapsed_of_collapseValues hk hkid
    rw [if_pos hkid] at hm hkeeps
    exact ⟨_, hm, hkeeps, rfl, hcollapsed⟩
  · exact absurd hid ‹_›

/-- Neither relations nor candidates lead away from a node that is pruned. -/
theorem Linked.source_ne_of_mem_pruneNegated (h : d.Linked) (hs : d.Displays)
    (hn : d.node? x = some n) : ∀ l ∈ (d.pruneNegated x).links, l.source ≠ x := by
  rintro l hl rfl
  have hpruned : (d.pruneNegated l.source).Linked :=
    h.strokes (p := .plain) (Strokes.pruneNegated .refl l.source)
  obtain ⟨m, hm, hid, hp, hkind⟩ := hpruned.edge_mem hl
  by_cases hv : m.kind = .value
  · obtain ⟨n', hn', -, -, hcollapsed⟩ := h.node?_pruneNegated hn
    have hshown := h.displays_pruneNegated hs l.source m hm hv n' (mem_of_node? hn')
      (by rw [hp, id_of_node? hn'])
    rw [hcollapsed] at hshown
    cases hshown
  · have hchild : l.target ∈ (d.pruneNegated l.source).children l.source := by
      refine List.mem_map.2 ⟨l, List.mem_filter.2 ⟨mem_relationLinks.2 ⟨hl, ?_⟩, by simp⟩, rfl⟩
      rw [hkind, NodeKind.link_eq_relation_iff.2 hv]
    rw [children_pruneNegated] at hchild
    cases hchild

/-! ## Unselecting and negating -/

/-- Unselecting a value of a negated node gives the diagram that comes from taking the negation
back, unselecting the value and negating again. Where no other value is selected, the last of these
negates a node without values: nothing is left below it, and its count is zero. -/
theorem removeValue_between_negations (h : d.ReachableBy p admits) (hn : d.node? x = some n)
    (hneg : n.negative = true) (hv : ∃ w ∈ n.selected, w.id = v) :
    ∃ d₁ d₂ d', d.negate x = (.ok true, d₁) ∧ d₁.removeValue x v = (.ok true, d₂) ∧
      d₂.negate x = (.ok true, d') ∧ d.removeValue x v = (.ok true, d') ∧
      ((∀ w ∈ n.selected, w.id = v) →
        (∃ m, d₂.node? x = some m ∧ m.hasValue = false ∧ m.negative = false) ∧
        (∀ l ∈ d'.links, l.source ≠ x) ∧
        ∃ m, d'.node? x = some m ∧ m.negative = true ∧ m.selected = [] ∧ m.count = 0 ∧
          m.expanded = false) := by
  have hd := h.linked
  have hk : n.kind = .choose := h.orderly.choices n (mem_of_node? hn) hneg
  let e := d.modify x (Node.reselect (n.others v))
  have he : e.node? x = some (n.reselect (n.others v)) :=
    node?_modify_self (Node.apart_reselect _).id hn
  have hn₁ := node?_modify_self (Node.apart_flag false).id hn
  have hn₂ := node?_modify_self (Node.apart_flag false).id he
  have hunselected : (d.modify x (Node.flag false)).removeValue x v =
      (.ok true, e.modify x (Node.flag false)) := by
    rw [removeValue_eq hn₁ hv]
    exact congrArg (Prod.mk _) (modify_comm (Node.apart_reselect _).id (Node.apart_flag false).id
      (fun _ => rfl) d x x)
  -- The node is negated in `e` already.
  have hnegated : e.modify x (Node.flag true) = e := by
    refine Numbered.modify_eq_self (hd.toNumbered.modify (Node.apart_reselect _).place) he ?_
    rw [Node.flag, ← hneg]
    rfl
  refine ⟨_, _, _, negate_of_negative hn hk hneg, hunselected, negate_of_positive hn₂ hk rfl,
    ?_, fun hall => ?_⟩
  · rw [removeValue_eq hn hv, hneg, Bool.true_and]
    have hvalue : (Node.flag false (n.reselect (n.others v))).hasValue = !(n.others v).isEmpty :=
      rfl
    rw [hvalue]
    cases (n.others v).isEmpty with
    | false =>
      change _ = (_, (e.modify x (Node.flag false)).modify x (Node.flag true))
      rw [modify_flag_flag, hnegated]
      rfl
    | true =>
      change _ = (_, ((e.modify x (Node.flag false)).pruneNegated x).modify x (Node.flag true))
      rw [pruneNegated_modify_flag, modify_flag_flag, ← pruneNegated_modify_flag, hnegated]
      rfl
  · have hempty : n.others v = [] := by simpa [Node.others, List.filter_eq_nil_iff] using hall
    have hvalue : (Node.flag false (n.reselect (n.others v))).hasValue = false := by
      rw [hempty]
      rfl
    have hlinked : e.Linked := hd.modify (Node.apart_reselect _).place
    have hshown : e.Displays :=
      h.displays.modify (Node.apart_reselect _).place (Node.apart_reselect _).expanded
    rw [hvalue, if_neg (by simp), pruneNegated_modify_flag, modify_flag_flag]
    obtain ⟨m, hm, hkeeps, hcount, hcollapsed⟩ := hlinked.node?_pruneNegated he
    refine ⟨⟨_, hn₂, hvalue, rfl⟩, hlinked.source_ne_of_mem_pruneNegated hshown he,
      m.flag true, node?_modify_self (Node.apart_flag true).id hm, rfl, ?_, hcount, hcollapsed⟩
    have hsub := hkeeps.selected
    rw [hempty] at hsub
    exact List.eq_nil_of_subset_nil hsub

/-- The only value of a negated node goes, which shows another candidate and has a grandchild. -/
theorem removeValue_between_negations_of_grandparent :
    let d := Operation.runAll .plain [.addRoot "Person" none,
      .setRelationships ⟨0⟩ [{ label := "KNOWS", target := "Person", count := 1 }],
      .expandRelationship ⟨0⟩ 0,
      .setRelationships ⟨1⟩ [{ label := "KNOWS", target := "Person", count := 1 }],
      .expandRelationship ⟨1⟩ 0,
      .setRelationships ⟨2⟩ [{ label := "KNOWS", target := "Person", count := 1 }],
      .expandRelationship ⟨2⟩ 0, .setData ⟨1⟩ [Table.empty, Table.empty], .expandValues ⟨1⟩,
      .selectValue ⟨4⟩, .negate ⟨1⟩, .expandValues ⟨1⟩] (.new 1)
    d.Reachable .plain ∧ d.nodes.map (fun m => m.id.number) = [0, 1, 2, 3, 5] ∧
      ∃ d₁ d₂ d', d.negate ⟨1⟩ = (.ok true, d₁) ∧ d₁.removeValue ⟨1⟩ ⟨4⟩ = (.ok true, d₂) ∧
        d₂.negate ⟨1⟩ = (.ok true, d') ∧ d.removeValue ⟨1⟩ ⟨4⟩ = (.ok true, d') ∧
        d'.nodes.map (fun m => m.id.number) = [0, 1] := by
  intro d
  have hd : d.Reachable .plain := Reachable.runAll (.new 1) _ (by decide +kernel)
  have hnode : (d.node? ⟨1⟩).any
      (fun n => n.negative && n.selected.any fun w => w.id == ⟨4⟩) = true := by decide +kernel
  obtain ⟨n, hn, hnode⟩ := Option.any_eq_true _ _ |>.1 hnode
  simp only [Bool.and_eq_true, List.any_eq_true, beq_iff_eq] at hnode
  obtain ⟨d₁, d₂, d', h₁, h₂, h₃, hremove, -⟩ :=
    removeValue_between_negations hd hn hnode.1 hnode.2
  refine ⟨hd, by decide +kernel, d₁, d₂, d', h₁, h₂, h₃, hremove, ?_⟩
  rw [show d' = (d.removeValue ⟨1⟩ ⟨4⟩).2 by rw [hremove]]
  decide +kernel

end Diagram

end PatternQuery
