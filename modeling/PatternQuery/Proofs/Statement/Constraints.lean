import PatternQuery.Proofs.Statement.Hops

/-!
# Conditions on values

The values selected on a node make one condition of a statement about another node if the node
constrains it (`Diagram.Constrains`), and none otherwise. The counts and the rows of a node have
its own condition besides, its candidate values have not
(`Diagram.valueConditions_of_reachable`).
-/

namespace PatternQuery

/-- The condition that restricts a node to the values selected on it. -/
def Node.valuePredicate (q : Provider) (n : Node) : String :=
  (q.attribute n).expression n.var ++ (if n.selected.length = 1 then " = $" else " IN $")
    ++ n.parameterName (q.attribute n)

namespace Contribution

variable {q : Provider} {settings : QuerySettings} {n : Node} {cs : List Contribution}

theorem conditions_selection (settings : QuerySettings) :
    conditions q settings (selection n) =
      if n.hasValue && !n.negative then [n.valuePredicate q] else [] := by
  cases hneg : n.negative with
  | true => simp [conditions, Node.valueConstraints, hneg]
  | false =>
    rcases hs : n.selected with _ | ⟨v, _ | ⟨w, vs⟩⟩
    · simp [conditions, Node.valueConstraints, Node.hasValue, hneg, hs]
    · simp [conditions, Node.valueConstraints, Node.hasValue, Node.valuePredicate, hneg, hs]
    · simp [conditions, Node.valueConstraints, Node.hasValue, Node.valuePredicate, hneg, hs]

/-- What the values selected on a node contribute to the conditions. -/
def selectionConditions (q : Provider) (settings : QuerySettings) (cs : List Contribution)
    (n : Node) : List String :=
  (cs.filter fun c => c = selection n).flatMap (conditions q settings)

theorem selectionConditions_eq (h : cs.Nodup) (n : Node) : selectionConditions q settings cs n =
    if selection n ∈ cs then conditions q settings (selection n) else [] := by
  rw [selectionConditions, List.filter_eq, h.count]
  split <;> simp

end Contribution

namespace Diagram

open Contribution

/-- The values selected on a node constrain statements about `target`: it is another node, it is
not negated, and no negation above it takes it in. -/
structure Constrains (d : Diagram) (target : NodeId) (n : Node) : Prop where
  other : n.id ≠ target
  selected : n.selected ≠ []
  positive : n.negative = false
  exposed : ∀ a ∈ d.nodes, d.Below n.id a.id → a.negative = true → d.BelowOrSelf target a.id

variable {d : Diagram} {target : NodeId} {r n : Node}

theorem Shape.selection_mem_iff (h : d.Shape) (ht : d.IsQueryNode target) (hr : d.root? = some r)
    (hn : n ∈ d.nodes) (hsel : n.selected ≠ []) :
    selection n ∈ d.relevantContributions target true ↔
      n.id ≠ target ∧
        ∀ a ∈ d.nodes, d.Below n.id a.id → a.negative = true → d.BelowOrSelf target a.id := by
  have hkind : n.kind ≠ .value := fun hk => hsel ((h.sound n hn).selected hk)
  rw [relevantContributions, mem_contributions_selection hr, ← relevantHops]
  constructor
  · rintro ⟨rfl | ⟨x, hx, rfl⟩, hid, -⟩
    · exact ⟨hid, fun a _ hb => absurd hb (h.not_below_root hr)⟩
    · exact ⟨hid, h.exposed_of_hop ht hx⟩
  · rintro ⟨hid, hexposed⟩
    refine ⟨?_, hid, .inl rfl⟩
    by_cases hroot : n.kind = .root
    · exact .inl (h.eq_root hr hn hroot)
    · obtain ⟨x, hx, e⟩ := h.exists_hop_to hn hkind hroot
      have hm : d.Matters target n := ⟨hn, hroot, .inl hsel, hexposed⟩
      exact .inr ⟨x, (h.mem_relevantHops_iff ht).2 ⟨hx, n, hm, e ▸ .refl⟩, e.symm⟩

theorem Shape.selectionConditions_of_constrains (h : d.Shape) (ht : d.IsQueryNode target)
    (hn : n ∈ d.nodes) (hc : d.Constrains target n) (q : Provider) (settings : QuerySettings) :
    selectionConditions q settings (d.relevantContributions target true) n =
      [n.valuePredicate q] := by
  obtain ⟨r, hr⟩ := h.exists_root? ht
  have hmem := (h.selection_mem_iff ht hr hn hc.selected).2 ⟨hc.other, hc.exposed⟩
  rw [selectionConditions_eq nodup_relevantContributions, if_pos hmem, conditions_selection, if_pos]
  simp [Node.hasValue, hc.selected, hc.positive]

theorem Shape.selectionConditions_of_not_constrains (h : d.Shape) (ht : d.IsQueryNode target)
    (hn : n ∈ d.nodes) (hc : ¬ d.Constrains target n) (q : Provider) (settings : QuerySettings) :
    selectionConditions q settings (d.relevantContributions target true) n = [] := by
  obtain ⟨r, hr⟩ := h.exists_root? ht
  rw [selectionConditions_eq nodup_relevantContributions, ite_eq_right_iff]
  intro hmem
  rw [conditions_selection, ite_eq_right_iff]
  intro hpos
  obtain ⟨hsel, hpos⟩ : n.selected ≠ [] ∧ n.negative = false := by
    simpa [Node.hasValue] using hpos
  obtain ⟨hid, hexposed⟩ := (h.selection_mem_iff ht hr hn hsel).1 hmem
  exact absurd ⟨hid, hsel, hpos, hexposed⟩ hc

/-- The values selected on a node make one condition of a statement about another node if it
constrains that node, and none otherwise. Those of the node itself are added for its count and for
the rows of the root, but not for its candidate values. -/
theorem valueConditions_of_reachable {p : Provider} (h : d.Reachable p)
    (ht : d.IsQueryNode target) (c : Compiler) :
    let cs := d.relevantContributions target true
    ∃ n e, n ∈ d.nodes ∧ n.id = target ∧
      generateElements d c.provider c.settings target (d.relevantLinks target) true = .ok e ∧
      e.conditions = cs.flatMap (conditions c.provider c.settings) ∧
      (∀ m ∈ d.nodes, d.Constrains target m →
        selectionConditions c.provider c.settings cs m = [m.valuePredicate c.provider]) ∧
      (∀ m ∈ d.nodes, ¬ d.Constrains target m →
        selectionConditions c.provider c.settings cs m = []) ∧
      (∃ parts, c.countQuery d target = .ok (c.finish .nodeCount n parts) ∧
        parts.conditions = e.conditions ++
          if n.hasValue && !n.negative then [n.valuePredicate c.provider] else []) ∧
      (∃ parts, c.valueQuery d target = .ok (c.finish .nodeValue n parts) ∧
        parts.conditions = e.conditions) ∧
      (d.root? = some n → ∀ graphMode,
        ∃ parts, c.resultQuery d graphMode = .ok (c.finish .result n parts) ∧
          parts.conditions = e.conditions ++
            if n.hasValue && !n.negative then [n.valuePredicate c.provider] else []) := by
  intro cs
  have hs := h.wellFormed.toShape
  obtain ⟨r, hr⟩ := hs.exists_root? ht
  obtain ⟨n, hn, -⟩ := hs.isQueryNode_iff.1 ht
  obtain rfl := id_of_node? hn
  have he := hs.relevantElements_eq ht hr c.provider c.settings true
  refine ⟨n, _, mem_of_node? hn, rfl, he, QueryElements.orRoot_conditions _ r,
    fun m hm hc => hs.selectionConditions_of_constrains ht hm hc _ _,
    fun m hm hc => hs.selectionConditions_of_not_constrains ht hm hc _ _,
    ⟨_, Compiler.countQuery_of_elements hn he, ?_⟩,
    ⟨_, Compiler.valueQuery_of_elements hn hr he, rfl⟩, fun hroot graphMode =>
    ⟨_, Compiler.resultQuery_of_elements hroot he graphMode, ?_⟩⟩
  all_goals
    rw [← conditions_selection c.settings]
    rfl

/-- A person with a movie and two friends. The movie and the first friend have values, the second
friend has values and is negated. The movie and the first friend constrain the rows. -/
theorem valueConditions_of_friends :
    let s : Schema := .node "Person" [] [
      ⟨"LIKES", .node "Movie" [Table.empty, Table.empty] [] false, false⟩,
      ⟨"KNOWS", .node "Person" [Table.empty] [] false, false⟩,
      ⟨"KNOWS", .node "Person" [Table.empty] [] false, false⟩] false
    let d := Operation.runAll .plain [.addSchema s none, .negate ⟨6⟩] (.new 10)
    let cs := d.relevantContributions ⟨0⟩ true
    d.Reachable .plain ∧ d.IsQueryNode ⟨0⟩ ∧
      d.nodes.flatMap (selectionConditions .plain {} cs) =
        ["ID(movie) IN $movie_internalID", "ID(person0) = $person0_internalID"] ∧
      ∃ n e, n ∈ d.nodes ∧ n.id = ⟨0⟩ ∧
        generateElements d .plain {} ⟨0⟩ (d.relevantLinks ⟨0⟩) true = .ok e ∧
        e.conditions = cs.flatMap (conditions .plain {}) ∧
        ∀ m ∈ d.nodes, d.Constrains ⟨0⟩ m →
          selectionConditions .plain {} cs m = [m.valuePredicate .plain] := by
  intro s d cs
  have hd : d.Reachable .plain := Reachable.runAll (.new 10) _ (by decide +kernel)
  have ht : d.IsQueryNode ⟨0⟩ := by decide +kernel
  obtain ⟨n, e, hn, hid, he, hconditions, hconstrains, -⟩ :=
    valueConditions_of_reachable hd ht ⟨.plain, {}⟩
  exact ⟨hd, ht, by decide +kernel, n, e, hn, hid, he, hconditions, hconstrains⟩

end Diagram

end PatternQuery
