import PatternQuery.Proofs.Statement.Parameters

/-!
# Placeholders in the statements of a node

Without hooks the statements of a node are written from contributions (`Compiler.Writes`): those of
the relevant relations for its rows, its count and its candidate values, and those of the path to it
for the relations that lead on. Each placeholder is bound to its own value, unless another node of
the statement brings a parameter of the same name (`Diagram.ownValues_of_reachable`).
-/

namespace PatternQuery

/-- Statements are written as they are put together. -/
def Provider.Hookless (q : Provider) : Prop := ∀ kind n parts, q.amend kind n parts = parts

theorem Provider.hookless_ofCatalogue (cat : Catalogue) : (Provider.ofCatalogue cat).Hookless := by
  intro kind n parts
  have hnone (labels : List String) :
      (labels.findSome? fun label => Provider.hook? [] label kind) = none := by
    simp [Provider.hook?]
  simp only [Provider.ofCatalogue, Provider.amendWith, hnone]

theorem Compiler.finish_of_hookless {c : Compiler} (h : c.provider.Hookless) (kind : StatementKind)
    (n : Node) (parts : StatementParts) :
    c.finish kind n parts = parts.compile c.settings.preamble := by
  rw [finish, h]

open Contribution

/-- The constraint of a node to its own values is one more contribution. -/
theorem Compiler.constrain_eq (c : Compiler) (n : Node) (parts : StatementParts)
    {cs : List Contribution} (hc : parts.conditions = cs.flatMap (conditions c.provider c.settings))
    (hp : parts.parameters = allParameters c.provider cs) :
    (c.constrain n parts).conditions =
        (cs ++ [selection n]).flatMap (conditions c.provider c.settings) ∧
      (c.constrain n parts).parameters = allParameters c.provider (cs ++ [selection n]) := by
  rw [List.flatMap_append, List.flatMap_singleton, allParameters_concat, ← hc, ← hp]
  exact ⟨rfl, rfl⟩

/-- A statement is written with the conditions of contributions, and its placeholders are bound to
their own values: those that nodes do not share, or all if attributes have no underscore in them. -/
def Compiler.Writes (c : Compiler) (cs : List Contribution) (s : Except GraphError Statement) :
    Prop :=
  ∃ parts : StatementParts, s = .ok (parts.compile c.settings.preamble) ∧
    parts.conditions = cs.flatMap (conditions c.provider c.settings) ∧
    OwnValues c.provider cs parts.parameters (Unshared c.provider cs) ∧
    (c.provider.PlainSuffixes → OwnValues c.provider cs parts.parameters fun _ _ => True)

namespace Diagram

variable {d : Diagram} {target : NodeId} {needed : Bool} {links : List Link} {r n : Node}

/-! ## Contributions of relations -/

theorem Shape.heldIn_contributions (h : d.Shape) (hr : d.root? = some r) :
    HeldIn d (d.contributions target needed links) := by
  have htarget {x : Hop} (hx : x ∈ d.hops links) : x.target ∈ d.nodes :=
    mem_of_node? (hop?_eq_some.1 (mem_hops.1 hx).2).2.2
  intro c hc n hn
  cases c with
  | standing m => simp [holder?] at hn
  | relation x => simp [holder?] at hn
  | selection m =>
    obtain rfl := Option.some.inj hn
    rcases ((mem_contributions_selection hr).1 hc).1 with rfl | ⟨x, hx, rfl⟩
    · exact h.root_mem hr
    · exact htarget hx
  | negation x =>
    obtain rfl := Option.some.inj hn
    exact htarget ((mem_contributions_negation hr).1 hc).1

theorem proper_contributions (hr : d.root? = some r) :
    Proper (d.contributions target needed links) := by
  intro x hx
  obtain ⟨-, he⟩ := (mem_contributions_negation hr).1 hx
  rw [excludes, Bool.and_eq_true] at he
  exact he.1

/-- The clauses of the path to a node are those of what it contributes. -/
theorem Shape.pathElements_eq (h : d.Shape) (ht : d.IsQueryNode target) (hr : d.root? = some r)
    (q : Provider) (settings : QuerySettings) (needed : Bool) :
    generateElements d q settings target (d.linksToRoot target) needed =
      .ok ((QueryElements.ofContributions q settings
        (d.contributions target needed (d.linksToRoot target))).orRoot r) := by
  refine h.generateElements_eq hr (fun l hl => ?_) (List.nodup_reverse.2 (h.nodup_incomingPath ht))
  exact ((h.mem_incomingPath_iff ht).1 (List.mem_reverse.1 hl)).1

/-! ## Statements -/

theorem Shape.writes (h : d.Shape) (hnamed : d.Named) {c : Compiler} {cs : List Contribution}
    (hproper : Proper cs) (hheld : HeldIn d cs) {parts : StatementParts}
    (hc : parts.conditions = cs.flatMap (conditions c.provider c.settings))
    (hp : parts.parameters = allParameters c.provider cs) :
    c.Writes cs (.ok (parts.compile c.settings.preamble)) := by
  refine ⟨parts, rfl, hc, ?_, fun hq => ?_⟩ <;> rw [hp]
  · exact hproper.ownValues fun _ _ _ _ _ _ _ hu => hu
  · refine hproper.ownValues fun x hx n hn k v hk _ => ?_
    exact hnamed.unshared h hq hheld (hheld x hx n hn) hk

/-- Each placeholder in a statement of a node is bound to its own value, unless another node of the
statement brings a parameter of the same name. -/
theorem ownValues_of_reachable {p : Provider} (h : d.Reachable p) (ht : d.IsQueryNode target)
    (cat : Catalogue) (settings : QuerySettings) :
    let c : Compiler := ⟨.ofCatalogue cat, settings⟩
    let cs := d.relevantContributions target true
    ∃ n ∈ d.nodes, n.id = target ∧
      (d.root? = some n → ∀ graphMode,
        c.Writes (cs ++ [selection n]) (c.resultQuery d graphMode)) ∧
      c.Writes (cs ++ [selection n]) (c.countQuery d target) ∧
      c.Writes cs (c.valueQuery d target) ∧
      c.Writes (d.contributions target false (d.linksToRoot target))
        (c.relationQuery d target) := by
  intro c cs
  have hq : c.provider.Hookless := Provider.hookless_ofCatalogue cat
  have hs := h.wellFormed.toShape
  obtain ⟨r, hr⟩ := hs.exists_root? ht
  obtain ⟨n, hn, -⟩ := hs.isQueryNode_iff.1 ht
  obtain rfl := id_of_node? hn
  have hmem := mem_of_node? hn
  have he := hs.relevantElements_eq ht hr c.provider c.settings true
  have hpath := hs.pathElements_eq ht hr c.provider c.settings false
  have hproper : Proper cs := proper_contributions hr
  have hheld : HeldIn d cs := hs.heldIn_contributions hr
  have hproper' := hproper.concat_selection n
  have hheld' := hheld.concat_selection hmem
  have hconditions := QueryElements.orRoot_conditions (.ofContributions c.provider c.settings cs) r
  have hparameters := QueryElements.orRoot_parameters (.ofContributions c.provider c.settings cs) r
  have hown := c.constrain_eq n (Compiler.partsOf _) hconditions hparameters
  refine ⟨n, hmem, rfl, fun hroot graphMode => ?_, ?_, ?_, ?_⟩
  · rw [Compiler.resultQuery_of_elements hroot he, Compiler.finish_of_hookless hq]
    exact hs.writes h.named hproper' hheld' hown.1 hown.2
  · rw [Compiler.countQuery_of_elements hn he, Compiler.finish_of_hookless hq]
    exact hs.writes h.named hproper' hheld' hown.1 hown.2
  · rw [Compiler.valueQuery_of_elements hn hr he, Compiler.finish_of_hookless hq]
    exact hs.writes h.named hproper hheld hconditions hparameters
  · rw [Compiler.relationQuery_of_elements hn hpath, Compiler.finish_of_hookless hq]
    exact hs.writes h.named (proper_contributions hr) (hs.heldIn_contributions hr)
      (QueryElements.orRoot_conditions _ r) (QueryElements.orRoot_parameters _ r)

/-- A person with a value and a friend with two, who is negated. Nodes are constrained by their
internal ids, so all placeholders are bound to their own values. -/
theorem ownValues_of_friends :
    let friend : Schema := .node "Person" [Table.empty, Table.empty] [] false
    let s : Schema := .node "Person" [Table.empty] [⟨"KNOWS", friend, false⟩] false
    let q := Provider.ofCatalogue {}
    let d := Operation.runAll q [.addSchema s none, .negate ⟨2⟩] (.new 10)
    let cs := d.relevantContributions ⟨0⟩ true
    d.Reachable q ∧ d.IsQueryNode ⟨0⟩ ∧ q.PlainSuffixes ∧
      (Compiler.countQuery ⟨q, {}⟩ d ⟨0⟩).toOption.map (fun s => s.parameters.keys) =
        some ["person0_internalID", "person0_internalID2", "person_internalID"] ∧
      ∃ n ∈ d.nodes, n.id = ⟨0⟩ ∧ ∃ parts : StatementParts,
        Compiler.countQuery ⟨q, {}⟩ d ⟨0⟩ = .ok (parts.compile "") ∧
        parts.conditions = (cs ++ [selection n]).flatMap (conditions q {}) ∧
        OwnValues q (cs ++ [selection n]) parts.parameters fun _ _ => True := by
  intro friend s q d cs
  have hd : d.Reachable q := Reachable.runAll (.new 10) _ (by decide +kernel)
  have ht : d.IsQueryNode ⟨0⟩ := by decide +kernel
  have hq : q.PlainSuffixes := fun label => by
    show '_' ∉ (Attribute.internalId).parameterSuffix.toList
    decide
  obtain ⟨n, hn, hid, -, ⟨parts, hcount, hconditions, -, hown⟩, -⟩ :=
    ownValues_of_reachable hd ht {} {}
  exact ⟨hd, ht, hq, by decide +kernel, n, hn, hid, parts, hcount, hconditions, hown hq⟩

/-- A person with a home town and the home of that person, of another town, which is negated. Both
towns go by the name `person_home_town`. In the count of the home the placeholder in the condition
on the person is bound to the town of the home. -/
theorem countQuery_of_shared_name :
    let towns : Catalogue := { labels := Table.ofList [
      ("Person", { constraintAttribute := some (.property "home_town") }),
      ("Person_Home", { constraintAttribute := some (.property "town") })] }
    let home : Schema :=
      .node "Person_Home" [Table.ofList [("town", .str "Bonn")]] [] false
    let s : Schema :=
      .node "Person" [Table.ofList [("home_town", .str "Ulm")]] [⟨"HAS", home, false⟩] false
    let q := Provider.ofCatalogue towns
    let d := Operation.runAll q [.addSchema s none, .negate ⟨2⟩] (.new 10)
    d.Reachable q ∧ d.IsQueryNode ⟨2⟩ ∧
      d.root?.map (fun r => (r.valuePredicate q, r.parameterName (q.attribute r),
        r.selected.map (·.constraintValue (q.attribute r)))) =
        some ("person.home_town = $person_home_town", "person_home_town", [.str "Ulm"]) ∧
      (Compiler.countQuery ⟨q, {}⟩ d ⟨2⟩).toOption =
        some ⟨"MATCH (person:`Person`)-[r0:`HAS`]->(person_home:`Person_Home`)" ++
          " WHERE person.home_town = $person_home_town" ++
          " RETURN count(DISTINCT person_home.town) AS count",
          Table.ofList [("person_home_town", .str "Bonn")]⟩ := by
  intro towns home s q d
  exact ⟨Reachable.runAll (.new 10) _ (by decide +kernel), by decide +kernel, by decide +kernel,
    by decide +kernel⟩

end Diagram

end PatternQuery
