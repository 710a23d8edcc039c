import PatternQuery.Proofs.Diagram.Resets
import PatternQuery.Proofs.Statement.Renumbering

/-!
# Nothing of the past shows

Once a diagram starts again with a root, nothing shows of what was in it before, but for where the
numbers begin: neither in what operations give back, nor in the diagrams they leave, nor in the
statements about these (`Operation.nothing_left_of_past`).
-/

namespace PatternQuery

/-- Two diagrams ask for the same, of which one is the other with its nodes renumbered. -/
structure Compiler.SameStatements (c : Compiler) (a : Nat) (d d' : Diagram) : Prop where
  result : ∀ graphMode,
    c.resultQuery d' graphMode = (c.resultQuery d graphMode).mapError (GraphError.shift a)
  count : ∀ id, c.countQuery d' (id.shift a) = (c.countQuery d id).mapError (GraphError.shift a)
  value : ∀ id, c.valueQuery d' (id.shift a) = (c.valueQuery d id).mapError (GraphError.shift a)
  relation : ∀ id,
    c.relationQuery d' (id.shift a) = (c.relationQuery d id).mapError (GraphError.shift a)

theorem Compiler.sameStatements_shift {c : Compiler} (hc : c.provider.IgnoresNumbers) (a b : Nat)
    (d : Diagram) : c.SameStatements a d (d.shift a b) where
  result graphMode := resultQuery_shift hc d graphMode
  count id := countQuery_shift hc d id
  value id := valueQuery_shift hc d id
  relation id := relationQuery_shift hc d id

/-- A provider that amends what counts people. -/
def Provider.livingPeople : Provider :=
  .ofCatalogue {} [⟨"Person", .nodeCount, fun n x =>
    [Amendment.addCondition "NOT \x7bvar\x7d:Dead"].foldl (Amendment.apply n) x⟩]

namespace Operation

variable {p : Provider} {first : Operation}

/-- Whatever was done with a diagram before: if it has no nodes, it is a new one but for the
counters, and operations that start with a root give back the same as in a new one, step by step,
and leave the same diagram, all under numbers that begin where those of the diagram end. The
statements about the diagrams are the same at every step, for all amendments that do not look at
numbers. -/
theorem nothing_left_of_past (pageSize : Nat) (before : List Operation)
    (hfirst : first.makesRoot = true) (rest : List Operation) :
    let fresh := Diagram.new pageSize
    let used := runAll p before fresh
    let a := used.nextNode
    let b := used.nextLink
    let inFresh := trace p (first :: rest) fresh
    let inUsed := trace p ((first :: rest).map (shift a)) used
    (used.isEmpty = true → used = fresh.shift a b) ∧
      inUsed = inFresh.map (shiftAnswer a b (Reply.shift a)) ∧
      ∀ c : Compiler, c.provider.IgnoresNumbers → ∀ (i : Nat) x y,
        inFresh[i]? = some x → inUsed[i]? = some y → c.SameStatements a x.2 y.2 := by
  intro fresh used a b inFresh inUsed
  have hused : used.ReachableBy p fun _ _ => True := .runAll (.new pageSize) before
  have hsize : Diagram.new used.pageSize = fresh := by
    have hpages : used.pageSize = fresh.pageSize :=
      Diagram.ReachableBy.pageSize_runAll (.new pageSize) before
    rw [hpages]
    simp [fresh, Diagram.new]
  have htrace : inUsed = inFresh.map (shiftAnswer a b (Reply.shift a)) := by
    have h := hused.trace_eq hfirst rest
    rwa [hsize] at h
  refine ⟨fun hempty => ?_, htrace, fun c hc i x y hx hy => ?_⟩
  · have hclear := used.clear_eq_shift
    rw [hsize] at hclear
    rcases hused.eq_clear_or_hasRoot with hleft | ⟨r, hr⟩
    · exact hleft.trans hclear
    · rw [hr.isEmpty_eq_false] at hempty
      cases hempty
  · rw [htrace, List.getElem?_map, hx, Option.map_some] at hy
    obtain rfl := Option.some.inj hy
    exact Compiler.sameStatements_shift hc a b x.2

/-- A search for people who know Ann. -/
def friendsOfAnn : List Operation :=
  [.addSchema (.node "Person" [] [⟨"KNOWS", .node "Person" [] [] false, false⟩] false) none,
    .setData ⟨1⟩ [Table.empty.insert "name" (.str "Ann")], .expandValues ⟨1⟩, .selectValue ⟨2⟩]

/-- A search for people who do not live in Ulm, once there is a root. -/
def strangersToUlm : List Operation :=
  [.setRelationships ⟨0⟩ [{ label := "LIVES_IN", target := "City", count := 1 }],
    .expandRelationship ⟨0⟩ 0, .setData ⟨1⟩ [Table.empty.insert "name" (.str "Ulm")],
    .expandValues ⟨1⟩, .selectValue ⟨2⟩, .negate ⟨1⟩]

/-- One search is given up for the other. -/
theorem nothing_left_of_first_search :
    let used := runAll .livingPeople friendsOfAnn (.new 10)
    let search := .addRoot "Person" none :: strangersToUlm
    let inFresh := trace .livingPeople search (.new 10)
    let inUsed := trace .livingPeople (search.map (shift 3)) used
    used.isEmpty = false ∧ used.nextNode = 3 ∧ used.nextLink = 2 ∧
      Provider.livingPeople.IgnoresNumbers ∧
      inUsed = inFresh.map (shiftAnswer 3 2 (Reply.shift 3)) ∧
      ∃ x y s, inFresh[6]? = some x ∧ inUsed[6]? = some y ∧
        Compiler.countQuery ⟨.livingPeople, {}⟩ x.2 ⟨0⟩ = .ok s ∧
        Compiler.countQuery ⟨.livingPeople, {}⟩ y.2 ⟨3⟩ = .ok s := by
  intro used search inFresh inUsed
  have hp : Provider.livingPeople.IgnoresNumbers := by
    refine Provider.ignoresNumbers_ofCatalogue {} fun h hh => ?_
    rw [List.mem_singleton.1 hh]
    exact Hook.ignoresNumbers_of_amendments "Person" .nodeCount _
  have hnode : used.nextNode = 3 := by decide +kernel
  have hlink : used.nextLink = 2 := by decide +kernel
  have hfirst : (addRoot "Person" none).makesRoot = true := rfl
  obtain ⟨-, htrace, hsame⟩ :=
    nothing_left_of_past (p := .livingPeople) 10 friendsOfAnn hfirst strangersToUlm
  rw [hnode] at hsame
  rw [hnode, hlink] at htrace
  have htrace : inUsed = inFresh.map (shiftAnswer 3 2 (Reply.shift 3)) := htrace
  obtain ⟨x, hx⟩ : ∃ x, inFresh[6]? = some x := ⟨_, List.getElem?_eq_getElem (by decide +kernel)⟩
  have hy : inUsed[6]? = some (shiftAnswer 3 2 (Reply.shift 3) x) := by
    rw [htrace, List.getElem?_map, hx, Option.map_some]
  have hcount := (hsame ⟨.livingPeople, {}⟩ hp 6 _ _ hx hy).count ⟨0⟩
  have hok : (inFresh[6]?.all fun x =>
      (Compiler.countQuery ⟨.livingPeople, {}⟩ x.2 ⟨0⟩).isOk) = true := by decide +kernel
  rw [hx, Option.all_some] at hok
  refine ⟨by decide +kernel, hnode, hlink, hp, htrace, x, shiftAnswer 3 2 (Reply.shift 3) x, ?_⟩
  cases hs : Compiler.countQuery ⟨.livingPeople, {}⟩ x.2 ⟨0⟩ with
  | error e =>
    rw [hs] at hok
    cases hok
  | ok s =>
    rw [hs] at hcount
    exact ⟨s, hx, hy, rfl, hcount⟩

end Operation

end PatternQuery
