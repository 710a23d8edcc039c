import PatternQuery.Proofs.Diagram.Operation
import PatternQuery.Proofs.Diagram.Values

/-!
# What is refused

An operation is refused where something is wrong with its arguments, which a look at the diagram
tells beforehand (`Operation.refusal?`), and it gives the diagram back then
(`Operation.run_eq_error_iff`).
-/

namespace PatternQuery

open Diagram

/-- What is wrong with the arguments of an operation, if anything is. Nobody looks for the node of
a page that is not turned. -/
def Operation.refusal? (o : Operation) (d : Diagram) : Option GraphError :=
  match o with
  | addRoot _ _ | addSchema _ _ | clear | nextPage _ | previousPage _ => none
  | setRelationships id _ | setData id _ | expandValues id | collapseValues id | removeValue id _
  | negate id | removeNode id =>
    if (d.node? id).isSome then none else some (.nodeNotFound id)
  | expandRelationship id index =>
    match d.node? id with
    | none => some (.nodeNotFound id)
    | some n =>
      if index < n.relationships.length then none else some (.segmentNotFound id index)
  | selectValue id =>
    match d.node? id with
    | none => some (.nodeNotFound id)
    | some n =>
      match n.kind, n.parent with
      | .value, some parent =>
        if (d.node? parent).isSome then none else some (.nodeNotFound parent)
      | _, _ => some (.notAValueNode id)

theorem Diagram.collapseValues_fst {d : Diagram} {id : NodeId} {n : Node}
    (hn : d.node? id = some n) : (d.collapseValues id).1 = .ok () := by
  unfold collapseValues
  rw [hn]
  dsimp only
  split <;> rfl

namespace Operation

variable {p : Provider} {o : Operation} {d d' : Diagram} {id : NodeId} {n : Node} {e : GraphError}
  {α : Type}

/-- Either the arguments are wrong, and the call is refused and gives the diagram back, or nothing
is wrong with them and nothing is refused. -/
def Judged (refusal : Option GraphError) (r : Except GraphError Unit × Diagram) (d : Diagram) :
    Prop :=
  (∃ e, refusal = some e ∧ r = (.error e, d)) ∨ refusal = none ∧ r.1 = .ok ()

theorem Judged.error (e : GraphError) (d : Diagram) : Judged (some e) (.error e, d) d :=
  .inl ⟨e, rfl, rfl⟩

theorem Judged.ok {r : Except GraphError α × Diagram} {a : α} (h : r.1 = .ok a) :
    Judged none (outcome r) d := by
  refine .inr ⟨rfl, ?_⟩
  rw [outcome, h]
  rfl

/-- Most operations look up their node first and are refused only if it is missing. -/
theorem Judged.lookUp {r : Except GraphError α × Diagram}
    (hnone : d.node? id = none → r = (.error (.nodeNotFound id), d))
    (hsome : ∀ n, d.node? id = some n → ∃ a, r.1 = .ok a) :
    Judged (if (d.node? id).isSome then none else some (.nodeNotFound id)) (outcome r) d := by
  cases hn : d.node? id with
  | none =>
    rw [hnone hn]
    exact .error _ d
  | some n =>
    obtain ⟨a, ha⟩ := hsome n hn
    exact .ok ha

theorem turnPage_fst (turn : Nat → Nat) (hn : d.node? id = some n) :
    (d.turnPage id turn).1 = .ok true := by
  have hn' := node?_modify_of_some (f := fun m => { m with page := turn m.page })
    (fun _ => rfl) hn id
  obtain ⟨shown, d', hd⟩ := expandValues_ok hn'
  simp [Diagram.turnPage, hd]

theorem nextPage_fst (id : NodeId) (d : Diagram) :
    (d.nextPage id).1 = .ok (d.hasNextPage id) := by
  unfold Diagram.nextPage
  split
  · rename_i hpage
    cases hn : d.node? id with
    | none => simp [hasNextPage, hn] at hpage
    | some n => rw [turnPage_fst _ hn, hpage]
  · rename_i hpage
    rw [Bool.not_eq_true] at hpage
    rw [hpage]

theorem previousPage_fst (id : NodeId) (d : Diagram) :
    (d.previousPage id).1 = .ok (d.hasPreviousPage id) := by
  unfold Diagram.previousPage
  split
  · rename_i hpage
    cases hn : d.node? id with
    | none => simp [hasPreviousPage, hn] at hpage
    | some n => rw [turnPage_fst _ hn, hpage]
  · rename_i hpage
    rw [Bool.not_eq_true] at hpage
    rw [hpage]

theorem removeValue_fst (hn : d.node? id = some n) (value : NodeId) :
    ∃ held, (d.removeValue id value).1 = .ok held := by
  simp only [Diagram.removeValue, hn]
  split <;> exact ⟨_, rfl⟩

theorem negate_fst (hn : d.node? id = some n) : ∃ changed, (d.negate id).1 = .ok changed := by
  simp only [Diagram.negate, hn]
  split
  · exact ⟨_, rfl⟩
  · split <;> exact ⟨_, rfl⟩

theorem removeNode_fst (hn : d.node? id = some n) : ∃ held, (d.removeNode id).1 = .ok held := by
  simp only [Diagram.removeNode, hn]
  split <;> exact ⟨_, rfl⟩

theorem judged_expandRelationship (p : Provider) (id : NodeId) (index : Nat) (d : Diagram) :
    Judged ((expandRelationship id index).refusal? d)
      (outcome (d.expandRelationship p id index)) d := by
  unfold refusal? Diagram.expandRelationship
  cases hn : d.node? id with
  | none =>
    simp only [hn]
    exact .error _ d
  | some n =>
    simp only [hn]
    by_cases hindex : index < n.relationships.length
    · rw [if_pos hindex, List.getElem?_eq_getElem hindex]
      exact .ok rfl
    · rw [if_neg hindex, List.getElem?_eq_none (Nat.not_lt.1 hindex)]
      exact .error _ d

theorem judged_selectValue (id : NodeId) (d : Diagram) :
    Judged ((selectValue id).refusal? d) (outcome (d.selectValue id)) d := by
  unfold refusal? Diagram.selectValue
  cases hn : d.node? id with
  | none =>
    simp only [hn]
    exact .error _ d
  | some n =>
    simp only [hn]
    cases n.kind with
    | value =>
      cases n.parent with
      | none => exact .error _ d
      | some parent =>
        exact Judged.lookUp (fun hm => by simp [hm]) fun m hm => ⟨parent, by simp [hm]⟩
    | root | choose | group => exact .error _ d

theorem judged_run (p : Provider) (o : Operation) (d : Diagram) :
    Judged (o.refusal? d) (o.run p d) d := by
  cases o with
  | addRoot | addSchema | clear => exact .inr ⟨rfl, rfl⟩
  | expandRelationship id index => exact judged_expandRelationship p id index d
  | setRelationships id segments =>
    refine Judged.lookUp (fun hn => ?_) fun n hn => ⟨(), ?_⟩ <;> simp [Diagram.setRelationships, hn]
  | setData id rows =>
    exact Judged.lookUp (fun hn => by simp [Diagram.setData, hn]) fun n hn =>
      ⟨(), (setData_ok hn rows).1⟩
  | expandValues id =>
    refine Judged.lookUp (fun hn => by simp [Diagram.expandValues, hn]) fun n hn => ?_
    obtain ⟨shown, d', hd⟩ := expandValues_ok hn
    exact ⟨shown, congrArg Prod.fst hd⟩
  | collapseValues id =>
    exact Judged.lookUp (fun hn => by simp [Diagram.collapseValues, hn]) fun n hn =>
      ⟨(), collapseValues_fst hn⟩
  | selectValue id => exact judged_selectValue id d
  | removeValue id value =>
    exact Judged.lookUp (fun hn => by simp [Diagram.removeValue, hn]) fun n hn =>
      removeValue_fst hn value
  | negate id =>
    exact Judged.lookUp (fun hn => by simp [Diagram.negate, hn]) fun n hn => negate_fst hn
  | removeNode id =>
    exact Judged.lookUp (fun hn => by simp [Diagram.removeNode, hn]) fun n hn => removeNode_fst hn
  | nextPage id => exact .ok (nextPage_fst id d)
  | previousPage id => exact .ok (previousPage_fst id d)

theorem run_eq_error_iff : o.run p d = (.error e, d') ↔ o.refusal? d = some e ∧ d' = d := by
  rcases judged_run p o d with ⟨e', hrefusal, hrun⟩ | ⟨hrefusal, hok⟩
  · rw [hrefusal, hrun]
    simp [eq_comm]
  · rw [hrefusal]
    refine iff_of_false (fun hrun => ?_) (by simp)
    rw [hrun] at hok
    cases hok

theorem snd_of_error (h : (o.run p d).1 = .error e) : (o.run p d).2 = d :=
  (run_eq_error_iff.1 (Prod.ext h rfl)).2

end Operation

end PatternQuery
