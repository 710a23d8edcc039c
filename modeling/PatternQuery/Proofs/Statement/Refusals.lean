import PatternQuery.Proofs.Diagram.Operation
import PatternQuery.Proofs.Statement.Statements
import PatternQuery.Statement.Overview

/-!
# Statements that are refused

Statements are refused for want of what they are about: the result of a diagram without nodes, and
what is asked about a node that is not there (`Diagram.Shape.covers`). So all the statements of a
diagram with nodes can be written (`Compiler.exists_overview`).
-/

namespace PatternQuery

variable {c : Compiler} {d : Diagram}

/-- What is refused for one reason, on one condition, and given otherwise. -/
structure RefusedIf {α : Type} (condition : Prop) (e : GraphError) (r : Except GraphError α) :
    Prop where
  refused : condition → r = .error e
  given : ¬ condition → ∃ a, r = .ok a

/-- Every statement is refused for want of what it is about, and for nothing else. -/
structure Compiler.Covers (c : Compiler) (d : Diagram) : Prop where
  result : ∀ graphMode, RefusedIf (d.isEmpty = true) .emptyGraph (c.resultQuery d graphMode)
  count : ∀ id, RefusedIf (d.node? id = none) (.nodeNotFound id) (c.countQuery d id)
  value : ∀ id, RefusedIf (d.node? id = none) (.nodeNotFound id) (c.valueQuery d id)
  relation : ∀ id, RefusedIf (d.node? id = none) (.nodeNotFound id) (c.relationQuery d id)

/-- A statement about a node, refused where the node is not there. -/
theorem RefusedIf.of_node {α : Type} {id : NodeId} {r : Except GraphError α}
    (hnone : d.node? id = none → r = .error (.nodeNotFound id))
    (hsome : ∀ n, d.node? id = some n → ∃ a, r = .ok a) :
    RefusedIf (d.node? id = none) (.nodeNotFound id) r where
  refused := hnone
  given hid := by
    obtain ⟨n, hn⟩ := Option.ne_none_iff_exists'.1 hid
    exact hsome n hn

namespace Compiler

theorem resultQuery_of_isEmpty (c : Compiler) (hd : d.isEmpty = true) (graphMode : Bool) :
    c.resultQuery d graphMode = .error .emptyGraph := by
  rw [resultQuery, Diagram.root?, List.isEmpty_iff.1 hd]
  rfl

/-- The nodes at the ends of relations are there, so no clause is refused for want of one. -/
theorem covers (c : Compiler) (hd : d.Shape) : c.Covers d where
  result graphMode := by
    refine ⟨fun he => c.resultQuery_of_isEmpty he graphMode, fun hne => ?_⟩
    exact c.exists_resultQuery hd (Bool.eq_false_iff.2 hne) graphMode
  count id := .of_node (fun hn => by rw [countQuery, hn]) fun _ hn => c.exists_countQuery hd hn
  value id := .of_node (fun hn => by rw [valueQuery, hn]) fun _ hn => c.exists_valueQuery hd hn
  relation id :=
    .of_node (fun hn => by rw [relationQuery, hn]) fun _ hn => c.exists_relationQuery hd hn

/-! ## All statements of a diagram -/

theorem exists_nodeStatements (c : Compiler) (hd : d.Shape) {n : Node} (hn : n ∈ d.nodes) :
    ∃ s, c.nodeStatements d n = .ok s := by
  have hnode := hd.node?_of_mem hn
  obtain ⟨count, hcount⟩ := c.exists_countQuery hd hnode
  obtain ⟨value, hvalue⟩ := c.exists_valueQuery hd hnode
  obtain ⟨relation, hrelation⟩ := c.exists_relationQuery hd hnode
  rw [nodeStatements, hcount, hvalue, hrelation]
  cases n.isCountable <;> exact ⟨_, rfl⟩

theorem exists_overview (c : Compiler) (hd : d.Shape) (hne : d.isEmpty = false)
    (graphMode : Bool) : ∃ o, c.overview d graphMode = .ok o := by
  have hall : ∀ n ∈ d.nodes.filter fun n => n.kind != .value, ∃ s, c.nodeStatements d n = .ok s :=
    fun _ hn => c.exists_nodeStatements hd (List.mem_filter.1 hn).1
  obtain ⟨nodes, hnodes, -⟩ := exists_mapM hall
  obtain ⟨result, hresult⟩ := c.exists_resultQuery hd hne graphMode
  rw [overview, hnodes, hresult]
  exact ⟨_, rfl⟩

end Compiler

end PatternQuery
