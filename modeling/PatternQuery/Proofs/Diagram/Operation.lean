import PatternQuery.Proofs.Diagram.Building
import PatternQuery.Proofs.Diagram.Pruning

/-!
# Reachable diagrams

An `Operation` is a call of one of the functions that change a diagram. A diagram is reachable if a
sequence of operations makes it from an empty one, and it is well formed then
(`Diagram.Reachable.wellFormed`), provided that segments and candidates are stored on nodes of the
query only (`Operation.sparesValues`).
-/

namespace PatternQuery

/-- A change of a diagram with its arguments. -/
inductive Operation where
  | addRoot (label : String) (anchor : Option Position)
  | addSchema (s : Schema) (anchor : Option Position)
  | clear
  | expandRelationship (id : NodeId) (index : Nat)
  | setRelationships (id : NodeId) (segments : List Segment)
  | setData (id : NodeId) (rows : List Row)
  | expandValues (id : NodeId)
  | collapseValues (id : NodeId)
  | selectValue (id : NodeId)
  | removeValue (id value : NodeId)
  | negate (id : NodeId)
  | removeNode (id : NodeId)
  | nextPage (id : NodeId)
  | previousPage (id : NodeId)

namespace Operation

/-- Keeps of what an operation gives back only whether it was refused. -/
def outcome {α : Type} (r : Except GraphError α × Diagram) : Except GraphError Unit × Diagram :=
  (r.1.map fun _ => (), r.2)

/-- Carries out an operation. -/
def run (p : Provider) (o : Operation) (d : Diagram) : Except GraphError Unit × Diagram :=
  match o with
  | addRoot label anchor => (.ok (), (d.addRoot p label anchor).2)
  | addSchema s anchor => (.ok (), (d.addSchema p s anchor).2)
  | clear => (.ok (), d.clear)
  | expandRelationship id index => outcome (d.expandRelationship p id index)
  | setRelationships id segments => outcome (d.setRelationships id segments)
  | setData id rows => outcome (d.setData id rows)
  | expandValues id => outcome (d.expandValues id)
  | collapseValues id => outcome (d.collapseValues id)
  | selectValue id => outcome (d.selectValue id)
  | removeValue id value => outcome (d.removeValue id value)
  | negate id => outcome (d.negate id)
  | removeNode id => outcome (d.removeNode id)
  | nextPage id => outcome (d.nextPage id)
  | previousPage id => outcome (d.previousPage id)

/-- Segments and candidates are not stored on candidate values. -/
def sparesValues (o : Operation) (d : Diagram) : Bool :=
  match o with
  | setRelationships id _ | setData id _ => (d.node? id).all fun n => n.kind != .value
  | _ => true

/-- Carries out operations in turn. -/
def runAll (p : Provider) : List Operation → Diagram → Diagram
  | [], d => d
  | o :: rest, d => runAll p rest (o.run p d).2

theorem runAll_append (p : Provider) (ops rest : List Operation) (d : Diagram) :
    runAll p (ops ++ rest) d = runAll p rest (runAll p ops d) := by
  induction ops generalizing d with
  | nil => rfl
  | cons o ops ih => exact ih (o.run p d).2

/-- No operation stores anything on a candidate value when its turn comes. -/
def allSpareValues (p : Provider) : List Operation → Diagram → Bool
  | [], _ => true
  | o :: rest, d => o.sparesValues d && allSpareValues p rest (o.run p d).2

end Operation

/-- A provider that knows nothing about any label. -/
def Provider.plain : Provider where
  properties _ := {}
  amend _ _ parts := parts

namespace Diagram

/-- Made from an empty diagram by operations that are admitted where they are carried out. -/
inductive ReachableBy (p : Provider) (admits : Operation → Diagram → Prop) : Diagram → Prop where
  | new (pageSize : Nat) : ReachableBy p admits (.new pageSize)
  | step {d : Diagram} (h : ReachableBy p admits d) (o : Operation) (ho : admits o d) :
    ReachableBy p admits (o.run p d).2

/-- Made from an empty diagram by operations with arbitrary arguments, except that they spare
candidate values. -/
def Reachable (p : Provider) (d : Diagram) : Prop := d.ReachableBy p fun o d => o.sparesValues d

variable {d : Diagram} {p : Provider}

theorem WellFormed.new (pageSize : Nat) : (Diagram.new pageSize).WellFormed :=
  WellFormed.clear (Diagram.new pageSize)

theorem WellFormed.run (h : d.WellFormed) (p : Provider) (o : Operation) (ho : o.sparesValues d) :
    (o.run p d).2.WellFormed := by
  cases o with
  | addRoot label anchor => exact h.addRoot p label anchor
  | addSchema s anchor => exact h.addSchema p s anchor
  | clear => exact .clear d
  | expandRelationship id index => exact h.expandRelationship p id index
  | setRelationships id segments =>
    refine h.setRelationships segments fun n hn => ?_
    simpa [Operation.sparesValues, hn] using ho
  | setData id rows =>
    refine h.setData rows fun n hn => ?_
    simpa [Operation.sparesValues, hn] using ho
  | expandValues id => exact h.expandValues id
  | collapseValues id => exact h.collapseValues id
  | selectValue id => exact h.selectValue id
  | removeValue id value => exact h.removeValue id value
  | negate id => exact h.negate id
  | removeNode id => exact h.removeNode id
  | nextPage id => exact h.nextPage id
  | previousPage id => exact h.previousPage id

theorem Reachable.wellFormed (h : d.Reachable p) : d.WellFormed := by
  induction h with
  | new pageSize => exact .new pageSize
  | step _ o ho ih => exact ih.run p o ho

theorem ReachableBy.runAll (h : d.ReachableBy p fun _ _ => True) (ops : List Operation) :
    (Operation.runAll p ops d).ReachableBy p fun _ _ => True := by
  induction ops generalizing d with
  | nil => exact h
  | cons o rest ih => exact ih (.step h o trivial)

theorem Reachable.runAll (h : d.Reachable p) (ops : List Operation)
    (hops : Operation.allSpareValues p ops d) : (Operation.runAll p ops d).Reachable p := by
  induction ops generalizing d with
  | nil => exact h
  | cons o rest ih =>
    simp only [Operation.allSpareValues, Bool.and_eq_true] at hops
    exact ih (.step h o hops.1) hops.2

end Diagram

end PatternQuery
