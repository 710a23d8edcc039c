import PatternQuery.Proofs.Diagram.Interchange
import PatternQuery.Proofs.Diagram.Operation

/-!
# Counts and candidates

The count of a node has no part in how candidates are stored, shown and hidden. So a node that
exists already may be counted before or after that (`Diagram.expandValues_recount`): the value nodes
that are added in between have other numbers.
-/

namespace PatternQuery

variable {x : NodeId} {k : Nat}

/-- Counts a node, if it has the id `x`. -/
def Node.recount (x : NodeId) (k : Nat) (n : Node) : Node :=
  if n.id = x then { n with count := k } else n

theorem Node.recount_eq (x : NodeId) (k : Nat) (n : Node) :
    ∃ c, n.recount x k = { n with count := c } := by
  unfold recount
  split
  · exact ⟨k, rfl⟩
  · exact ⟨n.count, rfl⟩

theorem Node.apart_count (k : Nat) : Node.Apart fun n => { n with count := k } :=
  ⟨fun _ => rfl, fun _ _ _ => rfl⟩

theorem Node.recount_of_ne {n : Node} (h : n.id ≠ x) : n.recount x k = n := if_neg h

namespace Diagram

variable {d : Diagram}

/-- Counts the node `x`, if there is one. -/
def recount (x : NodeId) (k : Nat) (d : Diagram) : Diagram :=
  { d with nodes := d.nodes.map (Node.recount x k) }

theorem modify_count (d : Diagram) (x : NodeId) (k : Nat) :
    (d.modify x fun n => { n with count := k }) = d.recount x k :=
  rfl

theorem node?_recount (d : Diagram) (id : NodeId) :
    (d.recount x k).node? id = (d.node? id).map (Node.recount x k) := by
  simp only [node?, recount, List.find?_map]
  congr 2
  funext n
  obtain ⟨c, hc⟩ := n.recount_eq x k
  simp only [Function.comp, hc]

theorem modify_recount {f : Node → Node} (hid : ∀ n, (f n).id = n.id)
    (hf : ∀ n c, f { n with count := c } = { f n with count := c }) (d : Diagram) (id : NodeId) :
    (d.recount x k).modify id f = (d.modify id f).recount x k :=
  modify_comm (g := fun n => { n with count := k }) hid (fun _ => rfl) (fun n => hf n k) d id x

theorem setPinned_recount (parent : Option NodeId) (fixed : Bool) (d : Diagram) :
    (d.recount x k).setPinned parent fixed = (d.setPinned parent fixed).recount x k :=
  setPinned_modify (Node.apart_count k) parent fixed d x

theorem setData_recount (id : NodeId) (rows : List Row) (d : Diagram) :
    ((d.recount x k).setData id rows).2 = (d.setData id rows).2.recount x k := by
  have hstore := modify_recount (x := x) (k := k)
    (f := fun n => { n with data := some rows, page := 1 }) (fun _ => rfl) (fun _ _ => rfl) d id
  rw [setData, node?_recount, setData]
  cases d.node? id with
  | none => rfl
  | some n => exact hstore

theorem collapseValues_recount (id : NodeId) (d : Diagram) :
    ((d.recount x k).collapseValues id).2 = (d.collapseValues id).2.recount x k :=
  collapseValues_modify (Node.apart_count k) id d x

theorem addValueNodes_recount (hx : x.number < d.nextNode) (id : NodeId) (label : String)
    (rows : List Row) : rows.foldl (addValueNode id label) (d.recount x k) =
      (rows.foldl (addValueNode id label) d).recount x k := by
  induction rows generalizing d with
  | nil => rfl
  | cons row rows ih =>
    have hnew : (shownNode id label row d).recount x k = shownNode id label row d := by
      refine Node.recount_of_ne fun he => ?_
      rw [← he] at hx
      exact Nat.lt_irrefl _ hx
    have hadd : addValueNode id label (d.recount x k) row =
        (addValueNode id label d row).recount x k := by
      simp only [addValueNode_eq, attach, recount, List.map_append, List.map_cons, List.map_nil,
        hnew]
      rfl
    rw [List.foldl_cons, hadd, List.foldl_cons]
    exact ih (Nat.lt_succ_of_lt hx)

theorem nextNode_collapseValues (id : NodeId) (d : Diagram) :
    (d.collapseValues id).2.nextNode = d.nextNode := by
  unfold Diagram.collapseValues Diagram.setPinned
  repeat' split
  all_goals rfl

/-- A node that exists may be counted before candidates are shown or after that. -/
theorem expandValues_recount (hx : x.number < d.nextNode) (id : NodeId) :
    ((d.recount x k).expandValues id).2 = (d.expandValues id).2.recount x k := by
  cases hn : d.node? id with
  | none =>
    rw [expandValues_of_none (by simp [node?_recount, hn]), expandValues_of_none (by simp [hn]),
      collapseValues_recount]
  | some n =>
    obtain ⟨c, hc⟩ := n.recount_eq x k
    have hn' : (d.recount x k).node? id = some { n with count := c } := by
      rw [node?_recount, hn, Option.map_some, hc]
    cases hr : n.data with
    | none =>
      rw [expandValues_of_none (by simp [hn', hr]), expandValues_of_none (by simp [hn, hr]),
        collapseValues_recount]
    | some rows =>
      have hx' : x.number < (d.collapseValues id).2.nextNode := by rwa [nextNode_collapseValues]
      have hfold (d : Diagram) := modify_recount (x := x) (k := k)
        (f := fun n => { n with fixed := true, expanded := true }) (fun _ => rfl) (fun _ _ => rfl)
        d id
      rw [expandValues_eq hn hr, expandValues_eq hn' hr, collapseValues_recount,
        addValueNodes_recount hx', hfold, setPinned_recount]
      rfl

end Diagram

end PatternQuery
