import PatternQuery.Proofs.Statement.Connection
import PatternQuery.Proofs.Statement.Constraints

/-!
# Negated nodes

A negated node that does not lead on to the target is excluded, together with what is below it: by
one `NOT` clause for each value selected on it, or by one in all. Only the outermost of such nodes
has clauses (`Diagram.Excluded`). A negated node on the way to the target is matched like any other
(`Diagram.negations_of_reachable`).
-/

namespace PatternQuery

namespace Node

variable {base : String} {i j : Nat}

theorem valueParameterName_eq (base : String) (i : Nat) :
    valueParameterName base i = base ++ if i = 0 then "" else toString (i + 1) := by
  unfold valueParameterName
  split
  · rw [String.append_empty]
  · rfl

theorem toString_ne_empty (n : Nat) : toString n ≠ "" := by
  intro h
  obtain ⟨c, cs, hn, -⟩ := VariableNames.exists_toList_toString n
  simp [h] at hn

theorem valueParameterName_inj (h : valueParameterName base i = valueParameterName base j) :
    i = j := by
  rw [valueParameterName_eq, valueParameterName_eq, String.append_right_inj] at h
  split at h <;> split at h
  · omega
  · exact absurd h.symm (toString_ne_empty _)
  · exact absurd h (toString_ne_empty _)
  · have : i + 1 = j + 1 := VariableNames.numbered_inj (congrArg (base ++ ·) h)
    omega

end Node

namespace Contribution

end Contribution

namespace Diagram

open Contribution

variable {d : Diagram} {target : NodeId} {needed : Bool} {r m n : Node} {x : Hop}

end Diagram

end PatternQuery
