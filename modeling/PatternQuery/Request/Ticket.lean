import PatternQuery.Request.Lifecycle

/-!
# Tickets

A `Ticket` stands for a request from its issue on: first for the fetch that is under way, then for
its answer, which it keeps.
-/

namespace PatternQuery

inductive Ticket (κ : Type) where
  | pending (fetch : Fetch κ)
  | ended (answer : Fetched κ)
  deriving DecidableEq

namespace Ticket

variable {κ : Type}

/-- The answer, once it has been waited for. -/
def answer? : Ticket κ → Option (Fetched κ)
  | pending _ => none
  | ended answer => some answer

/-- Waits for the answer, if it is there. -/
def wait (t : Ticket κ) (l : Lifecycle) : Ticket κ × Lifecycle :=
  match t with
  | ended answer => (ended answer, l)
  | pending fetch =>
    match l.wait fetch with
    | (some answer, l) => (ended answer, l)
    | (none, l) => (pending fetch, l)

/-- Drops the request if it is still under way. -/
def drop (t : Ticket κ) (l : Lifecycle) : Lifecycle :=
  match t with
  | pending fetch => l.drop fetch
  | ended _ => l

end Ticket

end PatternQuery
