import PatternQuery.Data.Table
import PatternQuery.Text.Blank
import PatternQuery.Text.Casing

/-!
# Names of query variables

Every node of a diagram gets a variable of its own. `VariableNames.generate` makes it from the
node's label: lowercase and without blanks, then with the next number behind it if the name was
given out before. Names are never given out twice, not even after their node is gone.
-/

namespace PatternQuery

/-- The names given out so far. -/
structure VariableNames where
  /-- For each stem in use the number to try next. -/
  next : Table Nat := Table.empty
  issued : List String := []
  deriving DecidableEq

namespace VariableNames

/-- The name of a label without any character left. -/
def emptyStem : String := "n"

/-- Names that statements use for variables of their own: `x`, `r` and `r` with a number. -/
def isReserved (name : String) : Bool :=
  match name.toList with
  | 'r' :: rest => rest.all Char.isDigit
  | cs => cs == ['x']

/-- The stem of a label: lowercase, without blanks, and not a reserved name. -/
def stem (label : String) : String :=
  let base := Text.withoutBlanks (Text.lowercase label)
  let base := if base.isEmpty then emptyStem else base
  if isReserved base then base ++ "_" else base

/-- The name of a stem with a number behind it. -/
def numbered (stem : String) (k : Nat) : String := stem ++ toString k

/-- The first number from `k` on whose name was not given out. Of `fuel + 1` names one is free
where at most `fuel` are taken. -/
def firstFree (issued : List String) (stem : String) : Nat → Nat → Nat
  | 0, k => k
  | fuel + 1, k =>
    if issued.contains (numbered stem k) then firstFree issued stem fuel (k + 1) else k

/-- Gives out the name with the first free number from `k` on. -/
def generateNumbered (names : VariableNames) (stem : String) (k : Nat) : String × VariableNames :=
  let k := firstFree names.issued stem names.issued.length k
  let name := numbered stem k
  (name, ⟨names.next.insert stem (k + 1), name :: names.issued⟩)

/-- Gives out a name for a label. -/
def generate (names : VariableNames) (label : String) : String × VariableNames :=
  let stem := stem label
  match names.next.get? stem with
  | some k => names.generateNumbered stem k
  | none =>
    if names.issued.contains stem then names.generateNumbered stem 0
    else (stem, ⟨names.next.insert stem 0, stem :: names.issued⟩)

end VariableNames

end PatternQuery
