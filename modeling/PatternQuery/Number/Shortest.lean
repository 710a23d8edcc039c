import PatternQuery.Number.Double

/-!
# The shortest decimal that reads back

`Double.shortest` finds, for a positive finite double, the fewest decimal digits that round to it,
and of those digits the ones nearest to its value. `Double.render` writes them positionally or with
an exponent.
-/

namespace PatternQuery.Double

/-- The reals that round to a double, as three numbers over one denominator: the lower end, the
value and the upper end. The ends belong to it exactly when the significand is even. -/
structure Neighbourhood where
  lower : Nat
  value : Nat
  upper : Nat
  den : Nat
  closed : Bool

/-- Below a power of two the doubles lie twice as dense, so the lower end is nearer there. -/
def neighbourhood (x : Double) : Neighbourhood :=
  let (m, q) := x.decompose
  let below := if m = leadingBit ∧ -1074 < q then 1 else 2
  let (up, den) := if 0 ≤ q then (Nat.pow 2 q.toNat, 4) else (1, 4 * Nat.pow 2 (-q).toNat)
  ⟨(4 * m - below) * up, 4 * m * up, (4 * m + 2) * up, den, m % 2 == 0⟩

def Neighbourhood.contains (n : Neighbourhood) (num den : Nat) : Bool :=
  let a := num * n.den
  if n.closed then n.lower * den ≤ a && a ≤ n.upper * den
  else n.lower * den < a && a < n.upper * den

/-- The multiple of `10 ^ e` that lies in the neighbourhood and is nearest to the value, as a
number of units. -/
def Neighbourhood.onGrid? (n : Neighbourhood) (e : Int) : Option Nat :=
  let (num, den) := if 0 ≤ e then (Nat.pow 10 e.toNat, 1) else (1, Nat.pow 10 (-e).toNat)
  let below := n.value * den / (n.den * num)
  let rest := n.value * den % (n.den * num)
  let nearer := if 2 * rest < n.den * num ∨ (2 * rest = n.den * num ∧ below % 2 = 0)
    then [below, below + 1] else [below + 1, below]
  nearer.find? fun c => n.contains (c * num) den

/-- Tries the grids from coarse to fine. Seventeen digits always suffice. -/
def Neighbourhood.search (n : Neighbourhood) : Nat → Int → Nat × Int
  | 0, e => ((n.onGrid? e).getD 0, e)
  | steps + 1, e =>
    match n.onGrid? e with
    | some c => if c = 0 then n.search steps (e - 1) else (c, e)
    | none => n.search steps (e - 1)

/-- Digits without trailing zeros and the power of ten of the last one. -/
def shortest (x : Double) : Nat × Int :=
  let n := x.neighbourhood
  let whole := (Nat.toDigits 10 (n.value / n.den)).length
  let fraction := (Nat.toDigits 10 (n.den / max n.value 1)).length
  let top : Int := if n.den ≤ n.value then whole else 1 - (fraction : Int)
  n.search 20 (top + 1)

/-- Positional from `1e-5` up to below `1e16`, with an exponent elsewhere. -/
def renderMagnitude (digits : Nat) (e : Int) : String :=
  let ds := Nat.toDigits 10 digits
  let point := (ds.length : Int) + e
  if 0 ≤ e ∧ point ≤ 16 then String.ofList (ds ++ List.replicate e.toNat '0') ++ ".0"
  else if 0 < point ∧ point ≤ 16 then
    String.ofList (ds.take point.toNat) ++ "." ++ String.ofList (ds.drop point.toNat)
  else if -5 < point ∧ point ≤ 0 then
    "0." ++ String.ofList (List.replicate (-point).toNat '0' ++ ds)
  else
    let fraction := if ds.length = 1 then "" else "." ++ String.ofList (ds.drop 1)
    String.ofList (ds.take 1) ++ fraction ++ "e" ++ toString (point - 1)

/-- The text of a finite double. -/
def render (x : Double) : String :=
  let sign := if x.isNegative then "-" else ""
  if x.magnitude = 0 then sign ++ "0.0"
  else
    let (digits, e) := x.shortest
    sign ++ renderMagnitude digits e

end PatternQuery.Double
