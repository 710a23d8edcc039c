/-!
# Doubles by their bits

A `Double` is a binary64 number kept as its 64 bits, so that equality is equality of bits and every
operation is exact natural-number arithmetic followed by one rounding. `Double.ofRatio` rounds a
quotient to the nearest double, ties to the even significand; all other conversions go through it.
`Double.equals` compares doubles as numbers, where there is one zero.
-/

namespace PatternQuery

/-- A binary64 number, given by its bits. -/
structure Double where
  bits : UInt64
  deriving DecidableEq, Inhabited, Repr

/-- The quotient `num / den` rounded to a natural number, a half going to the even neighbour. -/
def roundHalfEven (num den : Nat) : Nat :=
  let q := num / den
  let r := num % den
  if den < 2 * r ∨ (2 * r = den ∧ q % 2 = 1) then q + 1 else q

namespace Double

def zero : Double := ⟨0⟩

/-- The leading bit of a significand, one above the bits that are stored. -/
def leadingBit : Nat := 0x10000000000000

/-- The bits of positive infinity, one above those of the largest finite double. -/
def infinityBits : Nat := 0x7FF0000000000000

/-- The number whose magnitude has the bits `magnitude`, with the given sign. -/
def ofMagnitude (negative : Bool) (magnitude : Nat) : Double :=
  let capped := min magnitude infinityBits
  ⟨UInt64.ofNat (if negative then 0x8000000000000000 + capped else capped)⟩

/-- `num / den` divided by `2 ^ q` and rounded to a natural number. -/
def scaledRound (num den : Nat) (q : Int) : Nat :=
  if 0 ≤ q then roundHalfEven num (den * Nat.pow 2 q.toNat)
  else roundHalfEven (num * Nat.pow 2 (-q).toNat) den

/-- Whether `num / den` is below `2 ^ q`. -/
def belowPower (num den : Nat) (q : Int) : Bool :=
  if 0 ≤ q then num < den * Nat.pow 2 q.toNat else num * Nat.pow 2 (-q).toNat < den

/-- The power of two of the last place of the double nearest to `num / den`, which is positive. -/
def lastPlace (num den : Nat) : Int :=
  let top : Int := (num.log2 : Int) - den.log2
  let top := if belowPower num den top then top - 1 else top
  max (top - 52) (-1074)

/-- The double nearest to `num / den`, ties to the even significand, infinity beyond the range. -/
def ofRatio (negative : Bool) (num den : Nat) : Double :=
  if num = 0 then ofMagnitude negative 0
  else
    let q := lastPlace num den
    ofMagnitude negative ((q + 1074).toNat * leadingBit + scaledRound num den q)

def isNegative (x : Double) : Bool := 0x8000000000000000 ≤ x.bits.toNat

/-- The bits without the sign. -/
def magnitude (x : Double) : Nat := x.bits.toNat % 0x8000000000000000

def isFinite (x : Double) : Bool := x.magnitude < infinityBits

def isZero (x : Double) : Bool := x.magnitude == 0

/-- Whether two doubles are the same number, as the zeros of both signs are. No value holds a NaN,
so every double is the same as itself. -/
def equals (x y : Double) : Bool := x == y || (x.isZero && y.isZero)

theorem equals_self (x : Double) : x.equals x = true := by
  rw [equals, beq_self_eq_true, Bool.true_or]

/-- Significand and power of two of a finite double: its magnitude is `m * 2 ^ q`. -/
def decompose (x : Double) : Nat × Int :=
  let exponent : Nat := x.magnitude / leadingBit
  let fraction : Nat := x.magnitude % leadingBit
  if exponent = 0 then (fraction, -1074) else (fraction + leadingBit, (exponent : Int) - 1075)

/-- The magnitude of a finite double as a quotient. -/
def toRatio (x : Double) : Nat × Nat :=
  let (m, q) := x.decompose
  if 0 ≤ q then (m * Nat.pow 2 q.toNat, 1) else (m, Nat.pow 2 (-q).toNat)

def ofInt (n : Int) : Double := ofRatio (decide (n < 0)) n.natAbs 1

/-- The product with a natural number. -/
def scale (x : Double) (n : Nat) : Double :=
  let (num, den) := x.toRatio
  ofRatio x.isNegative (num * n) den

/-- The quotient by a positive natural number. -/
def divide (x : Double) (n : Nat) : Double :=
  let (num, den) := x.toRatio
  ofRatio x.isNegative num (den * n)

/-- The sum of two doubles that are not negative. -/
def add (x y : Double) : Double :=
  let (a, b) := x.toRatio
  let (c, d) := y.toRatio
  ofRatio false (a * d + c * b) (b * d)

/-- The double nearest to `digits * 10 ^ exponent`. The exponent is looked at before any power is
taken, since far outside the range of the doubles the answer is known. -/
def ofDecimal (negative : Bool) (digits : Nat) (exponent : Int) : Double :=
  let top := exponent + ((Nat.toDigits 10 digits).length : Int)
  if digits = 0 ∨ top < -400 then ofMagnitude negative 0
  else if 400 < top then ofMagnitude negative infinityBits
  else if 0 ≤ exponent then ofRatio negative (digits * Nat.pow 10 exponent.toNat) 1
  else ofRatio negative digits (Nat.pow 10 (-exponent).toNat)

/-- A full turn in radians. -/
def fullTurn : Double := ⟨0x401921FB54442D18⟩

end Double

end PatternQuery
