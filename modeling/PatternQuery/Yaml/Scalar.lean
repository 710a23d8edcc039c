import PatternQuery.Data.Document

/-!
# Scalars of YAML

What a scalar without quotes stands for (`Yaml.plainScalar`): null, a truth value, an integer in
base ten, sixteen, eight or two, a double, or else a text. A quoted scalar is always a text
(`Yaml.quotedScalar`).
-/

namespace PatternQuery.Yaml

/-- The number written by digits of a base, at least one. -/
def digits? (base : Nat) (cs : List Char) : Option Nat :=
  let digit (c : Char) : Option Nat :=
    if c.isDigit then some (c.toNat - '0'.toNat)
    else if 'a' ≤ c ∧ c ≤ 'f' then some (c.toNat - 'a'.toNat + 10)
    else if 'A' ≤ c ∧ c ≤ 'F' then some (c.toNat - 'A'.toNat + 10)
    else none
  let step (n : Nat) (c : Char) : Option Nat :=
    match digit c with
    | some d => if d < base then some (n * base + d) else none
    | none => none
  if cs.isEmpty then none else cs.foldlM step 0

/-- Splits off a sign. -/
def splitSign : List Char → Option Bool × List Char
  | '+' :: cs => (some false, cs)
  | '-' :: cs => (some true, cs)
  | cs => (none, cs)

/-- A number with a leading zero in front of further digits is no number. -/
def isPaddedDigits (cs : List Char) : Bool :=
  match (splitSign cs).2 with
  | '0' :: rest => !rest.isEmpty && rest.all Char.isDigit
  | _ => false

/-- What an integer form stands for. -/
inductive IntegerForm where
  | integer (n : Int)
  /-- An integer beyond 64 bits but within 128 has no value at all. -/
  | unrepresentable
  /-- Beyond 128 bits, or no integer form. -/
  | other

/-- Sorts an integer by its size. -/
def IntegerForm.ofInt (n : Int) : IntegerForm :=
  if -Int.pow 2 63 ≤ n ∧ n < Int.pow 2 64 then .integer n
  else if -Int.pow 2 127 ≤ n ∧ n < Int.pow 2 128 then .unrepresentable
  else .other

def integerForm (cs : List Char) : IntegerForm :=
  let (sign, magnitude) := splitSign cs
  let digits := match magnitude with
    | '0' :: 'x' :: rest => digits? 16 rest
    | '0' :: 'o' :: rest => digits? 8 rest
    | '0' :: 'b' :: rest => digits? 2 rest
    | _ => if isPaddedDigits cs then none else digits? 10 magnitude
  match digits with
  | some n => IntegerForm.ofInt (if sign = some true then -(n : Int) else n)
  | none => .other

/-- Splits off an exponent: `e`, a sign and at least one digit. -/
def exponent? : List Char → Option Int
  | [] => some 0
  | c :: rest =>
    if c = 'e' ∨ c = 'E' then
      let (sign, ds) := splitSign rest
      (digits? 10 ds).map fun n => if sign = some true then -(n : Int) else n
    else none

/-- The finite double that a decimal form stands for. -/
def double? (cs : List Char) : Option Double := do
  let (sign, cs) := splitSign cs
  let whole := cs.takeWhile Char.isDigit
  let rest := cs.dropWhile Char.isDigit
  let (fraction, rest) := match rest with
    | '.' :: rest => (rest.takeWhile Char.isDigit, rest.dropWhile Char.isDigit)
    | _ => ([], rest)
  let n ← digits? 10 (whole ++ fraction)
  let e ← exponent? rest
  let x := Double.ofDecimal (sign == some true) n (e - fraction.length)
  if x.isFinite then some x else none

/-- The words for infinity and for what is no number. As values they are null. -/
def isNonFinite (s : String) : Bool :=
  [".inf", ".Inf", ".INF", "+.inf", "+.Inf", "+.INF", "-.inf", "-.Inf", "-.INF",
    ".nan", ".NaN", ".NAN"].contains s

/-- The value of a scalar without quotes. -/
def plainValue (s : String) : Option Value :=
  if ["", "~", "null", "Null", "NULL"].contains s then some .null
  else if ["true", "True", "TRUE"].contains s then some (.bool true)
  else if ["false", "False", "FALSE"].contains s then some (.bool false)
  else match integerForm s.toList with
    | .integer n => some (.int n)
    | .unrepresentable => none
    | .other =>
      if isPaddedDigits s.toList then some (.str s)
      else if isNonFinite s then some .null
      else match double? s.toList with
        | some x => some (.float x)
        | none => some (.str s)

def plainScalar (s : String) : Document := .scalar (some s) (plainValue s)

def quotedScalar (s : String) : Document := .ofText s

/-- A place where a node is missing. -/
def blank : Document := plainScalar ""

end PatternQuery.Yaml
