import PatternQuery.Data.Table
import PatternQuery.Number.Double

/-!
# Values

A `Value` is what a database row or a statement parameter holds: null, a truth value, an integer, a
double, a text, a list or a table of values. Integers and doubles are different values even where
they denote the same number. Equality is decidable and tells doubles apart by their bits. Where the
rows of a database are told from what is selected, doubles are compared as numbers, at any depth
(`Value.equals`).
-/

namespace PatternQuery

inductive Value where
  | null
  | bool (b : Bool)
  | int (n : Int)
  | float (x : Double)
  | str (s : String)
  | arr (items : List Value)
  | obj (fields : Fields Value none)

instance : Inhabited Value := ⟨.null⟩

/-- A row of a result: column names and what they hold. -/
abbrev Row : Type := Table Value

namespace Value

mutual

/-- Whether two values differ at most in doubles, and these only by what `same` takes for the
same. -/
def sameBy (same : Double → Double → Bool) : Value → Value → Bool
  | null, null => true
  | bool a, bool b => a == b
  | int a, int b => a == b
  | float a, float b => same a b
  | str a, str b => a == b
  | arr a, arr b => sameItemsBy same a b
  | obj a, obj b => sameFieldsBy same a b
  | _, _ => false

def sameItemsBy (same : Double → Double → Bool) : List Value → List Value → Bool
  | [], [] => true
  | a :: as, b :: bs => a.sameBy same b && sameItemsBy same as bs
  | _, _ => false

def sameFieldsBy (same : Double → Double → Bool) {lo lo' : Option String} :
    Fields Value lo → Fields Value lo' → Bool
  | .nil, .nil => true
  | .cons key _ value rest, .cons key' _ value' rest' =>
    key == key' && value.sameBy same value' && sameFieldsBy same rest rest'
  | _, _ => false

end

section

variable {same : Double → Double → Bool}

mutual

theorem sameBy_self (h : ∀ x, same x x = true) : ∀ a : Value, a.sameBy same a = true
  | null => rfl
  | bool _ | int _ | str _ => by simp [sameBy]
  | float x => h x
  | arr a => sameItemsBy_self h a
  | obj a => sameFieldsBy_self h a

theorem sameItemsBy_self (h : ∀ x, same x x = true) :
    ∀ a : List Value, sameItemsBy same a a = true
  | [] => rfl
  | x :: a => by simp [sameItemsBy, sameBy_self h x, sameItemsBy_self h a]

theorem sameFieldsBy_self (h : ∀ x, same x x = true) {lo : Option String} :
    ∀ a : Fields Value lo, sameFieldsBy same a a = true
  | .nil => rfl
  | .cons _ _ value rest => by
    simp [sameFieldsBy, sameBy_self h value, sameFieldsBy_self h rest]

end

mutual

theorem eq_of_sameBy (h : ∀ x y, same x y = true → x = y) :
    ∀ {a b : Value}, a.sameBy same b = true → a = b
  | null, b, hab => by cases b <;> simp_all [sameBy]
  | bool a, b, hab => by cases b <;> simp_all [sameBy]
  | int a, b, hab => by cases b <;> simp_all [sameBy]
  | float a, b, hab => by
    cases b with
    | float b => rw [h a b hab]
    | _ => simp [sameBy] at hab
  | str a, b, hab => by cases b <;> simp_all [sameBy]
  | arr a, b, hab => by
    cases b with
    | arr b => rw [eq_of_sameItemsBy h hab]
    | _ => simp [sameBy] at hab
  | obj a, b, hab => by
    cases b with
    | obj b => rw [eq_of_sameFieldsBy h hab]
    | _ => simp [sameBy] at hab

theorem eq_of_sameItemsBy (h : ∀ x y, same x y = true → x = y) :
    ∀ {a b : List Value}, sameItemsBy same a b = true → a = b
  | [], b, hab => by cases b <;> simp_all [sameItemsBy]
  | x :: a, b, hab => by
    cases b with
    | nil => simp [sameItemsBy] at hab
    | cons y b =>
      obtain ⟨hx, ha⟩ := Bool.and_eq_true_iff.1 hab
      rw [eq_of_sameBy h hx, eq_of_sameItemsBy h ha]

theorem eq_of_sameFieldsBy (h : ∀ x y, same x y = true → x = y) {lo : Option String} :
    ∀ {a b : Fields Value lo}, sameFieldsBy same a b = true → a = b
  | .nil, b, hab => by cases b <;> simp_all [sameFieldsBy]
  | .cons key above value rest, b, hab => by
    cases b with
    | nil => simp [sameFieldsBy] at hab
    | cons key' above' value' rest' =>
      simp only [sameFieldsBy, Bool.and_eq_true, beq_iff_eq] at hab
      obtain ⟨⟨rfl, hvalue⟩, hrest⟩ := hab
      obtain rfl := eq_of_sameBy h hvalue
      rw [eq_of_sameFieldsBy h hrest]

end

end

instance : DecidableEq Value := fun a b =>
  decidable_of_iff (a.sameBy (· == ·) b = true)
    ⟨eq_of_sameBy fun _ _ => eq_of_beq, fun h => h ▸ sameBy_self beq_self_eq_true a⟩

/-- Whether two values are the same if doubles are compared as numbers, also those inside lists and
tables. -/
def equals (a b : Value) : Bool := a.sameBy Double.equals b

theorem equals_self (a : Value) : a.equals a = true := sameBy_self Double.equals_self a

example : (arr [float .zero]).equals (arr [float (.ofMagnitude true 0)]) = true ∧
    (int 0).equals (float .zero) = false := by decide

/-- The integer of 64 bits with sign that a value is. -/
def toInt64? : Value → Option Int64
  | int n => if -Int.pow 2 63 ≤ n ∧ n < Int.pow 2 63 then some (Int64.ofInt n) else none
  | _ => none

/-- The natural number that a value is. -/
def toNat? : Value → Option Nat
  | int n => if 0 ≤ n then some n.toNat else none
  | _ => none

def toText? : Value → Option String
  | str s => some s
  | _ => none

/-- A value or, in its absence, null. -/
def ofOption {α : Type} (f : α → Value) : Option α → Value
  | some a => f a
  | none => null

def ofInt64 (n : Int64) : Value := int n.toInt

def ofNat (n : Nat) : Value := int n

def ofList {α : Type} (f : α → Value) (items : List α) : Value := arr (items.map f)

def ofTable {α : Type} (f : α → Value) (t : Table α) : Value := obj (t.mapValues f)

/-- The table with the given entries, of which a later one wins. -/
def record (entries : List (String × Value)) : Value := obj (Table.ofList entries)

end Value

end PatternQuery
