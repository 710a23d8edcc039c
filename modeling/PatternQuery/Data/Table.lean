/-!
# Tables

A `Table α` maps finitely many strings to values, its keys in increasing order of code points. The
order is part of the type: `Fields α lo` holds entries whose keys all lie above `lo`, so a table has
one form only, and two tables with the same entries are equal (`Table.ext`).
-/

namespace PatternQuery

/-- `Above lo key`: the key is larger than `lo`, if there is such a bound. -/
def Above : Option String → String → Prop
  | none, _ => True
  | some bound, key => bound < key

theorem above_none (key : String) : Above none key := trivial

theorem Above.trans {lo : Option String} {a b : String} (h : Above lo a) (hab : a < b) :
    Above lo b := by
  cases lo with
  | none => trivial
  | some l => exact String.lt_trans h hab

/-- Entries in increasing order of their keys, all of them above `lo`. -/
inductive Fields (α : Type) : Option String → Type where
  | nil {lo : Option String} : Fields α lo
  | cons {lo : Option String} (key : String) (above : Above lo key) (value : α)
      (rest : Fields α (some key)) : Fields α lo

/-- A finite map from strings. -/
abbrev Table (α : Type) : Type := Fields α none

namespace Fields

variable {α β : Type} {lo : Option String}

def toList {lo : Option String} : Fields α lo → List (String × α)
  | nil => []
  | cons key _ value rest => (key, value) :: rest.toList

def get? {lo : Option String} (k : String) : Fields α lo → Option α
  | nil => none
  | cons key _ value rest => if k = key then some value else rest.get? k

/-- The same entries under a lower bound. -/
def weaken {lo : Option String} {bound : String} (h : Above lo bound) :
    Fields α (some bound) → Fields α lo
  | nil => nil
  | cons key above value rest => cons key (h.trans above) value rest

/-- Binds `k` to `v`, in place of what it was bound to. -/
def insertAbove {lo : Option String} (k : String) (h : Above lo k) (v : α) :
    Fields α lo → Fields α lo
  | nil => cons k h v nil
  | cons key above value rest =>
    if hlt : k < key then cons k h v (cons key hlt value rest)
    else if hgt : key < k then cons key above value (rest.insertAbove k hgt v)
    else cons key above v rest

def mapValues {lo : Option String} (f : α → β) : Fields α lo → Fields β lo
  | nil => nil
  | cons key above value rest => cons key above (f value) (rest.mapValues f)

/-- Without what `k` is bound to. -/
def eraseAbove {lo : Option String} (k : String) : Fields α lo → Fields α lo
  | nil => nil
  | cons key above value rest =>
    if k = key then rest.weaken above else cons key above value (rest.eraseAbove k)

theorem toList_mapValues (f : α → β) (t : Fields α lo) :
    (t.mapValues f).toList = t.toList.map fun e => (e.1, f e.2) := by
  induction t with
  | nil => rfl
  | cons key above value rest ih => simp [mapValues, toList, ih]

theorem get?_eq_none_of_not_above {t : Fields α lo} {k : String} (h : ¬ Above lo k) :
    t.get? k = none := by
  induction t with
  | nil => rfl
  | cons key above value rest ih =>
    have hne : k ≠ key := by
      rintro rfl
      exact h above
    rw [get?, if_neg hne]
    exact ih fun hk => h (above.trans hk)

theorem get?_insertAbove (k : String) (h : Above lo k) (v : α) (t : Fields α lo) (k' : String) :
    (t.insertAbove k h v).get? k' = if k' = k then some v else t.get? k' := by
  induction t with
  | nil => rfl
  | cons key above value rest ih =>
    unfold insertAbove
    split
    · rfl
    · split
      · rename_i hlt hgt
        rw [get?, get?, ih hgt]
        by_cases hk : k' = key
        · have hne : k' ≠ k := by
            rintro rfl
            exact String.lt_irrefl _ (hk ▸ hgt)
          simp [hk, hk ▸ hne]
        · simp [hk]
      · rename_i hlt hgt
        have : k = key := String.le_antisymm (String.not_lt.1 hgt) (String.not_lt.1 hlt)
        subst this
        rw [get?, get?]
        by_cases hk : k' = k <;> simp [hk]

theorem ext {t u : Fields α lo} (h : ∀ k, t.get? k = u.get? k) : t = u := by
  induction t with
  | nil =>
    cases u with
    | nil => rfl
    | cons key above value rest => simpa [get?] using h key
  | cons key above value rest ih =>
    cases u with
    | nil => simpa [get?] using h key
    | cons key' above' value' rest' =>
      have hkey : key = key' := by
        by_cases hlt : key < key'
        · have hn : ¬ Above (some key') key := fun hk => String.lt_irrefl _ (String.lt_trans hlt hk)
          have hne : key ≠ key' := fun e => String.lt_irrefl _ (e ▸ hlt)
          have := h key
          simp [get?, hne, get?_eq_none_of_not_above hn] at this
        · by_cases hgt : key' < key
          · have hn : ¬ Above (some key) key' :=
              fun hk => String.lt_irrefl _ (String.lt_trans hgt hk)
            have hne : key' ≠ key := fun e => String.lt_irrefl _ (e ▸ hgt)
            have := h key'
            simp [get?, hne, get?_eq_none_of_not_above hn] at this
          · exact String.le_antisymm (String.not_lt.1 hgt) (String.not_lt.1 hlt)
      subst hkey
      have hvalue : value = value' := by simpa [get?] using h key
      subst hvalue
      have hrest : rest = rest' := by
        refine ih fun k => ?_
        by_cases hk : k = key
        · subst hk
          have hn : ¬ Above (some k) k := String.lt_irrefl _
          rw [get?_eq_none_of_not_above hn, get?_eq_none_of_not_above hn]
        · simpa [get?, hk] using h k
      rw [hrest]

end Fields

namespace Table

variable {α : Type}

def empty : Table α := .nil

instance : Inhabited (Table α) := ⟨empty⟩

/-- Binds `k` to `v`, in place of what it was bound to. -/
def insert (t : Table α) (k : String) (v : α) : Table α :=
  Fields.insertAbove k (above_none k) v t

/-- Without what `k` is bound to. -/
def erase (t : Table α) (k : String) : Table α := Fields.eraseAbove k t

/-- The table of a list of bindings, of which a later one wins. -/
def ofList (entries : List (String × α)) : Table α :=
  entries.foldl (fun t e => t.insert e.1 e.2) empty

def keys (t : Table α) : List String := t.toList.map (·.1)

/-- All bindings of both tables, those of `u` where both bind a key. -/
def merge (t u : Table α) : Table α := u.toList.foldl (fun t e => t.insert e.1 e.2) t

theorem get?_insert (t : Table α) (k : String) (v : α) (k' : String) :
    (t.insert k v).get? k' = if k' = k then some v else t.get? k' :=
  Fields.get?_insertAbove k _ v t k'

theorem get?_empty (k : String) : (empty : Table α).get? k = none := rfl

/-- A table is determined by what it binds each key to. -/
theorem ext {t u : Table α} (h : ∀ k, t.get? k = u.get? k) : t = u := Fields.ext h

end Table

/-! ## Equality -/

/-- Entry by entry comparison, by a comparison of the values. -/
def Fields.beq {α : Type} (eq : α → α → Bool) {lo lo' : Option String} :
    Fields α lo → Fields α lo' → Bool
  | .nil, .nil => true
  | .cons key _ value rest, .cons key' _ value' rest' =>
    key == key' && eq value value' && Fields.beq eq rest rest'
  | _, _ => false

theorem Fields.beq_iff {α : Type} [DecidableEq α] {lo : Option String} (t u : Fields α lo) :
    Fields.beq (fun a b => decide (a = b)) t u = true ↔ t = u := by
  induction t with
  | nil => cases u <;> simp [Fields.beq]
  | cons key above value rest ih =>
    cases u with
    | nil => simp [Fields.beq]
    | cons key' above' value' rest' =>
      constructor
      · intro h
        simp only [Fields.beq, Bool.and_eq_true, beq_iff_eq, decide_eq_true_eq] at h
        obtain ⟨⟨rfl, rfl⟩, h⟩ := h
        rw [(ih rest').1 h]
      · intro h
        cases h
        simp [Fields.beq, (ih rest).2 rfl]

instance {α : Type} [DecidableEq α] {lo : Option String} : DecidableEq (Fields α lo) :=
  fun t u => decidable_of_iff _ (Fields.beq_iff t u)

end PatternQuery
