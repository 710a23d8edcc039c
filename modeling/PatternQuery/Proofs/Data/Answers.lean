import Mathlib.Data.List.Forall2
import Mathlib.Data.List.TakeDrop
import PatternQuery.Endpoint.Response
import PatternQuery.Proofs.Data.Tables

/-!
# Rows of an answer

Whoever sends a batch looks for the rows of a statement at the statement's place. What should be
there is told by the answer alone (`BatchResponse.OnePerStatement`), and it is what
`BatchResponse.rows` gives, up to the results that no statement of the batch asked for
(`BatchResponse.rows_onePerStatement_iff`).
-/

namespace PatternQuery

/-- Column `j` stands over cell `j` as far as there are both, and of the cells under columns of one
name the last one counts. -/
def Row.Pairs (row : Row) (columns : List String) (cells : List Value) : Prop :=
  ∀ (k : String) (v : Value), row.get? k = some v ↔
    ∃ j : Nat, columns[j]? = some k ∧ cells[j]? = some v ∧
      ∀ i : Nat, j < i → columns[i]? = some k → cells[i]? = none

/-- The rows are those of a result, in their order. -/
def StatementResult.Holds (r : StatementResult) (rows : List Row) : Prop :=
  List.Forall₂ (fun cells row => Row.Pairs row r.columns cells) r.data rows

namespace BatchResponse

/-- The results that may be used: none if there is an error. -/
def usable (r : BatchResponse) : List StatementResult :=
  match r.errors with
  | [] => r.results.getD []
  | _ :: _ => []

/-- For each of `n` statements there are the rows of its result, and no rows for a statement without
a result. An error or missing results leave no rows at all. -/
structure OnePerStatement (r : BatchResponse) (n : Nat) (lists : List (List Row)) : Prop where
  length : lists.length = n
  failed : r.errors ≠ [] ∨ r.results = none → ∀ rows ∈ lists, rows = []
  answered : ∀ results, r.errors = [] → r.results = some results →
    ∀ (i : Nat) (result : StatementResult) (rows : List Row),
      results[i]? = some result → lists[i]? = some rows → result.Holds rows
  unanswered : ∀ results, r.errors = [] → r.results = some results →
    ∀ (i : Nat) (rows : List Row), results[i]? = none → lists[i]? = some rows → rows = []

end BatchResponse

/-! ## One row -/

namespace Row

variable {row row' : Row} {columns : List String} {cells : List Value} {k : String} {v : Value}

theorem get?_ofList_zip_eq_none_iff :
    (Table.ofList (columns.zip cells)).get? k = none ↔
      ∀ i : Nat, columns[i]? = some k → cells[i]? = none := by
  induction columns generalizing cells with
  | nil => simp [Table.get?_ofList_nil]
  | cons c columns ih =>
    cases cells with
    | nil => simp [Table.get?_ofList_nil]
    | cons x cells =>
      rw [List.zip_cons_cons, Table.get?_ofList_cons, Option.or_eq_none_iff, ih]
      constructor
      · rintro ⟨hrest, hfirst⟩ i hi
        cases i with
        | zero => simp [Option.some.inj hi] at hfirst
        | succ i => exact hrest i hi
      · intro hall
        refine ⟨fun i hi => hall (i + 1) hi, ?_⟩
        rw [if_neg]
        rintro rfl
        simpa using hall 0 rfl

theorem pairs_ofList (columns : List String) (cells : List Value) :
    Row.Pairs (Table.ofList (columns.zip cells)) columns cells := by
  intro k v
  induction columns generalizing cells with
  | nil => simp [Table.get?_ofList_nil]
  | cons c columns ih =>
    cases cells with
    | nil => simp [Table.get?_ofList_nil]
    | cons x cells =>
      rw [List.zip_cons_cons, Table.get?_ofList_cons, Option.or_eq_some_iff, ih,
        get?_ofList_zip_eq_none_iff]
      constructor
      · rintro (⟨j, hcolumn, hcell, hlast⟩ | ⟨hnone, hfirst⟩)
        · refine ⟨j + 1, hcolumn, hcell, fun i hi hk => ?_⟩
          obtain ⟨i, rfl⟩ := Nat.exists_eq_add_of_le' (Nat.lt_of_le_of_lt (Nat.zero_le _) hi)
          exact hlast i (Nat.lt_of_succ_lt_succ hi) hk
        · obtain ⟨rfl, rfl⟩ : k = c ∧ x = v := by
            split at hfirst
            · exact ⟨‹_›, Option.some.inj hfirst⟩
            · cases hfirst
          refine ⟨0, rfl, rfl, fun i hi hk => ?_⟩
          obtain ⟨i, rfl⟩ := Nat.exists_eq_add_of_le' hi
          exact hnone i hk
      · rintro ⟨j, hcolumn, hcell, hlast⟩
        cases j with
        | zero =>
          refine .inr ⟨fun i hk => hlast (i + 1) (Nat.succ_pos i) hk, ?_⟩
          rw [if_pos (Option.some.inj hcolumn).symm]
          exact hcell
        | succ j =>
          exact .inl ⟨j, hcolumn, hcell, fun i hi hk => hlast (i + 1) (Nat.succ_lt_succ hi) hk⟩

/-- There is one row for columns and cells. -/
theorem Pairs.unique (h : row.Pairs columns cells) (h' : row'.Pairs columns cells) :
    row = row' := by
  refine Table.ext fun k => Option.ext fun v => ?_
  rw [h k v, h' k v]

end Row

theorem StatementResult.holds_iff {r : StatementResult} {rows : List Row} :
    r.Holds rows ↔ rows = r.rows := by
  have hpairs (cells : List Value) (row : Row) :
      Row.Pairs row r.columns cells ↔ Table.ofList (r.columns.zip cells) = row :=
    ⟨fun h => (Row.pairs_ofList _ _).unique h, fun h => h ▸ Row.pairs_ofList _ _⟩
  unfold StatementResult.Holds StatementResult.rows
  simp only [hpairs]
  rw [← List.forall₂_map_left_iff, List.forall₂_eq_eq_eq, eq_comm]

/-! ## All rows -/

namespace BatchResponse

variable {r : BatchResponse} {n : Nat} {lists : List (List Row)}

theorem usable_of_failed (h : r.errors ≠ [] ∨ r.results = none) : r.usable = [] := by
  unfold usable
  split
  · rename_i he
    rw [h.resolve_left fun hne => hne he, Option.getD_none]
  · rfl

theorem usable_of_answered {results : List StatementResult} (he : r.errors = [])
    (hr : r.results = some results) : r.usable = results := by
  rw [usable, he, hr, Option.getD_some]

/-- Results that may not be used are as good as none. -/
theorem rows_eq (r : BatchResponse) (n : Nat) : r.rows n =
    r.usable.map StatementResult.rows ++ List.replicate (n - r.usable.length) [] := by
  unfold BatchResponse.rows usable
  cases he : r.errors with
  | nil =>
    cases hr : r.results with
    | none => rfl
    | some results => rfl
  | cons e errors => cases r.results <;> rfl

theorem length_rows (r : BatchResponse) (n : Nat) :
    (r.rows n).length = max n r.usable.length := by
  rw [rows_eq, List.length_append, List.length_map, List.length_replicate]
  omega

theorem drop_rows (r : BatchResponse) (n : Nat) :
    (r.rows n).drop n = (r.usable.drop n).map StatementResult.rows := by
  rw [rows_eq, List.drop_append, List.length_map, List.map_drop, List.drop_replicate,
    Nat.sub_self, List.replicate_zero, List.append_nil]

/-- At the place of a statement are the rows of its result, or none. -/
theorem getElem?_rows_of_lt {i : Nat} (hi : i < n) :
    (r.rows n)[i]? = some ((r.usable[i]?.map StatementResult.rows).getD []) := by
  rw [rows_eq]
  by_cases hlt : i < r.usable.length
  · rw [List.getElem?_append_left (by rwa [List.length_map]), List.getElem?_map,
      List.getElem?_eq_getElem hlt]
    rfl
  · rw [List.getElem?_append_right (by rw [List.length_map]; omega), List.length_map,
      List.getElem?_replicate, if_pos (by omega), List.getElem?_eq_none (by omega)]
    rfl

theorem OnePerStatement.getElem? (h : r.OnePerStatement n lists) {i : Nat} (hi : i < n) :
    lists[i]? = some ((r.usable[i]?.map StatementResult.rows).getD []) := by
  obtain ⟨rows, hrows⟩ : ∃ rows, lists[i]? = some rows :=
    ⟨_, List.getElem?_eq_getElem (by rwa [h.length])⟩
  rw [hrows]
  congr 1
  by_cases hfailed : r.errors ≠ [] ∨ r.results = none
  · rw [usable_of_failed hfailed, h.failed hfailed rows (List.mem_of_getElem? hrows)]
    rfl
  · obtain ⟨he, hr⟩ := not_or.1 hfailed
    obtain ⟨results, hr⟩ := Option.ne_none_iff_exists'.1 hr
    have he : r.errors = [] := not_not.1 he
    rw [usable_of_answered he hr]
    cases hresult : results[i]? with
    | none => exact h.unanswered results he hr i rows hresult hrows
    | some result =>
      exact StatementResult.holds_iff.1 (h.answered results he hr i result rows hresult hrows)

theorem onePerStatement_take (r : BatchResponse) (n : Nat) :
    r.OnePerStatement n ((r.rows n).take n) := by
  have hlength : ((r.rows n).take n).length = n := by
    rw [List.length_take, length_rows]
    omega
  have hplace {i : Nat} {rows : List Row} (hrows : ((r.rows n).take n)[i]? = some rows) :
      (r.usable[i]?.map StatementResult.rows).getD [] = rows := by
    have hi : i < n := by
      have := (List.getElem?_eq_some_iff.1 hrows).1
      rwa [hlength] at this
    rw [List.getElem?_take_of_lt hi, getElem?_rows_of_lt hi] at hrows
    exact Option.some.inj hrows
  constructor
  case length => exact hlength
  case failed =>
    intro hfailed rows hrows
    obtain ⟨i, hi⟩ := List.getElem?_of_mem hrows
    rw [← hplace hi, usable_of_failed hfailed]
    rfl
  case answered =>
    intro results he hr i result rows hresult hrows
    rw [← hplace hrows, usable_of_answered he hr, hresult]
    exact StatementResult.holds_iff.2 rfl
  case unanswered =>
    intro results he hr i rows hresult hrows
    rw [← hplace hrows, usable_of_answered he hr, hresult]
    rfl

theorem onePerStatement_iff :
    r.OnePerStatement n lists ↔ lists = (r.rows n).take n := by
  constructor
  · intro h
    have htake := onePerStatement_take r n
    refine List.ext_getElem? fun i => ?_
    by_cases hi : i < n
    · rw [h.getElem? hi, htake.getElem? hi]
    · rw [List.getElem?_eq_none (by rw [h.length]; omega),
        List.getElem?_eq_none (by rw [htake.length]; omega)]
  · rintro rfl
    exact onePerStatement_take r n

/-- The rows at the places of the statements are the ones that belong there, and there is nothing
else they could be. Behind them come the rows of results that no statement asked for, so that there
is one list for each statement if and only if there are no such results. -/
theorem rows_onePerStatement_iff (r : BatchResponse) (n : Nat) :
    (∀ lists, r.OnePerStatement n lists ↔ lists = (r.rows n).take n) ∧
      (r.rows n).drop n = (r.usable.drop n).map StatementResult.rows ∧
      (r.OnePerStatement n (r.rows n) ↔ r.usable.length ≤ n) := by
  refine ⟨fun _ => onePerStatement_iff, drop_rows r n, ?_⟩
  have hlength := length_rows r n
  rw [onePerStatement_iff, eq_comm, List.take_eq_self_iff, hlength]
  omega

/-- The second of these results answers no statement. -/
theorem not_onePerStatement_of_surplus :
    let r : BatchResponse :=
      { results := some [{ columns := ["a"], data := [[.int 1]] },
          { columns := ["b"], data := [[.int 2]] }] }
    r.rows 1 = [[Table.ofList [("a", .int 1)]], [Table.ofList [("b", .int 2)]]] ∧
      ¬ ∀ (r : BatchResponse) (n : Nat), r.OnePerStatement n (r.rows n) := by
  intro r
  refine ⟨rfl, fun h => ?_⟩
  have hlength := (h r 1).length
  revert hlength
  decide

end BatchResponse

end PatternQuery
