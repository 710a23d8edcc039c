import PatternQuery.Endpoint.Response
import PatternQuery.Proofs.Data.Tables

/-!
# Rows in columns

A result holds rows as cells under the keys of the first row. A row that is read back has these
keys, whatever keys it had before (`StatementResult.rows_ofRows_eq_iff`), so that rows survive just
where all of them have the same keys.
-/

namespace PatternQuery

namespace Table

variable {α : Type} {t u : Table α} {k : String}

theorem mem_keys_iff : k ∈ t.keys ↔ (t.get? k).isSome := by
  constructor
  · intro h
    obtain ⟨e, he, rfl⟩ := List.mem_map.1 h
    have hfilter := Fields.filter_toList t e.1
    cases hget : t.get? e.1 with
    | some v => rfl
    | none =>
      have hmem : e ∈ t.toList.filter fun e' => e'.1 == e.1 :=
        List.mem_filter.2 ⟨he, beq_self_eq_true _⟩
      rw [hfilter, hget] at hmem
      exact absurd hmem (List.not_mem_nil)
  · intro h
    obtain ⟨v, hv⟩ := Option.isSome_iff_exists.1 h
    exact List.mem_map.2 ⟨(k, v), Fields.mem_toList_of_get? hv, rfl⟩

theorem get?_eq_none_of_notMem (h : k ∉ t.keys) : t.get? k = none := by
  rwa [mem_keys_iff, Bool.not_eq_true, Option.isSome_eq_false_iff, Option.isNone_iff_eq_none] at h

/-- The keys are in the order of the table, so that which keys there are determines their list. -/
theorem keys_eq_iff : t.keys = u.keys ↔ ∀ k, k ∈ t.keys ↔ k ∈ u.keys := by
  constructor
  · intro h k
    rw [h]
  · intro h
    have hunit : t.mapValues (fun _ => ()) = u.mapValues fun _ => () := by
      refine Fields.ext fun k => ?_
      have hk := h k
      rw [mem_keys_iff, mem_keys_iff] at hk
      rw [Fields.get?_mapValues, Fields.get?_mapValues]
      cases ht : t.get? k <;> cases hu : u.get? k <;> simp [ht, hu] at hk ⊢
    rw [← keys_mapValues (fun _ => ()) t, hunit, keys_mapValues]

theorem get?_ofList_map (f : String → α) (keys : List String) (k : String) :
    (ofList (keys.map fun c => (c, f c))).get? k = if k ∈ keys then some (f k) else none := by
  induction keys with
  | nil => rfl
  | cons c keys ih =>
    rw [List.map_cons, get?_ofList_cons, ih]
    by_cases hk : k = c
    · subst hk
      by_cases hmem : k ∈ keys <;> simp [hmem]
    · by_cases hmem : k ∈ keys <;> simp [hk, hmem]

end Table

namespace StatementResult

open Table

/-- A row under the given columns, with null where it has no such key. -/
def recut (columns : List String) (row : Row) : Row :=
  Table.ofList (columns.map fun c => (c, (row.get? c).getD .null))

theorem get?_recut (columns : List String) (row : Row) (k : String) :
    (recut columns row).get? k = if k ∈ columns then some ((row.get? k).getD .null) else none :=
  get?_ofList_map _ _ _

theorem mem_keys_recut {columns : List String} {row : Row} {k : String} :
    k ∈ (recut columns row).keys ↔ k ∈ columns := by
  rw [mem_keys_iff, get?_recut]
  split <;> simp_all

theorem rows_ofRows (rows : List Row) :
    (ofRows rows).rows = rows.map (recut (ofRows rows).columns) := by
  unfold StatementResult.rows
  rw [show (ofRows rows).data
    = rows.map fun row => (ofRows rows).columns.map fun c => (row.get? c).getD .null from rfl,
    List.map_map]
  refine List.map_congr_left fun row _ => ?_
  rw [Function.comp_apply, recut, List.zip_eq_zipWith, List.zipWith_map_right, List.zipWith_self]

theorem recut_eq_self_iff {columns : List String} {row : Row} :
    recut columns row = row ↔ ∀ k, k ∈ row.keys ↔ k ∈ columns := by
  constructor
  · intro h k
    have hmem : k ∈ (recut columns row).keys ↔ k ∈ columns := mem_keys_recut
    rwa [h] at hmem
  · intro h
    refine Table.ext fun k => ?_
    rw [get?_recut]
    by_cases hk : k ∈ columns
    · obtain ⟨v, hv⟩ := Option.isSome_iff_exists.1 (mem_keys_iff.1 ((h k).2 hk))
      rw [if_pos hk, hv, Option.getD_some]
    · rw [if_neg hk, get?_eq_none_of_notMem fun hrow => hk ((h k).1 hrow)]

/-- Rows come back unchanged just where each has the keys of the first. In any case as many rows
come back, and each has the keys of the first row, with null for what it did not have. -/
theorem rows_ofRows_eq_iff (rows : List Row) :
    ((ofRows rows).rows = rows ↔
      ∀ first ∈ rows.head?, ∀ row ∈ rows, ∀ k, k ∈ row.keys ↔ k ∈ first.keys) ∧
    (ofRows rows).rows.length = rows.length ∧
    ∀ first ∈ rows.head?, ∀ (i : Nat), ∀ row ∈ rows[i]?,
      ∃ back ∈ (ofRows rows).rows[i]?, back.keys = first.keys ∧
        ∀ k, back.get? k = if k ∈ first.keys then some ((row.get? k).getD .null) else none := by
  cases rows with
  | nil => exact ⟨by simp [rows_ofRows], rfl, by simp⟩
  | cons first rest =>
    have hback : (ofRows (first :: rest)).rows = (first :: rest).map (recut first.keys) :=
      rows_ofRows (first :: rest)
    have hhead : ∀ f ∈ (first :: rest).head?, f = first := fun f hf => (Option.mem_some.1 hf).symm
    refine ⟨?_, ?_, ?_⟩
    · calc (ofRows (first :: rest)).rows = first :: rest
          ↔ (first :: rest).map (recut first.keys) = (first :: rest).map id := by
            rw [hback, List.map_id]
        _ ↔ ∀ row ∈ first :: rest, recut first.keys row = row := List.map_inj_left
        _ ↔ ∀ row ∈ first :: rest, ∀ k, k ∈ row.keys ↔ k ∈ first.keys :=
            forall₂_congr fun _ _ => recut_eq_self_iff
        _ ↔ _ := by
            constructor
            · intro h f hf
              rw [hhead f hf]
              exact h
            · intro h
              exact h first rfl
    · rw [hback, List.length_map]
    · intro f hf i row hrow
      rw [hhead f hf, hback]
      refine ⟨recut first.keys row, ?_, keys_eq_iff.2 fun _ => mem_keys_recut, get?_recut _ row⟩
      rw [List.getElem?_map, Option.mem_def.1 hrow]
      rfl

/-- The second of these rows has no age, and its city is in no column. -/
theorem rows_ofRows_of_ragged :
    let ann : Row := Table.ofList [("age", .int 30), ("name", .str "Ann")]
    let bob : Row := Table.ofList [("city", .str "Rome"), ("name", .str "Bob")]
    (ofRows [ann, bob]).rows ≠ [ann, bob] ∧
    (ofRows [ann, bob]).rows.length = 2 ∧
    ∃ back ∈ (ofRows [ann, bob]).rows[1]?, back.keys = ["age", "name"] ∧
      back.get? "age" = some .null ∧ back.get? "name" = some (.str "Bob") ∧
      back.get? "city" = none := by
  intro ann bob
  obtain ⟨hiff, hlength, hback⟩ := rows_ofRows_eq_iff [ann, bob]
  obtain ⟨back, hmem, hkeys, hget⟩ := hback ann rfl 1 bob rfl
  refine ⟨?_, hlength, back, hmem, hkeys, ?_, ?_, ?_⟩
  · intro h
    exact absurd ((hiff.1 h ann rfl bob (by simp) "city").1 (by decide)) (by decide)
  · rw [hget]
    decide
  · rw [hget]
    decide
  · rw [hget]
    decide

end StatementResult

end PatternQuery
