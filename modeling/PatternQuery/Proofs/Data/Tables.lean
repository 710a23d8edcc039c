import Mathlib.Data.List.Basic
import Mathlib.Data.List.Induction
import PatternQuery.Data.Table

/-!
# Entries of tables

What a table binds a key to, by the list of entries that it is made from
(`Table.get?_ofList_of_mem`) or that it is written as (`Fields.filter_toList`).
-/

namespace PatternQuery

namespace Fields

variable {α : Type} {lo : Option String}

theorem get?_foldl_insert (u : Fields α lo) (t : Table α) (k : String) :
    (u.toList.foldl (fun t e => Table.insert t e.1 e.2) t).get? k = (u.get? k).or (t.get? k) := by
  induction u generalizing t with
  | nil => rfl
  | cons key above value rest ih =>
    rw [toList, List.foldl_cons, ih, Table.get?_insert, get?]
    by_cases hk : k = key
    · subst hk
      have hn : ¬ Above (some k) k := String.lt_irrefl _
      simp [get?_eq_none_of_not_above hn]
    · simp [hk]

/-- A key stands in one entry at most. -/
theorem filter_toList (t : Fields α lo) (k : String) :
    (t.toList.filter fun e => e.1 == k) = ((t.get? k).map fun v => (k, v)).toList := by
  induction t with
  | nil => rfl
  | cons key above value rest ih =>
    rw [toList, List.filter_cons, ih, get?]
    by_cases hk : k = key
    · subst hk
      have hn : ¬ Above (some k) k := String.lt_irrefl _
      simp [get?_eq_none_of_not_above hn]
    · simp [hk, Ne.symm hk]

theorem mem_toList_of_get? {t : Fields α lo} {k : String} {v : α} (h : t.get? k = some v) :
    (k, v) ∈ t.toList := by
  have hmem : (k, v) ∈ t.toList.filter fun e => e.1 == k := by
    rw [filter_toList, h]
    exact List.mem_singleton_self _
  exact (List.mem_filter.1 hmem).1

theorem get?_mapValues {β : Type} (f : α → β) (t : Fields α lo) (k : String) :
    (t.mapValues f).get? k = (t.get? k).map f := by
  induction t with
  | nil => rfl
  | cons key above value rest ih =>
    rw [mapValues, get?, get?, ih]
    split <;> rfl

end Fields

namespace Table

variable {α : Type} {l : List (String × α)} {k : String} {v : α}

theorem get?_merge (t u : Table α) (k : String) :
    (t.merge u).get? k = (u.get? k).or (t.get? k) :=
  Fields.get?_foldl_insert u t k

theorem keys_mapValues {β : Type} (f : α → β) (t : Table α) :
    Table.keys (t.mapValues f) = t.keys := by
  rw [keys, keys, Fields.toList_mapValues, List.map_map]
  rfl

theorem ofList_toList (t : Table α) : ofList t.toList = t := by
  refine Table.ext fun k => ?_
  rw [ofList, Fields.get?_foldl_insert, get?_empty, Option.or_none]

theorem ofList_concat (l : List (String × α)) (e : String × α) :
    ofList (l ++ [e]) = (ofList l).insert e.1 e.2 := by
  rw [ofList, List.foldl_append]
  rfl

theorem get?_ofList_nil (k : String) : (ofList ([] : List (String × α))).get? k = none := rfl

theorem get?_ofList_cons (e : String × α) (l : List (String × α)) (k : String) :
    (ofList (e :: l)).get? k = ((ofList l).get? k).or (if k = e.1 then some e.2 else none) := by
  induction l using List.reverseRecOn with
  | nil => rw [ofList, List.foldl_cons, List.foldl_nil, get?_insert, get?_ofList_nil]; rfl
  | append_singleton l e' ih =>
    rw [← List.cons_append, ofList_concat, ofList_concat, get?_insert, get?_insert, ih]
    split <;> rfl

theorem mem_of_get?_ofList (h : (ofList l).get? k = some v) : (k, v) ∈ l := by
  induction l using List.reverseRecOn with
  | nil => simp [ofList, get?_empty] at h
  | append_singleton l e ih =>
    rw [ofList_concat, get?_insert] at h
    split at h
    · rename_i hk
      simp [hk, ← Option.some.inj h]
    · exact List.mem_append_left _ (ih h)

theorem get?_ofList_of_mem (hl : (l.map Prod.fst).Nodup) (h : (k, v) ∈ l) :
    (ofList l).get? k = some v := by
  induction l using List.reverseRecOn with
  | nil => simp at h
  | append_singleton l e ih =>
    rw [List.map_append, List.nodup_append] at hl
    rw [ofList_concat, get?_insert]
    rcases List.mem_append.1 h with h | h
    · have hne : k ≠ e.1 := hl.2.2 k (List.mem_map_of_mem h) e.1 (by simp)
      rw [if_neg hne]
      exact ih hl.1 h
    · obtain rfl := List.mem_singleton.1 h
      rw [if_pos rfl]

end Table

end PatternQuery
