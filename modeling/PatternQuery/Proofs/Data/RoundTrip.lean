import PatternQuery.Data.Document
import PatternQuery.Proofs.Data.Tables

/-!
# Encoding and decoding

The document of a value is read as that value (`Document.toValue?_ofValue`). What is put together
from parts is decoded to what was encoded, if its parts are: lists, tables, what may be missing
(`Decoder.list_ofList`, `Decoder.table_ofTable`, `Decoder.option_ofOption`) and records, of which
fields are looked up by their names (`RecordFields.lookup_documents`).
-/

namespace PatternQuery

variable {α β : Type} {v : Value}

theorem mapM_eq_some_map {f : α → Option β} {g : α → β} {l : List α}
    (h : ∀ a ∈ l, f a = some (g a)) : l.mapM f = some (l.map g) := by
  induction l with
  | nil => rfl
  | cons a l ih =>
    rw [List.mapM_cons, h a List.mem_cons_self, ih fun b hb => h b (List.mem_cons_of_mem a hb)]
    rfl

/-! ## Values that are not null -/

namespace Value

@[simp]
theorem ofInt64_ne_null (n : Int64) : ofInt64 n ≠ .null := nofun

@[simp]
theorem ofNat_ne_null (n : Nat) : ofNat n ≠ .null := nofun

@[simp]
theorem ofList_ne_null (f : α → Value) (l : List α) : ofList f l ≠ .null := nofun

@[simp]
theorem record_ne_null (entries : List (String × Value)) : record entries ≠ .null := nofun

end Value

/-! ## Documents of values -/

namespace Document

theorem ofItems_eq_map (items : List Value) : ofItems items = items.map ofValue := by
  induction items with
  | nil => rfl
  | cons v rest ih => rw [ofItems, ih, List.map_cons]

theorem ofFields_eq_map {lo : Option String} (t : Fields Value lo) :
    ofFields t = t.toList.map fun e => (ofText e.1, ofValue e.2) := by
  induction t with
  | nil => rfl
  | cons key above value rest ih => rw [ofFields, ih, Fields.toList, List.map_cons]

mutual

theorem toValue?_ofValue : ∀ v : Value, (ofValue v).toValue? = some v
  | .null | .bool _ | .int _ | .float _ | .str _ => rfl
  | .arr items => by rw [ofValue, toValue?, toItems?_ofItems items]; rfl
  | .obj fields => by
    rw [ofValue, toValue?, toEntries?_ofFields fields, Option.map_some, Table.ofList_toList]

theorem toItems?_ofItems : ∀ items : List Value, toItems? (ofItems items) = some items
  | [] => rfl
  | v :: rest => by rw [ofItems, toItems?, toValue?_ofValue v, toItems?_ofItems rest]; rfl

theorem toEntries?_ofFields {lo : Option String} :
    ∀ t : Fields Value lo, toEntries? (ofFields t) = some t.toList
  | .nil => rfl
  | .cons key _ value rest => by
    rw [ofFields, toEntries?, toValue?_ofValue value, toEntries?_ofFields rest]
    rfl

end

theorem isNull_ofValue (h : v ≠ .null) : (ofValue v).isNull = false := by
  cases v with
  | null => exact absurd rfl h
  | _ => rfl

end Document

/-! ## Depth -/

namespace Document

theorem depth_le_depthOfItems {items : List Document} {d : Document} (h : d ∈ items) :
    d.depth ≤ depthOfItems items := by
  induction items with
  | nil => cases h
  | cons d' rest ih =>
    rw [depthOfItems]
    rcases List.mem_cons.1 h with rfl | h
    · exact Nat.le_max_left _ _
    · exact Nat.le_trans (ih h) (Nat.le_max_right _ _)

theorem depth_le_depthOfFields {fields : List (Document × Document)} {key d : Document}
    (h : (key, d) ∈ fields) : d.depth ≤ depthOfFields fields := by
  induction fields with
  | nil => cases h
  | cons f rest ih =>
    rw [depthOfFields]
    rcases List.mem_cons.1 h with rfl | h
    · exact Nat.le_max_left _ _
    · exact Nat.le_trans (ih h) (Nat.le_max_right _ _)

theorem depth_lt_of_mem {items : List Value} (h : v ∈ items) :
    (ofValue v).depth < (ofValue (.arr items)).depth := by
  rw [ofValue, ofItems_eq_map, depth]
  exact Nat.lt_succ_of_le (depth_le_depthOfItems (List.mem_map_of_mem h))

theorem depth_lt_of_get? {t : Table Value} (name : String) (h : t.get? name = some v) :
    (ofValue v).depth < (ofValue (.obj t)).depth := by
  have hmem := List.mem_map_of_mem (f := fun e => (ofText e.1, ofValue e.2))
    (Fields.mem_toList_of_get? h)
  rw [ofValue, ofFields_eq_map, depth]
  exact Nat.lt_succ_of_le (depth_le_depthOfFields hmem)

end Document

/-! ## Fields of records -/

/-- The fields of a table as those of a record. -/
def Fields.documents (t : Table Value) : RecordFields :=
  t.toList.map fun e => (e.1, Document.ofValue e.2)

theorem Document.fields?_ofValue_obj (t : Table Value) :
    (ofValue (.obj t)).fields? = some (Fields.documents t) := by
  rw [ofValue, ofFields_eq_map, fields?, List.mapM_map]
  exact mapM_eq_some_map fun _ _ => rfl

namespace RecordFields

theorem lookup_documents (t : Table Value) (name : String) :
    lookup (Fields.documents t) name = some ((t.get? name).map Document.ofValue) := by
  have hfilter : (Fields.documents t).filter (fun f => f.1 == name) =
      (t.toList.filter fun e => e.1 == name).map fun e => (e.1, Document.ofValue e.2) :=
    List.filter_map
  rw [lookup, hfilter, Fields.filter_toList]
  cases t.get? name <;> rfl

@[simp]
theorem required_documents (t : Table Value) (name : String) (item : Decoder α) :
    required (Fields.documents t) name item =
      (t.get? name).bind fun v => item (Document.ofValue v) := by
  rw [required, lookup_documents]
  cases t.get? name <;> rfl

@[simp]
theorem withDefault_documents (t : Table Value) (name : String) (item : Decoder α) (default : α) :
    withDefault (Fields.documents t) name item default =
      ((t.get? name).map fun v => item (Document.ofValue v)).getD (some default) := by
  rw [withDefault, lookup_documents]
  cases t.get? name <;> rfl

end RecordFields

/-! ## Decoders -/

namespace Decoder

@[simp]
theorem record_ofValue (read : RecordFields → Option α) (entries : List (String × Value)) :
    Decoder.record read (Document.ofValue (.record entries)) =
      read (Fields.documents (Table.ofList entries)) := by
  rw [Decoder.record, Value.record, Document.fields?_ofValue_obj, Option.bind_some]

@[simp]
theorem text_ofValue (s : String) : text (Document.ofValue (.str s)) = some s := by
  unfold text
  rfl

@[simp]
theorem bool_ofValue (b : Bool) : bool (Document.ofValue (.bool b)) = some b := by
  unfold bool
  rfl

@[simp]
theorem double_ofValue (x : Double) : double (Document.ofValue (.float x)) = some x := by
  unfold double
  rfl

@[simp]
theorem nat_ofNat (n : Nat) : nat (Document.ofValue (.ofNat n)) = some n := by
  show Value.toNat? (.int n) = some n
  rw [Value.toNat?, if_pos (Int.natCast_nonneg n), Int.toNat_natCast]

@[simp]
theorem int64_ofInt64 (n : Int64) : int64 (Document.ofValue (.ofInt64 n)) = some n := by
  show Value.toInt64? (.int n.toInt) = some n
  have hlow : -Int.pow 2 63 ≤ n.toInt := n.le_toInt
  have hhigh : n.toInt < Int.pow 2 63 := n.toInt_lt
  rw [Value.toInt64?, if_pos ⟨hlow, hhigh⟩, Int64.ofInt_toInt]

@[simp]
theorem value_ofValue (v : Value) : value (Document.ofValue v) = some v :=
  Document.toValue?_ofValue v

theorem option_ofValue (h : v ≠ .null) (item : Decoder α) :
    option item (Document.ofValue v) = (item (Document.ofValue v)).map some := by
  rw [option, Document.isNull_ofValue h]
  rfl

/-- An item that is never null can be told from what is missing. -/
@[simp]
theorem option_ofOption {item : Decoder α} {encode : α → Value}
    (h : ∀ a, item (Document.ofValue (encode a)) = some a) (hnull : ∀ a, encode a ≠ .null)
    (a : Option α) : option item (Document.ofValue (.ofOption encode a)) = some a := by
  cases a with
  | none => rfl
  | some a => rw [Value.ofOption, option_ofValue (hnull a), h a, Option.map_some]

theorem list_ofList_of_forall {item : Decoder α} {encode : α → Value} {l : List α}
    (h : ∀ a ∈ l, item (Document.ofValue (encode a)) = some a) :
    list item (Document.ofValue (.ofList encode l)) = some l := by
  have hitems : ((l.map encode).map Document.ofValue).mapM item = some l := by
    rw [List.map_map, List.mapM_map]
    exact (mapM_eq_some_map (g := id) h).trans (by rw [List.map_id])
  rw [list, Value.ofList, Document.ofValue, Document.ofItems_eq_map]
  exact hitems

@[simp]
theorem list_ofList {item : Decoder α} {encode : α → Value}
    (h : ∀ a, item (Document.ofValue (encode a)) = some a) (l : List α) :
    list item (Document.ofValue (.ofList encode l)) = some l :=
  list_ofList_of_forall fun a _ => h a

theorem table_of_entries {item : Decoder α} {t : Table Value} {u : Table α}
    (h : (t.toList.mapM fun e => (item (Document.ofValue e.2)).map fun a => (e.1, a)) =
      some u.toList) : table item (Document.ofValue (.obj t)) = some u := by
  have hentries : ((Fields.documents t).mapM fun f => (item f.2).map fun a => (f.1, a)) =
      some u.toList := by
    rw [Fields.documents, List.mapM_map]
    exact h
  rw [table, Document.fields?_ofValue_obj, Option.bind_eq_bind, Option.bind_some, hentries]
  exact congrArg some (Table.ofList_toList u)

@[simp]
theorem table_ofTable {item : Decoder α} {encode : α → Value}
    (h : ∀ a, item (Document.ofValue (encode a)) = some a) (t : Table α) :
    table item (Document.ofValue (.ofTable encode t)) = some t := by
  refine table_of_entries ?_
  rw [Fields.toList_mapValues, List.mapM_map]
  exact (mapM_eq_some_map (g := id) fun e _ => by simp [h]).trans (by rw [List.map_id])

@[simp]
theorem row_ofValue (r : Row) : row (Document.ofValue (.obj r)) = some r :=
  table_of_entries ((mapM_eq_some_map (g := id) fun e _ => by simp).trans (by rw [List.map_id]))

end Decoder

end PatternQuery
