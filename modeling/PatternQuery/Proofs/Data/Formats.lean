import PatternQuery.Catalogue.Settings
import PatternQuery.Endpoint.Response
import PatternQuery.Proofs.Data.RoundTrip
import PatternQuery.Session.Event
import PatternQuery.Statement.Settings

/-!
# Wire formats

Whatever is exchanged is decoded to what was encoded (`WireFormat.roundTrips`). A format is one
lemma `decode_toValue`, which the formats that it is part of use. A schema is decoded within the
depth of its own document, and what its relations lead to is nested less deep
(`Schema.depth_target_lt`).
-/

namespace PatternQuery

attribute [local simp] Table.get?_ofList_nil Table.get?_ofList_cons RecordFields.optional

/-! ## Words and numbers -/

@[simp]
theorem NodeId.decode_toValue (id : NodeId) : decode (.ofValue id.toValue) = some id := by
  simp [decode, toValue]

@[simp]
theorem NodeId.toValue_ne_null (id : NodeId) : id.toValue ≠ .null := nofun

@[simp]
theorem LinkId.decode_toValue (id : LinkId) : decode (.ofValue id.toValue) = some id := by
  simp [decode, toValue]

@[simp]
theorem NodeKind.decode_toValue (k : NodeKind) : decode (.ofValue k.toValue) = some k := by
  cases k <;> rfl

@[simp]
theorem LinkKind.decode_toValue (k : LinkKind) : decode (.ofValue k.toValue) = some k := by
  cases k <;> rfl

@[simp]
theorem StatementKind.decode_toValue (k : StatementKind) :
    decode (.ofValue k.toValue) = some k := by
  cases k <;> rfl

@[simp]
theorem TargetLabel.decode_toValue (t : TargetLabel) : decode (.ofValue t.toValue) = some t := by
  cases t <;> rfl

/-! ## Diagrams -/

@[simp]
theorem Position.decode_toValue (p : Position) : decode (.ofValue p.toValue) = some p := by
  simp [decode, toValue]

@[simp]
theorem Position.toValue_ne_null (p : Position) : p.toValue ≠ .null := nofun

@[simp]
theorem Segment.decode_toValue (s : Segment) : decode (.ofValue s.toValue) = some s := by
  simp [decode, toValue]

@[simp]
theorem SelectedValue.decode_toValue (v : SelectedValue) :
    decode (.ofValue v.toValue) = some v := by
  simp [decode, toValue]

@[simp]
theorem Node.decode_toValue (n : Node) : decode (.ofValue n.toValue) = some n := by
  rw [decode, toValue, Decoder.record_ofValue]
  simp

@[simp]
theorem Link.decode_toValue (l : Link) : decode (.ofValue l.toValue) = some l := by
  simp [decode, toValue]

/-! ## Statements and answers -/

@[simp]
theorem QuerySettings.decode_toValue (q : QuerySettings) :
    decode (.ofValue q.toValue) = some q := by
  simp [decode, toValue]

@[simp]
theorem Statement.decode_toValue (s : Statement) : decode (.ofValue s.toValue) = some s := by
  simp [decode, toValue]

@[simp]
theorem Batch.decode_toValue (b : Batch) : decode (.ofValue b.toValue) = some b := by
  simp [decode, toValue]

@[simp]
theorem StatementError.decode_toValue (e : StatementError) :
    decode (.ofValue e.toValue) = some e := by
  simp [decode, toValue]

@[simp]
theorem StatementResult.decodeCells_record (cells : List Value) :
    decodeCells (.ofValue (.record [("row", .arr cells)])) = some cells := by
  have hcells : Decoder.list Decoder.value (.ofValue (.ofList id cells)) = some cells :=
    Decoder.list_ofList Decoder.value_ofValue cells
  rw [Value.ofList, List.map_id] at hcells
  simp [decodeCells, hcells]

@[simp]
theorem StatementResult.decode_toValue (r : StatementResult) :
    decode (.ofValue r.toValue) = some r := by
  simp [decode, toValue]

@[simp]
theorem BatchResponse.decode_toValue (r : BatchResponse) :
    decode (.ofValue r.toValue) = some r := by
  obtain ⟨results | results, errors⟩ := r <;> simp [decode, toValue, Decoder.option_ofValue]

/-! ## Events -/

@[simp]
theorem EventKind.decode_toValue (k : EventKind) : decode (.ofValue k.toValue) = some k := by
  cases k <;> simp [decode, toValue, entries, read]

@[simp]
theorem EventKind.nameOrNumber_ofValue (name : String) :
    nameOrNumber (.ofValue (.str name)) = some name := by
  rw [Document.ofValue]
  rfl

@[simp]
theorem Event.decode_toValue (e : Event) : decode (.ofValue e.toValue) = some e := by
  obtain ⟨k, t⟩ := e
  cases k <;> simp [decode, toValue, EventKind.entries, EventKind.read]

/-! ## Attributes -/

@[simp]
theorem Attribute.decode_toValue (a : Attribute) : decode (.ofValue a.toValue) = some a := by
  cases a with
  | internalId => rfl
  | property name => rfl

@[simp]
theorem Attribute.toValue_ne_null (a : Attribute) : a.toValue ≠ .null := by
  cases a <;> nofun

/-! ## Schemas -/

theorem SchemaRelation.decode_toValue_of_target {item : Decoder Schema}
    {r : SchemaRelation Schema} (h : item (.ofValue r.target.toValue) = some r.target) :
    SchemaRelation.decode item (.ofValue r.toValue) = some r := by
  simp [SchemaRelation.decode, toValue, h]

namespace Schema

theorem relationsToValues_eq_map (relations : List (SchemaRelation Schema)) :
    relationsToValues relations = relations.map SchemaRelation.toValue := by
  induction relations with
  | nil => rfl
  | cons r rest ih => rw [relationsToValues, ih, List.map_cons, SchemaRelation.toValue]

theorem depth_target_lt (label : String) (rows : List Row)
    {relations : List (SchemaRelation Schema)} (group : Bool) {r : SchemaRelation Schema}
    (hr : r ∈ relations) : (Document.ofValue r.target.toValue).depth + 1 <
      (Document.ofValue (node label rows relations group).toValue).depth := by
  have htarget : (Document.ofValue r.target.toValue).depth <
      (Document.ofValue r.toValue).depth := by
    refine Document.depth_lt_of_get? "target" ?_
    simp
  have hitem : (Document.ofValue r.toValue).depth <
      (Document.ofValue (.arr (relationsToValues relations))).depth := by
    rw [relationsToValues_eq_map]
    exact Document.depth_lt_of_mem (List.mem_map_of_mem hr)
  have hfield : (Document.ofValue (.arr (relationsToValues relations))).depth <
      (Document.ofValue (node label rows relations group).toValue).depth := by
    rw [toValue]
    refine Document.depth_lt_of_get? "rel" ?_
    simp
  omega

theorem decodeWithin_toValue (depth : Nat) (s : Schema)
    (hs : (Document.ofValue s.toValue).depth ≤ depth) :
    decodeWithin depth (.ofValue s.toValue) = some s := by
  induction depth generalizing s with
  | zero =>
    obtain ⟨label, rows, relations, group⟩ := s
    rw [toValue, Value.record, Document.ofValue, Document.depth] at hs
    omega
  | succ depth ih =>
    obtain ⟨label, rows, relations, group⟩ := s
    have hrelations : Decoder.list (SchemaRelation.decode (decodeWithin depth))
        (.ofValue (.arr (relationsToValues relations))) = some relations := by
      rw [relationsToValues_eq_map]
      refine Decoder.list_ofList_of_forall fun r hr =>
        SchemaRelation.decode_toValue_of_target (ih r.target ?_)
      have := depth_target_lt label rows group hr
      omega
    simp [decodeWithin, toValue, hrelations]

@[simp]
theorem decode_toValue (s : Schema) : decode (.ofValue s.toValue) = some s :=
  decodeWithin_toValue _ s (Nat.le_refl _)

@[simp]
theorem toValue_ne_null (s : Schema) : s.toValue ≠ .null := by
  obtain ⟨label, rows, relations, group⟩ := s
  rw [toValue]
  exact Value.record_ne_null _

end Schema

@[simp]
theorem SchemaRelation.decode_toValue (r : SchemaRelation Schema) :
    SchemaRelation.decode Schema.decode (.ofValue r.toValue) = some r :=
  decode_toValue_of_target (Schema.decode_toValue r.target)

/-! ## Catalogues -/

@[simp]
theorem LabelSettings.decode_toValue (s : LabelSettings) :
    decode (.ofValue s.toValue) = some s := by
  simp [decode, toValue]

@[simp]
theorem Catalogue.decode_toValue (c : Catalogue) : decode (.ofValue c.toValue) = some c := by
  simp [decode, toValue]

/-! ## All formats -/

/-- The types of what is exchanged. -/
inductive WireFormat where
  | schema
  | schemaRelation
  | labelSettings
  | catalogue
  | querySettings
  | statementKind
  | nodeKind
  | linkKind
  | position
  | segment
  | selectedValue
  | node
  | link
  | statement
  | batch
  | batchResponse
  | eventKind
  | event
  | attr
  deriving DecidableEq, Repr

namespace WireFormat

/-- What is exchanged in a format. -/
def Content : WireFormat → Type
  | schema => Schema
  | schemaRelation => SchemaRelation Schema
  | labelSettings => LabelSettings
  | catalogue => Catalogue
  | querySettings => QuerySettings
  | statementKind => StatementKind
  | nodeKind => NodeKind
  | linkKind => LinkKind
  | position => Position
  | segment => Segment
  | selectedValue => SelectedValue
  | node => Node
  | link => Link
  | statement => Statement
  | batch => Batch
  | batchResponse => BatchResponse
  | eventKind => EventKind
  | event => Event
  | attr => Attribute

def decode : (f : WireFormat) → Decoder f.Content
  | schema => Schema.decode
  | schemaRelation => SchemaRelation.decode Schema.decode
  | labelSettings => LabelSettings.decode
  | catalogue => Catalogue.decode
  | querySettings => QuerySettings.decode
  | statementKind => StatementKind.decode
  | nodeKind => NodeKind.decode
  | linkKind => LinkKind.decode
  | position => Position.decode
  | segment => Segment.decode
  | selectedValue => SelectedValue.decode
  | node => Node.decode
  | link => Link.decode
  | statement => Statement.decode
  | batch => Batch.decode
  | batchResponse => BatchResponse.decode
  | eventKind => EventKind.decode
  | event => Event.decode
  | attr => Attribute.decode

def encode : (f : WireFormat) → f.Content → Value
  | schema => Schema.toValue
  | schemaRelation => SchemaRelation.toValue
  | labelSettings => LabelSettings.toValue
  | catalogue => Catalogue.toValue
  | querySettings => QuerySettings.toValue
  | statementKind => StatementKind.toValue
  | nodeKind => NodeKind.toValue
  | linkKind => LinkKind.toValue
  | position => Position.toValue
  | segment => Segment.toValue
  | selectedValue => SelectedValue.toValue
  | node => Node.toValue
  | link => Link.toValue
  | statement => Statement.toValue
  | batch => Batch.toValue
  | batchResponse => BatchResponse.toValue
  | eventKind => EventKind.toValue
  | event => Event.toValue
  | attr => Attribute.toValue

theorem decode_encode (f : WireFormat) (x : f.Content) :
    f.decode (.ofValue (f.encode x)) = some x := by
  cases f with
  | schema => exact Schema.decode_toValue x
  | schemaRelation => exact SchemaRelation.decode_toValue x
  | labelSettings => exact LabelSettings.decode_toValue x
  | catalogue => exact Catalogue.decode_toValue x
  | querySettings => exact QuerySettings.decode_toValue x
  | statementKind => exact StatementKind.decode_toValue x
  | nodeKind => exact NodeKind.decode_toValue x
  | linkKind => exact LinkKind.decode_toValue x
  | position => exact Position.decode_toValue x
  | segment => exact Segment.decode_toValue x
  | selectedValue => exact SelectedValue.decode_toValue x
  | node => exact Node.decode_toValue x
  | link => exact Link.decode_toValue x
  | statement => exact Statement.decode_toValue x
  | batch => exact Batch.decode_toValue x
  | batchResponse => exact BatchResponse.decode_toValue x
  | eventKind => exact EventKind.decode_toValue x
  | event => exact Event.decode_toValue x
  | attr => exact Attribute.decode_toValue x

/-- What is encoded is decoded to itself, in every format. So to decode a document, to encode the
outcome and to decode it again comes to the same as to decode the document once. -/
theorem roundTrips (f : WireFormat) :
    (∀ x : f.Content, f.decode (.ofValue (f.encode x)) = some x) ∧
      ∀ d : Document,
        ((f.decode d).bind fun x => f.decode (.ofValue (f.encode x))) = f.decode d := by
  refine ⟨f.decode_encode, fun d => ?_⟩
  cases f.decode d with
  | none => rfl
  | some x => exact f.decode_encode x

end WireFormat

end PatternQuery
