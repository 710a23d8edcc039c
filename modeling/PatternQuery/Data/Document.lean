import PatternQuery.Data.Value

/-!
# Documents

A `Document` is the structure of a text in a data format before it is known what its scalars are to
be: a scalar keeps both its text, for a place that wants a text, and the value it stands for on its
own. A record keeps its fields in the order of the text, repetitions included; a key is a document
too, and nearly always a scalar.

`Document.ofValue` is the document of a value, `Document.toValue?` reads any document as a value,
and a `Decoder` reads one as something of a fixed type.

A record is read by the names of its fields (`Decoder.record`). Readers of JSON often take a list of
what the fields hold, in the order of their declaration, for the record as well. That form is left
out on purpose: whatever is exchanged names its fields when it is written (`Value.record`), so
nothing that was written has that form, and such a list would mean something else as soon as the
fields are declared in another order.
-/

namespace PatternQuery

/-- The structure of a text in a data format. -/
inductive Document where
  /-- The text is missing where the scalar is no text in any reading, the value where it has
  none. -/
  | scalar (text : Option String) (value : Option Value)
  | list (items : List Document)
  | record (fields : List (Document × Document))

namespace Document

/-- A scalar that is a text and nothing else. -/
def ofText (s : String) : Document := scalar (some s) (some (.str s))

/-- A node that has no meaning, whatever it is read as. -/
def meaningless : Document := scalar none none

mutual

/-- The document of a value: only texts have a text. -/
def ofValue : Value → Document
  | .str s => ofText s
  | .arr items => list (ofItems items)
  | .obj fields => record (ofFields fields)
  | v => scalar none (some v)

def ofItems : List Value → List Document
  | [] => []
  | v :: rest => ofValue v :: ofItems rest

def ofFields {lo : Option String} : Fields Value lo → List (Document × Document)
  | .nil => []
  | .cons key _ value rest => (ofText key, ofValue value) :: ofFields rest

end

/-- The text of a scalar. -/
def text? : Document → Option String
  | scalar text _ => text
  | _ => none

def scalarValue? : Document → Option Value
  | scalar _ value => value
  | _ => none

/-- Whether a scalar is written with a minus sign in front. -/
def hasMinus (d : Document) : Bool := d.text?.any fun s => s.toList.head? == some '-'

mutual

/-- The value that a document stands for. Of repeated fields the last one counts. -/
def toValue? : Document → Option Value
  | scalar _ value => value
  | list items => (toItems? items).map .arr
  | record fields => (toEntries? fields).map fun entries => .obj (Table.ofList entries)

def toItems? : List Document → Option (List Value)
  | [] => some []
  | d :: rest => do
    let v ← d.toValue?
    let vs ← toItems? rest
    return v :: vs

def toEntries? : List (Document × Document) → Option (List (String × Value))
  | [] => some []
  | (key, d) :: rest => do
    let name ← key.text?
    let v ← d.toValue?
    let vs ← toEntries? rest
    return (name, v) :: vs

end

mutual

/-- Whether every scalar in the document, be it a key or not, stands for a value. -/
def isMeaningful : Document → Bool
  | scalar _ value => value.isSome
  | list items => areMeaningful items
  | record fields => haveMeaningful fields

def areMeaningful : List Document → Bool
  | [] => true
  | d :: rest => d.isMeaningful && areMeaningful rest

def haveMeaningful : List (Document × Document) → Bool
  | [] => true
  | (key, d) :: rest => key.isMeaningful && d.isMeaningful && haveMeaningful rest

end

mutual

/-- How deep lists and records are nested. -/
def depth : Document → Nat
  | scalar _ _ => 1
  | list items => depthOfItems items + 1
  | record fields => depthOfFields fields + 1

def depthOfItems : List Document → Nat
  | [] => 0
  | d :: rest => max d.depth (depthOfItems rest)

def depthOfFields : List (Document × Document) → Nat
  | [] => 0
  | (_, d) :: rest => max d.depth (depthOfFields rest)

end

mutual

/-- Takes away the meaning of lists and records that are nested in `limit` others. -/
def cutBelow (limit : Nat) : Document → Document
  | scalar text value => scalar text value
  | list items =>
    match limit with
    | 0 => meaningless
    | limit + 1 => list (cutItems limit items)
  | record fields =>
    match limit with
    | 0 => meaningless
    | limit + 1 => record (cutFields limit fields)

def cutItems (limit : Nat) : List Document → List Document
  | [] => []
  | d :: rest => d.cutBelow limit :: cutItems limit rest

def cutFields (limit : Nat) : List (Document × Document) → List (Document × Document)
  | [] => []
  | (key, d) :: rest => (key.cutBelow limit, d.cutBelow limit) :: cutFields limit rest

end

/-- The ways to write null as a text. -/
def nullWords : List String := ["", "~", "null", "Null", "NULL"]

/-- Null as such. Infinity, which is null too as a value, is not meant. -/
def isNull : Document → Bool
  | scalar text (some .null) => text.all fun s => nullWords.contains s
  | _ => false

/-- A scalar of no characters at all, which stands for an empty list or record too. -/
def isBlank : Document → Bool
  | scalar (some "") (some .null) => true
  | _ => false

/-- The fields of a record, of which every key has a text. -/
def fields? : Document → Option (List (String × Document))
  | record fields => fields.mapM fun f => f.1.text?.map fun name => (name, f.2)
  | d => if d.isBlank then some [] else none

/-- The items of a list. -/
def items? : Document → Option (List Document)
  | list items => some items
  | d => if d.isBlank then some [] else none

end Document

/-- Reads a document as something of a type, if it has the form. -/
abbrev Decoder (α : Type) : Type := Document → Option α

namespace Decoder

variable {α : Type}

def text : Decoder String := Document.text?

def bool : Decoder Bool := fun d =>
  match d.scalarValue? with
  | some (.bool b) => some b
  | _ => none

/-- A natural number is written without a minus sign, even zero. -/
def nat : Decoder Nat := fun d => if d.hasMinus then none else d.scalarValue?.bind Value.toNat?

def int64 : Decoder Int64 := fun d => d.scalarValue?.bind Value.toInt64?

/-- Any number is read as a double. -/
def double : Decoder Double := fun d =>
  match d.scalarValue? with
  | some (.float x) => some x
  | some (.int n) => some (Double.ofInt n)
  | _ => none

def value : Decoder Value := Document.toValue?

/-- Null is read as absence. -/
def option (item : Decoder α) : Decoder (Option α) := fun d =>
  if d.isNull then some none else (item d).map some

def list (item : Decoder α) : Decoder (List α) := fun d => do
  let items ← d.items?
  items.mapM item

/-- Of repeated keys the last one counts. -/
def table (item : Decoder α) : Decoder (Table α) := fun d => do
  let fields ← d.fields?
  let entries ← fields.mapM fun f => (item f.2).map fun a => (f.1, a)
  return Table.ofList entries

def row : Decoder Row := table value

/-- One of several words. Where null has no text, a word may also be the only key of a record, with
null behind it. -/
def word (meaning : String → Option α) : Decoder α := fun d =>
  match d with
  | .record [(key, .scalar none (some .null))] => key.text?.bind meaning
  | d => d.text?.bind meaning

end Decoder

/-- The fields of a record of which every name that is asked for is unique. -/
abbrev RecordFields : Type := List (String × Document)

namespace RecordFields

variable {α : Type}

/-- What a field holds: the inner value is missing if the field is. A repeated field has no
meaning. -/
def lookup (fields : RecordFields) (name : String) : Option (Option Document) :=
  match fields.filter fun f => f.1 == name with
  | [] => some none
  | [f] => some (some f.2)
  | _ => none

/-- A field that has to be there. -/
def required (fields : RecordFields) (name : String) (item : Decoder α) : Option α :=
  match fields.lookup name with
  | some (some d) => item d
  | _ => none

/-- A field that stands for `default` if it is missing. -/
def withDefault (fields : RecordFields) (name : String) (item : Decoder α) (default : α) :
    Option α :=
  match fields.lookup name with
  | some (some d) => item d
  | some none => some default
  | none => none

/-- A field that may be missing or null. -/
def optional (fields : RecordFields) (name : String) (item : Decoder α) : Option (Option α) :=
  fields.withDefault name (Decoder.option item) none

end RecordFields

/-- Reads a record field by field. A list is no record, whatever it holds. -/
def Decoder.record {α : Type} (read : RecordFields → Option α) : Decoder α := fun d =>
  d.fields?.bind read

end PatternQuery
