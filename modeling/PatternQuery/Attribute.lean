import PatternQuery.Data.Document

/-!
# Attributes

An `Attribute` is what a node is constrained or returned by: the identifier that the database keeps
for every node, or a named property. It determines the expression on a variable, the column of the
result and the suffix of the parameter.
-/

namespace PatternQuery

inductive Attribute where
  | internalId
  | property (name : String)
  deriving DecidableEq, Repr

/-- The column under which the identifier of a node is returned. -/
def internalIdColumn : String := "NEO4JID"

/-- The word for the identifier in configurations. -/
def internalIdKeyword : String := "internal_id"

/-- Why a value is no attribute. -/
inductive AttributeError where
  | unknownKeyword (word : String)
  | malformed
  deriving DecidableEq, Repr

def AttributeError.message : AttributeError → String
  | unknownKeyword word =>
    "unknown attribute `" ++ word ++ "`, expected `" ++ internalIdKeyword
      ++ "` or `property: <name>`"
  | malformed => "data did not match any variant of untagged enum AttributeRepr"

namespace Attribute

def isInternalId : Attribute → Bool
  | internalId => true
  | property _ => false

/-- The expression that selects the attribute of a variable. -/
def expression (var : String) : Attribute → String
  | internalId => "ID(" ++ var ++ ")"
  | property name => var ++ "." ++ name

/-- The column of the result that holds the attribute. -/
def column : Attribute → String
  | internalId => internalIdColumn
  | property name => name

/-- What is put behind a variable to name the parameter that constrains it. -/
def parameterSuffix : Attribute → String
  | internalId => "internalID"
  | property name => name

/-- The expression together with its column. -/
def returnElement (var : String) (a : Attribute) : String :=
  a.expression var ++ " AS " ++ a.column

def display : Attribute → String
  | internalId => "<internal id>"
  | property name => name

/-- The field that a key names: the only one there is, `property`, may be given by its number, and
other numbers name no field. -/
def fieldName? (key : Document) : Option String :=
  match key.scalarValue? with
  | some (.str name) => some name
  | some (.int n) =>
    if n < 0 || key.hasMinus then none else some (if n = 0 then "property" else "")
  | _ => none

/-- Reads a keyword or a record with the field `property`. Neither is a text in disguise: a number
is no name. -/
def read (d : Document) : Except AttributeError Attribute :=
  match d with
  | .scalar _ (some (.str word)) =>
    if word = internalIdKeyword then .ok internalId else .error (.unknownKeyword word)
  | .record fields =>
    match fields.mapM fun f => (fieldName? f.1).map fun name => (name, f.2) with
    | some named =>
      match RecordFields.lookup named "property" with
      | some (some (.scalar _ (some (.str name)))) =>
        if d.isMeaningful then .ok (property name) else .error .malformed
      | _ => .error .malformed
    | none => .error .malformed
  | _ => .error .malformed

def decode : Decoder Attribute := fun d => (read d).toOption

def toValue : Attribute → Value
  | internalId => .str internalIdKeyword
  | property name => .record [("property", .str name)]

end Attribute

end PatternQuery
