import PatternQuery.Diagram.Node
import PatternQuery.Statement.Parts
import PatternQuery.Text.Search

/-!
# Answers of the endpoint

The endpoint takes statements in batches and answers a batch by a `BatchResponse`: a table of cells
for every statement, or errors. `BatchResponse.rows` makes rows of it. Any error empties the whole
batch, so that no answer is used in part.
-/

namespace PatternQuery

/-- The cells of one statement, row by row, and the names of their columns. -/
structure StatementResult where
  columns : List String := []
  data : List (List Value) := []
  deriving DecidableEq

namespace StatementResult

def decodeCells : Decoder (List Value) := Decoder.record fun fields =>
  fields.required "row" (Decoder.list Decoder.value)

def decode : Decoder StatementResult := Decoder.record fun fields => do
  let columns ← fields.required "columns" (Decoder.list Decoder.text)
  let data ← fields.withDefault "data" (Decoder.list decodeCells) []
  return { columns, data }

def toValue (r : StatementResult) : Value := .record [
  ("columns", .ofList .str r.columns),
  ("data", .ofList (fun cells => .record [("row", .arr cells)]) r.data)]

/-- The cells of rows, the keys of the first row being the columns. -/
def ofRows (rows : List Row) : StatementResult :=
  let columns := match rows with
    | row :: _ => row.keys
    | [] => []
  { columns, data := rows.map fun row => columns.map fun c => (row.get? c).getD .null }

/-- Each row as pairs of columns and cells. Of a repeated column the last cell counts. -/
def rows (r : StatementResult) : List Row :=
  r.data.map fun cells => Table.ofList (r.columns.zip cells)

end StatementResult

/-- An error that the endpoint reports. -/
structure StatementError where
  code : String := ""
  message : String := ""
  deriving DecidableEq, Repr

namespace StatementError

def decode : Decoder StatementError := Decoder.record fun fields => do
  let code ← fields.withDefault "code" Decoder.text ""
  let message ← fields.withDefault "message" Decoder.text ""
  return { code, message }

def toValue (e : StatementError) : Value := .record [
  ("code", .str e.code), ("message", .str e.message)]

end StatementError

/-- The statements of one request. -/
abbrev Batch : Type := List Statement

namespace Batch

def decode : Decoder Batch := Decoder.record fun fields =>
  fields.required "statements" (Decoder.list Statement.decode)

def toValue (b : Batch) : Value := .record [("statements", .ofList Statement.toValue b)]

end Batch

/-- The answer to a batch. -/
structure BatchResponse where
  results : Option (List StatementResult) := none
  errors : List StatementError := []
  deriving DecidableEq

namespace BatchResponse

def decode : Decoder BatchResponse := Decoder.record fun fields => do
  let results ← fields.optional "results" (Decoder.list StatementResult.decode)
  let errors ← fields.withDefault "errors" (Decoder.list StatementError.decode) []
  return { results, errors }

/-- Missing results are left out. -/
def toValue (r : BatchResponse) : Value :=
  let errors := ("errors", Value.ofList StatementError.toValue r.errors)
  match r.results with
  | some results => .record [("results", .ofList StatementResult.toValue results), errors]
  | none => .record [errors]

/-- The rows for each of `expected` statements. An error or missing results empty the batch, and a
statement without a result has no rows. -/
def rows (r : BatchResponse) (expected : Nat) : List (List Row) :=
  match r.errors, r.results with
  | [], some results =>
    results.map StatementResult.rows ++ List.replicate (expected - results.length) []
  | _, _ => List.replicate expected []

end BatchResponse

/-- The address of the endpoint for transactions on a database. -/
def endpointAddress (url database : String) : String :=
  Text.trimEnd '/' url ++ "/db/" ++ database ++ "/tx/commit"

end PatternQuery
