import PatternQuery.Request.Lifecycle
import PatternQuery.Text.Search

/-!
# Scripted answers

A `Script` answers batches by rules: the first rule whose text occurs in a statement gives its
result. It can also make a batch fail, report errors, or give too few or too many results.
-/

namespace PatternQuery

/-- The result of all statements in which a text occurs. -/
structure ScriptRule where
  part : String
  result : StatementResult
  deriving DecidableEq

structure Script where
  rules : List ScriptRule := []
  /-- The message that every batch fails with. -/
  fail : Option String := none
  /-- What is put in front of that message. -/
  context : Option String := none
  errors : List StatementError := []
  /-- Leaves the results out. -/
  missing : Bool := false
  /-- How many results are kept. -/
  limit : Option Nat := none
  /-- How many empty results are added. -/
  extra : Nat := 0
  deriving DecidableEq

namespace ScriptRule

/-- The result is given as rows or in full. -/
def decode : Decoder ScriptRule := Decoder.record fun fields => do
  let part ← fields.required "contains" Decoder.text
  let rows ← fields.withDefault "rows" (fun d => (Decoder.list Decoder.row d).map some) none
  match rows with
  | some rows => return { part, result := StatementResult.ofRows rows }
  | none => return { part, result := ← fields.required "result" StatementResult.decode }

end ScriptRule

namespace Script

def decode : Decoder Script := Decoder.record fun fields => do
  let rules ← fields.withDefault "rules" (Decoder.list ScriptRule.decode) []
  let fail ← fields.optional "fail" Decoder.text
  let context ← fields.optional "context" Decoder.text
  let errors ← fields.withDefault "errors" (Decoder.list StatementError.decode) []
  let missing ← fields.withDefault "missing" Decoder.bool false
  let limit ← fields.optional "limit" Decoder.nat
  let extra ← fields.withDefault "extra" Decoder.nat 0
  return { rules, fail, context, errors, missing, limit, extra }

/-- The result of a statement, empty if no rule goes for it. -/
def result (s : Script) (statement : Statement) : StatementResult :=
  match s.rules.find? fun r => Text.occurs r.part statement.text with
  | some r => r.result
  | none => {}

/-- The results of a batch. -/
def results (s : Script) (batch : Batch) : List StatementResult :=
  let all := batch.map s.result
  (match s.limit with
    | some n => all.take n
    | none => all) ++ List.replicate s.extra ({} : StatementResult)

/-- The answer to a batch, or the message that it fails with. -/
def answer (s : Script) (batch : Batch) : Except String BatchResponse :=
  match s.fail, s.context with
  | some message, some context => .error (context ++ ": " ++ message)
  | some message, none => .error message
  | none, _ =>
    .ok { results := if s.missing then none else some (s.results batch), errors := s.errors }

end Script

/-- What becomes of a batch that is answered. -/
def Outcome.ofAnswer (expected : Nat) : Except String BatchResponse → Outcome
  | .ok response => .completed (response.rows expected)
  | .error message => .failed message

def Script.outcome (s : Script) (batch : Batch) : Outcome :=
  Outcome.ofAnswer batch.length (s.answer batch)

end PatternQuery
