import PatternQuery.Data.Document

/-!
# Statements and their parts

A statement is assembled as `StatementParts`, so that single clauses can still be amended, and then
written out as a `Statement`: its text and its parameters.
-/

namespace PatternQuery

/-- Names of parameters and what they are bound to. -/
abbrev Parameters : Type := Table Value

/-- The kinds of statements. -/
inductive StatementKind where
  | result
  | nodeCount
  | nodeValue
  | nodeRelation
  | taxonomy
  deriving DecidableEq, Repr

namespace StatementKind

def word : StatementKind → String
  | result => "result"
  | nodeCount => "node_count"
  | nodeValue => "node_value"
  | nodeRelation => "node_relation"
  | taxonomy => "taxonomy"

def decode : Decoder StatementKind := Decoder.word fun
  | "result" => some result
  | "node_count" => some nodeCount
  | "node_value" => some nodeValue
  | "node_relation" => some nodeRelation
  | "taxonomy" => some taxonomy
  | _ => none

def toValue (k : StatementKind) : Value := .str k.word

end StatementKind

/-- Text and parameters of a statement, as they are sent. -/
structure Statement where
  text : String
  parameters : Parameters := Table.empty
  deriving DecidableEq

namespace Statement

def decode : Decoder Statement := Decoder.record fun fields => do
  let text ← fields.required "statement" Decoder.text
  let parameters ← fields.withDefault "parameters" Decoder.row Table.empty
  return { text, parameters }

def toValue (s : Statement) : Value := .record [
  ("statement", .str s.text), ("parameters", .obj s.parameters)]

end Statement

/-- The clauses of a statement. -/
structure StatementParts where
  patterns : List String := []
  conditions : List String := []
  returns : List String := []
  distinct : Bool := false
  /-- What follows the returned elements: the order and the limit. -/
  trailing : List String := []
  parameters : Parameters := Table.empty
  deriving DecidableEq

namespace StatementParts

/-- The text of the statement, `preamble` in front of it. -/
def text (preamble : String) (p : StatementParts) : String :=
  preamble ++ "MATCH " ++ ", ".intercalate p.patterns
    ++ (if p.conditions.isEmpty then "" else " WHERE " ++ " AND ".intercalate p.conditions)
    ++ " RETURN " ++ (if p.distinct then "DISTINCT " else "") ++ ", ".intercalate p.returns
    ++ (if p.trailing.isEmpty then "" else " " ++ " ".intercalate p.trailing)

def compile (preamble : String) (p : StatementParts) : Statement :=
  { text := p.text preamble, parameters := p.parameters }

end StatementParts

end PatternQuery
