import PatternQuery.CommandLine.Arguments
import PatternQuery.Endpoint.Script
import PatternQuery.EnvironmentFile
import PatternQuery.Session.Run
import PatternQuery.Statement.Overview

/-!
# Commands

`CommandLine.run` carries a command line out in given surroundings: the files at hand, the
environment and a database. It gives back the exit code and what is written.
-/

namespace PatternQuery.CommandLine

/-- A file that sets variables which the environment does not. -/
def environmentPath : String := ".env"

/-- What a command line is carried out in. -/
structure Surroundings where
  /-- The texts of the files, by their names. -/
  files : Table String := Table.empty
  environment : Environment := Table.empty
  /-- What the database answers to a batch, or why it does not. -/
  database : Connection → Batch → Except String BatchResponse

inductive Output where
  | nothing
  | value (v : Value)
  | lines (lines : List String)

/-- What is left behind. -/
structure Report where
  code : Nat
  output : Output := .nothing

namespace Report

def failure : Report := { code := 1 }

def usage : Report := { code := 2 }

/-- Nothing can be carried out without an environment. -/
def abort : Report := { code := 101 }

def value (v : Value) : Report := { code := 0, output := .value v }

end Report

/-- The name of the file that a path leads to: steps that stay in place are left out. A path that
leads to a directory or out of the current one leads to no file. -/
def fileName? (path : String) : Option String :=
  let steps := path.splitOn "/"
  let stays (step : String) : Bool := step == "" || step == "."
  if path.startsWith "/" || stays (steps.getLast?.getD "") || steps.contains ".." then none
  else some ("/".intercalate (steps.filter fun step => !stays step))

namespace Surroundings

def file? (s : Surroundings) (path : String) : Option String := (fileName? path).bind s.files.get?

/-- Adds the environment file to the environment. -/
def complete? (s : Surroundings) : Option Surroundings :=
  match s.file? environmentPath with
  | some text =>
    (EnvironmentFile.load? s.environment text).map fun environment => { s with environment }
  | none => some s

def schema? (s : Surroundings) (path : String) : Option Schema :=
  ((s.file? path).bind Yaml.read?).bind Schema.decode

/-- The configuration at a path, or at the usual one. -/
def configuration (s : Surroundings) (path : Option String) : Configuration :=
  Configuration.load (s.file? (path.getD Configuration.defaultPath)) s.environment

end Surroundings

/-- The compiler that a configuration describes. -/
def compiler (c : Configuration) : Compiler :=
  { provider := Provider.ofCatalogue c.catalogue, settings := c.settings }

/-! ## Compiling -/

def nodeValue (n : NodeStatements) : Value := .record [
  ("id", n.node.id.toValue), ("label", .str n.node.label), ("internal_label", .str n.node.var),
  ("count", .ofOption Statement.toValue n.count), ("value", n.value.toValue),
  ("relation", n.relation.toValue)]

def overviewValue (o : Overview) : Value :=
  .record [("result", o.result.toValue), ("nodes", .ofList nodeValue o.nodes)]

/-- Writes the statements of a schema. -/
def compile (c : Configuration) (schema : Option Schema) (graphMode : Bool) : Report :=
  match schema with
  | none => .failure
  | some schema =>
    let compiler := compiler c
    let diagram := (Diagram.new c.settings.pageSize).addSchema compiler.provider schema none
    match compiler.overview diagram.2 graphMode with
    | .error _ => .failure
    | .ok overview => .value (overviewValue overview)

/-! ## Asking the database -/

/-- Writes the statements that count labels. -/
def taxonomyStatements (c : Configuration) (labels : List String) : Report :=
  .value (.ofList Statement.toValue (labels.map (compiler c).taxonomyQuery))

def countLine (entry : String × Nat) : String := entry.1 ++ "\t" ++ toString entry.2

/-- Counts labels and writes a line for each. -/
def taxonomyCounts (s : Surroundings) (c : Configuration) (labels : List String) : Report :=
  match s.database c.connection (labels.map (compiler c).taxonomyQuery) with
  | .error _ => .failure
  | .ok response =>
    { code := 0, output := .lines ((Session.taxonomyCounts labels response).map countLine) }

/-- An endpoint that keeps no request. -/
def endpoint (s : Surroundings) (c : Connection) : Endpoint := fun f =>
  some (Outcome.ofAnswer f.batch.length (s.database c f.batch))

/-- Writes the result rows of a schema. There are none if the database does not answer. -/
def results (s : Surroundings) (c : Configuration) (schema : Option Schema) : Report :=
  match schema with
  | none => .failure
  | some schema =>
    let session := Session.new (compiler c).provider c.settings
    match Session.startSchema (endpoint s c.connection) schema none session with
    | (.error _, _) => .failure
    | (.ok _, session) => .value (.ofList Value.obj session.results)

/-! ## Command lines -/

def perform (s : Surroundings) (request : Request) : Report :=
  let c := s.configuration request.config
  match request.command with
  | .compile schema graphMode => compile c (s.schema? schema) graphMode
  | .taxonomy labels false => taxonomyStatements c labels
  | .taxonomy labels true => taxonomyCounts s c labels
  | .run schema => results s c (s.schema? schema)

/-- What a command line asks for, and the surroundings that it is carried out in. -/
def interpret? (s : Surroundings) (words : List String) :
    Option (Surroundings × Except Refusal Request) :=
  s.complete?.map fun s => (s, parse s.environment words)

/-- The paths that a command line names or implies, the environment file apart. -/
def paths (s : Surroundings) (words : List String) : List String :=
  match interpret? s words with
  | none | some (_, .error _) => []
  | some (_, .ok request) =>
    let config := request.config.getD Configuration.defaultPath
    match request.command with
    | .compile schema _ => [config, schema]
    | .taxonomy _ _ => [config]
    | .run schema => [config, schema]

/-- Carries a command line out. -/
def run (s : Surroundings) (words : List String) : Report :=
  match interpret? s words with
  | none => .abort
  | some (_, .error .help) => { code := 0 }
  | some (_, .error .usage) => .usage
  | some (s, .ok request) => perform s request

end PatternQuery.CommandLine
