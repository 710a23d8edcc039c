import PatternQuery.CommandLine.Run
import PatternQuery.Data.Json

/-!
# The program

Reads what a command line needs, carries it out and writes what comes of it. There is no connection
to a database.
-/

open PatternQuery

/-- The variables that matter. -/
def variableNames : List String :=
  ["NEO4J_URL", "NEO4J_USER", "NEO4J_PASSWORD", "NEO4J_DATABASE", "QUERY_MAX_RESULTS",
    "QUERY_CANVAS_CONFIG"]

def readEnvironment : IO Environment := do
  let mut env : Environment := Table.empty
  for name in variableNames do
    if let some value ← IO.getEnv name then env := env.insert name value
  return env

/-- Adds the text of a file if it can be read. -/
def addFile (files : Table String) (path : String) : IO (Table String) := do
  match CommandLine.fileName? path with
  | none => return files
  | some name =>
    try return files.insert name (← IO.FS.readFile path)
    catch _ => return files

def writeOutput : CommandLine.Output → IO Unit
  | .nothing => return ()
  | .value v => IO.println v.toJson
  | .lines lines => lines.forM IO.println

def main (words : List String) : IO UInt32 := do
  let files ← addFile Table.empty CommandLine.environmentPath
  let start : CommandLine.Surroundings :=
    { files, environment := ← readEnvironment
      database := fun _ _ => .error "there is no connection to a database" }
  let files ← (CommandLine.paths start words).foldlM addFile files
  let report := CommandLine.run { start with files } words
  writeOutput report.output
  return UInt32.ofNat report.code
