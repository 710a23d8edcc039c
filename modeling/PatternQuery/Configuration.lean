import PatternQuery.Catalogue.Settings
import PatternQuery.Endpoint.Response
import PatternQuery.Statement.Settings
import PatternQuery.Yaml.Reader

/-!
# Configuration

A `Configuration` names the database and holds the settings of the compiler and the catalogue of
labels. It is read from a YAML file and then overridden by the environment
(`Configuration.load`). A file that cannot be read or understood counts for nothing.
-/

namespace PatternQuery

/-- Where the database is and how to get in. -/
structure Connection where
  url : String := "http://localhost:7474"
  user : String := "neo4j"
  password : String := "neo4j"
  database : String := "neo4j"
  deriving DecidableEq, Repr

namespace Connection

def decode : Decoder Connection := Decoder.record fun fields => do
  let d : Connection := {}
  let url ← fields.withDefault "url" Decoder.text d.url
  let user ← fields.withDefault "user" Decoder.text d.user
  let password ← fields.withDefault "password" Decoder.text d.password
  let database ← fields.withDefault "database" Decoder.text d.database
  return { url, user, password, database }

def endpoint (c : Connection) : String := endpointAddress c.url c.database

end Connection

/-- Names and values of environment variables. -/
abbrev Environment : Type := Table String

structure Configuration where
  connection : Connection := {}
  settings : QuerySettings := {}
  catalogue : Catalogue := {}

namespace Configuration

/-- The name of the file that is read if no other is given. -/
def defaultPath : String := "query-canvas.yaml"

def decode : Decoder Configuration := Decoder.record fun fields => do
  let connection ← fields.withDefault "database" Connection.decode {}
  let settings ← fields.withDefault "query" QuerySettings.decode {}
  let common ← fields.withDefault "default_label" LabelSettings.decode {}
  let labels ← fields.withDefault "labels" (Decoder.table LabelSettings.decode) Table.empty
  return { connection, settings, catalogue := { common, labels } }

/-- A number of 64 bits: digits, perhaps with a plus sign in front. -/
def parseNumber? (s : String) : Option Nat :=
  let digits := match s.toList with
    | '+' :: rest => rest
    | cs => cs
  if digits.isEmpty || !digits.all Char.isDigit then none
  else
    let n := digits.foldl (fun n c => n * 10 + (c.toNat - '0'.toNat)) 0
    if n < UInt64.size then some n else none

/-- What the environment sets goes before the file. -/
def override (env : Environment) (c : Configuration) : Configuration :=
  { c with
    connection := {
      url := (env.get? "NEO4J_URL").getD c.connection.url
      user := (env.get? "NEO4J_USER").getD c.connection.user
      password := (env.get? "NEO4J_PASSWORD").getD c.connection.password
      database := (env.get? "NEO4J_DATABASE").getD c.connection.database }
    settings := { c.settings with
      maxResults :=
        ((env.get? "QUERY_MAX_RESULTS").bind parseNumber?).getD c.settings.maxResults } }

/-- The configuration of a file, of which the text is given if there is one, and the environment. -/
def load (text : Option String) (env : Environment) : Configuration :=
  override env (((text.bind Yaml.read?).bind decode).getD {})

end Configuration

end PatternQuery
