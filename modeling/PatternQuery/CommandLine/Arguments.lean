import PatternQuery.Configuration

/-!
# Arguments of the command line

`Arguments.parse` sorts the words of a command line into a `Command` with its options. The path of
the configuration may be given before and behind the name of the command; the one behind it counts.
-/

namespace PatternQuery.CommandLine

inductive Command where
  /-- Write the statements of a schema file. -/
  | compile (schema : String) (graphMode : Bool)
  /-- Write the statements that count labels, or the counts. -/
  | taxonomy (labels : List String) (execute : Bool)
  /-- Ask for the result rows of a schema file. -/
  | run (schema : String)
  deriving DecidableEq, Repr

/-- What a command line asks for. -/
structure Request where
  config : Option String
  command : Command
  deriving DecidableEq, Repr

/-- Why a command line is not carried out. -/
inductive Refusal where
  /-- It asks for help. -/
  | help
  /-- It is malformed. -/
  | usage
  deriving DecidableEq, Repr

inductive CommandName where
  | compile
  | taxonomy
  | run
  deriving DecidableEq, Repr

namespace CommandName

def ofWord? : String → Option CommandName
  | "compile" => some compile
  | "taxonomy" => some taxonomy
  | "run" => some run
  | _ => none

/-- The flag of its own that a command takes. -/
def flag? : CommandName → Option String
  | compile => some "graph"
  | taxonomy => some "execute"
  | run => none

/-- How many plain words a command takes, if that is limited. -/
def wordLimit? : CommandName → Option Nat
  | taxonomy => none
  | _ => some 1

end CommandName

/-- A word that begins with a minus sign. -/
inductive Switch where
  | help
  | config (path : String)
  /-- The path is the next word. -/
  | configNext
  | flag (name : String)
  | unknown
  deriving DecidableEq

namespace Switch

/-- A switch of one letter, perhaps with its value attached. -/
def ofLetters : List Char → Switch
  | 'h' :: _ => help
  | ['c'] => configNext
  | 'c' :: '=' :: path => config (String.ofList path)
  | 'c' :: path => config (String.ofList path)
  | _ => unknown

/-- A switch of a whole word, perhaps with its value behind an equals sign. -/
def ofName (cs : List Char) : Switch :=
  let name := String.ofList (cs.takeWhile (· != '='))
  if cs.contains '=' then
    if name == "config" then config (String.ofList ((cs.dropWhile (· != '=')).drop 1)) else unknown
  else if name == "help" then help
  else if name == "config" then configNext
  else flag name

/-- Reads a word as a switch. A minus sign alone is none. -/
def ofWord? (word : String) : Option Switch :=
  match word.toList with
  | '-' :: '-' :: cs => some (ofName cs)
  | ['-'] => none
  | '-' :: cs => some (ofLetters cs)
  | _ => none

end Switch

/-- What has been read of a command and its arguments. -/
structure Draft where
  config : Option String := none
  words : List String := []
  flagged : Bool := false

namespace Draft

/-- The path of the configuration is given once and is not empty. -/
def setConfig (d : Draft) (path : String) : Except Refusal Draft :=
  if d.config.isSome || path.isEmpty then .error .usage else .ok { d with config := some path }

/-- Paths are not empty, labels may be. -/
def addWord (name : CommandName) (d : Draft) (word : String) : Except Refusal Draft :=
  match name.wordLimit? with
  | some limit =>
    if d.words.length < limit && !word.isEmpty then .ok { d with words := d.words ++ [word] }
    else .error .usage
  | none => .ok { d with words := d.words ++ [word] }

/-- The flag of the command is given at most once. -/
def setFlag (name : CommandName) (d : Draft) (flag : String) : Except Refusal Draft :=
  if name.flag? == some flag && !d.flagged then .ok { d with flagged := true } else .error .usage

/-- Reads what follows the name of a command. Behind two minus signs every word is plain. -/
def addArguments (name : CommandName) (d : Draft) : List String → Except Refusal Draft
  | [] => .ok d
  | "--" :: rest => rest.foldlM (addWord name) d
  | word :: rest =>
    match Switch.ofWord? word with
    | none => (d.addWord name word).bind fun d => d.addArguments name rest
    | some .help => .error .help
    | some .unknown => .error .usage
    | some (.config path) => (d.setConfig path).bind fun d => d.addArguments name rest
    | some (.flag flag) => (d.setFlag name flag).bind fun d => d.addArguments name rest
    | some .configNext =>
      match rest with
      | [] => .error .usage
      | path :: rest =>
        if (Switch.ofWord? path).isSome then .error .usage
        else (d.setConfig path).bind fun d => d.addArguments name rest

/-- The command, if the words it needs are there. -/
def command? (name : CommandName) (d : Draft) : Option Command :=
  match name, d.words with
  | .compile, [schema] => some (.compile schema d.flagged)
  | .run, [schema] => some (.run schema)
  | .taxonomy, label :: labels => some (.taxonomy (label :: labels) d.flagged)
  | _, _ => none

end Draft

/-- The path that goes without any switch. An empty one is malformed wherever it is looked at, that
is, unless there is a switch both before and behind the command. -/
def chooseConfig (fallback before behind : Option String) : Except Refusal (Option String) :=
  if fallback = some "" ∧ (before.isNone || behind.isNone) = true then .error .usage
  else .ok (behind.or (before.or fallback))

/-- What help on some words comes to. -/
def helpOn : List String → Refusal
  | [] => .help
  | [word] => if word == "help" || (CommandName.ofWord? word).isSome then .help else .usage
  | _ => .usage

/-- Reads a command line. `fallback` is the path of the configuration that the environment names,
`before` what has been given in front of the command. -/
def parseFrom (fallback before : Option String) : List String → Except Refusal Request
  | [] => .error .usage
  | word :: rest =>
    match Switch.ofWord? word with
    | none =>
      if word == "help" then .error (helpOn rest)
      else match CommandName.ofWord? word with
        | none => .error .usage
        | some name => do
          let d ← Draft.addArguments name {} rest
          match d.command? name with
          | none => .error .usage
          | some command => return { config := ← chooseConfig fallback before d.config, command }
    | some .help => .error .help
    | some (.config path) =>
      if before.isSome || path.isEmpty then .error .usage else parseFrom fallback (some path) rest
    | some .configNext =>
      match rest with
      | [] => .error .usage
      | path :: rest =>
        if before.isSome || path.isEmpty || (Switch.ofWord? path).isSome then .error .usage
        else parseFrom fallback (some path) rest
    | some _ => .error .usage

/-- Reads a command line in an environment. -/
def parse (env : Environment) (words : List String) : Except Refusal Request :=
  parseFrom (env.get? "QUERY_CANVAS_CONFIG") none words

end PatternQuery.CommandLine
