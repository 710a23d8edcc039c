import PatternQuery.Configuration
import PatternQuery.Text.Alphanumeric
import PatternQuery.Text.Blank

/-!
# Environment files

An environment file sets a variable on each line, `NAME=value`. Values may be quoted and may refer
to other variables; a quoted value may go on over several lines. `EnvironmentFile.load?` adds to an
environment what a file sets and the environment does not. Reading stops at the first line that is
malformed. There is no environment with a null character in it.
-/

namespace PatternQuery.EnvironmentFile

/-! ## Lines -/

/-- Where in a line a reader stands. -/
inductive Place where
  /-- Only blanks so far. -/
  | start
  | plain
  /-- Behind a single blank. -/
  | blank
  | escaped
  | double
  | doubleEscaped
  | single
  | singleEscaped
  | comment
  deriving DecidableEq

namespace Place

/-- Behind a character outside quotes. -/
def outside (c : Char) : Place :=
  if c = '\\' then escaped
  else if c = '"' then double
  else if c = '\'' then single
  else plain

def next (c : Char) : Place → Place
  | start =>
    if Text.isBlank c then start else if c = '#' then comment else outside c
  | plain =>
    if Text.isBlank c && c != '\n' && c != '\r' then blank else outside c
  | blank => if c = '#' then comment else outside c
  | escaped => plain
  | double => if c = '\\' then doubleEscaped else if c = '"' then plain else double
  | doubleEscaped => double
  | single => if c = '\\' then singleEscaped else if c = '\'' then plain else single
  | singleEscaped => single
  | comment => comment

/-- Whether a line may end here. -/
def isEnd : Place → Bool
  | start | plain | comment => true
  | _ => false

end Place

/-- The lines of a text without their comments; `line` is what has been read of the first one,
backwards. A line that has no end is malformed. -/
def linesFrom (line : List Char) (place : Place) : List Char → List (Option (List Char))
  | [] => if place.isEnd then [some line.reverse] else [none]
  | c :: rest =>
    let place := place.next c
    if c = '\n' ∧ place.isEnd then some line.reverse :: linesFrom [] .start rest
    else linesFrom (if place = .comment then line else c :: line) place rest

/-! ## Values -/

/-- What the reader of a value is in the middle of. -/
inductive Mode where
  | bare
  | single
  | double
  /-- Behind the value, where only a comment may stand. -/
  | done
  deriving DecidableEq

/-- A reference to another variable, of which the name is read, backwards. -/
inductive Reference where
  | plain (name : List Char)
  | braced (name : List Char)

/-- The value of a variable, backwards, or nothing. -/
def expand (env : Environment) (name : List Char) : List Char :=
  ((env.get? (String.ofList name.reverse)).getD "").toList.reverse

/-- Reads a value; `out` is what it has come to, backwards. -/
def valueFrom (env : Environment) (out : List Char) :
    Mode → Option Reference → List Char → Option String
  | mode, some (.plain name), [] =>
    if mode = .double then none else some (String.ofList (expand env name ++ out).reverse)
  | _, some (.braced _), [] => none
  | .bare, none, [] => some (String.ofList out.reverse)
  | .done, none, [] => some (String.ofList out.reverse)
  | _, none, [] => none
  | mode, some (.braced name), c :: rest =>
    if c = '\x7d' then valueFrom env (expand env name ++ out) mode none rest
    else valueFrom env out mode (some (.braced (c :: name))) rest
  | mode, some (.plain name), c :: rest =>
    if Text.isAlphanumeric c then valueFrom env out mode (some (.plain (c :: name))) rest
    else if c = '\x7b' ∧ name = [] then valueFrom env out mode (some (.braced [])) rest
    else if c = '$' then valueFrom env (expand env name ++ out) mode (some (.plain [])) rest
    else valueFrom env (c :: (expand env name ++ out)) mode none rest
  | .done, none, c :: rest =>
    if c = ' ' ∨ c = '\t' then valueFrom env out .done none rest
    else if c = '#' then some (String.ofList out.reverse)
    else none
  | .single, none, c :: rest =>
    if c = '\'' then valueFrom env out .bare none rest
    else valueFrom env (c :: out) .single none rest
  | mode, none, '\\' :: c :: rest =>
    if ['\\', '\'', '"', '$', ' '].contains c then valueFrom env (c :: out) mode none rest
    else if c = 'n' then valueFrom env ('\n' :: out) mode none rest
    else none
  | .double, none, c :: rest =>
    if c = '$' then valueFrom env out .double (some (.plain [])) rest
    else if c = '"' then valueFrom env out .bare none rest
    else if c = '\\' then none
    else valueFrom env (c :: out) .double none rest
  | .bare, none, c :: rest =>
    if c = '$' then valueFrom env out .bare (some (.plain [])) rest
    else if c = '\'' then valueFrom env out .single none rest
    else if c = '"' then valueFrom env out .double none rest
    else if c = '\\' then valueFrom env out .bare none rest
    else if c = ' ' ∨ c = '\t' then valueFrom env out .done none rest
    else valueFrom env (c :: out) .bare none rest

/-! ## Assignments -/

def isNameChar (c : Char) : Bool := c.isAlphanum || c == '_' || c == '.'

/-- Splits a name and the blanks behind it off the head of a line. -/
def name? : List Char → Option (String × List Char)
  | [] => none
  | c :: rest =>
    if c.isAlpha || c == '_' then
      some (String.ofList (c :: rest.takeWhile isNameChar),
        (rest.dropWhile isNameChar).dropWhile Text.isBlank)
    else none

/-- The name that a line sets, and what stands behind the equals sign. A name may have the word
`export` in front. -/
def assignment? (line : List Char) : Option (String × List Char) := do
  let (name, rest) ← name? line
  match name, rest with
  | _, '=' :: rest => some (name, rest.dropWhile Text.isBlank)
  | "export", rest =>
    match ← name? rest with
    | (name, '=' :: rest) => some (name, rest.dropWhile Text.isBlank)
    | _ => none
  | _, _ => none

/-- What a line sets: nothing, or a name to a value. It is `none` if the line is malformed. -/
def setting? (env : Environment) (line : List Char) : Option (Option (String × String)) :=
  match (line.reverse.dropWhile Text.isBlank).reverse.dropWhile Text.isBlank with
  | [] => some none
  | '#' :: _ => some none
  | cs => do
    let (name, rest) ← assignment? cs
    match rest with
    | [] => some (some (name, ""))
    | '#' :: _ => some (some (name, ""))
    | rest => do
      let value ← valueFrom env [] .bare none rest
      some (some (name, value))

/-- Adds what the lines set. Names that are bound already stay as they are. -/
def addLines? (env : Environment) : List (Option (List Char)) → Option Environment
  | [] => some env
  | line :: rest =>
    match line.bind (setting? env) with
    | none => some env
    | some none => addLines? env rest
    | some (some (name, value)) =>
      if (env.get? name).isSome then addLines? env rest
      else if value.toList.contains '\x00' then none
      else addLines? (env.insert name value) rest

/-- Adds what a file sets. A byte order mark at its head is no part of it. -/
def load? (env : Environment) (text : String) : Option Environment :=
  let cs := match text.toList with
    | '\uFEFF' :: cs => cs
    | cs => cs
  addLines? env (linesFrom [] .start cs)

end PatternQuery.EnvironmentFile
