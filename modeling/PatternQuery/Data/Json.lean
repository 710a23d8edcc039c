import PatternQuery.Data.Value
import PatternQuery.Number.Shortest

/-!
# JSON texts

`Value.toJson` writes a value as JSON, indented by two blanks per level: every item and every field
stands on a line of its own, and an empty list or record on none. Doubles are written with the
fewest digits that read back.
-/

namespace PatternQuery

namespace Json

/-- A digit below 16. -/
def hexDigit (n : Nat) : Char := "0123456789abcdef".toList.getD n '0'

/-- How a character is written within quotes. Only quotes, backslashes and control characters are
not written as they are. -/
def escape (c : Char) : List Char :=
  if c = '"' then ['\\', '"']
  else if c = '\\' then ['\\', '\\']
  else if c = '\n' then ['\\', 'n']
  else if c = '\r' then ['\\', 'r']
  else if c = '\t' then ['\\', 't']
  else if c = '\x08' then ['\\', 'b']
  else if c = '\x0c' then ['\\', 'f']
  else if c.toNat < 32 then ['\\', 'u', '0', '0', hexDigit (c.toNat / 16), hexDigit (c.toNat % 16)]
  else [c]

def quote (s : String) : String := "\"" ++ String.ofList (s.toList.flatMap escape) ++ "\""

/-- A new line at a level. -/
def newline (level : Nat) : String := "\n" ++ String.ofList (List.replicate (2 * level) ' ')

/-- Puts written items of a list or record between its brackets, `level` being their level. -/
def enclose (opening closing : String) (level : Nat) : List String → String
  | [] => opening ++ closing
  | items =>
    opening ++ newline level ++ ("," ++ newline level).intercalate items
      ++ newline (level - 1) ++ closing

end Json

namespace Value

mutual

/-- Writes a value that stands at a level. There is no text for an infinite double. -/
def toJsonAt (level : Nat) : Value → String
  | null => "null"
  | bool b => if b then "true" else "false"
  | int n => toString n
  | float x => if x.isFinite then x.render else "null"
  | str s => Json.quote s
  | arr items => Json.enclose "[" "]" (level + 1) (itemsToJson (level + 1) items)
  | obj fields => Json.enclose "\x7b" "\x7d" (level + 1) (fieldsToJson (level + 1) fields)

def itemsToJson (level : Nat) : List Value → List String
  | [] => []
  | v :: rest => v.toJsonAt level :: itemsToJson level rest

def fieldsToJson {lo : Option String} (level : Nat) : Fields Value lo → List String
  | .nil => []
  | .cons key _ value rest =>
    (Json.quote key ++ ": " ++ value.toJsonAt level) :: fieldsToJson level rest

end

def toJson (v : Value) : String := v.toJsonAt 0

end Value

end PatternQuery
