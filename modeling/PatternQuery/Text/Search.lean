/-!
# Occurrences of one text in another

`Text.occurs` asks whether a text lies in another one, `Text.replace` puts a text in place of every
occurrence, taken from left to right without overlap.
-/

namespace PatternQuery.Text

/-- Whether `part` starts at some place of a list. -/
def occursIn (part : List Char) : List Char → Bool
  | [] => part.isEmpty
  | c :: cs => part.isPrefixOf (c :: cs) || occursIn part cs

/-- Replaces the occurrences of `part`, the next `skip` characters belonging to the last one. -/
def replaceFrom (part new : List Char) : Nat → List Char → List Char
  | _, [] => []
  | skip + 1, _ :: cs => replaceFrom part new skip cs
  | 0, c :: cs =>
    if !part.isEmpty && part.isPrefixOf (c :: cs) then
      new ++ replaceFrom part new (part.length - 1) cs
    else c :: replaceFrom part new 0 cs

/-- Whether `part` occurs in `s`. The empty text occurs everywhere. -/
def occurs (part s : String) : Bool := occursIn part.toList s.toList

/-- `s` with `new` in place of every `part`. An empty `part` is never replaced. -/
def replace (part new s : String) : String :=
  String.ofList (replaceFrom part.toList new.toList 0 s.toList)

/-- `s` without the occurrences of `c` at its end. -/
def trimEnd (c : Char) (s : String) : String :=
  String.ofList (s.toList.reverse.dropWhile (· == c)).reverse

end PatternQuery.Text
