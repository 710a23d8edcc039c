import PatternQuery.Text.CasingTable

/-!
# Lowercase text

`Text.lowercase` follows the full lowercase mapping of Unicode without locale: every letter goes to
its lowercase, `İ` to two characters, and a capital sigma at the end of a word to `ς`.
-/

namespace PatternQuery.Text

/-- Characters with the property `Cased`. -/
def isCased (c : Char) : Bool :=
  if c.toNat < 0x80 then c.isAlpha else inRanges casedRanges c.toNat

/-- Characters with the property `Case_Ignorable`. -/
def isCaseIgnorable (c : Char) : Bool :=
  if c.toNat < 0x80 then ['\'', '.', ':', '^', '\x60'].contains c
  else inRanges ignorableRanges c.toNat

/-- The lowercase of a character on its own. -/
def lowerChar (c : Char) : List Char :=
  if c.toNat < 0x80 then [c.toLower]
  else if c = 'İ' then ['i', '\u0307']
  else match lowerRuns.find? (·.covers c.toNat) with
    | some r => [Char.ofNat ((c.toNat : Int) + r.delta).toNat]
    | none => [c]

/-- Whether the first character that case does not ignore is a cased one. -/
def meetsCased (cs : List Char) : Bool :=
  match cs.dropWhile isCaseIgnorable with
  | c :: _ => isCased c
  | [] => false

/-- Whether a sigma between `before`, which is read backwards, and `after` ends a word. -/
def isFinalSigma (before after : List Char) : Bool :=
  meetsCased before && !meetsCased after

/-- Lowercase of a text whose part already read is `before`, backwards. -/
def lowerFrom (before : List Char) : List Char → List Char
  | [] => []
  | c :: rest =>
    (if c = 'Σ' then [if isFinalSigma before rest then 'ς' else 'σ'] else lowerChar c)
      ++ lowerFrom (c :: before) rest

def lowercase (s : String) : String := String.ofList (lowerFrom [] s.toList)

end PatternQuery.Text
