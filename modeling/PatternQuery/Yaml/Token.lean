import PatternQuery.Yaml.Inline
import PatternQuery.Yaml.Scalar

/-!
# Tokens of YAML

A text is a sequence of tokens: scalars, indicators, and the bounds of block collections, which are
not written but follow from the columns of their entries. A scalar or a flow collection turns out
to be a key only by the colon behind it; until then its beginning is a `Candidate`, in front of
which `Token.key` is put later on. `tokens?` reads all the tokens of a text.
-/

namespace PatternQuery.Yaml

inductive Token where
  /-- The directive with the version of the format. -/
  | version
  | documentStart
  | documentEnd
  | blockList
  | blockRecord
  /-- The end of either block collection. -/
  | blockEnd
  | flowList
  | flowListEnd
  | flowRecord
  | flowRecordEnd
  | comma
  /-- The minus sign of a block item. -/
  | item
  /-- A key follows. -/
  | key
  /-- The colon in front of a value. -/
  | value
  | scalar (d : Document)

/-- A place where a key may have begun. -/
structure Candidate where
  /-- How many tokens stand in front of it. -/
  position : Nat
  start : Glyph
  /-- Nothing but a key may stand here. -/
  required : Bool

/-- How many bytes there may be from the beginning of a key to its colon. -/
def keyLimit : Nat := 1024

/-- Whether a colon at `g` is too late for the key. A key is on one line. -/
def Candidate.isLate (k : Candidate) (g : Glyph) : Bool :=
  k.start.line < g.line || k.start.offset + keyLimit < g.offset

/-- Reads the part of a version number in front, of at most nine digits. -/
def versionPart? (gs : List Glyph) : Option (Nat × List Glyph) :=
  let digits := gs.takeWhile fun g => g.char.isDigit
  if digits.length ≤ 9 then
    (digits? 10 (digits.map (·.char))).map fun n => (n, gs.drop digits.length)
  else none

/-- Reads a line to its end, of which only spaces and a comment are left. -/
def lineEnd? (gs : List Glyph) : Option (List Glyph) :=
  match gs.dropWhile fun g => isSpace g.char with
  | [] => some []
  | g :: rest =>
    if isBreak g.char then some rest
    else if g.char = '#' then some ((rest.dropWhile fun g => !isBreak g.char).drop 1)
    else none

/-- Reads the line of a directive, which gives the version of the format: it is 1.1 or 1.2. -/
def version? (gs : List Glyph) : Option (List Glyph) := do
  let rest := gs.drop 5
  if (gs.take 5).map (·.char) != "%YAML".toList || !endsWord rest then none
  else
    let (major, rest) ← versionPart? (rest.dropWhile fun g => isSpace g.char)
    match rest with
    | [] => none
    | g :: rest =>
      let (minor, rest) ← versionPart? rest
      if g.char = '.' ∧ major = 1 ∧ (minor = 1 ∨ minor = 2) then lineEnd? rest else none

/-- What has been read of a text. -/
structure Scanner where
  tokens : Array Token := #[]
  /-- The columns of the open block collections, from the innermost. -/
  indents : List Nat := []
  /-- The key that may have begun in the innermost collection. -/
  candidate : Option Candidate := none
  /-- The keys that may have begun around each open flow collection, from the innermost. -/
  outer : List (Option Candidate) := []
  /-- Whether a key may begin here. -/
  keys : Bool := true

namespace Scanner

/-- Whether a flow collection is open. -/
def inFlow (s : Scanner) : Bool := !s.outer.isEmpty

/-- The column from which on text belongs to the innermost block collection. -/
def indent (s : Scanner) : Nat :=
  match s.indents with
  | [] => 0
  | column :: _ => column + 1

def emit (t : Token) (s : Scanner) : Scanner := { s with tokens := s.tokens.push t }

/-- Puts a token behind the first `position` ones. -/
def emitAt (position : Nat) (t : Token) (s : Scanner) : Scanner :=
  { s with tokens := s.tokens.insertIdxIfInBounds position t }

/-- Ends the block collections for which `ends` holds of their column. -/
def unroll (ends : Nat → Bool) (s : Scanner) : Scanner :=
  if s.inFlow then s
  else { s with
    tokens := s.tokens ++ (s.indents.takeWhile ends).map fun _ => Token.blockEnd
    indents := s.indents.dropWhile ends }

/-- Begins a block collection at a column, unless one is open there or text belongs to a flow
collection. -/
def roll (column position : Nat) (t : Token) (s : Scanner) : Scanner :=
  if s.inFlow || s.indents.head?.any (column ≤ ·) then s
  else { s.emitAt position t with indents := column :: s.indents }

/-- Gives up the key that may have begun, if it need not be one. -/
def dropCandidate (s : Scanner) : Option Scanner :=
  if s.candidate.any (·.required) then none else some { s with candidate := none }

/-- Takes note that a key may begin at `g`. -/
def noteCandidate (g : Glyph) (s : Scanner) : Option Scanner :=
  if s.keys then do
    let s ← s.dropCandidate
    let required := !s.inFlow && s.indents.head? == some g.column
    return { s with candidate := some ⟨s.tokens.size, g, required⟩ }
  else some s

/-- What is left of a candidate at `g`. -/
def renew (g : Glyph) (candidate : Option Candidate) : Option (Option Candidate) :=
  match candidate with
  | some k => if k.isLate g then (if k.required then none else some none) else some candidate
  | none => some none

/-- Gives up the keys that it is too late for. -/
def dropLate (g : Glyph) (s : Scanner) : Option Scanner := do
  let candidate ← renew g s.candidate
  let outer ← s.outer.mapM (renew g)
  return { s with candidate, outer }

/-- Reads a directive or a document marker. -/
def marker (t : Token) (s : Scanner) : Option Scanner := do
  let s ← (s.unroll fun _ => true).dropCandidate
  return { s.emit t with keys := false }

/-- Reads the bracket that opens a flow collection. -/
def openFlow (t : Token) (g : Glyph) (s : Scanner) : Option Scanner := do
  let s ← s.noteCandidate g
  return { s.emit t with candidate := none, outer := s.candidate :: s.outer, keys := true }

/-- Reads the bracket that closes a flow collection. -/
def closeFlow (t : Token) (s : Scanner) : Option Scanner := do
  let s ← s.dropCandidate
  let s := { s.emit t with keys := false }
  match s.outer with
  | [] => return s
  | candidate :: outer => return { s with candidate, outer }

def comma (s : Scanner) : Option Scanner := do
  let s ← s.dropCandidate
  return { s.emit .comma with keys := true }

/-- Reads an indicator that may begin a block collection, where a key may begin. -/
def blockEntry (start t : Token) (keys : Bool) (g : Glyph) (s : Scanner) : Option Scanner :=
  if s.inFlow || s.keys then do
    let s ← (s.roll g.column s.tokens.size start).dropCandidate
    return { s.emit t with keys := keys }
  else none

/-- Reads a colon. The key in front of it may be missing or have been announced. -/
def colon (g : Glyph) (s : Scanner) : Option Scanner :=
  match s.candidate with
  | some k =>
    let s := (s.emitAt k.position .key).roll k.start.column k.position .blockRecord
    some { s.emit .value with candidate := none, keys := false }
  | none =>
    if s.inFlow then some { s.emit .value with keys := false }
    else if s.keys then
      some ((s.roll g.column s.tokens.size .blockRecord).emit .value)
    else none

/-- Reads the token that begins with the first of the glyphs. -/
def token (g : Glyph) (rest : List Glyph) (s : Scanner) : Option (Scanner × List Glyph) :=
  let gs := g :: rest
  let one (s : Option Scanner) : Option (Scanner × List Glyph) := s.map fun s => (s, rest)
  if g.char = '%' ∧ g.column = 0 then do
    let s ← s.marker .version
    let rest ← version? gs
    return (s, rest)
  else if hasMarker '-' gs then (s.marker .documentStart).map fun s => (s, gs.drop 3)
  else if hasMarker '.' gs then (s.marker .documentEnd).map fun s => (s, gs.drop 3)
  else if g.char = '[' then one (s.openFlow .flowList g)
  else if g.char = '\x7b' then one (s.openFlow .flowRecord g)
  else if g.char = ']' then one (s.closeFlow .flowListEnd)
  else if g.char = '\x7d' then one (s.closeFlow .flowRecordEnd)
  else if g.char = ',' then one s.comma
  else if g.char = '-' ∧ endsWord rest = true then one (s.blockEntry .blockList .item true g)
  else if g.char = '?' ∧ (s.inFlow || endsWord rest) = true then
    one (s.blockEntry .blockRecord .key (!s.inFlow) g)
  else if g.char = ':' ∧ (s.inFlow || endsWord rest) = true then one (s.colon g)
  else if g.char = '"' ∨ g.char = '\'' then do
    let s ← s.noteCandidate g
    let (text, rest) ← quoted? gs
    return ({ s.emit (.scalar (quotedScalar text)) with keys := false }, rest)
  else if startsPlain s.inFlow gs then do
    let s ← s.noteCandidate g
    let plain ← plain? s.inFlow s.indent gs
    return ({ s.emit (.scalar (plainScalar plain.text)) with keys := plain.endsLine }, plain.rest)
  else none

/-- The tokens in their order, once the text has ended. -/
def finish (s : Scanner) : Option (List Token) := do
  let s ← (s.unroll fun _ => true).dropCandidate
  return s.tokens.toList

/-- Reads the tokens of a text. No token is empty, so `fuel` need not exceed the length. -/
def run : Nat → Scanner → List Glyph → Option (List Token)
  | 0, _, _ => none
  | fuel + 1, s, gs =>
    match skip s.inFlow false s.keys gs with
    | (keys, []) => finish { s with keys }
    | (keys, g :: rest) => do
      let s ← dropLate g { s with keys }
      let (s, rest) ← (s.unroll (g.column < ·)).token g rest
      run fuel s rest

end Scanner

/-- The tokens of a text. -/
def tokens? (s : String) : Option (List Token) := do
  let gs ← glyphs? s
  Scanner.run (gs.length + 1) {} gs

end PatternQuery.Yaml
