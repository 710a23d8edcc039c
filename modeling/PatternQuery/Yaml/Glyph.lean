/-!
# Text with positions

A `Glyph` is a character with the place where it stands: block structure is decided by columns, and
a key has to end on the line on which it begins. `Yaml.skip` moves to the next character that is
neither blank nor part of a comment.
-/

namespace PatternQuery.Yaml

/-- A character and its place. Two offsets on one line differ by the bytes between them. -/
structure Glyph where
  char : Char
  offset : Nat
  line : Nat
  column : Nat
  deriving DecidableEq, Repr

/-- Line breaks, once `unifyBreaks` has been applied. -/
def isBreak (c : Char) : Bool := c == '\n' || c == '\u2028' || c == '\u2029'

/-- Gives each character its place. -/
def glyphsFrom (offset line column : Nat) : List Char → List Glyph
  | [] => []
  | c :: cs =>
    ⟨c, offset, line, column⟩
      :: (if isBreak c then glyphsFrom (offset + c.utf8Size) (line + 1) 0 cs
        else glyphsFrom (offset + c.utf8Size) line (column + 1) cs)

/-- Every line break becomes a line feed, except for the separators of lines and of paragraphs. -/
def unifyBreaks : List Char → List Char
  | '\r' :: '\n' :: cs => '\n' :: unifyBreaks cs
  | '\r' :: cs => '\n' :: unifyBreaks cs
  | '\u0085' :: cs => '\n' :: unifyBreaks cs
  | c :: cs => c :: unifyBreaks cs
  | [] => []

/-- Characters that a text may hold. -/
def isPrintable (c : Char) : Bool :=
  let n := c.toNat
  n == 0x09 || n == 0x0A || n == 0x0D || (0x20 ≤ n && n ≤ 0x7E) || n == 0x85
    || (0xA0 ≤ n && n ≤ 0xFFFD) || 0x10000 ≤ n

/-- The glyphs of a text. -/
def glyphs? (s : String) : Option (List Glyph) :=
  if s.toList.all isPrintable then some (glyphsFrom 0 0 0 (unifyBreaks s.toList)) else none

def isSpace (c : Char) : Bool := c == ' ' || c == '\t'

def isSpaceOrBreak (c : Char) : Bool := isSpace c || isBreak c

/-- Whether the text ends here or goes on with a space or a line break. -/
def endsWord : List Glyph → Bool
  | [] => true
  | g :: _ => isSpaceOrBreak g.char

/-- Whether a line of a document marker, `---` or `...`, begins here. -/
def hasMarker (c : Char) : List Glyph → Bool
  | a :: b :: d :: rest =>
    a.column == 0 && a.char == c && b.char == c && d.char == c && endsWord rest
  | _ => false

def hasAnyMarker (gs : List Glyph) : Bool := hasMarker '-' gs || hasMarker '.' gs

/-- Skips spaces, line breaks, comments and a byte order mark at the head of a line. A tab is no
space where a key may stand, unless in a flow collection; a key may stand there if `keys` says so,
and outside of flow collections at the head of every line. The answer tells whether one may stand
behind what has been skipped. -/
def skip (flow comment keys : Bool) : List Glyph → Bool × List Glyph
  | [] => (keys, [])
  | g :: rest =>
    if isBreak g.char then skip flow false (keys || !flow) rest
    else if comment then skip flow true keys rest
    else if g.char = '\uFEFF' ∧ g.column = 0 then skip flow false keys rest
    else if g.char = ' ' ∨ (g.char = '\t' ∧ (flow || !keys) = true) then skip flow false keys rest
    else if g.char = '#' then skip flow true keys rest
    else (keys, g :: rest)

end PatternQuery.Yaml
