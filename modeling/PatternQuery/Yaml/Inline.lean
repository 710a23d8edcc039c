import PatternQuery.Yaml.Glyph

/-!
# Scalars inside a text

Reading one scalar: with quotes (`quoted?`), where escapes are resolved, and without (`plain?`).
A scalar may go on over several lines; a single line feed in it is a space, of several breaks all
but a first line feed are kept.
-/

namespace PatternQuery.Yaml

/-- Space that has been read but may still turn out to be no content. -/
inductive Gap where
  /-- Spaces within a line, backwards. -/
  | spaces (cs : List Char)
  /-- The first line break, which is missing if it was escaped, and the others, backwards. -/
  | breaks (first : Option Char) (more : List Char)

namespace Gap

/-- The content of a gap between two words, backwards. -/
def content : Gap → List Char
  | spaces cs => cs
  | breaks (some '\n') [] => [' ']
  | breaks (some '\n') more => more
  | breaks (some c) more => more ++ [c]
  | breaks none more => more

def addBreak (c : Char) : Gap → Gap
  | spaces _ => breaks (some c) []
  | breaks first more => breaks first (c :: more)

def addSpace (c : Char) : Gap → Gap
  | spaces cs => spaces (c :: cs)
  | gap => gap

def hasBreak : Gap → Bool
  | spaces _ => false
  | breaks _ _ => true

def isEmpty : Gap → Bool
  | spaces cs => cs.isEmpty
  | breaks _ _ => false

end Gap

/-- The character of an escape of one letter. -/
def escapeChar? : Char → Option Char
  | '0' => some '\x00'
  | 'a' => some '\x07'
  | 'b' => some '\x08'
  | 't' => some '\t'
  | '\t' => some '\t'
  | 'n' => some '\n'
  | 'v' => some '\x0b'
  | 'f' => some '\x0c'
  | 'r' => some '\r'
  | 'e' => some '\x1b'
  | ' ' => some ' '
  | '"' => some '"'
  | '/' => some '/'
  | '\\' => some '\\'
  | 'N' => some '\u0085'
  | '_' => some '\u00a0'
  | 'L' => some '\u2028'
  | 'P' => some '\u2029'
  | _ => none

/-- How many hexadecimal digits follow an escape letter. -/
def escapeWidth? : Char → Option Nat
  | 'x' => some 2
  | 'u' => some 4
  | 'U' => some 8
  | _ => none

def hexDigit? (c : Char) : Option Nat :=
  if c.isDigit then some (c.toNat - '0'.toNat)
  else if 'a' ≤ c ∧ c ≤ 'f' then some (c.toNat - 'a'.toNat + 10)
  else if 'A' ≤ c ∧ c ≤ 'F' then some (c.toNat - 'A'.toNat + 10)
  else none

/-- The character with the given code. Halves of surrogate pairs are no characters. -/
def codeChar? (n : Nat) : Option Char :=
  if n < 0xD800 ∨ (0xDFFF < n ∧ n < 0x110000) then some (Char.ofNat n) else none

/-- What the reader of a quoted scalar is in the middle of. -/
inductive QuoteState where
  | text
  /-- After a backslash. -/
  | escape
  /-- Within the digits of an escape, of which `left` are still to come. -/
  | code (left value : Nat)
  /-- After a quote that ends the scalar or is the first of two. -/
  | apostrophe

/-- Reads a quoted scalar up to its end. `acc` holds the content before `gap`, backwards. -/
def quotedFrom (double : Bool) (acc : List Char) (gap : Gap) :
    QuoteState → List Glyph → Option (String × List Glyph)
  | .apostrophe, [] => some (String.ofList (gap.content ++ acc).reverse, [])
  | _, [] => none
  | .text, g :: rest =>
    if g.column = 0 ∧ hasAnyMarker (g :: rest) = true then none
    else if double = true ∧ g.char = '"' then
      some (String.ofList (gap.content ++ acc).reverse, rest)
    else if double = false ∧ g.char = '\'' then quotedFrom double acc gap .apostrophe rest
    else if double = true ∧ g.char = '\\' then quotedFrom double acc gap .escape rest
    else if isBreak g.char then quotedFrom double acc (gap.addBreak g.char) .text rest
    else if isSpace g.char then quotedFrom double acc (gap.addSpace g.char) .text rest
    else quotedFrom double (g.char :: (gap.content ++ acc)) (.spaces []) .text rest
  | .escape, g :: rest =>
    if isBreak g.char then quotedFrom double (gap.content ++ acc) (.breaks none []) .text rest
    else match escapeWidth? g.char with
      | some width => quotedFrom double (gap.content ++ acc) (.spaces []) (.code width 0) rest
      | none =>
        match escapeChar? g.char with
        | some c => quotedFrom double (c :: (gap.content ++ acc)) (.spaces []) .text rest
        | none => none
  | .code left value, g :: rest =>
    match hexDigit? g.char with
    | none => none
    | some d =>
      if left ≤ 1 then
        match codeChar? (value * 16 + d) with
        | some c => quotedFrom double (c :: (gap.content ++ acc)) (.spaces []) .text rest
        | none => none
      else quotedFrom double acc gap (.code (left - 1) (value * 16 + d)) rest
  | .apostrophe, g :: rest =>
    if g.char = '\'' then quotedFrom double ('\'' :: (gap.content ++ acc)) (.spaces []) .text rest
    else some (String.ofList (gap.content ++ acc).reverse, g :: rest)

/-- Reads a quoted scalar whose opening quote stands in front. -/
def quoted? : List Glyph → Option (String × List Glyph)
  | [] => none
  | g :: rest => quotedFrom (g.char == '"') [] (.spaces []) .text rest

/-- Characters that end a scalar without quotes in a flow collection. -/
def isFlowIndicator (c : Char) : Bool := ",[]\x7b\x7d".toList.contains c

/-- Whether a scalar without quotes may begin here. Characters with a meaning of their own may not,
but some of them have it only in front of a space. -/
def startsPlain (flow : Bool) : List Glyph → Bool
  | [] => false
  | g :: rest =>
    if g.char = '-' then !endsWord rest
    else if g.char = '?' ∨ g.char = ':' then !flow && !endsWord rest
    else !isSpaceOrBreak g.char && !isFlowIndicator g.char
      && !"#&*!|>'\"%@\x60".toList.contains g.char

/-- What a reader of a scalar without quotes does with a character that is no space. -/
inductive PlainStep where
  | take
  | stop
  | refuse
  deriving DecidableEq

/-- A scalar without quotes ends at a colon in front of a space and in a flow collection at an
indicator; behind a gap also at a comment, at a document marker and at the column of the block
that it stands in, which is the one in front of `indent`. -/
def plainStep (flow : Bool) (indent : Nat) (gap : Gap) (g : Glyph) (rest : List Glyph) :
    PlainStep :=
  if !gap.isEmpty
      && ((!flow && g.column < indent) || g.char == '#' || hasAnyMarker (g :: rest)) then .stop
  else if flow && g.char == ':'
      && (rest.head?.any fun h => isFlowIndicator h.char || h.char == '?') then .refuse
  else if (g.char == ':' && endsWord rest) || (flow && isFlowIndicator g.char) then .stop
  else .take

/-- A scalar without quotes, the text behind it, and whether a line break stands between them. -/
structure Plain where
  text : String
  rest : List Glyph
  endsLine : Bool

/-- Reads a scalar without quotes up to its end; `acc` is what has been read before `gap`,
backwards. A tab must not take the place of the spaces that put a line into its block. -/
def plainFrom (flow : Bool) (indent : Nat) (acc : List Char) (gap : Gap) :
    List Glyph → Option Plain
  | [] => some ⟨String.ofList acc.reverse, [], gap.hasBreak⟩
  | g :: rest =>
    if isBreak g.char then plainFrom flow indent acc (gap.addBreak g.char) rest
    else if g.char = '\t' ∧ gap.hasBreak = true ∧ g.column < indent then none
    else if isSpace g.char then plainFrom flow indent acc (gap.addSpace g.char) rest
    else match plainStep flow indent gap g rest with
      | .take => plainFrom flow indent (g.char :: (gap.content ++ acc)) (.spaces []) rest
      | .stop => some ⟨String.ofList acc.reverse, g :: rest, gap.hasBreak⟩
      | .refuse => none

/-- Reads the scalar without quotes that begins here. -/
def plain? (flow : Bool) (indent : Nat) (gs : List Glyph) : Option Plain :=
  plainFrom flow indent [] (.spaces []) gs

end PatternQuery.Yaml
