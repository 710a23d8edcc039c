import PatternQuery.Yaml.Token

/-!
# Reading YAML

`Yaml.read?` reads a text with one document: block sequences and mappings, flow collections, and
scalars. JSON documents are such texts. Anchors, tags and block scalars are not part of the format,
and neither are documents with too many collections inside each other.
-/

namespace PatternQuery.Yaml

/-- Whether an entry of a flow collection ends here. -/
def endsFlowEntry : List Token → Bool
  | .comma :: _ | .flowListEnd :: _ | .flowRecordEnd :: _ => true
  | _ => false

/-- Whether a block item or a part of a block field ends here. -/
def endsBlockEntry : List Token → Bool
  | .item :: _ | .key :: _ | .value :: _ | .blockEnd :: _ => true
  | _ => false

mutual

/-- Reads a node of a flow collection. -/
def flowNode : Nat → List Token → Option (Document × List Token)
  | 0, _ => none
  | _ + 1, .scalar d :: rest => some (d, rest)
  | fuel + 1, .flowList :: rest => flowItems fuel true [] rest
  | fuel + 1, .flowRecord :: rest => flowFields fuel true [] rest
  | _ + 1, _ => none

/-- Reads what stands behind a key of a flow collection: a value, if there is a colon. -/
def flowValue : Nat → List Token → Option (Document × List Token)
  | 0, _ => none
  | fuel + 1, .value :: rest =>
    if endsFlowEntry rest then some (blank, rest) else flowNode fuel rest
  | _ + 1, ts => some (blank, ts)

/-- Reads an item of a flow sequence that is a mapping of one field. A missing key takes the place
of the token behind it. -/
def flowPair : Nat → List Token → Option (Document × List Token)
  | 0, _ => none
  | fuel + 1, ts => do
    let (key, rest) ← match ts with
      | .value :: rest | .comma :: rest | .flowListEnd :: rest => some (blank, rest)
      | ts => flowNode fuel ts
    let (value, rest) ← flowValue fuel rest
    return (.record [(key, value)], rest)

/-- Reads the items of a flow sequence. All but the first have a comma in front. -/
def flowItems : Nat → Bool → List Document → List Token → Option (Document × List Token)
  | 0, _, _, _ => none
  | _ + 1, _, acc, .flowListEnd :: rest => some (.list acc.reverse, rest)
  | fuel + 1, false, acc, .comma :: rest => flowItems fuel true acc rest
  | _ + 1, false, _, _ => none
  | fuel + 1, true, acc, .key :: rest => do
    let (item, rest) ← flowPair fuel rest
    flowItems fuel false (item :: acc) rest
  | fuel + 1, true, acc, ts => do
    let (item, rest) ← flowNode fuel ts
    flowItems fuel false (item :: acc) rest

/-- Reads the fields of a flow mapping. All but the first have a comma in front. A field without a
colon has no value. -/
def flowFields : Nat → Bool → List (Document × Document) → List Token →
    Option (Document × List Token)
  | 0, _, _, _ => none
  | _ + 1, _, acc, .flowRecordEnd :: rest => some (.record acc.reverse, rest)
  | fuel + 1, false, acc, .comma :: rest => flowFields fuel true acc rest
  | _ + 1, false, _, _ => none
  | fuel + 1, true, acc, .key :: rest => do
    let (key, rest) ← match rest with
      | .value :: _ => some (blank, rest)
      | rest => if endsFlowEntry rest then some (blank, rest) else flowNode fuel rest
    let (value, rest) ← flowValue fuel rest
    flowFields fuel false ((key, value) :: acc) rest
  | fuel + 1, true, acc, ts => do
    let (key, rest) ← flowNode fuel ts
    flowFields fuel false ((key, blank) :: acc) rest

end

mutual

/-- Reads a node. The items of a block sequence that is the key or the value of a field may stand
at the column of the field, and then no token bounds them. -/
def blockNode : Nat → Bool → List Token → Option (Document × List Token)
  | 0, _, _ => none
  | fuel + 1, true, .item :: rest => looseItems fuel [] (.item :: rest)
  | fuel + 1, _, .blockList :: rest => blockItems fuel [] rest
  | fuel + 1, _, .blockRecord :: rest => blockFields fuel [] rest
  | fuel + 1, _, ts => flowNode (fuel + 1) ts

/-- Reads a part of a field, unless it is missing. -/
def blockPart : Nat → List Token → Option (Document × List Token)
  | 0, _ => none
  | fuel + 1, .item :: rest => blockNode fuel true (.item :: rest)
  | fuel + 1, ts => if endsBlockEntry ts then some (blank, ts) else blockNode fuel true ts

/-- Reads the items of a block sequence. -/
def blockItems : Nat → List Document → List Token → Option (Document × List Token)
  | fuel + 1, acc, .item :: rest => do
    let (item, rest) ← match rest with
      | .item :: _ | .blockEnd :: _ => some (blank, rest)
      | rest => blockNode fuel false rest
    blockItems fuel (item :: acc) rest
  | _ + 1, acc, .blockEnd :: rest => some (.list acc.reverse, rest)
  | _, _, _ => none

/-- Reads the items of a block sequence that no token bounds. -/
def looseItems : Nat → List Document → List Token → Option (Document × List Token)
  | 0, _, _ => none
  | fuel + 1, acc, .item :: rest => do
    let (item, rest) ←
      if endsBlockEntry rest then some (blank, rest) else blockNode fuel false rest
    looseItems fuel (item :: acc) rest
  | _ + 1, acc, ts => some (.list acc.reverse, ts)

/-- Reads the fields of a block mapping. -/
def blockFields : Nat → List (Document × Document) → List Token → Option (Document × List Token)
  | fuel + 1, acc, .key :: rest => do
    let (key, rest) ← blockPart fuel rest
    let (value, rest) ← match rest with
      | .value :: rest => blockPart fuel rest
      | rest => some (blank, rest)
    blockFields fuel ((key, value) :: acc) rest
  | _ + 1, acc, .blockEnd :: rest => some (.record acc.reverse, rest)
  | _, _, _ => none

end

/-- How many collections may be inside each other. -/
def depthLimit : Nat := 128

def isDocumentEnd : Token → Bool
  | .documentEnd => true
  | _ => false

/-- Reads what stands behind a start marker. It may be missing. -/
def markedDocument (fuel : Nat) : List Token → Option (Document × List Token)
  | [] => some (blank, [])
  | .documentEnd :: rest => some (blank, .documentEnd :: rest)
  | ts => blockNode fuel false ts

/-- Reads the tokens of one document. Further end markers may follow it. -/
def ofTokens? (ts : List Token) : Option Document := do
  let fuel := 3 * ts.length + 8
  let (doc, rest) ← match ts with
    | [] => none
    | .version :: .documentStart :: rest => markedDocument fuel rest
    | .documentStart :: rest => markedDocument fuel rest
    | ts => blockNode fuel false ts
  if rest.all isDocumentEnd then some (doc.cutBelow depthLimit) else none

/-- Reads a text with one document. A text without any content has none. -/
def read? (s : String) : Option Document := (tokens? s).bind ofTokens?

end PatternQuery.Yaml
