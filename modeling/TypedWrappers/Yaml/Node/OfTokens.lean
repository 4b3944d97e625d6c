import TypedWrappers.Yaml.Node

/-!
# YAML nodes from tokens

The grammar of YAML over tokens: `Node.readNode` reads one node, `Node.ofTokens?` a stream of at most one document.
An entry, key or value that is not written is an empty plain scalar.
-/

namespace TypedWrappers.Yaml.Node

/-- Whether the next token is one of a few. -/
def nextIs (p : Token → Bool) (ts : List Token) : Bool :=
  (ts.head?.map p).getD false

/-- Nothing is written between this token and the one in front of it in a block sequence. -/
def endsBlockItem : Token → Bool
  | .blockEntry | .blockEnd => true
  | _ => false

/-- Nothing is written between this token and the hyphen in front of it in a sequence that is not indented. -/
def endsIndentlessItem : Token → Bool
  | .blockEntry | .key | .value | .blockEnd => true
  | _ => false

/-- Nothing is written between this token and the indicator in front of it in a block mapping. -/
def endsBlockPart : Token → Bool
  | .key | .value | .blockEnd => true
  | _ => false

/-- Nothing is written between this token and the key indicator in front of it in a flow collection. -/
def endsFlowKey (closing : Token → Bool) : Token → Bool
  | .value | .flowEntry => true
  | token => closing token

/-- Nothing is written between this token and the value indicator in front of it in a flow collection. -/
def endsFlowValue (closing : Token → Bool) : Token → Bool
  | .flowEntry => true
  | token => closing token

/-- The bracket that closes a flow sequence. -/
def closesSequence : Token → Bool
  | .flowSequenceEnd => true
  | _ => false

/-- The brace that closes a flow mapping. -/
def closesMapping : Token → Bool
  | .flowMappingEnd => true
  | _ => false

/-- The anchor and the tag in front of a node, in either order. -/
def readProperties (handles : List HandleMeaning) (ts : List Token) :
    Option (Option String × Option Tag × List Token) :=
  match ts with
  | .anchor name :: .tag text :: ts => (Tag.resolve? handles text).map fun tag => (some name, some tag, ts)
  | .anchor name :: ts => some (some name, none, ts)
  | .tag text :: .anchor name :: ts => (Tag.resolve? handles text).map fun tag => (some name, some tag, ts)
  | .tag text :: ts => (Tag.resolve? handles text).map fun tag => (none, some tag, ts)
  | ts => some (none, none, ts)

mutual

/-- Reads a node. Block collections count only where `block` holds, and a sequence that is not indented only where
`indentless` does. -/
def readNode (handles : List HandleMeaning) :
    (fuel : Nat) → (block indentless : Bool) → List Token → Option (Node String × List Token)
  | 0, _, _, _ => none
  | _ + 1, _, _, .aliasOf name :: ts => some (.aliasOf name, ts)
  | fuel + 1, block, indentless, ts =>
    match readProperties handles ts with
    | none => none
    | some (anchor, tag, ts) =>
      match ts, block, indentless with
      | .blockEntry :: _, _, true =>
        (readIndentless handles fuel ts).map fun (items, ts) => (.sequence anchor tag items, ts)
      | .scalar text style :: ts, _, _ => some (.scalar anchor tag text style, ts)
      | .flowSequenceStart :: ts, _, _ =>
        (readFlowItems handles fuel true ts).map fun (items, ts) => (.sequence anchor tag items, ts)
      | .flowMappingStart :: ts, _, _ =>
        (readFlowPairs handles fuel true ts).map fun (pairs, ts) => (.mapping anchor tag pairs, ts)
      | .blockSequenceStart :: ts, true, _ =>
        (readBlockItems handles fuel ts).map fun (items, ts) => (.sequence anchor tag items, ts)
      | .blockMappingStart :: ts, true, _ =>
        (readBlockPairs handles fuel ts).map fun (pairs, ts) => (.mapping anchor tag pairs, ts)
      | ts, _, _ => if anchor.isSome || tag.isSome then some (.scalar anchor tag "" .plain, ts) else none

/-- Reads a node, or nothing in front of a token that ends the place for one. -/
def readUnless (handles : List HandleMeaning) :
    (fuel : Nat) → (ends : Token → Bool) → (block indentless : Bool) → List Token →
      Option (Node String × List Token)
  | 0, _, _, _, _ => none
  | fuel + 1, ends, block, indentless, ts =>
    if nextIs ends ts then some (.blank, ts) else readNode handles fuel block indentless ts

/-- Reads the items of a block sequence and its end. -/
def readBlockItems (handles : List HandleMeaning) :
    (fuel : Nat) → List Token → Option (List (Node String) × List Token)
  | 0, _ => none
  | fuel + 1, .blockEntry :: ts => do
    let (item, ts) ← readUnless handles fuel endsBlockItem true false ts
    let (items, ts) ← readBlockItems handles fuel ts
    some (item :: items, ts)
  | _ + 1, .blockEnd :: ts => some ([], ts)
  | _ + 1, _ => none

/-- Reads the items of a sequence that is not indented; any other token ends it. -/
def readIndentless (handles : List HandleMeaning) :
    (fuel : Nat) → List Token → Option (List (Node String) × List Token)
  | 0, _ => none
  | fuel + 1, .blockEntry :: ts => do
    let (item, ts) ← readUnless handles fuel endsIndentlessItem true false ts
    let (items, ts) ← readIndentless handles fuel ts
    some (item :: items, ts)
  | _ + 1, ts => some ([], ts)

/-- Reads the pairs of a block mapping and its end. -/
def readBlockPairs (handles : List HandleMeaning) :
    (fuel : Nat) → List Token → Option (List (Node String × Node String) × List Token)
  | 0, _ => none
  | fuel + 1, .key :: ts => do
    let (key, ts) ← readUnless handles fuel endsBlockPart true true ts
    let (value, ts) ←
      match ts with
      | .value :: ts => readUnless handles fuel endsBlockPart true true ts
      | ts => some (.blank, ts)
    let (pairs, ts) ← readBlockPairs handles fuel ts
    some ((key, value) :: pairs, ts)
  | _ + 1, .blockEnd :: ts => some ([], ts)
  | _ + 1, _ => none

/-- Reads the value of a pair in a flow collection, if the value indicator is there. -/
def readFlowValue (handles : List HandleMeaning) :
    (fuel : Nat) → (closing : Token → Bool) → List Token → Option (Node String × List Token)
  | fuel + 1, closing, .value :: ts => readUnless handles fuel (endsFlowValue closing) false false ts
  | _, _, ts => some (.blank, ts)

/-- Reads the items of a flow sequence and its end, with a comma in front of all but the first. An item may be a pair
after a key indicator; a pair with nothing for a key loses the token behind the indicator. -/
def readFlowItems (handles : List HandleMeaning) :
    (fuel : Nat) → (first : Bool) → List Token → Option (List (Node String) × List Token)
  | 0, _, _ => none
  | _ + 1, _, .flowSequenceEnd :: ts => some ([], ts)
  | fuel + 1, first, ts => do
    let ts ←
      match first, ts with
      | true, ts => some ts
      | false, .flowEntry :: ts => some ts
      | false, _ => none
    match ts with
    | .flowSequenceEnd :: ts => some ([], ts)
    | .key :: ts =>
      let (key, ts) ←
        if nextIs (endsFlowKey closesSequence) ts then some (.blank, ts.drop 1)
        else readNode handles fuel false false ts
      let (value, ts) ← readFlowValue handles fuel closesSequence ts
      let (items, ts) ← readFlowItems handles fuel false ts
      some (.mapping none none [(key, value)] :: items, ts)
    | ts =>
      let (item, ts) ← readNode handles fuel false false ts
      let (items, ts) ← readFlowItems handles fuel false ts
      some (item :: items, ts)

/-- Reads the pairs of a flow mapping and its end, with a comma in front of all but the first. -/
def readFlowPairs (handles : List HandleMeaning) :
    (fuel : Nat) → (first : Bool) → List Token → Option (List (Node String × Node String) × List Token)
  | 0, _, _ => none
  | _ + 1, _, .flowMappingEnd :: ts => some ([], ts)
  | fuel + 1, first, ts => do
    let ts ←
      match first, ts with
      | true, ts => some ts
      | false, .flowEntry :: ts => some ts
      | false, _ => none
    match ts with
    | .flowMappingEnd :: ts => some ([], ts)
    | .key :: ts =>
      let (key, ts) ← readUnless handles fuel (endsFlowKey closesMapping) false false ts
      let (value, ts) ← readFlowValue handles fuel closesMapping ts
      let (pairs, ts) ← readFlowPairs handles fuel false ts
      some ((key, value) :: pairs, ts)
    | ts =>
      let (key, ts) ← readNode handles fuel false false ts
      let (pairs, ts) ← readFlowPairs handles fuel false ts
      some ((key, .blank) :: pairs, ts)

end

/-! ## Documents -/

/-- The directives in front of a document: at most one version, which must be 1.1 or 1.2, and no handle twice. -/
def readDirectives (version : Bool) (handles : List HandleMeaning) :
    List Token → Option (List HandleMeaning × List Token)
  | .versionDirective major minor :: ts =>
    if version || major ≠ 1 || (minor ≠ 1 && minor ≠ 2) then none else readDirectives true handles ts
  | .tagDirective handle meaning :: ts =>
    if (handles.lookup handle).isSome then none else readDirectives version (handles ++ [(handle, meaning)]) ts
  | ts => some (handles, ts)

/-- Whether a token starts a document or something in front of one. -/
def opensDocument : Token → Bool
  | .versionDirective .. | .tagDirective .. | .documentStart => true
  | _ => false

/-- Whether a token ends an empty document. -/
def endsEmptyDocument : Token → Bool
  | .documentEnd => true
  | token => opensDocument token

/-- Whether a token marks the end of a document. -/
def isDocumentEnd : Token → Bool
  | .documentEnd => true
  | _ => false

/-- Nested calls that suffice for a list of tokens. -/
def nodeFuel (ts : List Token) : Nat :=
  3 * ts.length + 3

/-- Reads the first document of a stream. -/
def readDocument (ts : List Token) : Option (Node String × List Token) :=
  if nextIs opensDocument ts then
    match readDirectives false [] ts with
    | some (handles, .documentStart :: ts) =>
      if ts = [] || nextIs endsEmptyDocument ts then some (.blank, ts)
      else readNode handles (nodeFuel ts) true false ts
    | _ => none
  else readNode [] (nodeFuel ts) true false ts

/-- Reads a stream of one document, or of none. -/
def ofTokens? (ts : List Token) : Option (Option (Node String)) :=
  if ts = [] then some none
  else
    match readDocument ts with
    | some (node, rest) => if rest.all isDocumentEnd then some (some node) else none
    | none => none

end TypedWrappers.Yaml.Node
