import TypedWrappers.Yaml.Scalar.Block
import TypedWrappers.Yaml.Scalar.Plain
import TypedWrappers.Yaml.Scalar.Quoted
import TypedWrappers.Yaml.Token

/-!
# Reading YAML tokens

`Token.scan?` splits a text into tokens. Outside flow collections the indentation decides where blocks start and end:
`Scanner.openBlock` and `Scanner.closeBlocks` add those tokens.

A key of a mapping is known as one only when the colon behind it is reached. So each place where a key may start is
remembered (`PossibleKey`), and the tokens that a key needs are put in at that place afterwards. Such a key stands on
one line and has at most 1024 bytes.
-/

namespace TypedWrappers.Yaml

/-- A place where the key of a mapping may have started. -/
structure PossibleKey where
  /-- Whether the block allows nothing but a key here. -/
  isRequired : Bool
  /-- How many tokens stand in front of it. -/
  position : Nat
  /-- Where it starts. -/
  index : Nat
  line : Nat
  column : Nat
  deriving Repr

/-- The state of reading tokens. -/
structure Scanner where
  /-- The place in the text. -/
  cursor : Cursor
  /-- The tokens read so far. -/
  tokens : Array Token
  /-- One more than the column of the innermost block; zero outside all blocks. -/
  indent : Nat
  /-- The same of the blocks around it. -/
  outerIndents : List Nat
  /-- For each flow collection around this place, innermost first, the key that may have started in it; the last entry
  is for the surrounding block. -/
  keys : List (Option PossibleKey)
  /-- Whether a key may start here. -/
  keyAllowed : Bool

namespace Scanner

/-- The start of a text. -/
def start (cs : List Char) : Scanner :=
  ⟨.start cs, #[], 0, [], [none], true⟩

/-- Whether a flow collection surrounds this place. -/
def inFlow (s : Scanner) : Bool :=
  1 < s.keys.length

/-- One more than the column of the next character, to compare with the indentation. -/
def margin (s : Scanner) : Nat :=
  s.cursor.column + 1

/-- Adds a token. -/
def emit (token : Token) (s : Scanner) : Scanner :=
  { s with tokens := s.tokens.push token }

/-- Goes several characters further. -/
def advance (n : Nat) (s : Scanner) : Scanner :=
  { s with cursor := s.cursor.skipMany n }

/-- Goes to another place. -/
def moveTo (c : Cursor) (s : Scanner) : Scanner :=
  { s with cursor := c }

/-- Says whether a key may start behind this place. -/
def allowKey (allowed : Bool) (s : Scanner) : Scanner :=
  { s with keyAllowed := allowed }

/-! ## Blocks -/

/-- Ends the blocks that stand further right than `margin`. -/
def closeFrom (margin : Nat) : (indents : List Nat) → (indent : Nat) → Array Token → Nat × List Nat × Array Token
  | [], indent, tokens => (indent, [], tokens)
  | outer :: rest, indent, tokens =>
    if margin < indent then closeFrom margin rest outer (tokens.push .blockEnd) else (indent, outer :: rest, tokens)

/-- Ends the blocks that stand further right than `margin`, unless a flow collection surrounds this place. -/
def closeBlocks (margin : Nat) (s : Scanner) : Scanner :=
  if s.inFlow then s
  else
    match closeFrom margin s.outerIndents s.indent s.tokens with
    | (indent, outer, tokens) => { s with indent, outerIndents := outer, tokens }

/-- Starts a block at `margin`, its token standing at `position`, if that is further right than the innermost block and
no flow collection surrounds this place. -/
def openBlock (margin position : Nat) (token : Token) (s : Scanner) : Scanner :=
  if s.inFlow then s
  else if s.indent < margin then
    { s with
      indent := margin, outerIndents := s.indent :: s.outerIndents,
      tokens := s.tokens.insertIdxIfInBounds position token }
  else s

/-! ## Possible keys -/

/-- Forgets a key that this place is too far away from; fails if the block needed one. -/
def expireKey (c : Cursor) : Option PossibleKey → Option (Option PossibleKey)
  | some key =>
    if key.line < c.line || key.index + 1024 < c.index then if key.isRequired then none else some none
    else some (some key)
  | none => some none

/-- Forgets all keys that this place is too far away from. -/
def expireKeys (s : Scanner) : Option Scanner :=
  (s.keys.mapM (expireKey s.cursor)).map fun keys => { s with keys }

/-- Forgets the key of the innermost collection; fails if the block needed one. -/
def dropKey (s : Scanner) : Option Scanner :=
  match s.keys with
  | some key :: rest => if key.isRequired then none else some { s with keys := none :: rest }
  | _ => some s

/-- Remembers this place as one where a key may start. -/
def saveKey (s : Scanner) : Option Scanner :=
  if s.keyAllowed then
    s.dropKey.map fun s =>
      let key : PossibleKey :=
        ⟨!s.inFlow && s.indent = s.margin, s.tokens.size, s.cursor.index, s.cursor.line, s.cursor.column⟩
      { s with keys := some key :: s.keys.drop 1 }
  else some s

/-! ## Blanks between tokens -/

/-- Goes to the next token: over blanks, comments and line breaks. A tab counts as a blank where no key may start, and
a byte order mark may start a line. -/
def skipToToken : (fuel : Nat) → Scanner → Scanner
  | 0, s => s
  | fuel + 1, s =>
    let c := if s.cursor.column = 0 && s.cursor.rest.head? = some '\uFEFF' then s.cursor.skip else s.cursor
    let c := c.skipWhile fun ch => ch = ' ' || ((s.inFlow || !s.keyAllowed) && ch = '\t')
    let c := if c.rest.head? = some '#' then c.skipWhile fun ch => !isBreak ch else c
    if (c.rest.head?.map isBreak).getD false then
      skipToToken fuel { s with cursor := c.skipBreak, keyAllowed := s.keyAllowed || !s.inFlow }
    else s.moveTo c

/-! ## Directives -/

/-- A number of at most nine digits. -/
def readVersionNumber (cs : List Char) : Option (Nat × List Char) :=
  let digits := cs.takeWhile Char.isDigit
  if digits = [] || 9 < digits.length then none
  else some (digits.foldl (fun n c => n * 10 + (c.toNat - 48)) 0, cs.drop digits.length)

/-- The version that a directive states. -/
def readVersion (cs : List Char) : Option (Token × List Char) :=
  match readVersionNumber (cs.dropWhile isSpaceOrTab) with
  | some (major, '.' :: cs) => (readVersionNumber cs).map fun (minor, rest) => (.versionDirective major minor, rest)
  | _ => none

/-- The handle that a directive declares, and its meaning. -/
def readHandleDirective (cs : List Char) : Option (Token × List Char) := do
  let (handle, rest) ← readHandle (cs.dropWhile isSpaceOrTab)
  if isFullHandle handle || handle = ['!'] then
    if (rest.head?.map isSpaceOrTab).getD false then
      let start := rest.dropWhile isSpaceOrTab
      let (meaning, rest) ← readTagText true start
      if rest.length = start.length || !atBlankOrEnd rest then none
      else some (.tagDirective handle meaning, rest)
    else none
  else none

/-- A directive behind its percent sign. -/
def readDirective (cs : List Char) : Option (Token × List Char) :=
  let name := cs.takeWhile isWordChar
  let rest := cs.drop name.length
  if name = [] || !atBlankOrEnd rest then none
  else if name = "YAML".toList then readVersion rest
  else if name = "TAG".toList then readHandleDirective rest
  else none

/-! ## One token -/

/-- A directive and the rest of its line. -/
def fetchDirective (s : Scanner) : Option Scanner := do
  let s ← (s.closeBlocks 0).dropKey
  let cs := s.cursor.rest
  let (token, rest) ← readDirective (cs.drop 1)
  let c ← skipLineEnd (s.cursor.skipMany (cs.length - rest.length))
  some ((s.emit token).moveTo c |>.allowKey false)

/-- The start or the end of a document. -/
def fetchDocumentMark (token : Token) (s : Scanner) : Option Scanner := do
  let s ← (s.closeBlocks 0).dropKey
  some ((s.emit token).advance 3 |>.allowKey false)

/-- The start of a flow collection. -/
def fetchFlowStart (token : Token) (s : Scanner) : Option Scanner := do
  let s ← s.saveKey
  let s := (s.emit token).advance 1 |>.allowKey true
  some { s with keys := none :: s.keys }

/-- The end of a flow collection. -/
def fetchFlowEnd (token : Token) (s : Scanner) : Option Scanner := do
  let s ← s.dropKey
  let s := (s.emit token).advance 1 |>.allowKey false
  some { s with keys := if s.inFlow then s.keys.drop 1 else s.keys }

/-- A comma between the entries of a flow collection. -/
def fetchFlowEntry (s : Scanner) : Option Scanner := do
  let s ← s.dropKey
  some ((s.emit .flowEntry).advance 1 |>.allowKey true)

/-- A hyphen in front of an item of a sequence. -/
def fetchBlockEntry (s : Scanner) : Option Scanner := do
  if !s.inFlow && !s.keyAllowed then none
  let s ← (s.openBlock s.margin s.tokens.size .blockSequenceStart).dropKey
  some ((s.emit .blockEntry).advance 1 |>.allowKey true)

/-- A question mark in front of a key. -/
def fetchKey (s : Scanner) : Option Scanner := do
  if !s.inFlow && !s.keyAllowed then none
  let s ← (s.openBlock s.margin s.tokens.size .blockMappingStart).dropKey
  some ((s.emit .key).advance 1 |>.allowKey !s.inFlow)

/-- A colon in front of a value. It makes the place remembered last a key, or else follows a key that was marked. -/
def fetchValue (s : Scanner) : Option Scanner := do
  match s.keys with
  | some key :: rest =>
    let s := { s with tokens := s.tokens.insertIdxIfInBounds key.position .key, keys := none :: rest }
    let s := s.openBlock (key.column + 1) key.position .blockMappingStart
    some ((s.emit .value).advance 1 |>.allowKey false)
  | _ =>
    if !s.inFlow && !s.keyAllowed then none
    let s := s.openBlock s.margin s.tokens.size .blockMappingStart
    some ((s.emit .value).advance 1 |>.allowKey !s.inFlow)

/-- An alias or an anchor: a name of word characters with a blank or an indicator behind it. -/
def fetchName (token : String → Token) (s : Scanner) : Option Scanner := do
  let s ← s.saveKey
  let name := (s.cursor.rest.drop 1).takeWhile isWordChar
  let s := s.advance (name.length + 1)
  let ends :=
    match s.cursor.rest with
    | [] => true
    | c :: _ => atBlankOrEnd [c] || ['?', ':', ',', ']', '\x7d', '%', '@', '\x60'].contains c
  if name = [] || !ends then none
  else some ((s.emit (token (String.ofList name))).allowKey false)

/-- A tag. -/
def fetchTag (s : Scanner) : Option Scanner := do
  let s ← s.saveKey
  let (tag, rest) ← readTag s.inFlow s.cursor.rest
  some ((s.emit (.tag tag)).advance (s.cursor.rest.length - rest.length) |>.allowKey false)

/-- A block scalar. -/
def fetchBlockScalar (folded : Bool) (s : Scanner) : Option Scanner := do
  let s ← s.dropKey
  let (text, c) ← readBlock folded s.indent s.cursor
  let style := if folded then Style.folded else .literal
  some ((s.emit (.scalar (String.ofList text) style)).moveTo c |>.allowKey true)

/-- A quoted scalar. -/
def fetchQuoted (single : Bool) (s : Scanner) : Option Scanner := do
  let s ← s.saveKey
  let (text, c) ← readQuoted single s.cursor
  let style := if single then Style.singleQuoted else .doubleQuoted
  some ((s.emit (.scalar (String.ofList text) style)).moveTo c |>.allowKey false)

/-- A plain scalar. Where it ends on a later line a key may start behind it. -/
def fetchPlain (s : Scanner) : Option Scanner := do
  let s ← s.saveKey
  let (text, broken, c) ← readPlain s.inFlow s.indent s.cursor
  some ((s.emit (.scalar (String.ofList text) .plain)).moveTo c |>.allowKey broken)

/-- The characters that no plain scalar starts with, as far as what follows does not matter. -/
def isIndicator (c : Char) : Bool :=
  ['-', '?', ':', ',', '[', ']', '\x7b', '\x7d', '#', '&', '*', '!', '|', '>', '\'', '"', '%', '@', '\x60'].contains c

/-- Whether a plain scalar starts here: not with an indicator, but with a hyphen in front of no blank, and outside flow
collections with a question mark or a colon in front of none. -/
def startsPlain (inFlow : Bool) : List Char → Bool
  | [] => false
  | c :: cs =>
    (!isBreak c && !isSpaceOrTab c && !isIndicator c) ||
      (c = '-' && !(cs.head?.map isSpaceOrTab).getD false) ||
      (!inFlow && (c = '?' || c = ':') && !atBlankOrEnd cs)

/-- Reads the token at this place. -/
def fetch (s : Scanner) : Option Scanner :=
  let cs := s.cursor.rest
  let marks (c : Char) : Bool := cs.head? = some c
  let beforeBlank := atBlankOrEnd (cs.drop 1)
  if s.cursor.column = 0 && marks '%' then s.fetchDirective
  else if s.cursor.startsWithMark '-' then s.fetchDocumentMark .documentStart
  else if s.cursor.startsWithMark '.' then s.fetchDocumentMark .documentEnd
  else if marks '[' then s.fetchFlowStart .flowSequenceStart
  else if marks '\x7b' then s.fetchFlowStart .flowMappingStart
  else if marks ']' then s.fetchFlowEnd .flowSequenceEnd
  else if marks '\x7d' then s.fetchFlowEnd .flowMappingEnd
  else if marks ',' then s.fetchFlowEntry
  else if marks '-' && beforeBlank then s.fetchBlockEntry
  else if marks '?' && (s.inFlow || beforeBlank) then s.fetchKey
  else if marks ':' && (s.inFlow || beforeBlank) then s.fetchValue
  else if marks '*' then s.fetchName .aliasOf
  else if marks '&' then s.fetchName .anchor
  else if marks '!' then s.fetchTag
  else if marks '|' && !s.inFlow then s.fetchBlockScalar false
  else if marks '>' && !s.inFlow then s.fetchBlockScalar true
  else if marks '\'' then s.fetchQuoted true
  else if marks '"' then s.fetchQuoted false
  else if startsPlain s.inFlow cs then s.fetchPlain
  else none

/-- Reads all tokens. The blocks that are open at the end of the text end there. The bound is more than the characters
that are left, and each token takes one at least. -/
def run : (fuel : Nat) → Scanner → Option (List Token)
  | 0, _ => none
  | fuel + 1, s => do
    let s := s.skipToToken (fuel + 1)
    let s ← s.expireKeys
    let s := s.closeBlocks s.margin
    if s.cursor.rest = [] then
      let s ← (s.closeBlocks 0).dropKey
      some s.tokens.toList
    else
      let s ← s.fetch
      run fuel s

end Scanner

/-- The tokens of a text. A text with a character that may not stand in a stream has none. -/
def Token.scan? (cs : List Char) : Option (List Token) :=
  if cs.all isPermitted then (Scanner.start cs).run (cs.length + 2) else none

end TypedWrappers.Yaml
