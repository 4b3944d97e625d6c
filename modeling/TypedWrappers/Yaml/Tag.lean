import TypedWrappers.Text.Hex
import TypedWrappers.Yaml.Cursor

/-!
# Tags

A tag as it is written, a handle and a suffix, and as it is meant, the handle replaced by what a directive or the
standard gives it. Escapes write single bytes, so both parts are bytes until they are put together.

- `readTag`: a tag at its exclamation mark; `readHandle`, `readTagText`: the parts, which directives use too;
- `Tag.resolve?`: the meaning, given the handles that are declared.
-/

namespace TypedWrappers.Yaml

open Text

/-- The meaning of a tag. Escapes in a tag may write bytes that are no text; such a tag has no name. -/
inductive Tag
  | named (name : String)
  | unnamed
  deriving Repr, DecidableEq

namespace Tag

/-- The tag of the null value. -/
def nullTag : Tag :=
  .named "tag:yaml.org,2002:null"

/-- The tag of truth values. -/
def boolTag : Tag :=
  .named "tag:yaml.org,2002:bool"

/-- The name behind the exclamation mark of a local tag; it is empty where the mark stands alone. -/
def localName? : Tag → Option String
  | .named name =>
    match name.toList with
    | '!' :: cs => some (String.ofList cs)
    | _ => none
  | .unnamed => none

/-- The tag that bytes write. -/
def ofBytes (bytes : List UInt8) : Tag :=
  match String.fromUTF8? bytes.toByteArray with
  | some name => .named name
  | none => .unnamed

end Tag

/-- Whether a character may stand in a tag; the flow indicators only where the tag is between angle brackets or in a
directive. -/
def isTagChar (verbatim : Bool) (c : Char) : Bool :=
  isWordChar c || [';', '/', '?', ':', '@', '&', '=', '+', '$', '.', '%', '!', '~', '*', '\'', '(', ')'].contains c ||
    (verbatim && [',', '[', ']'].contains c)

/-- The number of bytes that a first byte announces. -/
def utf8Width? (byte : UInt8) : Option Nat :=
  if byte < 0x80 then some 1
  else if 0xC0 ≤ byte && byte < 0xE0 then some 2
  else if 0xE0 ≤ byte && byte < 0xF0 then some 3
  else if 0xF0 ≤ byte && byte < 0xF8 then some 4
  else none

/-- The byte that an exclamation mark is written as. -/
def exclamationMark : UInt8 := 0x21

/-- Reads the byte that a percent sign and two digits write. -/
def readEscapedByte : List Char → Option (UInt8 × List Char)
  | '%' :: a :: b :: cs => (hexNumber? [a, b]).map fun n => (UInt8.ofNat n, cs)
  | _ => none

/-- Reads further bytes of a character; each must be a continuation. -/
def readContinuation : (n : Nat) → List Char → Option (List UInt8 × List Char)
  | 0, cs => some ([], cs)
  | n + 1, cs => do
    let (byte, cs) ← readEscapedByte cs
    if 0x80 ≤ byte && byte < 0xC0 then
      let (bytes, cs) ← readContinuation n cs
      some (byte :: bytes, cs)
    else none

/-- Reads a run of escapes as long as its first byte announces; the bytes may still write no character. -/
def readEscapes (cs : List Char) : Option (List UInt8 × List Char) := do
  let (first, cs) ← readEscapedByte cs
  let width ← utf8Width? first
  let (bytes, cs) ← readContinuation (width - 1) cs
  some (first :: bytes, cs)

/-- Reads the characters of a tag: the bytes that they write, escapes resolved, and what follows. -/
def readTagBytes (verbatim : Bool) : (fuel : Nat) → List Char → Option (List UInt8 × List Char)
  | 0, _ => none
  | fuel + 1, cs =>
    match cs with
    | [] => some ([], [])
    | c :: rest =>
      if c = '%' then do
        let (bytes, rest) ← readEscapes (c :: rest)
        let (more, rest) ← readTagBytes verbatim fuel rest
        some (bytes ++ more, rest)
      else if isTagChar verbatim c then do
        let (more, rest) ← readTagBytes verbatim fuel rest
        some (c.toUInt8 :: more, rest)
      else some ([], c :: rest)

/-- Reads a part of a tag, and what follows. A byte of zero ends the part, whatever is written behind it. -/
def readTagText (verbatim : Bool) (cs : List Char) : Option (List UInt8 × List Char) :=
  (readTagBytes verbatim (cs.length + 1) cs).map fun (bytes, rest) => (bytes.takeWhile (· ≠ 0), rest)

/-- Reads an exclamation mark, word characters and, if there is one, a second exclamation mark. -/
def readHandle : List Char → Option (List Char × List Char)
  | '!' :: cs =>
    let word := cs.takeWhile isWordChar
    match cs.drop word.length with
    | '!' :: cs => some ('!' :: word ++ ['!'], cs)
    | cs => some ('!' :: word, cs)
  | _ => none

/-- A tag as written: a handle, empty where the suffix is the whole tag, and a suffix. -/
structure TagText where
  /-- The handle with its exclamation marks. -/
  handle : List Char
  /-- The bytes behind the handle. -/
  suffix : List UInt8
  deriving Repr

/-- Whether a handle ends in an exclamation mark of its own, as in a pair of them. -/
def isFullHandle (handle : List Char) : Bool :=
  1 < handle.length && handle.getLast? = some '!'

/-- Reads a tag from its exclamation mark; a blank must follow, or a comma in a flow collection. -/
def readTag (inFlow : Bool) (cs : List Char) : Option (TagText × List Char) := do
  let (tag, rest) ←
    match cs with
    | '!' :: '<' :: cs => do
      let (text, rest) ← readTagText true cs
      if rest.length = cs.length then none
      else
        match rest with
        | '>' :: rest => some (⟨[], text⟩, rest)
        | _ => none
    | cs => do
      let (handle, rest) ← readHandle cs
      let (text, rest') ← readTagText false rest
      if isFullHandle handle then
        if rest'.length = rest.length then none else some (⟨handle, text⟩, rest')
      else
        let suffix := (handle.drop 1).map Char.toUInt8 ++ text
        if suffix = [] then some (⟨[], [exclamationMark]⟩, rest') else some (⟨['!'], suffix⟩, rest')
  if (inFlow && rest.head? = some ',') || atBlankOrEnd rest then some (tag, rest) else none

/-- A handle and what it stands for. -/
abbrev HandleMeaning := List Char × List UInt8

/-- The handles that need no declaration. -/
def standardHandles : List HandleMeaning :=
  [(['!'], [exclamationMark]), (['!', '!'], "tag:yaml.org,2002:".toList.map Char.toUInt8)]

/-- The meaning of a tag under declared handles; an undeclared handle has none. -/
def Tag.resolve? (handles : List HandleMeaning) (tag : TagText) : Option Tag :=
  if tag.handle = [] then some (Tag.ofBytes tag.suffix)
  else ((handles ++ standardHandles).lookup tag.handle).map fun start => Tag.ofBytes (start ++ tag.suffix)

end TypedWrappers.Yaml
