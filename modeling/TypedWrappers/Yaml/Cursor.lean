/-!
# A place in YAML text

The characters of a YAML stream by class, and a place in the stream: what is still to be read, how much has been read,
and the line and column of the next character. Lines end at a line feed, a carriage return with or without one, and at
the three further breaks of YAML 1.1.

- `Cursor.skip`, `Cursor.skipBreak`: one character further, and past one line break;
- `Cursor.atDocumentMark`: whether a line starts with three hyphens or three dots.
-/

namespace TypedWrappers.Yaml

/-- A space or a tab. -/
def isSpaceOrTab (c : Char) : Bool :=
  c = ' ' || c = '\t'

/-- A character that ends a line. -/
def isBreak (c : Char) : Bool :=
  c = '\n' || c = '\r' || c = '\u0085' || c = '\u2028' || c = '\u2029'

/-- A character of an anchor, of a directive's name or of a tag's handle. -/
def isWordChar (c : Char) : Bool :=
  c.isAlphanum || c = '_' || c = '-'

/-- The characters that may stand in a stream at all. -/
def isPermitted (c : Char) : Bool :=
  c = '\t' || c = '\n' || c = '\r' || (0x20 ≤ c.toNat && c.toNat ≤ 0x7E) || c.toNat = 0x85 ||
    (0xA0 ≤ c.toNat && c.toNat ≤ 0xFFFD) || 0x10000 ≤ c.toNat

/-- Whether the text is at its end, at a line break, a space or a tab. -/
def atBlankOrEnd : List Char → Bool
  | [] => true
  | c :: _ => isBreak c || isSpaceOrTab c

/-- The characters of the line break at the front, a carriage return and a line feed being one break. -/
def breakWidth : List Char → Nat
  | '\r' :: '\n' :: _ => 2
  | _ :: _ => 1
  | [] => 0

/-- The character that a line break adds to a scalar: a line feed, but for the two separators of their own. -/
def breakChar (c : Char) : Char :=
  if c = '\u2028' || c = '\u2029' then c else '\n'

/-- The bytes of a text in UTF-8. -/
def byteCount (cs : List Char) : Nat :=
  cs.foldl (fun n c => n + c.utf8Size) 0

/-- A place in the text. -/
structure Cursor where
  /-- What is still to be read. -/
  rest : List Char
  /-- The bytes read so far, in UTF-8. -/
  index : Nat
  /-- The line breaks read so far. -/
  line : Nat
  /-- The characters read on this line. -/
  column : Nat
  deriving Repr

namespace Cursor

/-- The start of a text. -/
def start (cs : List Char) : Cursor :=
  ⟨cs, 0, 0, 0⟩

/-- Several characters further on the same line. -/
def skipMany (n : Nat) (c : Cursor) : Cursor :=
  { c with rest := c.rest.drop n, index := c.index + byteCount (c.rest.take n), column := c.column + n }

/-- One character further on the same line. -/
def skip (c : Cursor) : Cursor :=
  c.skipMany 1

/-- Past one line break. -/
def skipBreak (c : Cursor) : Cursor :=
  let width := breakWidth c.rest
  { rest := c.rest.drop width, index := c.index + byteCount (c.rest.take width), line := c.line + 1, column := 0 }

/-- Past all characters of a class at the front; no line break may be of the class. -/
def skipWhile (p : Char → Bool) (c : Cursor) : Cursor :=
  c.skipMany (c.rest.takeWhile p).length

/-- Whether a line starts here with one character three times and a blank after it. -/
def startsWithMark (mark : Char) (c : Cursor) : Bool :=
  c.column = 0 && [mark, mark, mark].isPrefixOf c.rest && atBlankOrEnd (c.rest.drop 3)

/-- Whether the start or the end of a document is marked here. -/
def atDocumentMark (c : Cursor) : Bool :=
  c.startsWithMark '-' || c.startsWithMark '.'

end Cursor

end TypedWrappers.Yaml
