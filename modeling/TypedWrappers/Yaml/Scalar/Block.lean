import TypedWrappers.Yaml.Scalar.Fold

/-!
# Block scalars

Scalars that start with a bar or an angle bracket and hold the indented lines below, kept as they are or folded.

- `BlockHeader`: the indicators behind the opening character: which line breaks at the end are kept, and how far the
  lines are indented;
- `readBlock`: the text and the place behind it.
-/

namespace TypedWrappers.Yaml

/-- What happens to the line breaks at the end of a block scalar. -/
inductive Chomping
  | strip
  | clip
  | keep
  deriving Repr, DecidableEq

/-- The indicators behind the opening character of a block scalar. -/
structure BlockHeader where
  /-- What happens to the last line breaks. -/
  chomping : Chomping
  /-- How far the lines are indented beyond the surrounding block, if that is said. -/
  increment : Option Nat
  deriving Repr

/-- The chomping indicator at the front, which may be missing. -/
def readChomping : List Char → Option Chomping × List Char
  | '+' :: cs => (some .keep, cs)
  | '-' :: cs => (some .strip, cs)
  | cs => (none, cs)

/-- The indentation indicator at the front, which may be missing but may not be zero. -/
def readIncrement : List Char → Option (Option Nat × List Char)
  | c :: cs =>
    if c = '0' then none
    else if c.isDigit then some (some (c.toNat - 48), cs)
    else some (none, c :: cs)
  | [] => some (none, [])

/-- The indicators in either order. -/
def readHeader (cs : List Char) : Option (BlockHeader × List Char) :=
  match readChomping cs with
  | (some chomping, cs) => (readIncrement cs).map fun (increment, cs) => (⟨chomping, increment⟩, cs)
  | (none, cs) =>
    match readIncrement cs with
    | none => none
    | some (none, cs) => some (⟨.clip, none⟩, cs)
    | some (some n, cs) =>
      match readChomping cs with
      | (chomping, cs) => some (⟨chomping.getD .clip, some n⟩, cs)

/-- Skips the blanks and the comment at the end of a line and the line break, if there is one. Anything else there is
refused. -/
def skipLineEnd (c : Cursor) : Option Cursor :=
  let c := c.skipWhile isSpaceOrTab
  let c := if c.rest.head? = some '#' then c.skipWhile fun ch => !isBreak ch else c
  match c.rest with
  | [] => some c
  | ch :: _ => if isBreak ch then some c.skipBreak else none

/-- Skips indentation up to the column `indent`, or any where that is not known, and empty lines. Gives the line
breaks passed and the widest indentation seen; a tab among the indentation is refused. -/
def readEmptyLines (indent : Option Nat) :
    (fuel : Nat) → (breaks : List Char) → (widest : Nat) → Cursor → Option (List Char × Nat × Cursor)
  | 0, _, _, _ => none
  | fuel + 1, breaks, widest, c =>
    let spaces := (c.rest.takeWhile (· = ' ')).length
    let c := c.skipMany <|
      match indent with
      | some n => min spaces (n - c.column)
      | none => spaces
    let widest := max widest c.column
    match c.rest with
    | [] => some (breaks, widest, c)
    | ch :: _ =>
      if ch = '\t' && indent.all (c.column < ·) then none
      else if isBreak ch then readEmptyLines indent fuel (breaks ++ [breakChar ch]) widest c.skipBreak
      else some (breaks, widest, c)

/-- The text of the lines read so far and what may still join them to a next line. -/
structure BlockText where
  /-- The text without the break of the last line. -/
  text : List Char
  /-- The break of the last line. -/
  lineBreak : List Char
  /-- The empty lines behind it. -/
  emptyLines : List Char
  /-- Whether the last line started with a blank. -/
  startsBlank : Bool
  deriving Repr

/-- The text with the breaks in front of a next line, of which `nextBlank` says whether it starts with a blank. In a
folded scalar a line feed between two lines that do not is a space, or nothing in front of empty lines. -/
def BlockText.join (folded : Bool) (nextBlank : Bool) (b : BlockText) : List Char :=
  let separator :=
    if folded && b.lineBreak = ['\n'] && !b.startsBlank && !nextBlank then
      if b.emptyLines = [] then [' '] else []
    else b.lineBreak
  b.text ++ separator ++ b.emptyLines

/-- Reads the lines at the column `indent`. -/
def readBlockLines (folded : Bool) (indent : Nat) :
    (fuel : Nat) → BlockText → Cursor → Option (BlockText × Cursor)
  | 0, _, _ => none
  | fuel + 1, b, c =>
    match c.rest with
    | [] => some (b, c)
    | ch :: _ =>
      if c.column ≠ indent then some (b, c)
      else
        let line := c.rest.takeWhile fun ch => !isBreak ch
        let text := b.join folded (isSpaceOrTab ch) ++ line
        let c := c.skipMany line.length
        let lineBreak := (c.rest.head?.map breakChar).toList
        let c := if c.rest.isEmpty then c else c.skipBreak
        match readEmptyLines (some indent) (c.rest.length + 1) [] 0 c with
        | none => none
        | some (emptyLines, _, c) =>
          readBlockLines folded indent fuel ⟨text, lineBreak, emptyLines, isSpaceOrTab ch⟩ c

/-- The text with as many of the last breaks as the header asks for. -/
def BlockText.chomp (chomping : Chomping) (b : BlockText) : List Char :=
  match chomping with
  | .strip => b.text
  | .clip => b.text ++ b.lineBreak
  | .keep => b.text ++ b.lineBreak ++ b.emptyLines

/-- Reads a block scalar from its opening character; `base` is one more than the column of the surrounding block, or
zero when there is none. -/
def readBlock (folded : Bool) (base : Nat) (c : Cursor) : Option (List Char × Cursor) :=
  match readHeader (c.rest.drop 1) with
  | none => none
  | some (header, rest) =>
    match skipLineEnd (c.skipMany (c.rest.length - rest.length)) with
    | none => none
    | some c =>
      let stated := header.increment.map fun n => (base - 1) + n
      match readEmptyLines stated (c.rest.length + 1) [] 0 c with
      | none => none
      | some (emptyLines, widest, c) =>
        let indent := stated.getD (max (max widest base) 1)
        match readBlockLines folded indent (c.rest.length + 1) ⟨[], [], emptyLines, false⟩ c with
        | none => none
        | some (b, c) => some (b.chomp header.chomping, c)

end TypedWrappers.Yaml
