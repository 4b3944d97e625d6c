import TypedWrappers.Text.Hex
import TypedWrappers.Yaml.Scalar.Fold

/-!
# Quoted scalars

Scalars in single quotes, where a quote is written twice, and in double quotes, where a backslash starts an escape.

- `readQuoted`: the text between the quotes, lines folded, and the place behind the closing quote.
-/

namespace TypedWrappers.Yaml

open Text

/-- The character that a one-letter escape stands for. -/
def quotedEscape? (c : Char) : Option Char :=
  match c with
  | '0' => some '\x00'
  | 'a' => some '\x07'
  | 'b' => some '\x08'
  | 't' => some '\t'
  | '\t' => some '\t'
  | 'n' => some '\n'
  | 'v' => some '\x0B'
  | 'f' => some '\x0C'
  | 'r' => some '\r'
  | 'e' => some '\x1B'
  | ' ' => some ' '
  | '"' => some '"'
  | '/' => some '/'
  | '\\' => some '\\'
  | 'N' => some '\u0085'
  | '_' => some '\u00A0'
  | 'L' => some '\u2028'
  | 'P' => some '\u2029'
  | _ => none

/-- How many hexadecimal digits follow the letter of an escape that names a character by number. -/
def escapeDigits? (c : Char) : Option Nat :=
  match c with
  | 'x' => some 2
  | 'u' => some 4
  | 'U' => some 8
  | _ => none

/-- The character that an escape writes, and how many characters it takes; the text starts at the backslash. -/
def escaped? : List Char → Option (Char × Nat)
  | '\\' :: c :: cs =>
    match escapeDigits? c with
    | some n =>
      if (cs.take n).length = n then
        ((hexNumber? (cs.take n)).bind characterOf?).map fun ch => (ch, n + 2)
      else none
    | none => (quotedEscape? c).map fun ch => (ch, 2)
  | _ => none

/-- A word of a quoted scalar: its text, whether it ended at an escaped line break, and the place behind it. The text
is kept last character first, on top of what was read in front of the word. -/
def readQuotedWord (single : Bool) :
    (fuel : Nat) → (text : List Char) → Cursor → Option (List Char × Bool × Cursor)
  | 0, _, _ => none
  | fuel + 1, text, c =>
    match c.rest with
    | [] => some (text, false, c)
    | ch :: cs =>
      if isBreak ch || isSpaceOrTab ch then some (text, false, c)
      else if single then
        if ch = '\'' then
          if cs.head? = some '\'' then readQuotedWord single fuel ('\'' :: text) (c.skipMany 2)
          else some (text, false, c)
        else readQuotedWord single fuel (ch :: text) c.skip
      else if ch = '"' then some (text, false, c)
      else if ch = '\\' then
        if (cs.head?.map isBreak).getD false then some (text, true, c.skip.skipBreak)
        else
          match escaped? (ch :: cs) with
          | some (value, n) => readQuotedWord single fuel (value :: text) (c.skipMany n)
          | none => none
      else readQuotedWord single fuel (ch :: text) c.skip

/-- Reads words and the blanks between them up to the closing quote; the text is kept last character first. -/
def readQuotedFrom (single : Bool) : (fuel : Nat) → (text : List Char) → Cursor → Option (List Char × Cursor)
  | 0, _, _ => none
  | fuel + 1, text, c =>
    if c.atDocumentMark || c.rest.isEmpty then none
    else
      match readQuotedWord single (c.rest.length + 1) text c with
      | none => none
      | some (text, broken, c) =>
        if c.rest.head? = some (if single then '\'' else '"') then some (text.reverse, c.skip)
        else
          match BlankRun.read 0 broken c with
          | none => none
          | some (run, c) => readQuotedFrom single fuel (run.fold.reverse ++ text) c

/-- Reads a quoted scalar from its opening quote. -/
def readQuoted (single : Bool) (c : Cursor) : Option (List Char × Cursor) :=
  readQuotedFrom single (c.rest.length + 1) [] c.skip

end TypedWrappers.Yaml
