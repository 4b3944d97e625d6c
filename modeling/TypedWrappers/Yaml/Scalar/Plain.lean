import TypedWrappers.Yaml.Scalar.Fold

/-!
# Plain scalars

A scalar without quotes: words up to a comment, a colon with a blank behind it, a bracket or comma of a surrounding
flow collection, a mark of a document, or a line that is not indented enough.

- `readPlain`: the text, the place behind it, and whether it ended on a later line than its last word.
-/

namespace TypedWrappers.Yaml

/-- The characters that separate the entries of a flow collection or close it. -/
def isFlowIndicator (c : Char) : Bool :=
  c = ',' || c = '[' || c = ']' || c = '\x7b' || c = '\x7d'

/-- Whether a word of a plain scalar ends in front of these characters. -/
def endsPlainWord (inFlow : Bool) : List Char → Bool
  | [] => true
  | c :: cs => isBreak c || isSpaceOrTab c || (c = ':' && atBlankOrEnd cs) || (inFlow && isFlowIndicator c)

/-- Whether a colon stands in a flow collection in front of a character that it may not stand in front of. -/
def strayColon (inFlow : Bool) : List Char → Bool
  | ':' :: c :: _ => inFlow && (isFlowIndicator c || c = '?')
  | _ => false

/-- The length of the word at the front; nothing where a stray colon stands in it. -/
def plainWordLength (inFlow : Bool) : List Char → Option Nat
  | [] => some 0
  | c :: cs =>
    if isBreak c || isSpaceOrTab c then some 0
    else if strayColon inFlow (c :: cs) then none
    else if endsPlainWord inFlow (c :: cs) then some 0
    else (plainWordLength inFlow cs).map (· + 1)

/-- Reads words and the blanks between them; `text` is what has been read, `run` the blanks since. -/
def readPlainFrom (inFlow : Bool) (margin : Nat) :
    (fuel : Nat) → (text : List Char) → (run : BlankRun) → Cursor → Option (List Char × Bool × Cursor)
  | 0, _, _, _ => none
  | fuel + 1, text, run, c =>
    if c.atDocumentMark || c.rest.head? = some '#' then some (text, run.broken, c)
    else
      match plainWordLength inFlow c.rest with
      | none => none
      | some 0 => some (text, run.broken, c)
      | some (n + 1) =>
        let text := text ++ run.fold ++ c.rest.take (n + 1)
        let c := c.skipMany (n + 1)
        if (c.rest.head?.map fun ch => isBreak ch || isSpaceOrTab ch).getD false then
          match BlankRun.read margin false c with
          | none => none
          | some (run, c) =>
            if !inFlow && c.column < margin then some (text, run.broken, c)
            else readPlainFrom inFlow margin fuel text run c
        else some (text, false, c)

/-- Reads a plain scalar. Lines after the first are indented to the column `margin` at least, unless a flow collection
surrounds the scalar. -/
def readPlain (inFlow : Bool) (margin : Nat) (c : Cursor) : Option (List Char × Bool × Cursor) :=
  readPlainFrom inFlow margin (c.rest.length + 1) [] (.start false) c

end TypedWrappers.Yaml
