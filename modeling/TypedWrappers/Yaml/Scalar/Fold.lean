import TypedWrappers.Yaml.Cursor

/-!
# Blanks inside a flow scalar

A plain or quoted scalar may run over several lines. What stands between two of its words is a run of spaces, tabs and
line breaks; `BlankRun.fold` says what the run contributes to the text: blanks within a line as they are, one break as
a space, and more breaks as all but the first.
-/

namespace TypedWrappers.Yaml

/-- A run of blanks and line breaks between two words. -/
structure BlankRun where
  /-- The blanks in front of the first break. -/
  spaces : List Char
  /-- Whether a line has ended in the run. -/
  broken : Bool
  /-- What the first break adds to a text, if there is a first one. -/
  firstBreak : Option Char
  /-- What the further breaks add. -/
  moreBreaks : List Char
  deriving Repr

namespace BlankRun

/-- Nothing read yet, on a line that has or has not just been broken by an escape. -/
def start (broken : Bool) : BlankRun :=
  ⟨[], broken, none, []⟩

/-- The characters that the run contributes. -/
def fold (run : BlankRun) : List Char :=
  if run.broken then
    match run.firstBreak with
    | some '\n' => if run.moreBreaks = [] then [' '] else run.moreBreaks
    | some c => c :: run.moreBreaks
    | none => run.moreBreaks
  else run.spaces

/-- The run with one more line break. -/
def addBreak (run : BlankRun) (c : Char) : BlankRun :=
  if run.broken then { run with moreBreaks := run.moreBreaks ++ [breakChar c] }
  else ⟨[], true, some (breakChar c), []⟩

/-- The run with one more space or tab, which counts only on the first line. -/
def addBlank (run : BlankRun) (c : Char) : BlankRun :=
  if run.broken then run else { run with spaces := run.spaces ++ [c] }

/-- Adds all blanks and breaks at the front. A tab left of the column `margin` on a later line is refused. -/
def readFrom (margin : Nat) : (fuel : Nat) → BlankRun → Cursor → Option (BlankRun × Cursor)
  | 0, _, _ => none
  | fuel + 1, run, c =>
    match c.rest with
    | [] => some (run, c)
    | ch :: _ =>
      if isSpaceOrTab ch then
        if run.broken && c.column < margin && ch = '\t' then none else readFrom margin fuel (run.addBlank ch) c.skip
      else if isBreak ch then readFrom margin fuel (run.addBreak ch) c.skipBreak
      else some (run, c)

/-- Reads a run of blanks and breaks, on a line that has or has not just been broken by an escape. -/
def read (margin : Nat) (broken : Bool) (c : Cursor) : Option (BlankRun × Cursor) :=
  readFrom margin ((c.rest.takeWhile fun ch => isSpaceOrTab ch || isBreak ch).length + 1) (.start broken) c

end BlankRun

end TypedWrappers.Yaml
