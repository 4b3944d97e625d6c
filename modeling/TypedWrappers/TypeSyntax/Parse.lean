import TypedWrappers.TypeSyntax.Token

/-!
# Reading type text

`TypeSyntax.parse?` reads a whole text as a type: a name, arguments in angle brackets, then nullable and array
marks. Tuples, pointers and function types are outside the grammar and are not read.
-/

namespace TypedWrappers.TypeSyntax

open TypeToken

mutual

/-- Reads the marks at the front of the tokens; fails on a bracket that is not closed. -/
def readMarks : List TypeToken → Option (List TypeMark × List TypeToken)
  | question :: ts => (readMarks ts).map fun (marks, rest) => (.nullable :: marks, rest)
  | openBracket :: ts => readRank 0 ts
  | ts => some ([], ts)

/-- Reads the rest of an array mark, `commas` of whose commas have been read, and the marks behind it. -/
def readRank (commas : Nat) : List TypeToken → Option (List TypeMark × List TypeToken)
  | comma :: ts => readRank (commas + 1) ts
  | closeBracket :: ts => (readMarks ts).map fun (marks, rest) => (.array commas :: marks, rest)
  | _ => none

end

mutual

/-- Reads a type at the front of the tokens, with at most `fuel` nested calls. -/
def readType : (fuel : Nat) → List TypeToken → Option (TypeSyntax × List TypeToken)
  | fuel + 1, word name :: less :: ts =>
    if isTypeName name then do
      let (arguments, ts) ← readArguments fuel ts
      let (marks, ts) ← readMarks ts
      some (⟨name, arguments, marks⟩, ts)
    else none
  | _ + 1, word name :: ts =>
    if isTypeName name then do
      let (marks, ts) ← readMarks ts
      some (⟨name, [], marks⟩, ts)
    else none
  | _, _ => none

/-- Reads one or more arguments and the bracket that closes them. -/
def readArguments : (fuel : Nat) → List TypeToken → Option (List TypeSyntax × List TypeToken)
  | fuel + 1, ts => do
    let (argument, ts) ← readType fuel ts
    match ts with
    | comma :: ts =>
      let (arguments, ts) ← readArguments fuel ts
      some (argument :: arguments, ts)
    | greater :: ts => some ([argument], ts)
    | _ => none
  | 0, _ => none

end

/-- Nested calls that suffice for a list of tokens: two for each. -/
def fuelFor (ts : List TypeToken) : Nat :=
  2 * ts.length + 1

/-- Reads a list of tokens as one type, with nothing left over. -/
def ofTokens? (ts : List TypeToken) : Option TypeSyntax :=
  match readType (fuelFor ts) ts with
  | some (t, []) => some t
  | _ => none

/-- Reads a text as a type. -/
def parse? (s : String) : Option TypeSyntax :=
  ofTokens? (scan s)

end TypedWrappers.TypeSyntax
