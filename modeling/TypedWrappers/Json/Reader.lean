import TypedWrappers.Json.Value
import TypedWrappers.Text.Hex

/-!
# Reading JSON text

`Json.parse?` reads one value with nothing but blanks around it. Only the four JSON blanks count, and comments,
trailing commas and a mark at the start are refused.

- `readString`: a string behind its opening quote; `readNumber`: a number;
- `readValue`: any value, by recursion on a bound for the nesting and length that the text itself gives.
-/

namespace TypedWrappers.Json

open Text

/-- The blanks of JSON. -/
def isJsonBlank (c : Char) : Bool :=
  c = ' ' || c = '\t' || c = '\n' || c = '\r'

/-- The text from its first character that is not blank. -/
def skipBlanks (cs : List Char) : List Char :=
  cs.dropWhile isJsonBlank

/-- The character that a one-letter escape stands for. -/
def simpleEscape? (c : Char) : Option Char :=
  match c with
  | '"' => some '"'
  | '\\' => some '\\'
  | '/' => some '/'
  | 'b' => some '\x08'
  | 'f' => some '\x0C'
  | 'n' => some '\n'
  | 'r' => some '\r'
  | 't' => some '\t'
  | _ => none

/-- The number of the character that two units name, if they are a pair in the right order. -/
def pairedUnits? (high low : Nat) : Option Nat :=
  if 0xD800 ≤ high ∧ high ≤ 0xDBFF ∧ 0xDC00 ≤ low ∧ low ≤ 0xDFFF then
    some (0x10000 + (high - 0xD800) * 0x400 + (low - 0xDC00))
  else none

/-- The characters read so far, last first, with one more unit that an escape names, after the first half `high` of a
pair or after none; with the half that then waits for its other half. A half without its other half spoils the text. -/
def addUnit (acc : Option (List Char)) (high : Option Nat) (unit : Nat) : Option (List Char) × Option Nat :=
  match high with
  | some high =>
    match pairedUnits? high unit with
    | some n => (acc.map (Char.ofNat n :: ·), none)
    | none => (none, none)
  | none =>
    if 0xD800 ≤ unit ∧ unit ≤ 0xDBFF then (acc, some unit)
    else if isSurrogate unit then (none, none)
    else (acc.map (Char.ofNat unit :: ·), none)

/-- The characters read so far with one more character, which cannot be the other half of a pair. -/
def addChar (acc : Option (List Char)) (high : Option Nat) (c : Char) : Option (List Char) :=
  if high.isSome then none else acc.map (c :: ·)

/-- Reads a string from behind its opening quote to behind its closing one. The text is `none` where an escape names
half of a surrogate pair; `acc` holds the characters read so far, last first, on the same terms. -/
def readString (acc : Option (List Char)) (high : Option Nat) : List Char → Option (Option String × List Char)
  | '"' :: cs => some (if high.isSome then none else acc.map fun read => String.ofList read.reverse, cs)
  | '\\' :: 'u' :: a :: b :: c :: d :: cs =>
    match hexNumber? [a, b, c, d] with
    | some unit => readString (addUnit acc high unit).1 (addUnit acc high unit).2 cs
    | none => none
  | '\\' :: c :: cs =>
    match simpleEscape? c with
    | some c => readString (addChar acc high c) none cs
    | none => none
  | c :: cs => if c.toNat < 0x20 || c = '\\' then none else readString (addChar acc high c) none cs
  | [] => none
termination_by structural cs => cs

/-- One or more digits. -/
def readDigits (cs : List Char) : Option (List Char × List Char) :=
  let digits := cs.takeWhile Char.isDigit
  if digits = [] then none else some (digits, cs.dropWhile Char.isDigit)

/-- The whole part of a number: a zero, or digits that do not start with one. -/
def readWhole : List Char → Option (List Char × List Char)
  | '0' :: cs => if (cs.head?.map Char.isDigit).getD false then none else some (['0'], cs)
  | cs => readDigits cs

/-- The fraction of a number, which may be missing. -/
def readFraction : List Char → Option (List Char × List Char)
  | '.' :: cs => (readDigits cs).map fun (digits, rest) => ('.' :: digits, rest)
  | cs => some ([], cs)

/-- The exponent of a number, which may be missing. -/
def readExponent : List Char → Option (List Char × List Char)
  | c :: cs =>
    if c = 'e' || c = 'E' then
      match cs with
      | '+' :: cs => (readDigits cs).map fun (digits, rest) => (c :: '+' :: digits, rest)
      | '-' :: cs => (readDigits cs).map fun (digits, rest) => (c :: '-' :: digits, rest)
      | cs => (readDigits cs).map fun (digits, rest) => (c :: digits, rest)
    else some ([], c :: cs)
  | [] => some ([], [])

/-- A number without its sign. -/
def readUnsigned (cs : List Char) : Option (List Char × List Char) := do
  let (whole, cs) ← readWhole cs
  let (fraction, cs) ← readFraction cs
  let (exponent, cs) ← readExponent cs
  some (whole ++ fraction ++ exponent, cs)

/-- A number. -/
def readNumber : List Char → Option (List Char × List Char)
  | '-' :: cs => (readUnsigned cs).map fun (digits, rest) => ('-' :: digits, rest)
  | cs => readUnsigned cs

/-- A string as a value; one that cannot be read may still be skipped. -/
def ofText? : Option String → Json
  | some text => string text
  | none => unreadable

/-- The object of members of which one name may be unreadable, and with it the object. -/
def ofMembers (members : List (Option String × Json)) : Json :=
  match members.mapM fun (key, value) => key.map fun key => (key, value) with
  | some members => object members
  | none => unreadable

mutual

/-- Reads a value at the front of the text, blanks in front of it skipped. -/
def readValue : (fuel : Nat) → List Char → Option (Json × List Char)
  | 0, _ => none
  | fuel + 1, cs =>
    match skipBlanks cs with
    | 'n' :: 'u' :: 'l' :: 'l' :: cs => some (null, cs)
    | 't' :: 'r' :: 'u' :: 'e' :: cs => some (bool true, cs)
    | 'f' :: 'a' :: 'l' :: 's' :: 'e' :: cs => some (bool false, cs)
    | '"' :: cs => (readString (some []) none cs).map fun (text, rest) => (ofText? text, rest)
    | '[' :: cs =>
      match skipBlanks cs with
      | ']' :: cs => some (array [], cs)
      | cs => (readItems fuel cs).map fun (items, rest) => (array items, rest)
    | '\x7b' :: cs =>
      match skipBlanks cs with
      | '\x7d' :: cs => some (object [], cs)
      | cs => (readMembers fuel cs).map fun (members, rest) => (ofMembers members, rest)
    | cs => (readNumber cs).map fun (digits, rest) => (number (String.ofList digits), rest)

/-- Reads one or more items and the bracket that closes them. -/
def readItems : (fuel : Nat) → List Char → Option (List Json × List Char)
  | 0, _ => none
  | fuel + 1, cs => do
    let (item, cs) ← readValue fuel cs
    match skipBlanks cs with
    | ',' :: cs =>
      let (items, cs) ← readItems fuel cs
      some (item :: items, cs)
    | ']' :: cs => some ([item], cs)
    | _ => none

/-- Reads one or more members and the brace that closes them. -/
def readMembers : (fuel : Nat) → List Char → Option (List (Option String × Json) × List Char)
  | 0, _ => none
  | fuel + 1, cs =>
    match skipBlanks cs with
    | '"' :: cs => do
      let (key, cs) ← readString (some []) none cs
      match skipBlanks cs with
      | ':' :: cs =>
        let (value, cs) ← readValue fuel cs
        match skipBlanks cs with
        | ',' :: cs =>
          let (members, cs) ← readMembers fuel cs
          some ((key, value) :: members, cs)
        | '\x7d' :: cs => some ([(key, value)], cs)
        | _ => none
      | _ => none
    | _ => none

end

/-- Reads a text as one value. -/
def parse? (s : String) : Option Json := do
  let cs := s.toList
  let (value, rest) ← readValue (2 * cs.length + 1) cs
  if skipBlanks rest = [] then some value else none

end TypedWrappers.Json
