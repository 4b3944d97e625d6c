import TypedWrappers.Json.Value
import TypedWrappers.Text.Hex

/-!
# Writing JSON text

`Json.pretty` writes a value with two spaces for each level of nesting, one item or member a line, and the members of
an object in increasing order of their names.
-/

namespace TypedWrappers.Json

open Text

/-- A character as it stands inside a string. -/
def escapeChar (c : Char) : List Char :=
  if c = '"' then ['\\', '"']
  else if c = '\\' then ['\\', '\\']
  else if c = '\x08' then ['\\', 'b']
  else if c = '\x0C' then ['\\', 'f']
  else if c = '\n' then ['\\', 'n']
  else if c = '\r' then ['\\', 'r']
  else if c = '\t' then ['\\', 't']
  else if c.toNat < 0x20 then ['\\', 'u', '0', '0', lowerHexDigit (c.toNat / 16), lowerHexDigit (c.toNat % 16)]
  else [c]

/-- A text in quotes. -/
def quote (s : String) : String :=
  "\"" ++ String.ofList (s.toList.flatMap escapeChar) ++ "\""

/-- A member in its place among members in increasing order of their names. -/
def insertMember (member : String × Json) : List (String × Json) → List (String × Json)
  | [] => [member]
  | head :: tail => if member.1 < head.1 then member :: head :: tail else head :: insertMember member tail

/-- The blanks in front of a line at a level of nesting. -/
def indentation (level : Nat) : String :=
  String.ofList (List.replicate (2 * level) ' ')

/-- Items between brackets, each on a line of its own one level deeper; the brackets alone when there are none. -/
def enclose (opening closing : String) (level : Nat) (items : List String) : String :=
  match items with
  | [] => opening ++ closing
  | items =>
    opening ++ "\n" ++ ",\n".intercalate (items.map (indentation (level + 1) ++ ·)) ++ "\n" ++ indentation level ++
      closing

mutual

/-- The value with the members of all objects in it in increasing order. -/
def sortMembers : Json → Json
  | array items => array (sortMembersAll items)
  | object members => object (sortMembersUnder members)
  | value => value

/-- Each value of a list with its members in order. -/
def sortMembersAll : List Json → List Json
  | [] => []
  | value :: rest => sortMembers value :: sortMembersAll rest

/-- Members in order, and the members of their values. -/
def sortMembersUnder : List (String × Json) → List (String × Json)
  | [] => []
  | (key, value) :: rest => insertMember (key, sortMembers value) (sortMembersUnder rest)

end

mutual

/-- The text of a value whose first line stands at the given level. -/
def textAt (level : Nat) : Json → String
  | null => "null"
  | bool true => "true"
  | bool false => "false"
  | number digits => digits
  | string text => quote text
  | array items => enclose "[" "]" level (itemTexts (level + 1) items)
  | object members => enclose "\x7b" "\x7d" level (memberTexts (level + 1) members)
  | unreadable => "null"

/-- The texts of items at the given level. -/
def itemTexts (level : Nat) : List Json → List String
  | [] => []
  | item :: rest => textAt level item :: itemTexts level rest

/-- The texts of members at the given level. -/
def memberTexts (level : Nat) : List (String × Json) → List String
  | [] => []
  | (key, value) :: rest => (quote key ++ ": " ++ textAt level value) :: memberTexts level rest

end

/-- The text of a value over several lines, members in increasing order. -/
def pretty (value : Json) : String :=
  textAt 0 (sortMembers value)

end TypedWrappers.Json
