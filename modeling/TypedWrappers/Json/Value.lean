import TypedWrappers.RecordFormat

/-!
# JSON values

The values of a JSON document and the ways a typed reader takes them apart.

- `Json`: the value type; objects keep their members in the order of the text;
- `Json.record?`: a record, written as an object or as the list of its fields in order;
- `Json.string?`, `bool?`, `list?`, `nullable?`, `choice?`: the other shapes a field may have;
- `Json.format`: all of these together, for the readers of records.
-/

namespace TypedWrappers

/-- A JSON value. -/
inductive Json
  | null
  | bool (value : Bool)
  | number (digits : String)
  | string (text : String)
  | array (items : List Json)
  | object (members : List (String × Json))
  /-- A value that may be skipped but never read: an escape in it names half of a surrogate pair. -/
  | unreadable
  deriving Repr, Inhabited

namespace Json

/-- The value of a string. -/
def string? : Json → Option String
  | string text => some text
  | _ => none

/-- The value of a truth value. -/
def bool? : Json → Option Bool
  | bool value => some value
  | _ => none

/-- The items of an array, each read by `item?`. -/
def list? {α : Type} (item? : Json → Option α) : Json → Option (List α)
  | array items => items.mapM item?
  | _ => none

/-- Reads null as nothing and any other value by `value?`. -/
def nullable? {α : Type} (value? : Json → Option α) : Json → Option (Option α)
  | null => some none
  | value => (value? value).map some

/-- A choice among named alternatives: the name, or an object of the name and null. -/
def choice? {α : Type} (named? : String → Option α) : Json → Option α
  | string name => named? name
  | object [(name, null)] => named? name
  | _ => none

/-- The values under a key, in the order of the members. -/
def under (key : String) (members : List (String × Json)) : List Json :=
  members.filterMap fun (k, v) => if k = key then some v else none

/-- The fields of a record by name. An object gives each named field at most once and may have further members; an
array gives the fields in the order of `fields`, and may stop early. -/
def record? (fields : List String) : Json → Option (String → Option Json)
  | object members =>
    if fields.all fun field => (under field members).length ≤ 1 then some fun field => (under field members).head?
    else none
  | array items => if items.length ≤ fields.length then some fun field => (fields.zip items).lookup field else none
  | _ => none

/-- JSON as a format of records. -/
def format : RecordFormat Json Option where
  string := string?
  bool := bool?
  list := list?
  nullable := nullable?
  choice := choice?
  record := record?
  fail := none

end Json

end TypedWrappers
