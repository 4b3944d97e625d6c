/-!
# Formats of records

What the reader of a record needs from a data format, so that each record type is described once and read from any
format: the shapes that a field may have, and the fields of a record by name.
-/

namespace TypedWrappers

/-- A data format: how values of type `value` are read, failing and keeping account in `m`. -/
structure RecordFormat (value : Type) (m : Type → Type) where
  /-- A text. -/
  string : value → m String
  /-- A truth value. -/
  bool : value → m Bool
  /-- A list, each item read alike. -/
  list : {α : Type} → (value → m α) → value → m (List α)
  /-- Nothing, or a value. -/
  nullable : {α : Type} → (value → m α) → value → m (Option α)
  /-- One of a few named alternatives. -/
  choice : {α : Type} → (String → Option α) → value → m α
  /-- The fields of a record with the given names. -/
  record : List String → value → m (String → Option value)
  /-- The failure. -/
  fail : {α : Type} → m α

namespace RecordFormat

variable {value : Type} {m : Type → Type} {α : Type}

/-- A field that must be there. -/
def required (format : RecordFormat value m) (read : value → m α) (field : Option value) : m α :=
  match field with
  | some value => read value
  | none => format.fail

/-- A field that has a value of its own where it is not there. -/
def optional [Pure m] (default : α) (read : value → m α) (field : Option value) : m α :=
  match field with
  | some value => read value
  | none => pure default

end RecordFormat

end TypedWrappers
