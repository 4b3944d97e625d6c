import TypedWrappers.Compilation.Declaration
import TypedWrappers.NameSet
import TypedWrappers.Text.Blank
import TypedWrappers.TypeSyntax.Basic

/-!
# Symbol tables

The types that a compilation knows and what a written name means in a scope.

A simple name is looked up in the enclosing namespaces, innermost first, then in the imports, and last in the global
namespace. A name that two imports provide is ambiguous and means nothing. A name with dots is looked up as it is and
then in the enclosing namespaces. Keywords mean library types, whether those are known or not.

- `SymbolTable.resolve?`: the full name of the type that a name means; `resolveAttribute?`: the same for an attribute,
  which may leave out the end `Attribute`;
- `SymbolTable.partsOf`: the declarations of a type, in the order of the source;
- `SymbolTable.hasMarker`: whether one of a list of attributes is a given type.
-/

namespace TypedWrappers

open Text

/-- The known types of a compilation. -/
structure SymbolTable where
  /-- The full names of all known types. -/
  known : NameSet
  /-- The declared types, in the order of the source. -/
  parts : List TypePart

namespace SymbolTable

/-- The types that a compilation refers to or declares. -/
def ofCompilation (c : Compilation) : SymbolTable where
  known := .ofList ((c.references.map trim).filter (· ≠ "") ++ c.typeParts.map TypePart.fullName)
  parts := c.typeParts

/-- The table with further known types. -/
def withTypes (names : List String) (table : SymbolTable) : SymbolTable :=
  { table with known := table.known.insertAll names }

/-- Whether a full name is that of a known type. -/
def contains (table : SymbolTable) (fullName : String) : Bool :=
  fullName ∈ table.known

/-- The declarations of a type, one for each part of it. -/
def partsOf (table : SymbolTable) (fullName : String) : List TypePart :=
  table.parts.filter (·.fullName = fullName)

@[simp] theorem mem_partsOf {table : SymbolTable} {fullName : String} {part : TypePart} :
    part ∈ table.partsOf fullName ↔ part ∈ table.parts ∧ part.fullName = fullName := by
  simp [partsOf]

/-- The first declaration of a type. -/
def find? (table : SymbolTable) (fullName : String) : Option TypePart :=
  (table.partsOf fullName).head?

/-! ## Names of types -/

/-- The name inside each namespace around a scope, innermost first. -/
def enclosingCandidates (scope : Scope) (name : String) : List String :=
  (enclosing scope.ns).map fun ns => ns ++ "." ++ name

/-- The known types that the imports of a scope provide under a simple name. -/
def imported (table : SymbolTable) (scope : Scope) (name : String) : List String :=
  (scope.usings.map fun ns => trim ns ++ "." ++ name).filter table.contains

/-- The meaning of a name without dots. -/
def lookupSimple (table : SymbolTable) (scope : Scope) (name : String) : Option String :=
  match (enclosingCandidates scope name).find? table.contains with
  | some found => some found
  | none =>
    match table.imported scope name with
    | [found] => some found
    | _ :: _ :: _ => none
    | [] => if table.contains name then some name else none

/-- The meaning of a name with dots. -/
def lookupDotted (table : SymbolTable) (scope : Scope) (name : String) : Option String :=
  if table.contains name then some name else (enclosingCandidates scope name).find? table.contains

/-- The full name of the type that a name means; blanks around the name do not count. -/
def resolve? (table : SymbolTable) (scope : Scope) (written : String) : Option String :=
  let name := trim written
  match afterPrefix? TypeSyntax.globalAlias name with
  | some full => if table.contains full then some full else none
  | none =>
    match keywordType? name with
    | some full => some full
    | none => if isDotted name then table.lookupDotted scope name else table.lookupSimple scope name

/-! ## Attributes -/

/-- The end that an attribute's name may leave out. -/
def attributeEnding : String := "Attribute"

/-- The name of an attribute without its arguments. -/
def attributeName (written : String) : String :=
  trim (String.ofList (written.toList.takeWhile (· ≠ '(')))

/-- The full name of the type that an attribute means. The name is tried with the ending first, unless it is written
with it and means a type as it is. -/
def resolveAttribute? (table : SymbolTable) (scope : Scope) (written : String) : Option String :=
  let name := attributeName written
  if name = "" then none
  else
    let asWritten := if endsWith name attributeEnding then table.resolve? scope name else none
    (asWritten.or (table.resolve? scope (name ++ attributeEnding))).or (table.resolve? scope name)

/-- Whether an attribute means the given type. -/
def isMarker (table : SymbolTable) (scope : Scope) (marker written : String) : Bool :=
  table.resolveAttribute? scope written = some marker

/-- Whether one of the attributes means the given type. -/
def hasMarker (table : SymbolTable) (scope : Scope) (attributes : List String) (marker : String) : Bool :=
  attributes.any (table.isMarker scope marker)

end SymbolTable

end TypedWrappers
