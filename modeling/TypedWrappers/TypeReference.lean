import TypedWrappers.SymbolTable
import TypedWrappers.TypeSyntax.Parse

/-!
# Type references

A type as generated code writes it: the text to display, the full text where every name in it is known, and the
namespaces that the display needs imported.

- `SymbolTable.describe`: the reference for a tree of type syntax; `describeText`: for a text, which is kept as it is
  where it is no type syntax.
-/

namespace TypedWrappers

/-- A type as generated code writes it. -/
structure TypeReference where
  /-- The text to display. -/
  display : String
  /-- The text with full names, where all names in it are known. -/
  qualified : Option String
  /-- The namespace of the outermost type. -/
  ns : Option String
  /-- The namespaces that the display needs imported. -/
  namespaces : NameSet
  deriving DecidableEq, Inhabited

namespace TypeReference

/-- A type that is only known by its text. -/
def literal (text : String) : TypeReference :=
  ⟨Text.trim text, none, none, ∅⟩

/-- The full text, or the text to display where there is none. -/
def typeName (t : TypeReference) : String :=
  t.qualified.getD t.display

/-- Whether all names are known. -/
def isResolved (t : TypeReference) : Bool :=
  t.qualified.isSome

/-- A name applied to arguments, with marks behind. -/
def applied (name : String) (arguments : List String) (marks : List TypeMark) : String :=
  if arguments = [] then name ++ TypeMark.textAll marks
  else name ++ "<" ++ ", ".intercalate arguments ++ ">" ++ TypeMark.textAll marks

end TypeReference

/-- What the name of a type contributes to a reference. -/
structure NameMeaning where
  /-- The name to display. -/
  display : String
  /-- The full name, where it is known. -/
  qualified : Option String
  /-- The namespace of the type. -/
  ns : Option String
  /-- The namespace to import for the display. -/
  importing : Option String

/-- A name with its arguments and marks as one reference. -/
def TypeReference.ofParts (name : NameMeaning) (arguments : List TypeReference) (marks : List TypeMark) :
    TypeReference where
  display := applied name.display (arguments.map display) marks
  qualified := do
    let outer ← name.qualified
    let inner ← arguments.mapM qualified
    some (applied outer inner marks)
  ns := name.ns
  namespaces := (NameSet.unions (arguments.map namespaces)).insertAll name.importing.toList

namespace SymbolTable

/-- The meaning of the name of a type: a keyword is kept, a name with dots is made full, and any other name is kept and
its namespace imported. -/
def describeName (table : SymbolTable) (scope : Scope) (t : TypeSyntax) : NameMeaning :=
  if isKeyword t.baseName then ⟨t.name, some t.name, none, none⟩
  else
    match table.resolve? scope t.name with
    | some full =>
      if isDotted t.baseName then ⟨full, some full, namespaceOf? full, none⟩
      else ⟨t.name, some full, namespaceOf? full, namespaceOf? full⟩
    | none => ⟨t.name, none, none, none⟩

mutual

/-- The reference for a type. -/
def describe (table : SymbolTable) (scope : Scope) : TypeSyntax → TypeReference
  | ⟨name, arguments, marks⟩ =>
    .ofParts (table.describeName scope ⟨name, arguments, marks⟩) (describeAll table scope arguments) marks

/-- The references for several types. -/
def describeAll (table : SymbolTable) (scope : Scope) : List TypeSyntax → List TypeReference
  | [] => []
  | t :: rest => describe table scope t :: describeAll table scope rest

end

/-- The reference for a text. -/
def describeText (table : SymbolTable) (scope : Scope) (text : String) : TypeReference :=
  match TypeSyntax.parse? text with
  | some t => table.describe scope t
  | none => .literal text

theorem describeText_of_parse? {table : SymbolTable} {scope : Scope} {text : String} {t : TypeSyntax}
    (h : TypeSyntax.parse? text = some t) : table.describeText scope text = table.describe scope t := by
  rw [describeText, h]

end SymbolTable

end TypedWrappers
