import TypedWrappers.Descriptor

/-!
# Diagnostics

What a pass reports about the declarations it was given. The only finding so far is that two declarations lead to
generated methods with one name and one list of parameter types in one class.

- `collisions`: one diagnostic for each such name and list, in increasing order.
-/

namespace TypedWrappers

/-- How grave a diagnostic is. -/
inductive Severity
  | info
  | warning
  deriving Repr, DecidableEq

/-- The word for a severity. -/
def Severity.name : Severity → String
  | info => "info"
  | warning => "warning"

/-- A finding. -/
structure Diagnostic where
  /-- The stable name of the kind of finding. -/
  id : String
  /-- How grave it is. -/
  severity : Severity
  /-- What was found. -/
  message : String
  deriving Repr, DecidableEq

namespace Diagnostic

/-- The finding on one line. -/
def text (d : Diagnostic) : String :=
  d.severity.name ++ " " ++ d.id ++ ": " ++ d.message

/-- The name of the finding that a method is generated more than once. -/
def duplicateWrapperId : String := "WFG001"

/-- A method of a class is generated for several declarations. -/
def duplicateWrapper (container method : String) (sources : List String) : Diagnostic where
  id := duplicateWrapperId
  severity := .warning
  message :=
    "'" ++ container ++ "." ++ method ++ "' is generated for more than one declaration: " ++ ", ".intercalate sources

end Diagnostic

/-- A generated method and the declaration it is generated for. -/
structure Wrapper where
  /-- The name of the generated method. -/
  name : String
  /-- The declaration. -/
  source : Descriptor
  deriving DecidableEq

/-- What tells two methods of a class apart: the name and the parameter types. -/
structure WrapperKey where
  name : String
  signature : List String
  deriving Repr, DecidableEq

/-- Name first, then parameter types. -/
def WrapperKey.compare : WrapperKey → WrapperKey → Ordering :=
  compareLex (compareOn name) (compareOn signature)

/-- The key of a generated method. -/
def Wrapper.key (w : Wrapper) : WrapperKey :=
  ⟨w.name, w.source.signature⟩

/-- The keys of generated methods, each once and in increasing order. -/
def wrapperKeys (wrappers : List Wrapper) : List WrapperKey :=
  dropRepeats ((wrappers.map Wrapper.key).mergeSort fun a b => (a.compare b).isLE)

/-- The full names of the declarations that lead to a key, in order. -/
def sourcesOf (wrappers : List Wrapper) (key : WrapperKey) : List String :=
  (wrappers.filter (·.key = key)).map (·.source.qualifiedName)

/-- A diagnostic for each key that more than one of the methods of a class has. -/
def collisions (container : String) (wrappers : List Wrapper) : List Diagnostic :=
  (wrapperKeys wrappers).filterMap fun key =>
    let sources := sourcesOf wrappers key
    if 1 < sources.length then some (.duplicateWrapper container key.name sources) else none

end TypedWrappers
