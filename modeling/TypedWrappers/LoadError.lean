import TypedWrappers.Path

/-!
# Why files cannot be loaded

What can be wrong with a settings file or a snapshot. Where a file cannot be read at all, or its text has not the form
that is expected, the reason is told in the words of whoever found it.
-/

namespace TypedWrappers

/-- Why a settings file or a snapshot cannot be loaded. -/
inductive LoadError
  | settingsNotFound (path : Path)
  | malformedYaml (reason : String)
  | invalidSettings (reason : String)
  | unknownFormat (path : Path)
  | unreadable (reason : String)
  | malformedJson (reason : String)
  deriving Repr, DecidableEq

namespace LoadError

/-- The error in words. -/
def message : LoadError → String
  | settingsNotFound path => "configuration file not found: " ++ path.text
  | malformedYaml reason => "failed to parse YAML: " ++ reason
  | invalidSettings reason => "invalid configuration: " ++ reason
  | unknownFormat path => "unsupported snapshot format for '" ++ path.text ++ "' (expected .yaml, .yml or .json)"
  | unreadable reason => "IO error: " ++ reason
  | malformedJson reason => "JSON error: " ++ reason

/-- Settings without an input. -/
def noInputs : LoadError :=
  invalidSettings "'inputs' must list at least one snapshot file or directory"

/-- A file that is not there or holds no text. -/
def noText : LoadError :=
  unreadable "the file cannot be read as text"

/-- The reason where a text has not the form that is expected. -/
def otherForm : String :=
  "the text has not the expected form"

end LoadError

end TypedWrappers
