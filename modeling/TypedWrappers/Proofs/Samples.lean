import TypedWrappers.Compilation.Basic
import TypedWrappers.Config
import TypedWrappers.SymbolTable

/-!
# Samples

What the examples of the theory are made of: a configuration with short names for all that a pass looks for,
declarations with nothing but what matters to an example, and a type in a table that knows what it is made of.
-/

namespace TypedWrappers.Sample

/-- Short names for what a pass looks for. -/
def shortNames : Config :=
  { Config.temporal with
    workflows := { Config.temporal.workflows with marker := "W", optInMarker := some "O", entryMarker := "R" }
    activities := { Config.temporal.activities with marker := "A" }
    mocks := { Config.temporal.mocks with marker := "M", baseType := "B" } }

/-- A method with one attribute and without parameters. -/
def method (name marker returns : String) : MemberDecl :=
  ⟨name, .method, false, [marker], returns, []⟩

/-- A class with attributes and members. -/
def classPart (name : String) (markers : List String) (members : List MemberDecl) : TypeDecl :=
  ⟨name, .classType, false, markers, [], members⟩

/-- The types of a market. -/
def marketTypes : List String :=
  ["Lib.List", "N.Task", "Shop.App.Line", "Shop.Models.Order"]

/-- A table that knows the types of a market. -/
def market : SymbolTable :=
  ⟨.ofList marketTypes, []⟩

/-- A file of the market that imports lists and tasks. -/
def marketScope : Scope :=
  { ns := some "Shop.App", usings := ["Lib", "N"] }

/-- A list of a relative name, a simple name and a keyword. -/
def basket : String :=
  "List<Models.Order?, Line[ ], int>"

/-- What the list is read as. -/
def basketTree : TypeSyntax :=
  ⟨"List", [⟨"Models.Order", [], [.nullable]⟩, ⟨"Line", [], [.array 0]⟩, ⟨"int", [], []⟩], []⟩

end TypedWrappers.Sample
