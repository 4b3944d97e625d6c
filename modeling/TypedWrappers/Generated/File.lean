import TypedWrappers.Config
import TypedWrappers.Descriptor
import TypedWrappers.FileModel.Draft

/-!
# What generated methods have in common

- `wrapperName`: the name of a generated method;
- `TaskType.returning`: the return type of a generated method, a task of the declared result;
- `freshName`: a parameter name that the declared parameters leave free;
- `GeneratedFile`: a file with its name.
-/

namespace TypedWrappers

/-- A verb, what it is done to, and the ending of generated methods. -/
def wrapperName (verb entity suffix : String) : String :=
  verb ++ entity ++ suffix

/-- The task of a result; the bare task where there is none. -/
def TaskType.of (task : TaskType) (result : Option TypeReference) : String :=
  match result with
  | some result => task.name ++ "<" ++ result.display ++ ">"
  | none => task.name

/-- The return type of a method that stands for one with the given result. A task stays a task of its result. -/
def TaskType.returning (task : TaskType) (returns : ReturnShape) : String :=
  task.of returns.result?

/-- Adds underscores to a name, at most `budget`, until it is not one of the names taken. -/
def freshNameWithin (taken : List String) : (budget : Nat) → String → String
  | 0, name => name
  | budget + 1, name => if name ∈ taken then freshNameWithin taken budget (name ++ "_") else name

/-- The name with the fewest underscores behind it that is not taken. As many as there are names taken suffice. -/
def freshName (preferred : String) (taken : List String) : String :=
  freshNameWithin taken taken.length preferred

/-- A generated file under its name. -/
structure GeneratedFile where
  /-- The name of the file. -/
  fileName : String
  /-- What is in it. -/
  model : FileModel
  deriving DecidableEq, Inhabited

/-- The declared parameters as they stand in a generated method. -/
def Descriptor.parameterDrafts (d : Descriptor) : List (String × String) :=
  d.parameters.map fun p => (p.type.display, p.name)

end TypedWrappers
