import TypedWrappers.Generated.File
import TypedWrappers.Text.Split

/-!
# Test doubles

A double is a partial class in its own namespace. Each activity becomes a property that holds a substitute delegate,
and a method with the activity's own signature that forwards to the property.
-/

namespace TypedWrappers

namespace MockTarget

/-- The return type of an activity as it is declared. -/
def declaredReturn (task : TaskType) : ReturnShape → String
  | .void => "void"
  | .value type => type.display
  | .wrapped result => task.of result

/-- The delegate type of an activity: its parameter types, and its return type where it returns something. -/
def delegateType (task : TaskType) (a : Descriptor) : String :=
  let parameters := a.parameters.map (·.type.display)
  let (delegate, arguments) :=
    if a.returns = .void then ("Action", parameters) else ("Func", parameters ++ [declaredReturn task a.returns])
  if arguments = [] then delegate else delegate ++ "<" ++ ", ".intercalate arguments ++ ">"

/-- The name of the property for an activity. -/
def propertyName (target : MockTarget) (a : Descriptor) : String :=
  target.propertyPrefix ++ a.name

/-- The property for an activity. -/
def property (target : MockTarget) (task : TaskType) (a : Descriptor) : PropertyDraft where
  name := target.propertyName a
  type := delegateType task a
  initializer := Text.replaceAll substituteHole (delegateType task a) target.substitute

/-- The method for an activity. -/
def method (target : MockTarget) (task : TaskType) (a : Descriptor) : MethodDraft :=
  let call := target.propertyName a ++ "(" ++ a.argumentList ++ ");"
  { name := a.name, returns := declaredReturn task a.returns, isPublic := true
    attributes := ["[" ++ target.activityAttribute ++ "]"]
    parameters := a.parameterDrafts
    body := [if a.returns = .void then call else "return " ++ call] }

/-- The file of a double. -/
def render (config : Config) (double : DoubleDescriptor) : Except GenerationError GeneratedFile := do
  let target := config.mocks
  let activities := sortDescriptors double.activities
  let file : FileDraft :=
    { banner := config.banner, ns := double.ns
      imports :=
        target.imports ++ config.task.ns :: double.targetNamespace.toList ++
          activities.flatMap fun a => a.namespaces.toList }
  let container : ClassDraft :=
    { name := double.name, isPublic := true, isPartial := true
      members :=
        activities.flatMap fun a => [.property (target.property config.task a), .method (target.method config.task a)] }
  let model ← file.build container
  pure { fileName := double.qualifiedName ++ config.generatedFileSuffix, model }

end MockTarget

end TypedWrappers
