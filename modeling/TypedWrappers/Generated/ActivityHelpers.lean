import TypedWrappers.Generated.File
import TypedWrappers.Text.Split

/-!
# Helpers for activities

One static class with one method for each activity, which invokes it from workflow code. The method takes the declared
parameters and then the options.
-/

namespace TypedWrappers

namespace ActivityTarget

/-- What a method name says beside the ending of asynchronous methods: the name without the ending, or all of it where
nothing else is in it. -/
def entityName (suffix name : String) : String :=
  match Text.beforeSuffix? suffix name with
  | some entity => if entity = "" then name else entity
  | none => name

/-- The name of the method for an activity. -/
def methodName (target : ActivityTarget) (suffix : String) (a : Descriptor) : String :=
  wrapperName target.verb (entityName suffix a.name) suffix

/-- The function that calls an activity: on its class where it is static, else on an instance. -/
def call (a : Descriptor) : String :=
  if a.isStatic then "() => " ++ a.qualifiedTypeName ++ "." ++ a.name ++ "(" ++ a.argumentList ++ ")"
  else
    let self := freshName "x" a.parameterNames
    "(" ++ a.qualifiedTypeName ++ " " ++ self ++ ") => " ++ self ++ "." ++ a.name ++ "(" ++ a.argumentList ++ ")"

/-- The method for an activity. -/
def method (target : ActivityTarget) (task : TaskType) (suffix : String) (a : Descriptor) : MethodDraft :=
  let options := freshName "options" a.parameterNames
  { name := target.methodName suffix a, returns := task.returning a.returns, isPublic := true, isStatic := true
    parameters := a.parameterDrafts ++ [(target.optionsType, options)]
    body := ["return " ++ target.invoke ++ "(" ++ call a ++ ", " ++ options ++ ");"] }

/-- The file with the methods for all activities, in order. -/
def render (config : Config) (activities : List Descriptor) : Except GenerationError GeneratedFile := do
  let target := config.activities
  let activities := sortDescriptors activities
  let file : FileDraft :=
    { banner := config.banner, ns := target.outputNamespace
      imports := target.imports ++ activities.flatMap fun a => config.task.ns :: a.namespaces.toList }
  let container : ClassDraft :=
    { name := target.className, isPublic := true, isStatic := true, isPartial := true
      members := activities.map fun a => .method (target.method config.task config.methodSuffix a) }
  let model ← file.build container
  pure { fileName := target.fileName, model }

end ActivityTarget

end TypedWrappers
