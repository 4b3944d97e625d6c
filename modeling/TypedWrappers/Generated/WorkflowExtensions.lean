import TypedWrappers.Generated.File

/-!
# Client extensions for workflows

One static class with two methods for each workflow: one executes it and waits for the result, one starts it and
returns a handle. Both take the client first, then the declared parameters, then the options.
-/

namespace TypedWrappers

namespace WorkflowTarget

/-- The names of the two methods for a workflow: to execute it, and to start it. -/
def methodNames (target : WorkflowTarget) (suffix : String) (w : Descriptor) : String × String :=
  (wrapperName target.executeVerb w.typeName suffix, wrapperName target.startVerb w.typeName suffix)

/-- The type of the handle of a started workflow. -/
def handle (target : WorkflowTarget) (w : Descriptor) : String :=
  match w.returns.result? with
  | some result => target.handleType ++ "<" ++ w.typeName ++ ", " ++ result.display ++ ">"
  | none => target.handleType ++ "<" ++ w.typeName ++ ">"

/-- One method for a workflow. -/
def method (target : WorkflowTarget) (suffix : String) (w : Descriptor) (name verb returns : String) : MethodDraft :=
  let client := freshName "client" w.parameterNames
  let options := freshName "options" w.parameterNames
  let self := freshName "wf" w.parameterNames
  { name, returns, isPublic := true, isStatic := true
    parameters := ("this " ++ target.clientType, client) :: w.parameterDrafts ++ [(target.optionsType, options)]
    body :=
      ["return " ++ client ++ "." ++ verb ++ "Workflow" ++ suffix ++ "((" ++ w.typeName ++ " " ++ self ++ ") => " ++
        self ++ "." ++ w.name ++ "(" ++ w.argumentList ++ "), " ++ options ++ ");"] }

/-- The two methods for a workflow. -/
def methods (target : WorkflowTarget) (task : TaskType) (suffix : String) (w : Descriptor) : List MethodDraft :=
  let (execute, start) := target.methodNames suffix w
  [target.method suffix w execute target.executeVerb (task.returning w.returns),
    target.method suffix w start target.startVerb (task.name ++ "<" ++ target.handle w ++ ">")]

/-- The file with the methods for all workflows, in order. -/
def render (config : Config) (workflows : List Descriptor) : Except GenerationError GeneratedFile := do
  let target := config.workflows
  let workflows := sortDescriptors workflows
  let file : FileDraft :=
    { banner := config.banner, ns := target.outputNamespace
      imports := target.imports ++ workflows.flatMap fun w => config.task.ns :: w.namespaces.toList }
  let container : ClassDraft :=
    { name := target.className, isPublic := true, isStatic := true, isPartial := true
      members := (workflows.flatMap (target.methods config.task config.methodSuffix)).map .method }
  let model ← file.build container
  pure { fileName := target.fileName, model }

end WorkflowTarget

end TypedWrappers
