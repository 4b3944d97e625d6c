import TypedWrappers.QualifiedName

/-!
# Generator configuration

The names that drive generation: the marker attributes that select declarations, and the names, namespaces and files of
what is generated for each target.

- `Config.temporal`: the configuration for the Temporal SDK;
- `Config.markerSources`: the types that the generator contributes itself, so that user code can refer to them.
-/

namespace TypedWrappers

/-- The asynchronous result type of generated methods. -/
structure TaskType where
  /-- The full name, which a declared return type must mean exactly to count as a task. -/
  fullName : String
  /-- The namespace that generated files import for it. -/
  ns : String
  /-- The name that generated code writes. -/
  name : String
  deriving Repr, DecidableEq

/-- Client extensions for workflows: one method to execute and one to start each. -/
structure WorkflowTarget where
  /-- The attribute of a workflow class. -/
  marker : String
  /-- The attribute by which a workflow asks for generation; without one every workflow is served. -/
  optInMarker : Option String
  /-- The attribute of the method that runs a workflow. -/
  entryMarker : String
  /-- The namespace of the generated file. -/
  outputNamespace : String
  /-- The generated class. -/
  className : String
  /-- The name of the generated file. -/
  fileName : String
  /-- The namespaces that the file imports in any case. -/
  imports : List String
  /-- The type of the leading client parameter. -/
  clientType : String
  /-- The type of the trailing options parameter. -/
  optionsType : String
  /-- The generic handle that starting a workflow returns. -/
  handleType : String
  /-- The verb of the method that waits for the result. -/
  executeVerb : String
  /-- The verb of the method that returns a handle. -/
  startVerb : String
  deriving Repr, DecidableEq

/-- Helpers that invoke activities from workflow code. -/
structure ActivityTarget where
  /-- The attribute of an activity method. -/
  marker : String
  /-- The namespace of the generated file. -/
  outputNamespace : String
  /-- The generated class. -/
  className : String
  /-- The name of the generated file. -/
  fileName : String
  /-- The namespaces that the file imports in any case. -/
  imports : List String
  /-- The type of the trailing options parameter. -/
  optionsType : String
  /-- The invocation that a generated body forwards to. -/
  invoke : String
  /-- The verb of generated methods. -/
  verb : String
  deriving Repr, DecidableEq

/-- Test doubles for classes with activities. -/
structure MockTarget where
  /-- The attribute of a class that asks to be a double. -/
  marker : String
  /-- The generic base class whose argument names the class to double. -/
  baseType : String
  /-- The namespaces that the file of a double imports in any case. -/
  imports : List String
  /-- The attribute of generated activity methods. -/
  activityAttribute : String
  /-- What the names of generated properties start with. -/
  propertyPrefix : String
  /-- The expression that makes a substitute, with `substituteHole` for the type of it. -/
  substitute : String
  deriving Repr, DecidableEq

/-- The configuration of a generator. -/
structure Config where
  /-- The comment at the top of each generated file. -/
  banner : String
  /-- The result type of generated methods. -/
  task : TaskType
  /-- What the paths of generated files end with; such files are not scanned. -/
  generatedFileSuffix : String
  /-- What the names of generated methods end with. -/
  methodSuffix : String
  /-- Client extensions for workflows. -/
  workflows : WorkflowTarget
  /-- Helpers for activities. -/
  activities : ActivityTarget
  /-- Test doubles. -/
  mocks : MockTarget
  deriving Repr, DecidableEq

/-- The place in an expression where a type is filled in. -/
def substituteHole : String := "\x7b\x7d"

/-- The comment that marks a file as generated. -/
def autoGeneratedBanner : String :=
  "\n".intercalate
    ["//------------------------------------------------------------------------------",
      "// <auto-generated>",
      "//     This code was generated.",
      "//",
      "//     Changes to this file may cause incorrect behavior and will be lost if",
      "//     the code is regenerated.",
      "// </auto-generated>",
      "//------------------------------------------------------------------------------"]

/-- A type that the generator contributes to the compilation. -/
structure MarkerSource where
  /-- The name of the generated file. -/
  fileName : String
  /-- The namespace of the type. -/
  ns : String
  /-- The simple name of the type. -/
  name : String
  /-- The line that declares it. -/
  declaration : String
  /-- The attributes above the declaration. -/
  attributes : List String
  deriving Repr, DecidableEq

namespace MarkerSource

/-- The full name of the type. -/
def fullName (source : MarkerSource) : String :=
  qualify (some source.ns) source.name

/-- An attribute class with a full name. -/
def attributeClass (fullName : String) : MarkerSource :=
  let (ns, name) := splitQualified fullName
  { fileName := name ++ ".g.cs", ns, name,
    declaration := "public sealed class " ++ name ++ " : System.Attribute",
    attributes := ["[System.AttributeUsage(System.AttributeTargets.Class)]"] }

/-- The generic base class of doubles with a full name. -/
def doubleBase (fullName : String) : MarkerSource :=
  let (ns, name) := splitQualified fullName
  { fileName := name ++ ".g.cs", ns, name, declaration := "public abstract class " ++ name ++ "<TActivities>",
    attributes := [] }

end MarkerSource

namespace Config

/-- The types that the generator contributes: the attributes by which classes ask for generation, and the base class
of doubles. -/
def markerSources (config : Config) : List MarkerSource :=
  (config.workflows.optInMarker.map MarkerSource.attributeClass).toList ++
    [.attributeClass config.mocks.marker, .doubleBase config.mocks.baseType]

/-- The configuration for the Temporal SDK. -/
def temporal : Config where
  banner := autoGeneratedBanner
  task := { fullName := "System.Threading.Tasks.Task", ns := "System.Threading.Tasks", name := "Task" }
  generatedFileSuffix := ".g.cs"
  methodSuffix := "Async"
  workflows :=
    { marker := "Temporalio.Workflows.WorkflowAttribute"
      optInMarker := some "Temporalio.Generators.Workflows.GenerateWorkflowExtensionAttribute"
      entryMarker := "Temporalio.Workflows.WorkflowRunAttribute"
      outputNamespace := "Temporalio.Generators.Workflows"
      className := "TemporalClientExtensions"
      fileName := "TemporalClientExtensions.g.cs"
      imports := ["Temporalio.Client", "Temporalio.Workflows"]
      clientType := "ITemporalClient"
      optionsType := "WorkflowOptions"
      handleType := "WorkflowHandle"
      executeVerb := "Execute"
      startVerb := "Start" }
  activities :=
    { marker := "Temporalio.Activities.ActivityAttribute"
      outputNamespace := "Temporalio.Generators.Activities"
      className := "Activities"
      fileName := "TemporalActivityExtensions.g.cs"
      imports := ["Temporalio.Workflows"]
      optionsType := "ActivityOptions"
      invoke := "Workflow.ExecuteActivityAsync"
      verb := "Execute" }
  mocks :=
    { marker := "Temporalio.Generators.Testing.GenerateNSubstituteMocksAttribute"
      baseType := "Temporalio.Generators.Testing.ActivityMockBase"
      imports := ["NSubstitute", "System", "Temporalio.Activities"]
      activityAttribute := "Activity"
      propertyPrefix := "Mock"
      substitute := "Substitute.For<" ++ substituteHole ++ ">()" }

end Config

end TypedWrappers
