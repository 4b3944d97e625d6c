import TypedWrappers.Command.Basic
import TypedWrappers.Project.Basic

/-!
# Starting a project

`Command.startProject` makes a directory into a project: a settings file and one snapshot to start from.
-/

namespace TypedWrappers

/-- The settings file of a new project with a name. -/
def Settings.initialText (name : String) : String :=
  "\n".intercalate
    ["# wfgen Project Configuration",
      "name: " ++ name,
      "",
      "# Snapshot files or directories",
      "inputs:",
      "  - snapshots",
      "",
      "# Generated sources land in <output_dir>/<compilation name>/",
      "output_dir: generated",
      ""]

/-- The snapshot of a new project: a workflow, an activity and a test double. -/
def sampleSnapshot : String :=
  "\n".intercalate
    ["# Compilation snapshot: what the host compiler sees",
      "name: Greeting",
      "references:",
      "  - System.Threading.Tasks.Task",
      "  - Temporalio.Workflows.WorkflowAttribute",
      "  - Temporalio.Workflows.WorkflowRunAttribute",
      "  - Temporalio.Activities.ActivityAttribute",
      "files:",
      "  - path: GreetingActivities.cs",
      "    namespace: Greeting",
      "    usings: [System.Threading.Tasks, Temporalio.Activities]",
      "    types:",
      "      - name: GreetingActivities",
      "        members:",
      "          - name: ComposeAsync",
      "            attributes: [Activity]",
      "            returns: Task<string>",
      "            parameters:",
      "              - \x7b name: name, type: string \x7d",
      "  - path: GreetingWorkflow.cs",
      "    namespace: Greeting",
      "    usings:",
      "      - System.Threading.Tasks",
      "      - Temporalio.Generators.Workflows",
      "      - Temporalio.Workflows",
      "    types:",
      "      - name: GreetingWorkflow",
      "        attributes: [Workflow, GenerateWorkflowExtension]",
      "        members:",
      "          - name: RunAsync",
      "            attributes: [WorkflowRun]",
      "            returns: Task<string>",
      "            parameters:",
      "              - \x7b name: name, type: string \x7d",
      "  - path: GreetingActivitiesDouble.cs",
      "    namespace: Greeting.Tests",
      "    usings: [Greeting, Temporalio.Generators.Testing]",
      "    types:",
      "      - name: GreetingActivitiesDouble",
      "        attributes: [GenerateNSubstituteMocks]",
      "        base_types: [ActivityMockBase<GreetingActivities>]",
      ""]

namespace Command

/-- The name of a new project: the given one, or that of its directory; the root has none. -/
def projectName (dir : Path) (name : Option String) : Command String := do
  match ← look (·.placeOf? dir), name with
  | none, _ => throw ⟨none, .refusedByFileSystem⟩
  | some _, some name => pure name
  | some (name :: _), none => pure name
  | some [], none => throw ⟨none, .namelessDirectory⟩

/-- Makes a directory into a project, unless it has a settings file. -/
def startProject (dir : Path) (name : Option String) : Command Unit := do
  if !(← look (·.hasEntry dir)) then makeDirectories none dir
  let name ← projectName dir name
  if ← look (·.hasEntry (dir.join Settings.fileName)) then throw ⟨none, .alreadyInitialized dir⟩
  tell (.info ("Creating new wfgen project: " ++ name))
  makeDirectories none (dir.join "snapshots")
  writeFile none (dir.join Settings.fileName) (Settings.initialText name)
  writeFile none (dir.join "snapshots/greeting.yaml") sampleSnapshot
  [Event.info "✓ Created wfgen.yaml",
    .info "✓ Created snapshots/greeting.yaml",
    .info "",
    .info "Next steps:",
    .info ("  wfgen --config " ++ dir.text ++ " generate")].forM tell

end Command

end TypedWrappers
