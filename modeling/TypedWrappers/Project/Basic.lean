import TypedWrappers.Project.Failure
import TypedWrappers.Workspace
import TypedWrappers.Yaml.Document

/-!
# Projects

A project says where its snapshots are and where generated files go. It is a directory with a settings file.

- `Settings.ofText?`: the settings that a YAML text gives;
- `Workspace.loadProject`: the project of a directory or of a settings file.
-/

namespace TypedWrappers

/-- The settings of a project. -/
structure Settings where
  /-- The name of the project. -/
  name : String
  /-- The snapshot files and the directories with snapshots. -/
  inputs : List String
  /-- The directory that generated files are written to. -/
  outputDir : String
  deriving Repr, DecidableEq, Inhabited

namespace Settings

/-- The name of the file that holds the settings of a project. -/
def fileName : String := "wfgen.yaml"

/-- The inputs of a project that names none. -/
def defaultInputs : List String := ["snapshots"]

/-- The output directory of a project that names none. -/
def defaultOutputDir : String := "generated"

/-- Reads settings; only the name must be given. -/
def read {value : Type} {m : Type → Type} [Monad m] (f : RecordFormat value m) (v : value) : m Settings := do
  let field ← f.record ["name", "inputs", "output_dir"] v
  let name ← f.required f.string (field "name")
  let inputs ← RecordFormat.optional defaultInputs (f.list f.string) (field "inputs")
  let outputDir ← RecordFormat.optional defaultOutputDir f.string (field "output_dir")
  pure { name, inputs, outputDir }

/-- The settings that a YAML text gives. -/
def ofText? (text : String) : Option Settings :=
  (Yaml.Document.parse? text).bind fun document => document.read? (read Yaml.format)

end Settings

/-- A project. -/
structure Project where
  /-- Its settings. -/
  settings : Settings
  /-- Where the paths of the settings start. -/
  base : Path
  deriving Repr, DecidableEq

namespace Project

/-- The paths of the inputs. -/
def inputs (project : Project) : List Path :=
  project.settings.inputs.map project.base.join

/-- The path of the output directory. -/
def outputDir (project : Project) : Path :=
  project.base.join project.settings.outputDir

end Project

namespace Workspace

/-- Where the settings file is and where the paths in it start: a directory holds the file under its name. -/
def settingsAt (w : Workspace) (p : Path) : Path × Path :=
  if w.isDirectory p then (p.join Settings.fileName, p) else (p, p.parent?.getD ⟨"."⟩)

/-- The project of a directory or of a settings file. -/
def loadProject (w : Workspace) (p : Path) : Except LoadError Project :=
  let (file, base) := w.settingsAt p
  if !w.hasEntry file then .error (.settingsNotFound file)
  else
    match w.readFile? file with
    | none => .error .noText
    | some text =>
      match Settings.ofText? text with
      | none => .error (.malformedYaml LoadError.otherForm)
      | some settings => if settings.inputs = [] then .error .noInputs else .ok ⟨settings, base⟩

end Workspace

end TypedWrappers
