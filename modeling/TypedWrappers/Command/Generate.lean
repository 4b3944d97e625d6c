import TypedWrappers.Command.Basic
import TypedWrappers.Project.Basic
import TypedWrappers.Project.Generation
import TypedWrappers.Project.OutputDirectory

/-!
# Generating a project

`Command.generate` writes the generated files of every snapshot of a project, each snapshot into a directory of its
own, and removes generated files from there that are no longer generated. Nothing is written before all passes are
over.
-/

namespace TypedWrappers.Command

/-- Writes one generated file into a directory. -/
def writeArtifact (dir : Path) (artifact : Artifact) : Command Unit := do
  let file := dir.join artifact.fileName
  writeFile (some (.write file)) file artifact.content
  tell (.debug ("Wrote " ++ file.text))

/-- Removes a file that is no longer generated. -/
def removeStale (file : Path) : Command Unit := do
  removeFile (some (.remove file)) file
  tell (.info ("Removed stale " ++ file.text))

/-- Writes the output of one snapshot below the output directory. -/
def writeOutput (outputDir : Path) (o : SnapshotOutput) : Command Unit := do
  let dir := outputDir.join o.name
  makeDirectories (some (.create dir)) dir
  o.output.artifacts.toList.forM (writeArtifact dir)
  (← look (·.leftoverFiles dir Config.temporal.generatedFileSuffix o.output.artifacts)).forM removeStale
  o.output.diagnostics.forM fun d => tell (.warn (o.snapshot.text ++ ": " ++ d.text))
  tell (.info ("✓ " ++ o.name ++ " (" ++ toString o.output.artifacts.size ++ " files)"))

/-- How many things there are in all outputs. -/
def countAll (count : Output → Nat) (outputs : List SnapshotOutput) : String :=
  toString (outputs.foldl (fun total o => total + count o.output) 0)

/-- The project that a command is about. -/
def project (path : Path) : Command Project :=
  demand fun w =>
    match w.loadProject path with
    | .ok project => .ok project
    | .error e => .error ⟨some .loadSettings, .load e⟩

/-- Generates from the given inputs, or from those of the project if none are given. -/
def generate (path : Path) (inputs : List Path) : Command Unit := do
  let project ← project path
  tell (.info ("Generating project: " ++ project.settings.name))
  let outputs ← demand (·.generateInputs (if inputs = [] then project.inputs else inputs))
  outputs.forM (writeOutput project.outputDir)
  tell (.info ("✓ Wrote " ++ countAll (·.artifacts.size) outputs ++ " files to " ++ project.outputDir.text ++ " (" ++
    countAll (·.diagnostics.length) outputs ++ " warnings)"))

end TypedWrappers.Command
