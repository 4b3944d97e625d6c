import TypedWrappers.Project.SnapshotFile

/-!
# Generation from snapshot files

One pass for each snapshot file. What it generates goes to a directory of its own, named after the compilation, so the
names must be such that each file lands in its directory and no two snapshots share one.

- `Workspace.generateAll`: the outputs of several snapshots, or the first failure; all names are checked after all
  passes.
-/

namespace TypedWrappers

open Text

/-- What the pass over one snapshot file gives. -/
structure SnapshotOutput where
  /-- The snapshot file. -/
  snapshot : Path
  /-- The name of the directory for the generated files. -/
  name : String
  /-- The generated files and the findings. -/
  output : Output
  deriving DecidableEq

/-- The name of the output of a snapshot: that of the compilation, or that of the file if the compilation has none. -/
def outputName (c : Compilation) (snapshot : Path) : String :=
  let name := trim c.name
  if name = "" then snapshot.fileStem?.getD "snapshot" else name

namespace SnapshotOutput

/-- Checks the names in an output against each other and those in front of it. -/
def check (earlier : List SnapshotOutput) (o : SnapshotOutput) : Except Failure Unit :=
  if !isPlainFileName o.name then .error ⟨some (.nameOutput o.snapshot), .notPlainFileName o.name⟩
  else
    match o.output.artifacts.fileNames.find? fun name => !isPlainFileName name with
    | some name => .error ⟨some (.nameArtifact o.snapshot), .notPlainFileName name⟩
    | none =>
      match earlier.find? (·.name = o.name) with
      | some other => .error ⟨none, .sharedOutput other.snapshot o.snapshot o.name⟩
      | none => .ok ()

/-- Checks the names in outputs in order; the first failure counts. -/
def checkAll (earlier : List SnapshotOutput) : List SnapshotOutput → Except Failure Unit
  | [] => .ok ()
  | o :: rest =>
    match o.check earlier with
    | .error failure => .error failure
    | .ok () => checkAll (earlier ++ [o]) rest

end SnapshotOutput

/-- A pass over the compilation of a snapshot file. -/
def Compilation.generate (c : Compilation) (snapshot : Path) : Except Failure SnapshotOutput :=
  match Pass.run .temporal FileModel.emitter c with
  | .error e => .error ⟨some (.generate snapshot), .pass e⟩
  | .ok output => .ok ⟨snapshot, outputName c snapshot, output⟩

namespace Workspace

/-- Loads a snapshot file and runs a pass over it. -/
def generateFrom (w : Workspace) (snapshot : Path) : Except Failure SnapshotOutput :=
  match w.loadSnapshot snapshot with
  | .error e => .error ⟨some (.loadSnapshot snapshot), .load e⟩
  | .ok c => c.generate snapshot

/-- The outputs of several snapshots. -/
def generateAll (w : Workspace) (snapshots : List Path) : Except Failure (List SnapshotOutput) := do
  let outputs ← snapshots.mapM w.generateFrom
  SnapshotOutput.checkAll [] outputs
  pure outputs

/-- The outputs of the snapshots that inputs stand for, of which there must be one. -/
def generateInputs (w : Workspace) (inputs : List Path) : Except Failure (List SnapshotOutput) := do
  let snapshots ← w.discoverSnapshots inputs
  if snapshots = [] then .error ⟨none, .noSnapshots⟩ else w.generateAll snapshots

end Workspace

end TypedWrappers
