import TypedWrappers.Compilation.Snapshot
import TypedWrappers.Project.Failure
import TypedWrappers.Workspace

/-!
# Snapshot files

- `SnapshotFormat.ofPath?`: the format of a file by the extension of its name; `Path.hasSnapshotExtension`: whether a
  file in a directory has one that counts;
- `Workspace.loadSnapshot`: the compilation that a file holds;
- `Workspace.discoverSnapshots`: the snapshot files that a list of files and directories stands for, each once and in
  increasing order.
-/

namespace TypedWrappers

/-- The format that the extension of a file's name stands for. -/
def SnapshotFormat.ofPath? (p : Path) : Option SnapshotFormat :=
  match p.extension? with
  | some "yaml" => some .yaml
  | some "yml" => some .yaml
  | some "json" => some .json
  | _ => none

/-- Whether a file that stands in a directory is a snapshot, by the extension of its name. -/
def Path.hasSnapshotExtension (p : Path) : Bool :=
  p.extension?.any fun extension => extension = "yaml" || extension = "yml" || extension = "json"

/-- The files that are found in directories are those that have a format. -/
theorem SnapshotFormat.isSome_ofPath? (p : Path) : (ofPath? p).isSome = p.hasSnapshotExtension := by
  rw [ofPath?, Path.hasSnapshotExtension]
  cases p.extension? with
  | none => rfl
  | some extension =>
    rw [Option.any_some]
    split <;> simp_all

/-- A text that is no snapshot of a format. -/
def LoadError.malformed : SnapshotFormat → LoadError
  | .yaml => .malformedYaml otherForm
  | .json => .malformedJson otherForm

/-- The compilation of a text, or the error that it is none. -/
def Compilation.ofText (format : SnapshotFormat) (text : String) : Except LoadError Compilation :=
  match Compilation.ofText? format text with
  | some c => .ok c
  | none => .error (.malformed format)

/-- A list of paths without those that have the components of their left neighbour. -/
def dropSamePaths : List Path → List Path
  | [] => []
  | p :: rest => p :: (dropSamePaths rest).dropWhile (·.components = p.components)

/-- Paths in increasing order, of those with the same components only the first. -/
def distinctPaths (paths : List Path) : List Path :=
  dropSamePaths (paths.mergeSort fun p q => (p.compare q).isLE)

namespace Workspace

/-- The compilation that a snapshot file holds. -/
def loadSnapshot (w : Workspace) (p : Path) : Except LoadError Compilation :=
  match SnapshotFormat.ofPath? p with
  | none => .error (.unknownFormat p)
  | some format =>
    match w.readFile? p with
    | none => .error .noText
    | some text => Compilation.ofText format text

/-- The snapshot files that an input stands for: a file for itself, a directory for all files below it that have the
extension of a snapshot. -/
def snapshotsAt (w : Workspace) (input : Path) : Except Failure (List Path) :=
  if w.isFile input then .ok [input]
  else if w.isDirectory input then .ok ((w.filesBelow input).filter Path.hasSnapshotExtension)
  else .error ⟨none, .inputNotFound input⟩

/-- The snapshot files that several inputs stand for. -/
def discoverSnapshots (w : Workspace) (inputs : List Path) : Except Failure (List Path) :=
  (inputs.mapM w.snapshotsAt).map fun found => distinctPaths found.flatten

end Workspace

end TypedWrappers
