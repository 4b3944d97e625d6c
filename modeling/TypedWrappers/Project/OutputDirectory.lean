import TypedWrappers.Digest.Sha256
import TypedWrappers.Project.Failure
import TypedWrappers.Workspace

/-!
# Output directories

A directory for the generated files of one snapshot, compared with the files that it should hold.

- `Workspace.leftoverFiles`: the generated files in it that should not be there;
- `Workspace.outOfDate`: every file in it that is missing, modified or left over.
-/

namespace TypedWrappers

open Text

/-- What is wrong with a generated file on disk. -/
inductive OutOfDate
  | missing (file : Path)
  | modified (file : Path)
  | unexpected (file : Path)
  deriving Repr, DecidableEq

/-- The finding in words. -/
def OutOfDate.text : OutOfDate → String
  | missing file => "missing: " ++ file.text
  | modified file => "modified: " ++ file.text
  | unexpected file => "unexpected: " ++ file.text

namespace Workspace

/-- The files in a directory whose names have the suffix of generated files but are not those of given files, in
increasing order. -/
def leftoverFiles (w : Workspace) (dir : Path) (suffix : String) (artifacts : ArtifactSet) : List Path :=
  let names := (w.filesIn dir).filter fun name => endsWith name suffix && (artifacts.find? name).isNone
  (names.map dir.join).mergeSort fun p q => (p.compare q).isLE

/-- What is wrong with the file of an artifact in a directory: it is not there, or the digests of the texts differ. -/
def artifactState (w : Workspace) (dir : Path) (artifact : Artifact) : Except Failure (Option OutOfDate) :=
  let file := dir.join artifact.fileName
  if !w.hasEntry file then .ok (some (.missing file))
  else
    match w.readFile? file with
    | none => .error ⟨some (.read file), .refusedByFileSystem⟩
    | some text => .ok (if Sha256.ofText text = Sha256.ofText artifact.content then none else some (.modified file))

/-- The words for all that is wrong in a directory, in increasing order. -/
def outOfDate (w : Workspace) (dir : Path) (suffix : String) (artifacts : ArtifactSet) :
    Except Failure (List String) := do
  let states ← artifacts.toList.mapM (w.artifactState dir)
  let findings := states.filterMap id ++ (w.leftoverFiles dir suffix artifacts).map .unexpected
  pure ((findings.map OutOfDate.text).mergeSort (· ≤ ·))

end Workspace

end TypedWrappers
