import TypedWrappers.FileTree.Basic
import TypedWrappers.Path

/-!
# Workspaces

A file tree with the directory in which relative paths start, and what paths mean in it. Each piece of a path leads
from a directory, so that neither a file nor a missing place can be passed through, not even by dots.

- `Workspace.locate`: the place that a path leads to, which may be missing itself, or why it leads nowhere;
- `Workspace.readFile?`, `isFile`, `isDirectory`, `filesBelow`, `filesIn`: what is there;
- `Workspace.writeFile?`, `makeDirectory?`, `removeFile?`: the changes.
-/

namespace TypedWrappers

/-- A file tree seen from one of its directories. -/
structure Workspace where
  /-- The files and directories. -/
  tree : FileTree
  /-- The directory in which relative paths start. -/
  here : Location

/-- Why a path leads nowhere. -/
inductive PathError
  /-- A directory on the way is missing. -/
  | missing
  /-- A file is on the way, or the path or a name in it is not one that can be asked for. -/
  | refused
  deriving Repr, DecidableEq

namespace Workspace

/-- The most bytes that a name in a file tree may have. -/
def maxNameBytes : Nat := 255

/-- The most bytes that a path may have as it is written. -/
def maxPathBytes : Nat := 4095

/-- Whether a path is one that can be asked for: no null character, and not too long. -/
def admits (p : Path) : Bool :=
  !p.hasNull && p.text.utf8ByteSize ≤ maxPathBytes

/-- The absolute path of a place. -/
def absolute (place : Location) : Path :=
  ⟨"/" ++ "/".intercalate place.reverse⟩

/-- The place that a piece of a path leads to from a directory; the root is above itself. -/
def step (w : Workspace) (place : Location) (piece : List Char) : Except PathError Location :=
  match w.tree.find? place with
  | none => .error .missing
  | some (.file _) => .error .refused
  | some .directory =>
    if piece = [] ∨ piece = ['.'] then .ok place
    else if piece = ['.', '.'] then .ok place.tail
    else if (String.ofList piece).utf8ByteSize ≤ maxNameBytes then .ok (String.ofList piece :: place)
    else .error .refused

/-- The place that a path leads to. An empty path leads nowhere. -/
def locate (w : Workspace) (p : Path) : Except PathError Location :=
  if !admits p then .error .refused
  else if p.text = "" then .error .missing
  else p.pieces.foldlM w.step (if p.isAbsolute then [] else w.here)

/-- The place that a path leads to, if it leads anywhere. -/
def locate? (w : Workspace) (p : Path) : Option Location :=
  (w.locate p).toOption

/-- Whether a path leads nowhere only because a directory is missing on the way. -/
def isCutOff (w : Workspace) (p : Path) : Bool :=
  match w.locate p with
  | .error .missing => true
  | _ => false

/-! ## What is there -/

/-- What a path leads to. -/
def entry? (w : Workspace) (p : Path) : Option Entry :=
  (w.locate? p).bind w.tree.find?

/-- Whether a path leads to anything. -/
def hasEntry (w : Workspace) (p : Path) : Bool :=
  (w.entry? p).isSome

/-- Whether a path leads to a directory. -/
def isDirectory (w : Workspace) (p : Path) : Bool :=
  w.entry? p = some .directory

/-- The content of the file that a path leads to. -/
def readFile? (w : Workspace) (p : Path) : Option String :=
  (w.locate? p).bind w.tree.content?

/-- Whether a path leads to a file. -/
def isFile (w : Workspace) (p : Path) : Bool :=
  (w.readFile? p).isSome

/-- The place of the directory or file that a path leads to, if its absolute path can be asked for too. -/
def placeOf? (w : Workspace) (p : Path) : Option Location := do
  let place ← w.locate? p
  if (w.tree.find? place).isSome && admits (absolute place) then some place else none

/-- The path that names lead to from a directory, the innermost name first. -/
def below (dir : Path) (names : List String) : Path :=
  names.foldr (fun name p => p.join name) dir

/-- The files below a directory, as paths that start with that of the directory. A directory is looked into by its path,
so the files of one whose path is too long are left out. -/
def filesBelow (w : Workspace) (dir : Path) : List Path :=
  let found := ((w.locate? dir).map w.tree.filesBelow).getD []
  (found.filter fun names => admits (below dir names.tail)).map (below dir)

/-- The names of the files in a directory. -/
def filesIn (w : Workspace) (dir : Path) : List String :=
  ((w.locate? dir).map w.tree.filesIn).getD []

/-! ## Changes -/

/-- Writes a file: a new one in a directory, or over an old one. -/
def writeFile? (w : Workspace) (p : Path) (content : String) : Option Workspace := do
  let place ← w.locate? p
  let tree ← w.tree.setFile? place content
  some { w with tree }

/-- Makes a new directory in a directory; slashes at the end of the path do not count. -/
def makeDirectory? (w : Workspace) (p : Path) : Option Workspace :=
  if admits p then do
    let place ← w.locate? p.withoutTrailingSlashes
    let tree ← w.tree.addDirectory? place
    some { w with tree }
  else none

/-- Removes a file. -/
def removeFile? (w : Workspace) (p : Path) : Option Workspace := do
  let place ← w.locate? p
  let tree ← w.tree.removeFile? place
  some { w with tree }

end Workspace

end TypedWrappers
