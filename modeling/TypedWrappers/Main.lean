import TypedWrappers.CommandLine

/-!
# The program

Reads the part of the disk that a call looks at, runs the command on it, and brings the disk up to the result.
-/

namespace TypedWrappers.Main

/-- Adds what is on the disk at one place. -/
def surveyPlace (tree : FileTree) (place : Location) : IO FileTree := do
  if (tree.find? place).isSome then return tree
  let disk := (← IO.currentDir) / (Workspace.absolute place).text
  if ← disk.isDir then return (tree.addDirectory? place).getD tree
  if !(← disk.pathExists) then return tree
  try
    let content ← IO.FS.readFile disk
    return (tree.setFile? place content).getD tree
  catch _ => return tree

/-- Adds what is on the disk at a path and at the places on the way. -/
def surveyPath (w : Workspace) (p : Path) : IO Workspace :=
  (List.range (p.pieces.length + 1)).foldlM
    (fun w n => do
      match w.locate? ⟨String.ofList (['/'].intercalate (p.pieces.take n))⟩ with
      | some place => return { w with tree := ← surveyPlace w.tree place }
      | none => return w)
    w

/-- Adds what is on the disk at a place and below it. -/
partial def surveyBelow (tree : FileTree) (place : Location) : IO FileTree := do
  let tree ← surveyPlace tree place
  let disk := (← IO.currentDir) / (Workspace.absolute place).text
  if !(← disk.isDir) then return tree
  (← disk.readDir).foldlM (fun tree entry => surveyBelow tree (entry.fileName :: place)) tree

/-- The workspace of the current directory, with what a call looks at. -/
def survey (call : Invocation) : IO Workspace := do
  let here := ((Path.mk (← IO.currentDir).toString).pieces.map String.ofList).filter (· ≠ "")
  let leads := (List.range here.length).map fun n => (here.take (n + 1)).reverse
  let tree ← leads.foldlM surveyPlace FileTree.empty
  let w ← call.paths.foldlM surveyPath { tree, here := here.reverse }
  (call.deepPaths w).foldlM
    (fun w p => do
      let w ← surveyPath w p
      match w.locate? p with
      | some place => return { w with tree := ← surveyBelow w.tree place }
      | none => return w)
    w

/-- Makes on the disk the changes that lead from one tree to another. -/
def writeBack (before after : FileTree) : IO Unit := do
  let here ← IO.currentDir
  for (place, entry) in after.entries.reverse do
    if before.find? place ≠ some entry then
      match entry with
      | .directory => IO.FS.createDirAll (here / (Workspace.absolute place).text)
      | .file content => IO.FS.writeFile (here / (Workspace.absolute place).text) content
  for (place, _) in before.entries do
    if (after.find? place).isNone then IO.FS.removeFile (here / (Workspace.absolute place).text)

/-- Runs a call and gives the exit code. -/
def run (a : Arguments) (call : Invocation) : IO UInt32 := do
  let w ← survey call
  let (result, session) := call.command.run w
  writeBack w.tree session.workspace.tree
  for event in session.log do
    if event.level ≠ .debug || a.isVerbose then IO.eprintln (event.level.name ++ ": " ++ event.message)
  match result with
  | .ok text =>
    IO.print text
    return 0
  | .error failure =>
    IO.eprintln ("Error: " ++ ": ".intercalate failure.lines)
    return 1

end TypedWrappers.Main

/-- Runs the command that the command line calls for. -/
def main (args : List String) : IO UInt32 := do
  match TypedWrappers.Arguments.ofList? args with
  | none =>
    IO.eprintln TypedWrappers.Arguments.usage
    return 2
  | some a =>
    match a.invocation? with
    | none =>
      IO.eprintln TypedWrappers.Arguments.usage
      return 2
    | some call => TypedWrappers.Main.run a call
