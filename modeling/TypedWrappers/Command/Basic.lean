import TypedWrappers.Log
import TypedWrappers.Project.Failure
import TypedWrappers.Workspace

/-!
# Commands

What a command of the program does to a workspace. A command that fails keeps the changes that it made and the events
that it told until then.

- `Command.run`: the result, the workspace and the events of a command;
- `Command.writeFile`, `makeDirectories`, `removeFile`: the changes;
- `Command.tell`: one event.
-/

namespace TypedWrappers

/-- The state of a running command. -/
structure Session where
  /-- The files as they are by now. -/
  workspace : Workspace
  /-- The events so far, in order. -/
  log : List Event

/-- A command: it reads and changes the state, and may fail. -/
abbrev Command (α : Type) := ExceptT Failure (StateM Session) α

namespace Command

/-- The result of a command in a workspace, and the state at its end. -/
def run {α : Type} (command : Command α) (w : Workspace) : Except Failure α × Session :=
  (ExceptT.run command).run ⟨w, []⟩

/-- Tells an event. -/
def tell (event : Event) : Command Unit :=
  modify fun s => { s with log := s.log ++ [event] }

/-- A value read from the workspace. -/
def look {α : Type} (f : Workspace → α) : Command α := do
  pure (f (← get).workspace)

/-- A value read from the workspace, which may fail to be there. -/
def demand {α : Type} (f : Workspace → Except Failure α) : Command α := do
  match f (← get).workspace with
  | .ok value => pure value
  | .error failure => throw failure

/-- A change of the workspace that the file system may refuse. -/
def change (step : Option FailedStep) (f : Workspace → Option Workspace) : Command Unit := do
  let s ← get
  match f s.workspace with
  | some workspace => set { s with workspace }
  | none => throw ⟨step, .refusedByFileSystem⟩

/-- Writes a file. -/
def writeFile (step : Option FailedStep) (p : Path) (content : String) : Command Unit :=
  change step (·.writeFile? p content)

/-- Removes a file. -/
def removeFile (step : Option FailedStep) (p : Path) : Command Unit :=
  change step (·.removeFile? p)

/-- Makes a directory unless it is there. -/
def makeDirectory (step : Option FailedStep) (p : Path) : Command Unit :=
  change step fun w => if w.isDirectory p then some w else w.makeDirectory? p

/-- Makes the first of several directories unless it is there. As long as a directory on the way is missing, the next
ones are made before it. -/
def makeInside (step : Option FailedStep) : List Path → Command Unit
  | [] => pure ()
  | p :: above => do
    if ← look (·.isCutOff p) then makeInside step above
    makeDirectory step p

/-- Makes a directory and those above it, unless they are there. A path that is refused, and not only cut off, stops
this before any directory is made. -/
def makeDirectories (step : Option FailedStep) (p : Path) : Command Unit :=
  makeInside step p.ancestors

end Command

end TypedWrappers
