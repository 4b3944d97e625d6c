import TypedWrappers.Command.Check
import TypedWrappers.Command.Inspect
import TypedWrappers.Command.Start

/-!
# The command line

- `Arguments.ofList?`: the options and words of a command line;
- `Arguments.invocation?`: the command that they call for;
- `Invocation.command`: what the command does; it gives the text for standard output.
-/

namespace TypedWrappers

/-- The options and words of a command line. -/
structure Arguments where
  /-- The settings file or the directory with it. -/
  settings : String := Settings.fileName
  /-- Whether to tell everything. -/
  isVerbose : Bool := false
  /-- The name for a new project. -/
  name : Option String := none
  /-- The inputs in place of those of the project. -/
  inputs : List String := []
  /-- All that is no option. -/
  words : List String := []
  deriving Repr, DecidableEq

/-- A call of a command. -/
inductive Invocation
  | start (dir : Path) (name : Option String)
  | generate (settings : Path) (inputs : List Path)
  | check (settings : Path)
  | inspect (snapshot : Path)
  deriving Repr, DecidableEq

namespace Arguments

/-- Reads options and words from a list and adds them. -/
def read? (a : Arguments) : List String → Option Arguments
  | [] => some a
  | word :: rest =>
    if word ∈ ["-v", "--verbose"] then read? { a with isVerbose := true } rest
    else
      match rest with
      | value :: rest =>
        if word ∈ ["-c", "--config"] then read? { a with settings := value } rest
        else if word ∈ ["-n", "--name"] then read? { a with name := some value } rest
        else if word ∈ ["-i", "--input"] then read? { a with inputs := a.inputs ++ [value] } rest
        else if word.toList.head? = some '-' then none
        else read? { a with words := a.words ++ [word] } (value :: rest)
      | [] => if word.toList.head? = some '-' then none else some { a with words := a.words ++ [word] }

/-- The options and words of a command line. -/
def ofList? (args : List String) : Option Arguments :=
  read? {} args

/-- The command that a command line calls for. -/
def invocation? (a : Arguments) : Option Invocation :=
  match a.words with
  | ["init"] => some (.start ⟨"."⟩ a.name)
  | ["init", dir] => some (.start ⟨dir⟩ a.name)
  | ["generate"] => some (.generate ⟨a.settings⟩ (a.inputs.map Path.mk))
  | ["check"] => some (.check ⟨a.settings⟩)
  | ["inspect", snapshot] => some (.inspect ⟨snapshot⟩)
  | _ => none

/-- How the program is called. -/
def usage : String :=
  "usage: wfgen [--config PATH] [--verbose] (init [DIR] [--name NAME] | generate [--input PATH]... | check | " ++
    "inspect SNAPSHOT)"

end Arguments

namespace Invocation

/-- What a call does, and its text for standard output. -/
def command : Invocation → Command String
  | start dir name => do
    Command.startProject dir name
    pure ""
  | generate settings inputs => do
    Command.generate settings inputs
    pure ""
  | check settings => do
    Command.check settings
    pure ""
  | inspect snapshot => Command.inspect snapshot

/-- The paths that a call looks at, before it is known what is there. -/
def paths : Invocation → List Path
  | start dir _ =>
    [dir, dir.join Settings.fileName, dir.join "snapshots", dir.join "snapshots/greeting.yaml"]
  | generate settings _ => [settings, settings.join Settings.fileName]
  | check settings => [settings, settings.join Settings.fileName]
  | inspect snapshot => [snapshot]

/-- The paths below which a call looks at everything, as far as the settings are known. -/
def deepPaths (w : Workspace) : Invocation → List Path
  | generate settings inputs =>
    match w.loadProject settings with
    | .ok project => project.outputDir :: (if inputs = [] then project.inputs else inputs)
    | .error _ => []
  | check settings =>
    match w.loadProject settings with
    | .ok project => project.outputDir :: project.inputs
    | .error _ => []
  | _ => []

end Invocation

end TypedWrappers
