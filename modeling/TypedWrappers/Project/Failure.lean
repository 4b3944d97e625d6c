import TypedWrappers.Pass.Basic

/-!
# Why work on a project fails

A command cannot go on, with what it was about when it stopped. `Failure.lines` puts it in words.
-/

namespace TypedWrappers

/-- Why a command cannot go on. -/
inductive FailureCause
  | load (error : LoadError)
  | pass (error : PassError)
  | refusedByFileSystem
  | namelessDirectory
  | alreadyInitialized (dir : Path)
  | inputNotFound (input : Path)
  | noSnapshots
  | notPlainFileName (name : String)
  | sharedOutput (first second : Path) (name : String)
  | outOfDate (count : Nat)
  deriving Repr, DecidableEq

/-- The cause in words. -/
def FailureCause.message : FailureCause → String
  | load error => error.message
  | pass error => error.message
  | refusedByFileSystem => "the file system refused the operation"
  | namelessDirectory => "Could not determine project name from path"
  | alreadyInitialized dir => "Directory '" ++ dir.text ++ "' already contains a wfgen.yaml"
  | inputNotFound input => "Snapshot input not found: " ++ input.text
  | noSnapshots => "No snapshots found"
  | notPlainFileName name => "'" ++ name ++ "' is not a plain file name"
  | sharedOutput first second name =>
    "Snapshots " ++ first.text ++ " and " ++ second.text ++ " both generate into '" ++ name ++ "'"
  | outOfDate count => toString count ++ " generated files are out of date, run `wfgen generate`"

/-- What a command was about when it stopped. -/
inductive FailedStep
  | loadSettings
  | loadSnapshot (snapshot : Path)
  | generate (snapshot : Path)
  | nameOutput (snapshot : Path)
  | nameArtifact (snapshot : Path)
  | create (dir : Path)
  | write (file : Path)
  | remove (file : Path)
  | read (file : Path)
  deriving Repr, DecidableEq

/-- The step in words. -/
def FailedStep.message : FailedStep → String
  | loadSettings => "Failed to load configuration"
  | loadSnapshot snapshot => "Failed to load snapshot " ++ snapshot.text
  | generate snapshot => "Generation failed for " ++ snapshot.text
  | nameOutput snapshot => "Invalid compilation name in " ++ snapshot.text
  | nameArtifact snapshot => "Invalid artifact name from " ++ snapshot.text
  | create dir => "Failed to create " ++ dir.text
  | write file => "Failed to write " ++ file.text
  | remove file => "Failed to remove " ++ file.text
  | read file => "Failed to read " ++ file.text

/-- A command that could not go on. -/
structure Failure where
  /-- What it was about, where that is not clear from the cause. -/
  step : Option FailedStep
  /-- Why it could not go on. -/
  cause : FailureCause
  deriving Repr, DecidableEq

/-- The failure in words: what the command was about, and then the cause. -/
def Failure.lines (failure : Failure) : List String :=
  (failure.step.map FailedStep.message).toList ++ [failure.cause.message]

end TypedWrappers
