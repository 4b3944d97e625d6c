import TypedWrappers.Command.Basic
import TypedWrappers.Json.Printer
import TypedWrappers.Pass.Report
import TypedWrappers.Project.SnapshotFile

/-!
# Inspecting a snapshot

`Command.inspect` gives the report on one snapshot file as text, and changes nothing.
-/

namespace TypedWrappers

/-- The report on a snapshot file, one item or member a line. -/
def Workspace.inspect (w : Workspace) (snapshot : Path) : Except Failure String :=
  match w.loadSnapshot snapshot with
  | .error e => .error ⟨some (.loadSnapshot snapshot), .load e⟩
  | .ok c =>
    match Pass.run .temporal FileModel.emitter c with
    | .error e => .error ⟨none, .pass e⟩
    | .ok output => .ok ((Pass.report .temporal c output).pretty ++ "\n")

/-- Gives the report on a snapshot file. -/
def Command.inspect (snapshot : Path) : Command String :=
  demand (·.inspect snapshot)

end TypedWrappers
