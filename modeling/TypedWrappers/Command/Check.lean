import TypedWrappers.Command.Generate

/-!
# Checking a project

`Command.check` compares the generated files on disk with those that would be generated now. It changes nothing and
fails if there is a difference.
-/

namespace TypedWrappers.Command

/-- What is wrong with the files of one output. -/
def checkOutput (outputDir : Path) (o : SnapshotOutput) : Command (List String) := do
  let found ← demand (·.outOfDate (outputDir.join o.name) Config.temporal.generatedFileSuffix o.output.artifacts)
  if found = [] then tell (.info ("✓ " ++ o.name))
  pure found

/-- Checks the generated files of a project. -/
def check (path : Path) : Command Unit := do
  let project ← project path
  tell (.info ("Checking project: " ++ project.settings.name))
  let outputs ← demand (·.generateInputs project.inputs)
  let problems := (← outputs.mapM (checkOutput project.outputDir)).flatten
  if problems = [] then tell (.info "✓ Generated sources are up to date")
  else
    problems.forM fun problem => tell (.error problem)
    throw ⟨none, .outOfDate problems.length⟩

end TypedWrappers.Command
