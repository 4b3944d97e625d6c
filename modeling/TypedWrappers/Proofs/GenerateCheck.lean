import TypedWrappers.Command.Check
import TypedWrappers.Proofs.WrittenOutputs

/-!
# Generating and checking agree

Generating a project leaves it up to date, and a project is up to date exactly when a check finds nothing wrong in it,
as long as different texts have different digests. Where a project is up to date, generating it changes nothing.

- `Workspace.UpToDate`: a project is up to date;
- `Command.upToDate_of_generate`, `Command.upToDate_of_check`: what makes it so, or shows that it is;
- `Command.yields_generate`, `Command.yields_check`: what follows;
- `Command.generate_check_agree`: both together.
-/

namespace TypedWrappers

open Text

namespace Workspace

/-- The directory of each output of a project is up to date. -/
def UpToDate (w : Workspace) (path : Path) : Prop :=
  ∃ project outputs, w.loadProject path = .ok project ∧ w.generateInputs project.inputs = .ok outputs ∧
    ∀ o ∈ outputs, w.HoldsExactly (project.outputDir.join o.name) o.output.artifacts

/-- Of the texts that a check of a project compares no two different ones have the same digest. -/
def Collisionless (w : Workspace) (path : Path) : Prop :=
  ∀ project outputs, w.loadProject path = .ok project → w.generateInputs project.inputs = .ok outputs →
    ∀ o ∈ outputs, w.CollisionlessIn (project.outputDir.join o.name) o.output.artifacts

end Workspace

namespace Command

variable {s s' : Session} {w : Workspace} {path outputDir : Path} {o : SnapshotOutput}

theorem ends_project_iff {p : Project} :
    Ends (project path) s p s' ↔ s.workspace.loadProject path = .ok p ∧ s = s' := by
  rw [project, ends_demand_iff]
  cases s.workspace.loadProject path <;> simp

theorem yields_project {p : Project} (ok : w.loadProject path = .ok p) : Yields (project path) w p :=
  fun log => ⟨log, ends_project_iff.2 ⟨ok, rfl⟩⟩

/-! ## Generating -/

/-- A project that is generated is up to date, unless its settings file has the suffix of generated files. -/
theorem upToDate_of_generate {u : Unit} (ends : Ends (generate path []) s u s')
    (other : endsWith (s.workspace.settingsAt path).1.text Config.temporal.generatedFileSuffix = false) :
    s'.workspace.UpToDate path := by
  simp only [generate, ends_bind_iff, ends_project_iff, ends_tell_iff, ends_demand_iff, if_true] at ends
  obtain ⟨project, _, ⟨loaded, rfl⟩, _, s₁, told, outputs, _, ⟨generated, rfl⟩, _, s₂, written, rfl⟩ := ends
  have unchanged : s₁.workspace = s.workspace := by rw [told]
  rw [unchanged] at generated
  obtain ⟨wellFormed, distinct⟩ := Workspace.wellFormed_of_generateInputs generated
  obtain ⟨changes, holds, -⟩ := holdsExactly_of_writeOutputs wellFormed distinct written
  rw [unchanged] at changes
  exact ⟨project, outputs, changes.loadProject_eq_ok loaded other, changes.generateInputs_eq_ok generated, holds⟩

/-- Generating a project that is up to date changes nothing. -/
theorem yields_generate (upToDate : w.UpToDate path) : Yields (generate path []) w () := by
  obtain ⟨project, outputs, loaded, generated, holds⟩ := upToDate
  obtain ⟨wellFormed, -⟩ := Workspace.wellFormed_of_generateInputs generated
  refine (yields_project loaded).bind (yields_tell.bind ((yields_demand generated).bind ?_))
  exact (yields_forM fun o ho => yields_writeOutput (wellFormed o ho) (holds o ho)).bind yields_tell

/-! ## Checking -/

theorem outOfDate_of_checkOutput {found : List String} (ends : Ends (checkOutput outputDir o) s found s') :
    s.workspace.outOfDate (outputDir.join o.name) Config.temporal.generatedFileSuffix o.output.artifacts = .ok found ∧
      s'.workspace = s.workspace := by
  simp only [checkOutput, ends_bind_iff, ends_demand_iff] at ends
  obtain ⟨found', _, ⟨compared, rfl⟩, ends⟩ := ends
  split at ends
  · obtain ⟨_, s₁, told, ends⟩ := ends_bind_iff.1 ends
    obtain ⟨rfl, rfl⟩ := ends_pure_iff.1 ends
    exact ⟨compared, by rw [ends_tell_iff.1 told]⟩
  · obtain ⟨rfl, rfl⟩ := ends_pure_iff.1 ends
    exact ⟨compared, rfl⟩

/-- A check of several outputs gives what is wrong with each of them. -/
theorem outOfDate_of_checkOutputs {outputs : List SnapshotOutput} {problems : List (List String)}
    (ends : Ends (outputs.mapM (checkOutput outputDir)) s problems s') :
    ∀ o ∈ outputs, ∃ found ∈ problems,
      s.workspace.outOfDate (outputDir.join o.name) Config.temporal.generatedFileSuffix o.output.artifacts =
        .ok found := by
  induction outputs generalizing s problems with
  | nil => simp
  | cons o outputs ih =>
    simp only [List.mapM_cons, ends_bind_iff, ends_pure_iff] at ends
    obtain ⟨found, s₁, first, rest, s₂, later, rfl, rfl⟩ := ends
    obtain ⟨compared, unchanged⟩ := outOfDate_of_checkOutput first
    refine List.forall_mem_cons.2 ⟨⟨found, List.mem_cons_self, compared⟩, fun other hother => ?_⟩
    obtain ⟨found', mem, compared⟩ := ih later other hother
    exact ⟨found', List.mem_cons_of_mem _ mem, unchanged ▸ compared⟩

/-- A project in which a check finds nothing wrong is up to date. -/
theorem upToDate_of_check {u : Unit} (ends : Ends (check path) s u s') (apart : s.workspace.Collisionless path) :
    s.workspace.UpToDate path := by
  simp only [check, ends_bind_iff, ends_project_iff, ends_tell_iff, ends_demand_iff] at ends
  obtain ⟨project, _, ⟨loaded, rfl⟩, _, s₁, told, outputs, _, ⟨generated, rfl⟩, problems, s₂, compared, ends⟩ := ends
  have unchanged : s₁.workspace = s.workspace := by rw [told]
  rw [unchanged] at generated
  obtain ⟨wellFormed, -⟩ := Workspace.wellFormed_of_generateInputs generated
  refine ⟨project, outputs, loaded, generated, fun o ho => ?_⟩
  obtain ⟨found, hfound, same⟩ := outOfDate_of_checkOutputs compared o ho
  have none : found = [] := by
    split at ends
    · next none => exact List.flatten_eq_nil_iff.1 none found hfound
    · -- A check that finds something wrong fails.
      obtain ⟨_, _, -, thrown⟩ := ends_bind_iff.1 ends
      exact absurd thrown not_ends_throw
  rw [none, unchanged] at same
  exact Workspace.holdsExactly_of_outOfDate (Path.join_ne_empty (wellFormed o ho).name) (wellFormed o ho).nonempty
    (fun a ha => ((wellFormed o ho).artifacts a ha).1) (apart project outputs loaded generated o ho) same

/-- Where a project is up to date, all texts that are compared are equal. -/
theorem collisionless_of_upToDate (upToDate : w.UpToDate path) : w.Collisionless path := by
  obtain ⟨project, outputs, loaded, generated, holds⟩ := upToDate
  intro project' outputs' loaded' generated' o ho a ha text read _
  cases loaded.symm.trans loaded'
  cases generated.symm.trans generated'
  exact Option.some.inj (read.symm.trans ((holds o ho).files a ha))

/-- A check finds nothing wrong in a project that is up to date. -/
theorem yields_check (upToDate : w.UpToDate path) : Yields (check path) w () := by
  obtain ⟨project, outputs, loaded, generated, holds⟩ := upToDate
  have each : ∀ o ∈ outputs, Yields (checkOutput project.outputDir o) w [] := by
    intro o ho
    refine (yields_demand (holds o ho).outOfDate_eq).bind ?_
    rw [if_pos rfl]
    exact yields_tell.bind yields_pure
  refine (yields_project loaded).bind (yields_tell.bind ((yields_demand generated).bind ?_))
  refine (yields_mapM each).bind ?_
  rw [if_pos (by simp)]
  exact yields_tell

/-! ## Both -/

/-- **Generating and checking agree**: after a project was generated, a check succeeds and generating it again changes
nothing, unless the settings file itself has the suffix of generated files. And where a check succeeds, generating
succeeds and changes nothing, as long as different texts have different digests. -/
theorem generate_check_agree (w : Workspace) (path : Path) :
    (∀ s, (generate path []).run w = (.ok (), s) →
      endsWith (w.settingsAt path).1.text Config.temporal.generatedFileSuffix = false →
        (∃ log, (check path).run s.workspace = (.ok (), ⟨s.workspace, log⟩)) ∧
        ∃ log, (generate path []).run s.workspace = (.ok (), ⟨s.workspace, log⟩)) ∧
    ∀ s, (check path).run w = (.ok (), s) → w.Collisionless path →
      ∃ log, (generate path []).run w = (.ok (), ⟨w, log⟩) := by
  constructor
  · intro s generated other
    have upToDate : s.workspace.UpToDate path := upToDate_of_generate (run_eq_iff.1 generated) other
    exact ⟨yields_check upToDate [], yields_generate upToDate []⟩
  · intro s checked apart
    exact yields_generate (upToDate_of_check (run_eq_iff.1 checked) apart) []

end Command

/-! ## An example -/

namespace Sample

/-- A project with one snapshot, in whose output an earlier run has left a file. -/
def outdated : Workspace where
  tree :=
    { entries :=
        [(["wfgen.yaml"], .file "name: P\n"), (["a.yaml", "snapshots"], .file "name: A\n"),
          (["Old.g.cs", "A", "generated"], .file "old"), (["snapshots"], .directory), (["generated"], .directory),
          (["A", "generated"], .directory)]
      distinct := by decide
      inDirectory := by simp
      named := by decide +kernel }
  here := []

/-- Generating the project removes the file. -/
theorem exists_run_outdated :
    ∃ s, (Command.generate ⟨"/"⟩ []).run outdated = (.ok (), s) ∧
      s.workspace.readFile? ⟨"/generated/A/Old.g.cs"⟩ = none := by
  have ran : (let r := (Command.generate ⟨"/"⟩ []).run outdated
      r.1.toBool && r.2.workspace.readFile? ⟨"/generated/A/Old.g.cs"⟩ == none) = true := by decide +kernel
  generalize (Command.generate ⟨"/"⟩ []).run outdated = r at ran
  obtain ⟨_ | _, s⟩ := r
  · cases ran
  · exact ⟨s, rfl, by simpa using (Bool.and_eq_true_iff.1 ran).2⟩

/-- Generating the project removes the file, and then nothing more is to be done. -/
theorem outdated_generate_check :
    ∃ s, (Command.generate ⟨"/"⟩ []).run outdated = (.ok (), s) ∧
      s.workspace.readFile? ⟨"/generated/A/Old.g.cs"⟩ = none ∧
      (∃ log, (Command.check ⟨"/"⟩).run s.workspace = (.ok (), ⟨s.workspace, log⟩)) ∧
      s.workspace.Collisionless ⟨"/"⟩ ∧
      ∃ log, (Command.generate ⟨"/"⟩ []).run s.workspace = (.ok (), ⟨s.workspace, log⟩) := by
  obtain ⟨s, ran, removed⟩ := exists_run_outdated
  have other : Text.endsWith (outdated.settingsAt ⟨"/"⟩).1.text Config.temporal.generatedFileSuffix = false := by
    decide +kernel
  obtain ⟨⟨log, checked⟩, -⟩ := (Command.generate_check_agree outdated ⟨"/"⟩).1 s ran other
  have apart := Command.collisionless_of_upToDate (Command.upToDate_of_generate (Command.run_eq_iff.1 ran) other)
  exact ⟨s, ran, removed, ⟨log, checked⟩, apart,
    (Command.generate_check_agree s.workspace ⟨"/"⟩).2 _ checked apart⟩

end Sample

end TypedWrappers
