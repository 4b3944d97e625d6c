import TypedWrappers.Proofs.DistinctMembers
import TypedWrappers.Proofs.PlannedNames

/-!
# What a pass has written

A pass that succeeds has written every planned file under its own name and nothing else.

- `Output.Holds`: a planned file was written under a name;
- `Pass.map_fileName_of_mapM_eq_ok`: what is written goes by the names of what was planned;
- `Pass.plannedNames_temporal`: these names for the Temporal SDK;
- `Pass.run_temporal_artifacts_exact`: all that is written for the Temporal SDK.
-/

namespace TypedWrappers

/-- Under a name stand the text of a planned file and the namespaces that the file imports. -/
def Output.Holds (output : Output) (emit : Emitter) (fileName : String)
    (planned : Except GenerationError GeneratedFile) : Prop :=
  ∃ file content, planned = .ok file ∧ emit file.model = .ok content ∧
    ⟨fileName, content, file.model.imports⟩ ∈ output.artifacts.toList

namespace Pass

variable {config : Config} {emit : Emitter} {c : Compilation} {output : Output}

/-- The name, text and imports of an artifact are those of the file that it is made of. -/
theorem exists_of_artifactOf_eq_ok {planned : Except GenerationError GeneratedFile} {artifact : Artifact}
    (ok : artifactOf emit planned = .ok artifact) :
    ∃ file content, planned = .ok file ∧ emit file.model = .ok content ∧
      artifact = ⟨file.fileName, content, file.model.imports⟩ := by
  cases planned with
  | error e => cases ok
  | ok file =>
    rw [artifactOf] at ok
    cases text : emit file.model with
    | error e => rw [text] at ok; cases ok
    | ok content =>
      rw [text] at ok
      cases ok
      exact ⟨file, content, rfl, text, rfl⟩

/-- What is written goes by the names of what was planned. -/
theorem map_fileName_of_mapM_eq_ok {files : List (Except GenerationError GeneratedFile)} {names : List String}
    (named : List.Forall₂ Named files names) {artifacts : List Artifact}
    (ok : files.mapM (artifactOf emit) = .ok artifacts) : artifacts.map Artifact.fileName = names := by
  induction named generalizing artifacts with
  | nil => cases ok; rfl
  | @cons planned name files names isNamed named ih =>
    obtain ⟨artifact, others, text, texts, rfl⟩ := mapM_cons_eq_ok_iff.1 ok
    rw [List.map_cons, fileName_of_artifactOf isNamed text, ih texts]

/-- A pass that succeeds has written under the planned names and no others. -/
theorem fileNames_perm_plannedNames (ok : run config emit c = .ok output)
    (distinct : (plannedNames config (extract config c)).Nodup) :
    output.artifacts.fileNames.Perm (plannedNames config (extract config c)) := by
  obtain ⟨artifacts, texts, mem⟩ := mem_of_write_eq_ok (write_eq_ok_of_run ok).1
  have names := map_fileName_of_mapM_eq_ok (named_plan config (extract config c)) texts
  refine (List.perm_ext_iff_of_nodup output.artifacts.nodup_fileNames distinct).2 fun name => ?_
  simp only [← names, ArtifactSet.mem_fileNames, List.mem_map, mem]

/-- A pass that succeeds holds every planned file under its name. -/
theorem holds_of_mem_plan (ok : run config emit c = .ok output) {planned : Except GenerationError GeneratedFile}
    {fileName : String} (isPlanned : planned ∈ plan config (extract config c)) (named : Named planned fileName) :
    output.Holds emit fileName planned := by
  obtain ⟨artifacts, texts, mem⟩ := mem_of_write_eq_ok (write_eq_ok_of_run ok).1
  obtain ⟨artifact, isText, text⟩ := exists_mem_of_mapM_eq_ok texts isPlanned
  obtain ⟨file, content, rfl, emitted, rfl⟩ := exists_of_artifactOf_eq_ok text
  refine ⟨file, content, rfl, emitted, ?_⟩
  rw [← named file rfl]
  exact (mem _).2 isText

/-- The names of what is planned for the Temporal SDK: the marker types, the two classes of wrappers where their marker
types are known, and the doubles. -/
theorem plannedNames_temporal (c : Compilation) :
    plannedNames .temporal (extract .temporal c) =
      ["GenerateWorkflowExtensionAttribute.g.cs", "GenerateNSubstituteMocksAttribute.g.cs", "ActivityMockBase.g.cs"] ++
        (if (symbols .temporal c).contains "Temporalio.Workflows.WorkflowAttribute" then
          ["TemporalClientExtensions.g.cs"] else []) ++
        (if (symbols .temporal c).contains "Temporalio.Activities.ActivityAttribute" then
          ["TemporalActivityExtensions.g.cs"] else []) ++
        (extract .temporal c).doubles.map fun double => double.ns ++ "." ++ double.name ++ ".g.cs" := by
  have markers : Config.temporal.markerSources.map MarkerSource.fileName =
      ["GenerateWorkflowExtensionAttribute.g.cs", "GenerateNSubstituteMocksAttribute.g.cs",
        "ActivityMockBase.g.cs"] := by
    have names := congrArg (List.map Prod.fst) markerSources_temporal
    rwa [List.map_map] at names
  have optional (known : Bool) (found : List Descriptor) (name : String) :
      ((if known then some found else none).map fun _ => name).toList = if known then [name] else [] := by
    cases known <;> rfl
  rw [plannedNames, markers, extract_workflows, extract_activities, optional, optional]
  rfl

/-- Only the emitter can say of a single file that its name is taken. -/
theorem artifactOf_eq_duplicateArtifact_iff {planned : Except GenerationError GeneratedFile} {fileName : String} :
    artifactOf emit planned = .error (.duplicateArtifact fileName) ↔
      ∃ file, planned = .ok file ∧ emit file.model = .error (.duplicateArtifact fileName) := by
  cases planned with
  | error e => simp [artifactOf]
  | ok file =>
    simp only [artifactOf, Except.ok.injEq, exists_eq_left']
    cases emit file.model <;> simp [Except.map]

/-- **The artifacts are exactly the plan**: for the Temporal SDK no two files ever get in each other's way, whatever
makes text of them. A pass says that a name is taken only where this is what the emitter says of the first file that
cannot be written. A pass that succeeds has written the marker types, the classes of wrappers whose marker types are
known, and each double, all under names of their own, and each file holds its own text and imports. -/
theorem run_temporal_artifacts_exact (emit : Emitter) (c : Compilation) :
    (∀ fileName, run .temporal emit c = .error (.duplicateArtifact fileName) ↔
      ∃ before file after, plan .temporal (extract .temporal c) = before ++ .ok file :: after ∧
        (∀ earlier ∈ before, ∃ artifact, artifactOf emit earlier = .ok artifact) ∧
        emit file.model = .error (.duplicateArtifact fileName)) ∧
    ∀ output, run .temporal emit c = .ok output →
      output.artifacts.fileNames.Nodup ∧
      output.artifacts.fileNames.Perm
        (["GenerateWorkflowExtensionAttribute.g.cs", "GenerateNSubstituteMocksAttribute.g.cs",
            "ActivityMockBase.g.cs"] ++
          (if (symbols .temporal c).contains "Temporalio.Workflows.WorkflowAttribute" then
            ["TemporalClientExtensions.g.cs"] else []) ++
          (if (symbols .temporal c).contains "Temporalio.Activities.ActivityAttribute" then
            ["TemporalActivityExtensions.g.cs"] else []) ++
          (extract .temporal c).doubles.map fun double => double.ns ++ "." ++ double.name ++ ".g.cs") ∧
      (∀ source ∈ Config.temporal.markerSources, output.Holds emit source.fileName (source.render .temporal)) ∧
      (∀ workflows, (extract .temporal c).workflows = some workflows →
        output.Holds emit "TemporalClientExtensions.g.cs" (WorkflowTarget.render .temporal workflows)) ∧
      (∀ activities, (extract .temporal c).activities = some activities →
        output.Holds emit "TemporalActivityExtensions.g.cs" (ActivityTarget.render .temporal activities)) ∧
      ∀ double ∈ (extract .temporal c).doubles,
        output.Holds emit (double.ns ++ "." ++ double.name ++ ".g.cs") (MockTarget.render .temporal double) := by
  refine ⟨fun fileName => ?_, fun output ok => ?_⟩
  · rw [run_temporal_eq_error_iff]
    constructor
    · rintro ⟨before, planned, after, split, all, failed⟩
      obtain ⟨file, rfl, refused⟩ := artifactOf_eq_duplicateArtifact_iff.1 failed
      exact ⟨before, file, after, split, all, refused⟩
    · rintro ⟨before, file, after, split, all, refused⟩
      exact ⟨before, .ok file, after, split, all, artifactOf_eq_duplicateArtifact_iff.2 ⟨file, rfl, refused⟩⟩
  have names := fileNames_perm_plannedNames ok (nodup_plannedNames_temporal c)
  rw [plannedNames_temporal] at names
  refine ⟨output.artifacts.nodup_fileNames, names, fun source hs => ?_, fun workflows found => ?_,
    fun activities found => ?_, fun double hd => ?_⟩
  · refine holds_of_mem_plan ok ?_ fun _ => (MarkerSource.isBuild_render .temporal source).fileName_eq
    simp only [plan, List.mem_append, List.mem_map_of_mem hs, true_or]
  · refine holds_of_mem_plan ok ?_ fun _ => (WorkflowTarget.isBuild_render .temporal workflows).fileName_eq
    simp [plan, found]
  · refine holds_of_mem_plan ok ?_ fun _ => (ActivityTarget.isBuild_render .temporal activities).fileName_eq
    simp [plan, found]
  · refine holds_of_mem_plan ok ?_ fun _ => (MockTarget.isBuild_render .temporal double).fileName_eq
    simp only [plan, List.mem_append, List.mem_map_of_mem hd, or_true]

end Pass

/-! ## Examples -/

namespace Sample

/-- For an activity with an overload and a double of their class, a pass writes three marker types, the helpers and the
double, and no extensions. -/
theorem overloads_artifacts :
    ∃ output, Pass.run .temporal FileModel.emitter overloads = .ok output ∧
      output.artifacts.fileNames.Perm
        ["GenerateWorkflowExtensionAttribute.g.cs", "GenerateNSubstituteMocksAttribute.g.cs", "ActivityMockBase.g.cs",
          "TemporalActivityExtensions.g.cs", "N.D.g.cs"] := by
  obtain ⟨output, ok⟩ := exists_run_overloads
  have noWorkflows : (Pass.symbols .temporal overloads).contains "Temporalio.Workflows.WorkflowAttribute" = false := by
    rw [Bool.eq_false_iff]
    exact mt Pass.contains_symbols_iff.1 (by decide +kernel)
  have activities : (Pass.symbols .temporal overloads).contains "Temporalio.Activities.ActivityAttribute" = true :=
    Pass.contains_symbols_iff.2 (.inr (by decide +kernel))
  obtain ⟨-, names, -⟩ := (Pass.run_temporal_artifacts_exact FileModel.emitter overloads).2 output ok
  rw [noWorkflows, activities, doubles_overloads] at names
  exact ⟨output, ok, names⟩

/-- Makes no text of any file, as if its name were taken. -/
def alwaysTaken : Emitter :=
  fun _ => .error (.duplicateArtifact "N.D.g.cs")

theorem run_alwaysTaken :
    Pass.run .temporal alwaysTaken (.empty "Empty") = .error (.duplicateArtifact "N.D.g.cs") :=
  rfl

end Sample

end TypedWrappers
