import TypedWrappers.Pass.Basic
import TypedWrappers.Proofs.Rendering
import TypedWrappers.Proofs.Writing

/-!
# The classes that a pass writes

Beside the marker types, a pass writes one class for all workflows, one for all activities, and one for each double.

- `RenderedMethod`: a method of one of the first two classes, with the declaration that it is rendered for;
- `Pass.workflowMethods`, `Pass.activityMethods`: the methods of these classes in the order in which they are rendered;
- `MockTarget.members`: the properties and methods of a double;
- `Output.HasClass`: a class with given members was written;
- `Pass.hasClass_workflows`, `Pass.hasClass_activities`, `Pass.hasClass_double`: a pass that succeeds has written these
  classes, with just these members;
- `Pass.map_wrapper_workflowMethods`, `Pass.map_wrapper_activityMethods`: the wrappers that a pass looks through for
  diagnostics are these methods.
-/

namespace TypedWrappers

/-- A method of a generated class and the declaration that it is rendered for. -/
structure RenderedMethod where
  draft : MethodDraft
  source : Descriptor

namespace RenderedMethod

/-- The name as rendered, and the parameter types of the declaration. -/
def key (m : RenderedMethod) : WrapperKey :=
  ⟨m.draft.name, m.source.signature⟩

def wrapper (m : RenderedMethod) : Wrapper :=
  ⟨m.draft.name, m.source⟩

/-- The methods as members of a class. -/
def members (methods : List RenderedMethod) : List MemberDraft :=
  methods.map fun m => .method m.draft

end RenderedMethod

/-! ## The members of each class -/

/-- The two methods of each workflow. -/
def WorkflowTarget.rendered (config : Config) (workflows : List Descriptor) : List RenderedMethod :=
  (sortDescriptors workflows).flatMap fun w =>
    (config.workflows.methods config.task config.methodSuffix w).map fun draft => ⟨draft, w⟩

/-- The method of each activity. -/
def ActivityTarget.rendered (config : Config) (activities : List Descriptor) : List RenderedMethod :=
  (sortDescriptors activities).map fun a => ⟨config.activities.method config.task config.methodSuffix a, a⟩

/-- The property and the method of an activity of a double. -/
def MockTarget.membersFor (config : Config) (a : Descriptor) : List MemberDraft :=
  [.property (config.mocks.property config.task a), .method (config.mocks.method config.task a)]

/-- The members of a double. -/
def MockTarget.members (config : Config) (double : DoubleDescriptor) : List MemberDraft :=
  (sortDescriptors double.activities).flatMap (membersFor config)

theorem WorkflowTarget.isBuild_rendered (config : Config) (workflows : List Descriptor) :
    IsBuild (render config workflows) config.workflows.fileName config.workflows.outputNamespace
      config.workflows.className (RenderedMethod.members (rendered config workflows)) := by
  have members : RenderedMethod.members (rendered config workflows) =
      ((sortDescriptors workflows).flatMap (config.workflows.methods config.task config.methodSuffix)).map .method := by
    simp only [RenderedMethod.members, rendered, List.map_flatMap, List.map_map, Function.comp_def]
  rw [members]
  exact isBuild_render config workflows

theorem ActivityTarget.isBuild_rendered (config : Config) (activities : List Descriptor) :
    IsBuild (render config activities) config.activities.fileName config.activities.outputNamespace
      config.activities.className (RenderedMethod.members (rendered config activities)) := by
  rw [RenderedMethod.members, rendered, List.map_map]
  exact isBuild_render config activities

/-! ## What a pass has written -/

/-- A class of the given name, with just the given members in order, was written to a file of the given name. -/
def Output.HasClass (output : Output) (emit : Emitter) (fileName className : String) (members : List MemberDraft) :
    Prop :=
  ∃ artifact ∈ output.artifacts.toList, artifact.fileName = fileName ∧
    ∃ (file : FileDraft) (container : ClassDraft) (model : FileModel), container.name = className ∧
      container.members = members ∧ file.build container = .ok model ∧ emit model = .ok artifact.content

namespace Pass

variable {config : Config} {emit : Emitter} {c : Compilation} {output : Output}

theorem write_eq_ok_of_run (ok : run config emit c = .ok output) :
    write emit (plan config (extract config c)) = .ok output.artifacts ∧
      output.diagnostics = diagnose config (extract config c) := by
  rw [run] at ok
  cases written : write emit (plan config (extract config c)) with
  | error e => rw [written] at ok; cases ok
  | ok artifacts =>
    rw [written] at ok
    cases ok
    exact ⟨rfl, rfl⟩

/-- A pass that succeeds has written whatever was planned. -/
theorem hasClass_of_mem_plan (ok : run config emit c = .ok output) {planned : Except GenerationError GeneratedFile}
    {fileName ns className : String} {members : List MemberDraft} (isPlanned : planned ∈ plan config (extract config c))
    (isBuild : IsBuild planned fileName ns className members) : output.HasClass emit fileName className members := by
  obtain ⟨artifacts, texts, mem⟩ := mem_of_write_eq_ok (write_eq_ok_of_run ok).1
  obtain ⟨artifact, isText, text⟩ := exists_mem_of_mapM_eq_ok texts isPlanned
  obtain ⟨file, container, -, name, members, rfl⟩ := isBuild
  refine ⟨artifact, (mem artifact).2 isText, ?_⟩
  cases built : file.build container with
  | error e => rw [built] at text; cases text
  | ok model =>
    cases content : emit model with
    | error e => rw [built] at text; simp [artifactOf, Except.map, content] at text
    | ok content' =>
      have e : (⟨fileName, content', model.imports⟩ : Artifact) = artifact := by
        simpa [artifactOf, Except.map, built, content] using text
      rw [← e]
      exact ⟨rfl, file, container, model, name, members, built, content⟩

/-- The methods of the workflow extensions, in the order in which they are rendered. -/
def workflowMethods (config : Config) (model : ExtractedModel) : List RenderedMethod :=
  WorkflowTarget.rendered config (model.workflows.getD [])

/-- The methods of the activity helpers, in the order in which they are rendered. -/
def activityMethods (config : Config) (model : ExtractedModel) : List RenderedMethod :=
  ActivityTarget.rendered config (model.activities.getD [])

theorem hasClass_workflows (ok : run config emit c = .ok output) (known : (extract config c).workflows ≠ none) :
    output.HasClass emit config.workflows.fileName config.workflows.className
      (RenderedMethod.members (workflowMethods config (extract config c))) := by
  obtain ⟨workflows, found⟩ := Option.ne_none_iff_exists'.1 known
  rw [workflowMethods, found]
  refine hasClass_of_mem_plan ok ?_ (WorkflowTarget.isBuild_rendered config workflows)
  simp [plan, found]

theorem hasClass_activities (ok : run config emit c = .ok output) (known : (extract config c).activities ≠ none) :
    output.HasClass emit config.activities.fileName config.activities.className
      (RenderedMethod.members (activityMethods config (extract config c))) := by
  obtain ⟨activities, found⟩ := Option.ne_none_iff_exists'.1 known
  rw [activityMethods, found]
  refine hasClass_of_mem_plan ok ?_ (ActivityTarget.isBuild_rendered config activities)
  simp [plan, found]

theorem hasClass_double (ok : run config emit c = .ok output) {double : DoubleDescriptor}
    (h : double ∈ (extract config c).doubles) :
    output.HasClass emit (double.qualifiedName ++ config.generatedFileSuffix) double.name
      (MockTarget.members config double) := by
  refine hasClass_of_mem_plan ok ?_ (MockTarget.isBuild_render config double)
  rw [plan]
  exact List.mem_append_right _ (List.mem_map_of_mem h)

/-! ## What is looked through for diagnostics -/

/-- Activities that are found in order are listed as they were found. -/
theorem extract_activities_of_pairwise (found : List Descriptor)
    (known : (symbols config c).contains config.activities.marker = true)
    (isFound : (config.activities.extractor config.task).all (symbols config c) (scanned config c) = found)
    (inOrder : found.Pairwise fun a b => a.precedes b = true) :
    (extract config c).activities = some (dropRepeats found) := by
  rw [extract_activities, if_pos known, isFound, normalize_eq_of_pairwise inOrder]

/-- What is found is in the order in which it is rendered. -/
theorem sortDescriptors_found {known : Bool} {ds : List Descriptor} :
    sortDescriptors ((if known then some (normalize ds) else none).getD []) =
      (if known then some (normalize ds) else none).getD [] := by
  cases known with
  | false => exact List.mergeSort_nil
  | true => exact sortDescriptors_normalize ds

theorem workflowMethods_extract (config : Config) (c : Compilation) :
    workflowMethods config (extract config c) = ((extract config c).workflows.getD []).flatMap fun w =>
      (config.workflows.methods config.task config.methodSuffix w).map fun draft => ⟨draft, w⟩ := by
  rw [workflowMethods, WorkflowTarget.rendered, extract_workflows, sortDescriptors_found]

theorem activityMethods_extract (config : Config) (c : Compilation) :
    activityMethods config (extract config c) = ((extract config c).activities.getD []).map fun a =>
      ⟨config.activities.method config.task config.methodSuffix a, a⟩ := by
  rw [activityMethods, ActivityTarget.rendered, extract_activities, sortDescriptors_found]

theorem map_wrapper_workflowMethods (config : Config) (c : Compilation) :
    (workflowMethods config (extract config c)).map RenderedMethod.wrapper =
      workflowWrappers config ((extract config c).workflows.getD []) := by
  rw [workflowMethods_extract, List.map_flatMap]
  rfl

theorem map_wrapper_activityMethods (config : Config) (c : Compilation) :
    (activityMethods config (extract config c)).map RenderedMethod.wrapper =
      activityWrappers config ((extract config c).activities.getD []) := by
  rw [activityMethods_extract, List.map_map]
  rfl

end Pass

end TypedWrappers
