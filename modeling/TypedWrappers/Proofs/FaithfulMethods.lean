import TypedWrappers.Proofs.Extracted
import TypedWrappers.Proofs.PartialWorkflows
import TypedWrappers.Proofs.Rendering
import TypedWrappers.Proofs.Samples

/-!
# Methods as declared

The two static classes are rendered for whatever a pass finds, and their methods are faithful: each takes the parameters
of the method that it stands for, as declared, and calls that method with them.

- `Pass.exists_member_of_mem_workflows`, `Pass.exists_member_of_mem_activities`: what is found is declared;
- `WorkflowTarget.texts`, `ActivityTarget.methodText`: the methods for a workflow and the one for an activity, told by
  the descriptor alone;
- `WorkflowTarget.nodup_names`, `ActivityTarget.nodup_names`: no two names in a method are the same;
- `Pass.render_extracted_faithful`: both classes are rendered with these methods, one after the other.
-/

namespace TypedWrappers

/-! ## The methods that descriptors describe -/

namespace Pass

variable {config : Config} {c : Compilation}

theorem mem_declarations_of_mem_scanned {decl : Declaration} (h : decl ∈ scanned config c) : decl ∈ c.declarations :=
  (List.mem_filter.1 h).1

/-- A workflow describes a declared method. -/
theorem exists_member_of_mem_workflows {workflows : List Descriptor}
    (found : (extract config c).workflows = some workflows) {w : Descriptor} (hw : w ∈ workflows) :
    ∃ method, .member method ∈ c.declarations ∧ method.description (symbols config c) config.task = w := by
  rw [extract_workflows] at found
  obtain rfl := eq_normalize_of_optional found
  obtain ⟨decl, isScanned, -, described⟩ := Extractor.mem_all.1 (mem_normalize.1 hw)
  cases decl with
  | member m => cases described
  | type part =>
    have listed : part ∈ c.typeParts := (type_mem_scanned.1 isScanned).1
    have described : config.workflows.describe? config.task (symbols config c) (.type part) = some w := described
    rw [WorkflowTarget.describe?_type, WorkflowTarget.partsAround_of_mem listed] at described
    split at described
    · obtain ⟨entry, isEntry, described⟩ := Option.bind_eq_some_iff.1 described
      obtain ⟨owner, isPart, isMember⟩ := List.mem_flatMap.1 (List.mem_of_find?_eq_some isEntry)
      have ownerListed : owner ∈ c.typeParts := (SymbolTable.mem_partsOf.1 isPart).1
      exact ⟨entry, Compilation.member_mem_declarations.2 ⟨owner, ownerListed, isMember⟩,
        (Member.describe?_eq_some_iff.1 described).1⟩
    · cases described

/-- An activity describes a declared method. -/
theorem exists_member_of_mem_activities {activities : List Descriptor}
    (found : (extract config c).activities = some activities) {a : Descriptor} (ha : a ∈ activities) :
    ∃ method, .member method ∈ c.declarations ∧ method.description (symbols config c) config.task = a := by
  obtain ⟨method, isScanned, -, described, -⟩ := (mem_activities_iff found).1 ha
  exact ⟨method, mem_declarations_of_mem_scanned isScanned, described⟩

/-- What is found is in the order of its keys. -/
theorem pairwise_workflows {workflows : List Descriptor} (found : (extract config c).workflows = some workflows) :
    workflows.Pairwise fun a b => a.precedes b = true := by
  rw [extract_workflows] at found
  obtain rfl := eq_normalize_of_optional found
  exact pairwise_normalize _

theorem pairwise_activities {activities : List Descriptor} (found : (extract config c).activities = some activities) :
    activities.Pairwise fun a b => a.precedes b = true := by
  rw [extract_activities] at found
  obtain rfl := eq_normalize_of_optional found
  exact pairwise_normalize _

end Pass

/-! ## Methods as text -/

/-- The declared parameters as a generated method writes them: each with its type for display and its own name. -/
def Member.shownParameters (table : SymbolTable) (method : Member) : List (String × String) :=
  method.decl.parameters.map fun p => ((table.describeText method.scope p.type).display, Text.trim p.name)

theorem Member.parameters_description (table : SymbolTable) (task : TaskType) (method : Member) :
    (method.description table task).parameters.map (fun p => (p.type.display, p.name)) =
      method.shownParameters table := by
  rw [description, List.map_map]
  rfl

/-- The parameters as they stand in a signature, each behind its type for display. -/
def Descriptor.parameterTexts (d : Descriptor) : List String :=
  d.parameters.map fun p => p.type.display ++ " " ++ p.name

/-- A task of what a method returns; the bare task where that is nothing. -/
theorem TaskType.returning_eq (task : TaskType) (returns : ReturnShape) :
    task.returning returns =
      returns.result?.elim task.name fun result => task.name ++ "<" ++ result.display ++ ">" := by
  unfold returning TaskType.of
  cases returns.result? <;> rfl

theorem MethodDraft.signature_of_static {m : MethodDraft} (isPublic : m.isPublic = true)
    (isStatic : m.isStatic = true) :
    m.signature = "public static " ++ m.returns ++ " " ++ m.name ++ "(" ++
      ", ".intercalate (m.parameters.map fun (type, name) => type ++ " " ++ name) ++ ")" := by
  have words (rest : String) : "public " ++ ("static " ++ rest) = "public static " ++ rest :=
    (String.append_assoc ..).symm
  simp [signature, modifier, isPublic, isStatic, String.append_assoc, words]

theorem indent_return (rest : String) : "    " ++ ("return " ++ rest) = "    return " ++ rest :=
  (String.append_assoc ..).symm

namespace WorkflowTarget

/-- The lines of a method for a workflow: it takes the client, the parameters and the options, and calls the workflow
through a variable. -/
def methodText (target : WorkflowTarget) (suffix : String) (w : Descriptor) (verb returns : String) : List String :=
  let client := freshName "client" w.parameterNames
  let options := freshName "options" w.parameterNames
  let self := freshName "wf" w.parameterNames
  ["public static " ++ returns ++ " " ++ verb ++ w.typeName ++ suffix ++ "(" ++
      ", ".intercalate
        (("this " ++ target.clientType ++ " " ++ client) :: w.parameterTexts ++
          [target.optionsType ++ " " ++ options]) ++ ")",
    "\x7b",
    "    return " ++ client ++ "." ++ verb ++ "Workflow" ++ suffix ++ "((" ++ w.typeName ++ " " ++ self ++ ") => " ++
      self ++ "." ++ w.name ++ "(" ++ ", ".intercalate w.parameterNames ++ "), " ++ options ++ ");",
    "\x7d"]

/-- The two methods for a workflow: one returns a task of the result, the other one a task of a handle. -/
def texts (target : WorkflowTarget) (task : TaskType) (suffix : String) (w : Descriptor) : List (List String) :=
  [target.methodText suffix w target.executeVerb
      (w.returns.result?.elim task.name fun result => task.name ++ "<" ++ result.display ++ ">"),
    target.methodText suffix w target.startVerb
      (task.name ++ "<" ++ target.handleType ++ "<" ++ w.typeName ++
        (w.returns.result?.elim "" fun result => ", " ++ result.display) ++ ">>")]

theorem lines_method (target : WorkflowTarget) (suffix : String) {w : Descriptor} (wellFormed : w.WellFormed)
    (verb : String) {returns : String} (returns_ne : returns ≠ "") :
    (target.method suffix w (wrapperName verb w.typeName suffix) verb returns).lines =
      .ok (target.methodText suffix w verb returns) := by
  have complete : (target.method suffix w (wrapperName verb w.typeName suffix) verb returns).Complete :=
    target.complete_method suffix wellFormed verb (wrapperName_ne_empty wellFormed.typeName_ne) returns_ne
  rw [MethodDraft.lines_of_complete complete, MethodDraft.signature_of_static rfl rfl]
  simp [method, methodText, wrapperName, Descriptor.parameterDrafts, Descriptor.parameterTexts, Descriptor.argumentList,
    String.append_assoc, indent_return, Function.comp_def]

/-- The methods for a workflow are written as these texts. -/
theorem mapM_lines_methods (target : WorkflowTarget) {task : TaskType} (task_ne : task.name ≠ "") (suffix : String)
    {w : Descriptor} (wellFormed : w.WellFormed) :
    ((target.methods task suffix w).map .method).mapM MemberDraft.lines = .ok (target.texts task suffix w) := by
  have started : task.name ++ "<" ++ target.handle w ++ ">" =
      task.name ++ "<" ++ target.handleType ++ "<" ++ w.typeName ++
        (w.returns.result?.elim "" fun result => ", " ++ result.display) ++ ">>" := by
    rw [handle]
    cases w.returns.result? <;> simp [String.append_assoc]
  have executed_ne : task.returning w.returns ≠ "" := TaskType.of_ne_empty task_ne _
  have started_ne : task.name ++ "<" ++ target.handle w ++ ">" ≠ "" :=
    append_ne_empty_of_left (append_ne_empty_of_left (append_ne_empty_of_left task_ne))
  rw [texts, ← task.returning_eq, ← started]
  exact mapM_cons_ok (target.lines_method suffix wellFormed _ executed_ne)
    (mapM_cons_ok (target.lines_method suffix wellFormed _ started_ne) rfl)

/-- The members of the class: two for each workflow, in the order of their keys. -/
theorem members_of_render {config : Config} (task_ne : config.task.name ≠ "") {workflows : List Descriptor}
    (wellFormed : ∀ w ∈ workflows, w.WellFormed) (inOrder : workflows.Pairwise fun a b => a.precedes b = true)
    {file : GeneratedFile} (ok : render config workflows = .ok file) :
    file.model.members = workflows.flatMap (config.workflows.texts config.task config.methodSuffix) := by
  have sorted : sortDescriptors workflows = workflows := List.mergeSort_of_pairwise inOrder
  have written := (isBuild_render config workflows).mapM_lines ok
  rw [sorted, List.map_flatMap, mapM_flatMap_eq_ok fun w hw =>
    config.workflows.mapM_lines_methods task_ne config.methodSuffix (wellFormed w hw)] at written
  exact (Except.ok.inj written).symm

end WorkflowTarget

namespace ActivityTarget

/-- The lines of a method for an activity: it takes the parameters and the options, and calls the activity, through a
variable unless the activity is static. -/
def methodText (target : ActivityTarget) (task : TaskType) (suffix : String) (a : Descriptor) : List String :=
  let options := freshName "options" a.parameterNames
  let self := freshName "x" a.parameterNames
  let arguments := ", ".intercalate a.parameterNames
  ["public static " ++ (a.returns.result?.elim task.name fun result => task.name ++ "<" ++ result.display ++ ">") ++
      " " ++ target.verb ++ entityName suffix a.name ++ suffix ++ "(" ++
      ", ".intercalate (a.parameterTexts ++ [target.optionsType ++ " " ++ options]) ++ ")",
    "\x7b",
    "    return " ++ target.invoke ++ "(" ++
      (if a.isStatic then "() => " ++ a.qualifiedTypeName ++ "." ++ a.name ++ "(" ++ arguments ++ ")"
      else "(" ++ a.qualifiedTypeName ++ " " ++ self ++ ") => " ++ self ++ "." ++ a.name ++ "(" ++ arguments ++ ")") ++
      ", " ++ options ++ ");",
    "\x7d"]

theorem lines_method (target : ActivityTarget) {task : TaskType} (task_ne : task.name ≠ "") (suffix : String)
    {a : Descriptor} (wellFormed : a.WellFormed) :
    (target.method task suffix a).lines = .ok (target.methodText task suffix a) := by
  rw [MethodDraft.lines_of_complete (target.complete_method suffix task_ne wellFormed),
    MethodDraft.signature_of_static rfl rfl, methodText, ← task.returning_eq]
  simp [method, methodName, call, wrapperName, Descriptor.parameterDrafts, Descriptor.parameterTexts,
    Descriptor.argumentList, String.append_assoc, indent_return, Function.comp_def]

/-- The members of the class: one for each activity, in the order of their keys. -/
theorem members_of_render {config : Config} (task_ne : config.task.name ≠ "") {activities : List Descriptor}
    (wellFormed : ∀ a ∈ activities, a.WellFormed) (inOrder : activities.Pairwise fun a b => a.precedes b = true)
    {file : GeneratedFile} (ok : render config activities = .ok file) :
    file.model.members = activities.map (config.activities.methodText config.task config.methodSuffix) := by
  have sorted : sortDescriptors activities = activities := List.mergeSort_of_pairwise inOrder
  have each : ∀ a ∈ activities, [.method (config.activities.method config.task config.methodSuffix a)].mapM
      MemberDraft.lines = .ok [config.activities.methodText config.task config.methodSuffix a] := fun a ha =>
    mapM_cons_ok (config.activities.lines_method task_ne config.methodSuffix (wellFormed a ha)) rfl
  have written := (isBuild_render config activities).mapM_lines ok
  rw [sorted, List.map_eq_flatMap, mapM_flatMap_eq_ok each, ← List.map_eq_flatMap] at written
  exact (Except.ok.inj written).symm

end ActivityTarget

/-! ## Names of their own -/

/-- Behind names of their own, names that are free and different are names of their own. -/
theorem nodup_append_of_fresh {names : List String} (nodup : names.Nodup) {added : List String} (nodup' : added.Nodup)
    (fresh : ∀ name ∈ added, name ∉ names) : (names ++ added).Nodup :=
  List.nodup_append.2 ⟨nodup, nodup', fun _ taken other isAdded e => fresh other isAdded (e ▸ taken)⟩

/-- Whatever a workflow's parameters are called, the client, the options and the variable get names of their own. -/
theorem WorkflowTarget.nodup_names {names : List String} (nodup : names.Nodup) :
    (freshName "client" names :: names ++ [freshName "options" names, freshName "wf" names]).Nodup := by
  have client_options : freshName "client" names ≠ freshName "options" names := freshName_ne rfl rfl (by decide) _ _
  have client_self : freshName "client" names ≠ freshName "wf" names := freshName_ne rfl rfl (by decide) _ _
  have options_self : freshName "options" names ≠ freshName "wf" names := freshName_ne rfl rfl (by decide) _ _
  have client := freshName_not_mem "client" names
  rw [List.cons_append, List.nodup_cons]
  refine ⟨by simp [client, client_options, client_self], nodup_append_of_fresh nodup ?_ ?_⟩
  · simpa using options_self
  · simp [freshName_not_mem]

theorem ActivityTarget.nodup_names {names : List String} (nodup : names.Nodup) :
    (names ++ [freshName "options" names, freshName "x" names]).Nodup := by
  have options_self : freshName "options" names ≠ freshName "x" names := freshName_ne rfl rfl (by decide) _ _
  refine nodup_append_of_fresh nodup ?_ ?_
  · simpa using options_self
  · simp [freshName_not_mem]

/-! ## Both classes -/

namespace Pass

variable {config : Config} {c : Compilation}

/-- **Rendering is total and faithful**: where both static classes have a namespace and a name, and tasks a name, the
classes are rendered for whatever a pass finds. Their methods are those of the workflows, two for each, and those of the
activities, one for each, in the order of their keys. Each takes the parameters of a declared method, and no two names
in it are the same. -/
theorem render_extracted_faithful (workflowsNs : config.workflows.outputNamespace ≠ "")
    (workflowsClass : config.workflows.className ≠ "") (activitiesNs : config.activities.outputNamespace ≠ "")
    (activitiesClass : config.activities.className ≠ "") (task : config.task.name ≠ "") :
    (∀ workflows, (extract config c).workflows = some workflows →
      ∃ file, WorkflowTarget.render config workflows = .ok file ∧
        file.model.members = workflows.flatMap (config.workflows.texts config.task config.methodSuffix) ∧
        workflows.Pairwise (fun a b => a.precedes b = true) ∧
        ∀ w ∈ workflows, ∃ method, .member method ∈ c.declarations ∧
          method.description (symbols config c) config.task = w ∧
          w.parameters.map (fun p => (p.type.display, p.name)) = method.shownParameters (symbols config c) ∧
          (freshName "client" w.parameterNames :: w.parameterNames ++
            [freshName "options" w.parameterNames, freshName "wf" w.parameterNames]).Nodup) ∧
    ∀ activities, (extract config c).activities = some activities →
      ∃ file, ActivityTarget.render config activities = .ok file ∧
        file.model.members = activities.map (config.activities.methodText config.task config.methodSuffix) ∧
        activities.Pairwise (fun a b => a.precedes b = true) ∧
        ∀ a ∈ activities, ∃ method, .member method ∈ c.declarations ∧
          method.description (symbols config c) config.task = a ∧
          a.parameters.map (fun p => (p.type.display, p.name)) = method.shownParameters (symbols config c) ∧
          (a.parameterNames ++ [freshName "options" a.parameterNames, freshName "x" a.parameterNames]).Nodup := by
  refine ⟨fun workflows found => ?_, fun activities found => ?_⟩
  · have wellFormed := wellFormed_of_mem_workflows found
    obtain ⟨file, ok⟩ := WorkflowTarget.exists_render_ok workflowsNs workflowsClass task wellFormed
    refine ⟨file, ok, WorkflowTarget.members_of_render task wellFormed (pairwise_workflows found) ok,
      pairwise_workflows found, fun w hw => ?_⟩
    obtain ⟨method, declared, rfl⟩ := exists_member_of_mem_workflows found hw
    exact ⟨method, declared, rfl, method.parameters_description ..,
      WorkflowTarget.nodup_names (wellFormed _ hw).parameterNames_nodup⟩
  · have wellFormed := wellFormed_of_mem_activities found
    obtain ⟨file, ok⟩ := ActivityTarget.exists_render_ok activitiesNs activitiesClass task wellFormed
    refine ⟨file, ok, ActivityTarget.members_of_render task wellFormed (pairwise_activities found) ok,
      pairwise_activities found, fun a ha => ?_⟩
    obtain ⟨method, declared, rfl⟩ := exists_member_of_mem_activities found ha
    exact ⟨method, declared, rfl, method.parameters_description ..,
      ActivityTarget.nodup_names (wellFormed _ ha).parameterNames_nodup⟩

end Pass

/-! ## An example -/

namespace Sample

/-- A workflow whose parameters have the names that its wrappers would give to theirs. -/
def crowded : Compilation where
  name := "Crowded"
  references := ["W", "R"]
  files :=
    [⟨"a", some "N", [], [classPart "G" ["W", "O"]
      [{ method "Run" "R" "void" with
        parameters := [⟨"client", "int"⟩, ⟨"options", "int"⟩, ⟨"options_", "int"⟩, ⟨"wf", "int"⟩] }]]⟩]

theorem crowded_rendered :
    shortNames.workflows.outputNamespace ≠ "" ∧ shortNames.workflows.className ≠ "" ∧
      shortNames.activities.outputNamespace ≠ "" ∧ shortNames.activities.className ≠ "" ∧ shortNames.task.name ≠ "" ∧
      ∃ workflows file, (Pass.extract shortNames crowded).workflows = some workflows ∧
        WorkflowTarget.render shortNames workflows = .ok file ∧
        file.model.members =
          [["public static Task ExecuteGAsync(this ITemporalClient client_, int client, int options, int options_, " ++
                "int wf, WorkflowOptions options__)",
              "\x7b",
              "    return client_.ExecuteWorkflowAsync((G wf_) => wf_.Run(client, options, options_, wf), options__);",
              "\x7d"],
            ["public static Task<WorkflowHandle<G>> StartGAsync(this ITemporalClient client_, int client, " ++
                "int options, int options_, int wf, WorkflowOptions options__)",
              "\x7b",
              "    return client_.StartWorkflowAsync((G wf_) => wf_.Run(client, options, options_, wf), options__);",
              "\x7d"]] := by
  have known : (Pass.symbols shortNames crowded).contains shortNames.workflows.marker = true := by decide +kernel
  let found := (shortNames.workflows.extractor shortNames.task).all (Pass.symbols shortNames crowded)
    (Pass.scanned shortNames crowded)
  have extracted : (Pass.extract shortNames crowded).workflows = some (dropRepeats found) := by
    have inOrder : found.Pairwise fun a b => a.precedes b = true := by decide +kernel
    rw [Pass.extract_workflows, if_pos known, normalize_eq_of_pairwise inOrder]
  refine ⟨by decide, by decide, by decide, by decide, by decide, dropRepeats found, ?_⟩
  obtain ⟨file, ok, members, -⟩ :=
    (Pass.render_extracted_faithful (by decide) (by decide) (by decide) (by decide) (by decide)).1 _ extracted
  refine ⟨file, extracted, ok, members.trans ?_⟩
  decide +kernel

end Sample

end TypedWrappers
