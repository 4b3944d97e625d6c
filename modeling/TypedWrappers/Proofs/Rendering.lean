import TypedWrappers.Generated.ActivityHelpers
import TypedWrappers.Generated.Double
import TypedWrappers.Generated.Marker
import TypedWrappers.Generated.WorkflowExtensions
import TypedWrappers.Proofs.DescriptorOrder
import TypedWrappers.Proofs.FileDrafts
import TypedWrappers.Proofs.FreshNames

/-!
# When files can be rendered

The four kinds of files are rendered through drafts, and nothing in the drafts of well-formed descriptors can be wrong
but what the author of the sources leaves out: the name of a double, and the return type of one of its activities.

- `IsBuild`: a file that is rendered through a draft;
- `WorkflowTarget.exists_render_ok`, `ActivityTarget.exists_render_ok`, `MarkerSource.exists_render_ok`: three kinds
  are always rendered;
- `MockTarget.render_ok_iff`, `MockTarget.render_eq_error`: when a double is rendered, and what is wrong otherwise.
-/

namespace TypedWrappers

/-! ## Rendering through a draft -/

/-- A planned file is what becomes of a draft with a name, a namespace, a class and its members. -/
def IsBuild (planned : Except GenerationError GeneratedFile) (fileName ns className : String)
    (members : List MemberDraft) : Prop :=
  ∃ (file : FileDraft) (container : ClassDraft), file.ns = ns ∧ container.name = className ∧
    container.members = members ∧ planned = (file.build container).map fun model => ⟨fileName, model⟩

namespace IsBuild

variable {planned : Except GenerationError GeneratedFile} {fileName ns className : String} {members : List MemberDraft}

theorem of_draft (fileName : String) (file : FileDraft) (container : ClassDraft) :
    IsBuild (do let model ← file.build container; pure { fileName, model }) fileName file.ns container.name
      container.members :=
  ⟨file, container, rfl, rfl, rfl, by cases file.build container <;> rfl⟩

theorem ok_iff (h : IsBuild planned fileName ns className members) :
    (∃ file, planned = .ok file) ↔
      ns ≠ "" ∧ className ≠ "" ∧ ∀ member ∈ members, ∃ lines, member.lines = .ok lines := by
  obtain ⟨file, container, rfl, rfl, rfl, rfl⟩ := h
  rw [← FileDraft.build_ok_iff]
  cases file.build container with
  | error e => exact ⟨nofun, nofun⟩
  | ok model => exact ⟨fun _ => ⟨model, rfl⟩, fun _ => ⟨_, rfl⟩⟩

theorem fileName_eq (h : IsBuild planned fileName ns className members) {file : GeneratedFile}
    (ok : planned = .ok file) : file.fileName = fileName := by
  obtain ⟨draft, container, -, -, -, rfl⟩ := h
  cases built : draft.build container with
  | error e => rw [built] at ok; cases ok
  | ok model => rw [built] at ok; cases ok; rfl

theorem eq_error (h : IsBuild planned fileName ns className members) (ns_ne : ns ≠ "") {e : GenerationError}
    (failed : planned = .error e) :
    className = "" ∧ e = .noClassName ∨ ∃ member ∈ members, member.lines = .error e := by
  obtain ⟨draft, container, rfl, rfl, rfl, rfl⟩ := h
  cases built : draft.build container with
  | error e' => rw [built] at failed; cases failed; exact FileDraft.build_eq_error ns_ne built
  | ok model => rw [built] at failed; cases failed

/-- The members of a file that was rendered are the texts of the members of its draft. -/
theorem mapM_lines (h : IsBuild planned fileName ns className members) {file : GeneratedFile}
    (ok : planned = .ok file) : members.mapM MemberDraft.lines = .ok file.model.members := by
  obtain ⟨draft, container, -, -, rfl, rfl⟩ := h
  cases built : draft.build container with
  | error e => rw [built] at ok; cases ok
  | ok model => rw [built] at ok; cases ok; exact FileDraft.mapM_lines_of_build built

end IsBuild

/-! ## Names and types -/

theorem append_ne_empty_of_right {a b : String} (h : b ≠ "") : a ++ b ≠ "" :=
  fun e => h (String.append_eq_empty_iff.1 e).2

theorem append_ne_empty_of_left {a b : String} (h : a ≠ "") : a ++ b ≠ "" :=
  fun e => h (String.append_eq_empty_iff.1 e).1

theorem wrapperName_ne_empty {verb entity suffix : String} (h : entity ≠ "") : wrapperName verb entity suffix ≠ "" :=
  append_ne_empty_of_left (append_ne_empty_of_right h)

theorem TaskType.of_ne_empty {task : TaskType} (h : task.name ≠ "") (result : Option TypeReference) :
    task.of result ≠ "" := by
  cases result with
  | none => exact h
  | some result => exact append_ne_empty_of_left (append_ne_empty_of_left (append_ne_empty_of_left h))

theorem Descriptor.map_snd_parameterDrafts (d : Descriptor) : d.parameterDrafts.map Prod.snd = d.parameterNames := by
  rw [parameterDrafts, parameterNames, List.map_map]
  rfl

/-! ## Marker types -/

theorem MarkerSource.isBuild_render (config : Config) (source : MarkerSource) :
    IsBuild (source.render config) source.fileName source.ns source.name [] :=
  .of_draft ..

theorem MarkerSource.exists_render_ok (config : Config) {source : MarkerSource} (ns_ne : source.ns ≠ "")
    (name_ne : source.name ≠ "") : ∃ file, source.render config = .ok file :=
  (isBuild_render config source).ok_iff.2 ⟨ns_ne, name_ne, nofun⟩

/-! ## Workflow extensions -/

namespace WorkflowTarget

theorem isBuild_render (config : Config) (workflows : List Descriptor) :
    IsBuild (render config workflows) config.workflows.fileName config.workflows.outputNamespace
      config.workflows.className
      (((sortDescriptors workflows).flatMap (config.workflows.methods config.task config.methodSuffix)).map .method) :=
  .of_draft ..

/-- The client and the options have names of their own beside the declared parameters. -/
theorem complete_method (target : WorkflowTarget) (suffix : String) {w : Descriptor} (wellFormed : w.WellFormed)
    {name returns : String} (verb : String) (name_ne : name ≠ "") (returns_ne : returns ≠ "") :
    (target.method suffix w name verb returns).Complete where
  name_ne := name_ne
  returns_ne := returns_ne
  parameters_nodup := by
    have names : (target.method suffix w name verb returns).parameters.map Prod.snd =
        freshName "client" w.parameterNames :: (w.parameterNames ++ [freshName "options" w.parameterNames]) := by
      simp only [method, List.map_append, List.map_cons, w.map_snd_parameterDrafts, List.cons_append, List.map_nil]
    have client : freshName "client" w.parameterNames ∉ w.parameterNames := freshName_not_mem _ _
    have options : freshName "options" w.parameterNames ∉ w.parameterNames := freshName_not_mem _ _
    have different : freshName "client" w.parameterNames ≠ freshName "options" w.parameterNames :=
      freshName_ne rfl rfl (by decide) _ _
    rw [names, List.nodup_cons, List.mem_append, List.mem_singleton, not_or, List.nodup_append]
    refine ⟨⟨client, different⟩, wellFormed.parameterNames_nodup, by simp, fun a ha b hb e => ?_⟩
    obtain rfl := List.mem_singleton.1 hb
    exact options (e ▸ ha)

/-- The workflow extensions are rendered whatever the workflows. -/
theorem exists_render_ok {config : Config} {workflows : List Descriptor}
    (ns_ne : config.workflows.outputNamespace ≠ "") (className_ne : config.workflows.className ≠ "")
    (task_ne : config.task.name ≠ "") (wellFormed : ∀ w ∈ workflows, w.WellFormed) :
    ∃ file, render config workflows = .ok file := by
  refine (isBuild_render config workflows).ok_iff.2 ⟨ns_ne, className_ne, fun member mem => ?_⟩
  obtain ⟨m, hm, rfl⟩ := List.mem_map.1 mem
  obtain ⟨w, hw, hm⟩ := List.mem_flatMap.1 hm
  have wf : w.WellFormed := wellFormed w ((sortDescriptors_perm workflows).mem_iff.1 hw)
  refine MethodDraft.lines_ok_iff.2 ?_
  simp only [methods, methodNames, List.mem_cons, List.not_mem_nil, or_false] at hm
  rcases hm with rfl | rfl
  · exact complete_method _ _ wf _ (wrapperName_ne_empty wf.typeName_ne) (TaskType.of_ne_empty task_ne _)
  · exact complete_method _ _ wf _ (wrapperName_ne_empty wf.typeName_ne)
      (append_ne_empty_of_left (append_ne_empty_of_left (append_ne_empty_of_left task_ne)))

end WorkflowTarget

/-! ## Activity helpers -/

namespace ActivityTarget

theorem isBuild_render (config : Config) (activities : List Descriptor) :
    IsBuild (render config activities) config.activities.fileName config.activities.outputNamespace
      config.activities.className
      ((sortDescriptors activities).map fun a => .method (config.activities.method config.task config.methodSuffix a)) :=
  .of_draft ..

theorem entityName_ne_empty {suffix name : String} (h : name ≠ "") : entityName suffix name ≠ "" := by
  unfold entityName
  split
  · split
    · exact h
    · next entity_ne => exact entity_ne
  · exact h

/-- The options have a name of their own beside the declared parameters. -/
theorem complete_method (target : ActivityTarget) {task : TaskType} (suffix : String) {a : Descriptor}
    (task_ne : task.name ≠ "") (wellFormed : a.WellFormed) : (target.method task suffix a).Complete where
  name_ne := wrapperName_ne_empty (entityName_ne_empty wellFormed.name_ne)
  returns_ne := TaskType.of_ne_empty task_ne _
  parameters_nodup := by
    have names : (target.method task suffix a).parameters.map Prod.snd =
        a.parameterNames ++ [freshName "options" a.parameterNames] := by
      simp only [method, List.map_append, List.map_cons, a.map_snd_parameterDrafts, List.map_nil]
    have options : freshName "options" a.parameterNames ∉ a.parameterNames := freshName_not_mem _ _
    rw [names, List.nodup_append]
    refine ⟨wellFormed.parameterNames_nodup, by simp, fun b hb c hc e => ?_⟩
    obtain rfl := List.mem_singleton.1 hc
    exact options (e ▸ hb)

/-- The activity helpers are rendered whatever the activities. -/
theorem exists_render_ok {config : Config} {activities : List Descriptor}
    (ns_ne : config.activities.outputNamespace ≠ "") (className_ne : config.activities.className ≠ "")
    (task_ne : config.task.name ≠ "") (wellFormed : ∀ a ∈ activities, a.WellFormed) :
    ∃ file, render config activities = .ok file := by
  refine (isBuild_render config activities).ok_iff.2 ⟨ns_ne, className_ne, fun member mem => ?_⟩
  obtain ⟨a, ha, rfl⟩ := List.mem_map.1 mem
  have wf : a.WellFormed := wellFormed a ((sortDescriptors_perm activities).mem_iff.1 ha)
  exact MethodDraft.lines_ok_iff.2 (complete_method _ _ task_ne wf)

end ActivityTarget

/-! ## Test doubles -/

namespace MockTarget

theorem isBuild_render (config : Config) (double : DoubleDescriptor) :
    IsBuild (render config double) (double.qualifiedName ++ config.generatedFileSuffix) double.ns double.name
      ((sortDescriptors double.activities).flatMap fun a =>
        [.property (config.mocks.property config.task a), .method (config.mocks.method config.task a)]) :=
  .of_draft ..

variable {config : Config} {double : DoubleDescriptor}

/-- The members of a double are those of its activities. -/
theorem forall_members_iff {P : MemberDraft → Prop} :
    (∀ member ∈ (sortDescriptors double.activities).flatMap fun a =>
        [.property (config.mocks.property config.task a), .method (config.mocks.method config.task a)], P member) ↔
      ∀ a ∈ double.activities,
        P (.property (config.mocks.property config.task a)) ∧ P (.method (config.mocks.method config.task a)) := by
  simp only [List.mem_flatMap, (sortDescriptors_perm double.activities).mem_iff]
  constructor
  · exact fun h a ha => ⟨h _ ⟨a, ha, by simp⟩, h _ ⟨a, ha, by simp⟩⟩
  · rintro h member ⟨a, ha, mem⟩
    rcases List.mem_cons.1 mem with rfl | mem
    · exact (h a ha).1
    · obtain rfl := List.mem_singleton.1 mem
      exact (h a ha).2

theorem exists_property_lines_ok {a : Descriptor} (wellFormed : a.WellFormed) :
    ∃ lines, (MemberDraft.property (config.mocks.property config.task a)).lines = .ok lines :=
  PropertyDraft.lines_ok_iff.2 (append_ne_empty_of_right wellFormed.name_ne)

theorem parameterNames_nodup_method {target : MockTarget} {task : TaskType} {a : Descriptor}
    (wellFormed : a.WellFormed) : ((target.method task a).parameters.map Prod.snd).Nodup := by
  have names : (target.method task a).parameters.map Prod.snd = a.parameterNames := a.map_snd_parameterDrafts
  rw [names]
  exact wellFormed.parameterNames_nodup

/-- A double is rendered when it has a namespace and a name and each of its activities has a return type. -/
theorem render_ok_iff (wellFormed : ∀ a ∈ double.activities, a.WellFormed) :
    (∃ file, render config double = .ok file) ↔
      double.ns ≠ "" ∧ double.name ≠ "" ∧ ∀ a ∈ double.activities, declaredReturn config.task a.returns ≠ "" := by
  rw [(isBuild_render config double).ok_iff, forall_members_iff]
  refine and_congr_right fun _ => and_congr_right fun _ => forall₂_congr fun a ha => ?_
  have complete : (∃ lines, (MemberDraft.method (config.mocks.method config.task a)).lines = .ok lines) ↔
      (config.mocks.method config.task a).Complete := MethodDraft.lines_ok_iff
  rw [complete]
  constructor
  · exact fun h => h.2.returns_ne
  · intro returns_ne
    exact ⟨exists_property_lines_ok (wellFormed a ha),
      (wellFormed a ha).name_ne, returns_ne, parameterNames_nodup_method (wellFormed a ha)⟩

/-- What is wrong with a double that has a namespace: it has no name, or an activity has no return type. -/
theorem render_eq_error (wellFormed : ∀ a ∈ double.activities, a.WellFormed) (ns_ne : double.ns ≠ "")
    {e : GenerationError} (failed : render config double = .error e) :
    double.name = "" ∧ e = .noClassName ∨
      ∃ a ∈ double.activities, declaredReturn config.task a.returns = "" ∧ e = .incompleteMethod a.name := by
  refine ((isBuild_render config double).eq_error ns_ne failed).imp_right ?_
  rintro ⟨member, mem, failed⟩
  obtain ⟨a, ha, mem⟩ := List.mem_flatMap.1 mem
  have wf : a.WellFormed := wellFormed a ((sortDescriptors_perm double.activities).mem_iff.1 ha)
  refine ⟨a, (sortDescriptors_perm double.activities).mem_iff.1 ha, ?_⟩
  rcases List.mem_cons.1 mem with rfl | mem
  · obtain ⟨lines, ok⟩ := exists_property_lines_ok wf
    rw [ok] at failed
    cases failed
  · obtain rfl := List.mem_singleton.1 mem
    exact MethodDraft.lines_eq_error wf.name_ne (parameterNames_nodup_method wf) failed

end MockTarget

end TypedWrappers
