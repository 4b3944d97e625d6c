import Mathlib.Data.List.Nodup
import TypedWrappers.Proofs.FirstDoubles
import TypedWrappers.Proofs.Rendering
import TypedWrappers.Proofs.Writing

/-!
# Names of planned files

Each planned file goes by a name that is known before it is rendered. In the configuration for the Temporal SDK no two
of these names are equal: all of them end alike, the names of doubles have another dot in front of the ending, and the
other names have none.

- `Pass.plannedNames`, `Pass.named_plan`: the names of what is planned;
- `Pass.nodup_plannedNames_temporal`: they are distinct.
-/

namespace TypedWrappers

/-- The marker types of the Temporal SDK: file, namespace and name of each. -/
theorem markerSources_temporal :
    Config.temporal.markerSources.map (fun source => (source.fileName, source.ns, source.name)) =
      [("GenerateWorkflowExtensionAttribute.g.cs", "Temporalio.Generators.Workflows",
          "GenerateWorkflowExtensionAttribute"),
        ("GenerateNSubstituteMocksAttribute.g.cs", "Temporalio.Generators.Testing",
          "GenerateNSubstituteMocksAttribute"),
        ("ActivityMockBase.g.cs", "Temporalio.Generators.Testing", "ActivityMockBase")] := by
  decide +kernel

/-- Marker types have a namespace and a name. -/
theorem ne_empty_of_mem_markerSources_temporal {source : MarkerSource} (h : source ∈ Config.temporal.markerSources) :
    source.ns ≠ "" ∧ source.name ≠ "" := by
  have listed := List.mem_map_of_mem (f := fun source : MarkerSource => (source.fileName, source.ns, source.name)) h
  rw [markerSources_temporal] at listed
  simp only [List.mem_cons, List.not_mem_nil, or_false, Prod.mk.injEq] at listed
  rcases listed with ⟨-, ns, name⟩ | ⟨-, ns, name⟩ | ⟨-, ns, name⟩
  all_goals
    rw [ns, name]
    exact ⟨by decide, by decide⟩

namespace Pass

/-- The names of the planned files, in order. -/
def plannedNames (config : Config) (model : ExtractedModel) : List String :=
  config.markerSources.map MarkerSource.fileName ++
    (model.workflows.map fun _ => config.workflows.fileName).toList ++
    (model.activities.map fun _ => config.activities.fileName).toList ++
    model.doubles.map fun double => double.qualifiedName ++ config.generatedFileSuffix

/-- What is rendered in place of the items of a list goes by the names of the items. -/
theorem forall₂_named_map {α : Type} {render : α → Except GenerationError GeneratedFile} {name : α → String}
    (named : ∀ a, Named (render a) (name a)) (items : List α) :
    List.Forall₂ Named (items.map render) (items.map name) := by
  induction items with
  | nil => exact .nil
  | cons a items ih => exact .cons (named a) ih

/-- Each planned file goes by its name. -/
theorem named_plan (config : Config) (model : ExtractedModel) :
    List.Forall₂ Named (plan config model) (plannedNames config model) := by
  have markers := forall₂_named_map (fun source _ => (MarkerSource.isBuild_render config source).fileName_eq)
    config.markerSources
  have workflows := forall₂_named_map (fun ws _ => (WorkflowTarget.isBuild_render config ws).fileName_eq)
    model.workflows.toList
  have activities := forall₂_named_map (fun as _ => (ActivityTarget.isBuild_render config as).fileName_eq)
    model.activities.toList
  have doubles := forall₂_named_map (fun double _ => (MockTarget.isBuild_render config double).fileName_eq)
    model.doubles
  rw [plan, plannedNames, Option.toList_map, Option.toList_map, Option.toList_map, Option.toList_map]
  exact List.rel_append (List.rel_append (List.rel_append markers workflows) activities) doubles

/-! ## The names of the Temporal SDK -/

/-- The names of all files but doubles, without the ending. -/
def fixedStems : List String :=
  ["GenerateWorkflowExtensionAttribute", "GenerateNSubstituteMocksAttribute", "ActivityMockBase",
    "TemporalClientExtensions", "TemporalActivityExtensions"]

/-- What is planned is some of the fixed files and the doubles, all with one ending. -/
theorem exists_plannedNames_temporal (model : ExtractedModel) :
    ∃ stems, stems.Sublist fixedStems ∧
      plannedNames .temporal model =
        (stems ++ model.doubles.map DoubleDescriptor.qualifiedName).map (· ++ ".g.cs") := by
  have markers : Config.temporal.markerSources.map MarkerSource.fileName =
      ["GenerateWorkflowExtensionAttribute", "GenerateNSubstituteMocksAttribute", "ActivityMockBase"].map
        (· ++ ".g.cs") := by
    have names := congrArg (List.map Prod.fst) markerSources_temporal
    rw [List.map_map] at names
    exact names.trans (by simp)
  have workflows : (model.workflows.map fun _ => Config.temporal.workflows.fileName).toList =
      (model.workflows.map fun _ => "TemporalClientExtensions").toList.map (· ++ ".g.cs") := by
    cases model.workflows with
    | none => rfl
    | some _ => simp [Config.temporal]
  have activities : (model.activities.map fun _ => Config.temporal.activities.fileName).toList =
      (model.activities.map fun _ => "TemporalActivityExtensions").toList.map (· ++ ".g.cs") := by
    cases model.activities with
    | none => rfl
    | some _ => simp [Config.temporal]
  refine ⟨["GenerateWorkflowExtensionAttribute", "GenerateNSubstituteMocksAttribute", "ActivityMockBase"] ++
    (model.workflows.map fun _ => "TemporalClientExtensions").toList ++
    (model.activities.map fun _ => "TemporalActivityExtensions").toList, ?_, ?_⟩
  · have optional {α : Type} (o : Option α) (stem : String) : (o.map fun _ => stem).toList.Sublist [stem] := by
      cases o <;> simp
    exact ((List.Sublist.refl _).append (optional _ _)).append (optional _ _)
  · rw [plannedNames, markers, workflows, activities, List.map_append, List.map_append, List.map_append, List.map_map]
    rfl

/-- No two files of one pass go by the same name. -/
theorem nodup_plannedNames_temporal (c : Compilation) : (plannedNames .temporal (extract .temporal c)).Nodup := by
  obtain ⟨stems, fixed, names⟩ := exists_plannedNames_temporal (extract .temporal c)
  have noDot : ∀ stem ∈ fixedStems, '.' ∉ stem.toList := by decide +kernel
  have doubles : ((extract .temporal c).doubles.map DoubleDescriptor.qualifiedName).Nodup := nodup_firstDoubles _
  have ending : Function.Injective fun stem : String => stem ++ ".g.cs" := by
    intro a b e
    have e := congrArg String.toList e
    rw [String.toList_append, String.toList_append] at e
    exact String.toList_inj.1 (List.append_cancel_right e)
  rw [names]
  refine List.Nodup.map ending (List.nodup_append.2 ⟨fixed.nodup (by decide), doubles, fun stem hs name hn e => ?_⟩)
  obtain ⟨double, -, rfl⟩ := List.mem_map.1 hn
  exact noDot stem (fixed.subset hs) (by rw [e]; simp [DoubleDescriptor.qualifiedName])

end Pass

end TypedWrappers
