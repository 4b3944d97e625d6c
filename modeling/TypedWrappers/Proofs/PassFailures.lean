import TypedWrappers.Proofs.DeclaredReturns
import TypedWrappers.Proofs.Extracted
import TypedWrappers.Proofs.PlannedNames

/-!
# When a pass fails

With the configuration for the Temporal SDK only an unfinished declaration in the sources makes a pass fail: a double
without a name, or a doubled activity without a return type. Files never get in each other's way.

- `Pass.run_temporal_eq_error_iff`: whatever makes text of its files, a pass fails with the first one that cannot be
  written;
- `Pass.run_temporal_ok_iff`: when a pass succeeds, and how it fails otherwise.
-/

namespace TypedWrappers

/-- The activities that a double stands for, as they are declared: the methods with the activity attribute of the class
that it names, where they can be described. -/
def Pass.IsDoubled (config : Config) (c : Compilation) (double : DoubleDescriptor) (m : Member) : Prop :=
  m ∈ ((symbols config c).partsOf (qualify double.targetNamespace double.targetName)).flatMap TypePart.members ∧
    m.isMarkedMethod (symbols config c) config.activities.marker = true ∧
      (m.description (symbols config c) config.task).WellFormed

namespace Pass

variable {config : Config} {c : Compilation}

/-- The activities of a double have return types when those it stands for do. -/
theorem forall_declaredReturn_iff (task_ne : config.task.name ≠ "") {double : DoubleDescriptor}
    (h : double ∈ (extract config c).doubles) :
    (∀ a ∈ double.activities, MockTarget.declaredReturn config.task a.returns ≠ "") ↔
      ∀ m, IsDoubled config c double m → Text.trim m.decl.returns ≠ "" := by
  rw [(of_mem_doubles h).2]
  constructor
  · rintro all m ⟨inParts, marked, wellFormed⟩
    have declared := all _ (MockTarget.mem_activitiesOf.2 ⟨m, inParts, marked, rfl, wellFormed⟩)
    exact fun blank => declared ((SymbolTable.declaredReturn_eq_empty_iff task_ne).2 blank)
  · intro all a ha
    obtain ⟨m, inParts, marked, rfl, wellFormed⟩ := MockTarget.mem_activitiesOf.1 ha
    exact fun empty => all m ⟨inParts, marked, wellFormed⟩ ((SymbolTable.declaredReturn_eq_empty_iff task_ne).1 empty)

/-- All files can be written whose models there are. -/
theorem artifactOf_emitter_ok_iff {planned : Except GenerationError GeneratedFile} :
    (∃ artifact, artifactOf FileModel.emitter planned = .ok artifact) ↔ ∃ file, planned = .ok file := by
  cases planned with
  | error e => exact ⟨nofun, nofun⟩
  | ok file => exact ⟨fun _ => ⟨file, rfl⟩, fun _ => ⟨_, rfl⟩⟩

theorem artifactOf_emitter_eq_error_iff {planned : Except GenerationError GeneratedFile} {e : PassError} :
    artifactOf FileModel.emitter planned = .error e ↔ ∃ cause, planned = .error cause ∧ e = .generation cause := by
  cases planned with
  | error cause => simp [artifactOf, eq_comm]
  | ok file => simp [artifactOf, FileModel.emitter, Except.map]

/-- What is planned for the Temporal SDK beside the doubles can always be rendered. -/
theorem exists_ok_or_mem_doubles {planned : Except GenerationError GeneratedFile}
    (h : planned ∈ plan .temporal (extract .temporal c)) :
    (∃ file, planned = .ok file) ∨
      ∃ double ∈ (extract .temporal c).doubles, planned = MockTarget.render .temporal double := by
  rw [plan, List.mem_append, List.mem_append, List.mem_append] at h
  have task_ne : Config.temporal.task.name ≠ "" := by decide
  rcases h with ((h | h) | h) | h
  · obtain ⟨source, hs, rfl⟩ := List.mem_map.1 h
    obtain ⟨ns_ne, name_ne⟩ := ne_empty_of_mem_markerSources_temporal hs
    exact .inl (MarkerSource.exists_render_ok .temporal ns_ne name_ne)
  · obtain ⟨workflows, found, rfl⟩ := Option.map_eq_some_iff.1 (Option.mem_toList.1 h)
    exact .inl (WorkflowTarget.exists_render_ok (by decide) (by decide) task_ne (wellFormed_of_mem_workflows found))
  · obtain ⟨activities, found, rfl⟩ := Option.map_eq_some_iff.1 (Option.mem_toList.1 h)
    exact .inl (ActivityTarget.exists_render_ok (by decide) (by decide) task_ne (wellFormed_of_mem_activities found))
  · obtain ⟨double, hd, rfl⟩ := List.mem_map.1 h
    exact .inr ⟨double, hd, rfl⟩

/-- A double can be rendered when it has a name and the activities that it stands for have return types. -/
theorem render_double_ok_iff (task_ne : config.task.name ≠ "") {double : DoubleDescriptor}
    (h : double ∈ (extract config c).doubles) :
    (∃ file, MockTarget.render config double = .ok file) ↔
      double.name ≠ "" ∧ ∀ m, IsDoubled config c double m → Text.trim m.decl.returns ≠ "" := by
  rw [MockTarget.render_ok_iff (wellFormed_of_mem_doubles h), forall_declaredReturn_iff task_ne h]
  exact and_iff_right (of_mem_doubles h).1

/-- What is planned fails only for a double without a name or an activity without a return type. -/
theorem eq_of_plan_eq_error {e : GenerationError} (h : .error e ∈ plan .temporal (extract .temporal c)) :
    e = .noClassName ∨ ∃ method, e = .incompleteMethod method := by
  rcases exists_ok_or_mem_doubles h with ⟨file, ok⟩ | ⟨double, hd, failed⟩
  · cases ok
  · rcases MockTarget.render_eq_error (wellFormed_of_mem_doubles hd) (of_mem_doubles hd).1 failed.symm with
      ⟨-, rfl⟩ | ⟨a, -, -, rfl⟩
    · exact .inl rfl
    · exact .inr ⟨a.name, rfl⟩

/-- A pass succeeds when its files can be written. -/
theorem run_ok_iff {emit : Emitter} :
    (∃ output, run config emit c = .ok output) ↔ ∃ set, write emit (plan config (extract config c)) = .ok set := by
  rw [run]
  cases write emit (plan config (extract config c)) with
  | error e => exact ⟨nofun, nofun⟩
  | ok set => exact ⟨fun _ => ⟨set, rfl⟩, fun _ => ⟨_, rfl⟩⟩

/-- A pass fails for what is wrong with its files. -/
theorem run_eq_error_iff {emit : Emitter} {e : PassError} :
    run config emit c = .error e ↔ write emit (plan config (extract config c)) = .error e := by
  rw [run]
  cases write emit (plan config (extract config c)) with
  | error e' => rw [Except.map, Except.error.injEq, Except.error.injEq]
  | ok set => exact ⟨nofun, nofun⟩

/-- A pass for the Temporal SDK fails with the first of its files that does not become text, with the very error of that
file. -/
theorem run_temporal_eq_error_iff {emit : Emitter} {e : PassError} :
    run .temporal emit c = .error e ↔
      ∃ before planned after, plan .temporal (extract .temporal c) = before ++ planned :: after ∧
        (∀ earlier ∈ before, ∃ artifact, artifactOf emit earlier = .ok artifact) ∧
        artifactOf emit planned = .error e := by
  rw [run_eq_error_iff, write_eq_error_iff (named_plan .temporal (extract .temporal c)) (nodup_plannedNames_temporal c),
    mapM_eq_error_iff]

/-- A pass for the Temporal SDK succeeds when its doubles can be rendered. -/
theorem exists_run_temporal_ok
    (rendered : ∀ double ∈ (extract .temporal c).doubles, ∃ file, MockTarget.render .temporal double = .ok file) :
    ∃ output, run .temporal FileModel.emitter c = .ok output := by
  have named := named_plan .temporal (extract .temporal c)
  refine run_ok_iff.2 ((write_ok_iff named (nodup_plannedNames_temporal c)).2 fun planned isPlanned => ?_)
  rcases exists_ok_or_mem_doubles isPlanned with ok | ⟨double, hd, rfl⟩
  · exact artifactOf_emitter_ok_iff.2 ok
  · exact artifactOf_emitter_ok_iff.2 (rendered double hd)

/-- **A pass fails for unfinished declarations only**: it succeeds exactly when each double has a name and each
activity that it stands for has a return type. Else one of these is what is wrong; two files never share a name. -/
theorem run_temporal_ok_iff (c : Compilation) :
    ((∃ output, run .temporal FileModel.emitter c = .ok output) ↔
      ∀ double ∈ (extract .temporal c).doubles, double.name ≠ "" ∧
        ∀ m, IsDoubled .temporal c double m → Text.trim m.decl.returns ≠ "") ∧
    ∀ e, run .temporal FileModel.emitter c = .error e →
      e = .generation .noClassName ∨ ∃ method, e = .generation (.incompleteMethod method) := by
  have task_ne : Config.temporal.task.name ≠ "" := by decide
  have named := named_plan .temporal (extract .temporal c)
  have distinct := nodup_plannedNames_temporal c
  constructor
  · rw [run_ok_iff, write_ok_iff named distinct]
    simp only [artifactOf_emitter_ok_iff]
    constructor
    · intro all double h
      refine (render_double_ok_iff task_ne h).1 (all _ ?_)
      rw [plan]
      exact List.mem_append_right _ (List.mem_map_of_mem h)
    · intro all planned h
      rcases exists_ok_or_mem_doubles h with ok | ⟨double, hd, rfl⟩
      · exact ok
      · exact (render_double_ok_iff task_ne hd).2 (all double hd)
  · intro e failed
    obtain ⟨before, planned, after, split, -, failed⟩ := run_temporal_eq_error_iff.1 failed
    obtain ⟨cause, rfl, rfl⟩ := artifactOf_emitter_eq_error_iff.1 failed
    have isPlanned : .error cause ∈ plan .temporal (extract .temporal c) :=
      split ▸ List.mem_append_right before List.mem_cons_self
    rcases eq_of_plan_eq_error isPlanned with rfl | ⟨method, rfl⟩
    · exact .inl rfl
    · exact .inr ⟨method, rfl⟩

end Pass

end TypedWrappers
