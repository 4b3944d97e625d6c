import TypedWrappers.Proofs.ProjectInputs
import TypedWrappers.Proofs.WrittenArtifacts

/-!
# Outputs that can be written side by side

What a pass over the snapshots of a project gives is checked before anything is written: each output has a directory of
its own, and each of its files a name that lies in this directory and has the suffix of generated files.

- `SnapshotOutput.WellFormed`: the names in an output;
- `Workspace.wellFormed_of_generateInputs`: all outputs are well-formed, and no two share a name.
-/

namespace TypedWrappers

open Text

/-- A plain file name is the name of an entry. -/
theorem isEntryName_of_isPlainFileName {name : String} (plain : isPlainFileName name = true) :
    isEntryName name = true := by
  rw [isPlainFileName] at plain
  split at plain
  · next only components =>
    simp only [Bool.and_eq_true, Bool.not_eq_true', List.contains_eq_mem, decide_eq_false_iff_not] at plain
    have noSlash := plain.1
    have pieces : (Path.mk name).pieces = [name.toList] := segments_of_not_mem noSlash
    have relative : (Path.mk name).isAbsolute = false := Path.isAbsolute_of_not_mem noSlash
    rw [Path.components, relative, Path.markedPieces, pieces] at components
    refine isEntryName_iff.2 ⟨?_, ?_, ?_, noSlash⟩ <;>
      · intro e
        simp [e, Path.componentOf] at components
  · cases plain

/-- The names in an output are those of entries, those of the files have the suffix of generated files, and there are
files. -/
structure SnapshotOutput.WellFormed (o : SnapshotOutput) : Prop where
  name : isEntryName o.name = true
  artifacts : ∀ a ∈ o.output.artifacts.toList,
    isEntryName a.fileName = true ∧ endsWith a.fileName Config.temporal.generatedFileSuffix = true
  nonempty : o.output.artifacts.toList ≠ []

namespace SnapshotOutput

theorem check_eq_ok_iff {earlier : List SnapshotOutput} {o : SnapshotOutput} :
    o.check earlier = .ok () ↔
      isPlainFileName o.name = true ∧ (∀ a ∈ o.output.artifacts.toList, isPlainFileName a.fileName = true) ∧
        ∀ other ∈ earlier, other.name ≠ o.name := by
  have files : (∀ a ∈ o.output.artifacts.toList, isPlainFileName a.fileName = true) ↔
      o.output.artifacts.fileNames.find? (fun name => !isPlainFileName name) = none := by
    simp [ArtifactSet.fileNames_eq]
  have others : (∀ other ∈ earlier, other.name ≠ o.name) ↔ earlier.find? (·.name = o.name) = none := by
    simp
  rw [check, files, others]
  cases isPlainFileName o.name with
  | false => simp
  | true =>
    cases o.output.artifacts.fileNames.find? fun name => !isPlainFileName name with
    | some name => simp
    | none => cases earlier.find? (·.name = o.name) <;> simp

/-- The names pass the check where all of them are plain and no two outputs share one. -/
theorem checkAll_eq_ok_iff {earlier outputs : List SnapshotOutput} :
    checkAll earlier outputs = .ok () ↔
      (∀ o ∈ outputs, isPlainFileName o.name = true ∧
        ∀ a ∈ o.output.artifacts.toList, isPlainFileName a.fileName = true) ∧
      (outputs.map SnapshotOutput.name).Nodup ∧ ∀ other ∈ earlier, other.name ∉ outputs.map SnapshotOutput.name := by
  induction outputs generalizing earlier with
  | nil => simp [checkAll]
  | cons o rest ih =>
    have first : checkAll earlier (o :: rest) = .ok () ↔
        o.check earlier = .ok () ∧ checkAll (earlier ++ [o]) rest = .ok () := by
      rw [checkAll]
      cases o.check earlier <;> simp
    rw [first, check_eq_ok_iff, ih, List.forall_mem_append, List.forall_mem_singleton, List.forall_mem_cons,
      List.map_cons, List.nodup_cons]
    simp only [List.mem_cons, not_or, forall_and]
    tauto

end SnapshotOutput

/-- All that a pass for the Temporal SDK writes has the suffix of generated files, and it writes something. -/
theorem Pass.generated_of_run_temporal {emit : Emitter} {c : Compilation} {output : Output}
    (ok : run .temporal emit c = .ok output) :
    (∀ a ∈ output.artifacts.toList, endsWith a.fileName Config.temporal.generatedFileSuffix = true) ∧
      output.artifacts.toList ≠ [] := by
  have names := fileNames_perm_plannedNames ok (nodup_plannedNames_temporal c)
  constructor
  · intro a ha
    obtain ⟨stems, -, planned⟩ := exists_plannedNames_temporal (extract .temporal c)
    have isPlanned := names.subset (ArtifactSet.mem_fileNames.2 ⟨a, ha, rfl⟩)
    rw [planned] at isPlanned
    obtain ⟨stem, -, e⟩ := List.mem_map.1 isPlanned
    refine List.isSuffixOf_iff_suffix.2 ⟨stem.toList, ?_⟩
    rw [← e, String.toList_append]
    rfl
  · intro none
    rw [ArtifactSet.fileNames_eq, none, plannedNames_temporal] at names
    cases names.nil_eq

namespace Workspace

/-- Outputs that are generated from inputs are well-formed, and no two share a name. -/
theorem wellFormed_of_generateInputs {w : Workspace} {inputs : List Path} {outputs : List SnapshotOutput}
    (ok : w.generateInputs inputs = .ok outputs) :
    (∀ o ∈ outputs, o.WellFormed) ∧ (outputs.map SnapshotOutput.name).Nodup := by
  obtain ⟨found, -, -, generated, checked⟩ := generateInputs_eq_ok_iff.1 ok
  obtain ⟨plain, distinct, -⟩ := SnapshotOutput.checkAll_eq_ok_iff.1 checked
  refine ⟨fun o ho => ?_, distinct⟩
  obtain ⟨p, hp, generated⟩ := exists_mem_of_mem_results generated ho
  obtain ⟨c, -, output, ran, rfl⟩ := generateFrom_eq_ok_iff.1 generated
  obtain ⟨suffix, nonempty⟩ := Pass.generated_of_run_temporal ran
  obtain ⟨name, artifacts⟩ := plain _ ho
  exact ⟨isEntryName_of_isPlainFileName name,
    fun a ha => ⟨isEntryName_of_isPlainFileName (artifacts a ha), suffix a ha⟩, nonempty⟩

end Workspace

end TypedWrappers
