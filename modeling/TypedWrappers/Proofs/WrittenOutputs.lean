import TypedWrappers.Command.Generate
import TypedWrappers.Proofs.CommandRuns
import TypedWrappers.Proofs.OutputDirectories

/-!
# Writing outputs

An output that is written leaves its directory up to date and changes nothing outside of it. Outputs with names of their
own do not get in each other's way, and where all directories are up to date nothing changes at all.

- `Command.readFile?_of_writeArtifacts`, `Command.holdsExactly_of_removeStales`: what writing the files and removing the
  leftover ones does, by induction on the files;
- `Command.holdsExactly_of_writeOutput`: what writing one output does;
- `Command.holdsExactly_of_writeOutputs`: what writing several outputs does, by induction on the outputs: each one keeps
  the directories of the others up to date;
- `Command.yields_writeOutput`: where the directory is up to date, nothing changes.
-/

namespace TypedWrappers

open Text

/-- Whether a place is directly in a directory and has a name with the suffix of generated files. -/
def isGeneratedIn (dir : Location) (place : Location) : Bool :=
  isGeneratedPlace place && place.tail = dir

theorem isGeneratedPlace_of_isGeneratedIn {dir place : Location} (h : isGeneratedIn dir place = true) :
    isGeneratedPlace place = true :=
  (Bool.and_eq_true_iff.1 h).1

namespace Workspace

variable {w w' : Workspace} {dir : Path} {name content : String} {above : Location}

/-- A file that is written below a path is in the directory that the path stands for. -/
theorem exists_of_writeFile?_join (isName : isEntryName name = true) (nonempty : dir.text ≠ "")
    (written : w.writeFile? (dir.join name) content = some w') :
    ∃ above, w.locate dir = .ok above ∧ w.tree.find? above = some .directory ∧
      w.locate (dir.join name) = .ok (name :: above) ∧
      ∀ place, w'.tree.find? place = if place = name :: above then some (.file content) else w.tree.find? place := by
  obtain ⟨place, tree, located, set, rfl⟩ := writeFile?_eq_some_iff.1 written
  obtain ⟨above, located', isDirectory, rfl⟩ := locate_of_locate_join isName nonempty located
  exact ⟨above, located', isDirectory, located, FileTree.find?_setFile? set⟩

theorem exists_of_removeFile?_join (isName : isEntryName name = true) (nonempty : dir.text ≠ "")
    (removed : w.removeFile? (dir.join name) = some w') :
    ∃ above, w.locate dir = .ok above ∧ w.locate (dir.join name) = .ok (name :: above) ∧
      ∀ place, w'.tree.find? place = if place = name :: above then none else w.tree.find? place := by
  obtain ⟨place, tree, located, dropped, rfl⟩ := removeFile?_eq_some_iff.1 removed
  obtain ⟨above, located', -, rfl⟩ := locate_of_locate_join isName nonempty located
  exact ⟨above, located', located, FileTree.find?_removeFile? dropped⟩

/-- A file that holds a text is left as it is when the text is written. -/
theorem writeFile?_eq_self {p : Path} (read : w.readFile? p = some content) : w.writeFile? p content = some w := by
  obtain ⟨place, located, found⟩ := readFile?_eq_some_iff.1 read
  exact writeFile?_eq_some_iff.2 ⟨place, w.tree, located, FileTree.setFile?_eq_self found, rfl⟩

end Workspace

namespace Command

variable {s s' : Session} {w : Workspace} {outputDir dir : Path} {above : Location} {o : SnapshotOutput}

/-! ## Directories -/

theorem ends_makeDirectory_iff {step : Option FailedStep} {u : Unit} :
    Ends (makeDirectory step dir) s u s' ↔
      ∃ w, (if s.workspace.isDirectory dir then some s.workspace else s.workspace.makeDirectory? dir) = some w ∧
        s' = { s with workspace := w } :=
  ends_change_iff

theorem changesOnly_of_makeDirectory {mayChange : Location → Bool} {step : Option FailedStep} {u : Unit}
    (ends : Ends (makeDirectory step dir) s u s') : s.workspace.ChangesOnly mayChange s'.workspace := by
  obtain ⟨w, made, rfl⟩ := ends_makeDirectory_iff.1 ends
  split at made
  · cases made
    exact .refl mayChange s.workspace
  · exact Workspace.changesOnly_of_makeDirectory? made

/-- Making directories changes no file. -/
theorem changesOnly_of_makeInside {mayChange : Location → Bool} {step : Option FailedStep} {dirs : List Path} {u : Unit}
    (ends : Ends (makeInside step dirs) s u s') : s.workspace.ChangesOnly mayChange s'.workspace := by
  induction dirs generalizing u s' with
  | nil =>
    obtain ⟨-, rfl⟩ := ends_pure_iff.1 ends
    exact .refl mayChange s.workspace
  | cons dir dirs ih =>
    simp only [makeInside, ends_bind_iff, ends_look_iff] at ends
    obtain ⟨cutOff, _, ⟨-, rfl⟩, ends⟩ := ends
    cases cutOff with
    | false => exact changesOnly_of_makeDirectory ends
    | true =>
      obtain ⟨_, s₁, above, made⟩ := ends_bind_iff.1 ends
      exact (ih above).trans (changesOnly_of_makeDirectory made)

/-! ## Artifacts -/

theorem ends_writeArtifact_iff {a : Artifact} {u : Unit} :
    Ends (writeArtifact dir a) s u s' ↔
      ∃ w, s.workspace.writeFile? (dir.join a.fileName) a.content = some w ∧
        s' = ⟨w, s.log ++ [.debug ("Wrote " ++ (dir.join a.fileName).text)]⟩ := by
  simp [writeArtifact, writeFile, ends_bind_iff, ends_change_iff, ends_tell_iff]

/-- The places of files in a directory. -/
def isAmong (artifacts : List Artifact) (dir : Location) (place : Location) : Bool :=
  artifacts.any fun a => place = a.fileName :: dir

/-- Where files are written the directory is. -/
theorem exists_locate_of_writeArtifacts {artifacts : List Artifact} {u : Unit} (nonempty : dir.text ≠ "")
    (filled : artifacts ≠ []) (names : ∀ a ∈ artifacts, isEntryName a.fileName = true)
    (ends : Ends (artifacts.forM (writeArtifact dir)) s u s') :
    ∃ above, s.workspace.locate dir = .ok above ∧ s.workspace.tree.find? above = some .directory := by
  obtain ⟨a, artifacts, rfl⟩ := List.exists_cons_of_ne_nil filled
  obtain ⟨s₁, first, -⟩ := ends_forM_cons_iff.1 ends
  obtain ⟨w, written, -⟩ := ends_writeArtifact_iff.1 first
  obtain ⟨above, located, isDirectory, -⟩ :=
    Workspace.exists_of_writeFile?_join (names a List.mem_cons_self) nonempty written
  exact ⟨above, located, isDirectory⟩

/-- Writing files puts each of them into the directory and changes nothing else. -/
theorem readFile?_of_writeArtifacts {artifacts : List Artifact} {u : Unit} (nonempty : dir.text ≠ "")
    (names : ∀ a ∈ artifacts, isEntryName a.fileName = true) (distinct : (artifacts.map Artifact.fileName).Nodup)
    (located : s.workspace.locate dir = .ok above) (ends : Ends (artifacts.forM (writeArtifact dir)) s u s') :
    s.workspace.ChangesOnly (isAmong artifacts above) s'.workspace ∧
      ∀ a ∈ artifacts, s'.workspace.readFile? (dir.join a.fileName) = some a.content := by
  induction artifacts generalizing s with
  | nil =>
    obtain rfl := ends_forM_nil_iff.1 ends
    exact ⟨.refl _ _, by simp⟩
  | cons a artifacts ih =>
    obtain ⟨isName, names⟩ := List.forall_mem_cons.1 names
    obtain ⟨notLater, distinct⟩ := List.nodup_cons.1 distinct
    obtain ⟨s₁, first, rest⟩ := ends_forM_cons_iff.1 ends
    obtain ⟨w, written, rfl⟩ := ends_writeArtifact_iff.1 first
    obtain ⟨above', located', -, file, entries⟩ := Workspace.exists_of_writeFile?_join isName nonempty written
    cases located.symm.trans located'
    have change : s.workspace.ChangesOnly (isAmong (a :: artifacts) above) w :=
      Workspace.changesOnly_of_writeFile? written fun place h => by
        cases file.symm.trans h
        simp [isAmong]
    obtain ⟨changes, files⟩ := ih names distinct (change.locate_eq_ok located) rest
    have read : w.readFile? (dir.join a.fileName) = some a.content :=
      Workspace.readFile?_eq_some_iff.2 ⟨_, change.locate_eq_ok file, by rw [entries, if_pos rfl]⟩
    refine ⟨change.trans (changes.mono fun place h => ?_), List.forall_mem_cons.2 ⟨?_, files⟩⟩
    · simp only [isAmong, List.any_cons, Bool.or_eq_true] at h ⊢
      exact .inr h
    · -- The other files have other names.
      refine changes.readFile?_eq_some read fun place h => ?_
      cases (change.locate_eq_ok file).symm.trans h
      rw [isAmong, List.any_eq_false]
      intro b hb same
      simp only [List.cons.injEq, and_true, decide_eq_true_eq] at same
      exact notLater (same ▸ List.mem_map_of_mem hb)

/-! ## Leftovers -/

theorem ends_removeStale_iff {file : Path} {u : Unit} :
    Ends (removeStale file) s u s' ↔
      ∃ w, s.workspace.removeFile? file = some w ∧ s' = ⟨w, s.log ++ [.info ("Removed stale " ++ file.text)]⟩ := by
  simp [removeStale, removeFile, ends_bind_iff, ends_change_iff, ends_tell_iff]

/-- Removing files takes each of them out of the directory and changes nothing else. -/
theorem not_mem_of_removeStales {mayChange : Location → Bool} {files : List Path} {u : Unit} (nonempty : dir.text ≠ "")
    (names : ∀ file ∈ files, ∃ name, isEntryName name = true ∧ mayChange (name :: above) = true ∧ file = dir.join name)
    (located : s.workspace.locate dir = .ok above) (ends : Ends (files.forM removeStale) s u s') :
    s.workspace.ChangesOnly mayChange s'.workspace ∧
      ∀ name content, s'.workspace.tree.find? (name :: above) = some (.file content) →
        s.workspace.tree.find? (name :: above) = some (.file content) ∧ dir.join name ∉ files := by
  induction files generalizing s with
  | nil =>
    obtain rfl := ends_forM_nil_iff.1 ends
    exact ⟨.refl _ _, by simp⟩
  | cons file files ih =>
    obtain ⟨⟨name, isName, changes, rfl⟩, others⟩ := List.forall_mem_cons.1 names
    obtain ⟨s₁, first, rest⟩ := ends_forM_cons_iff.1 ends
    obtain ⟨w, removed, rfl⟩ := ends_removeStale_iff.1 first
    obtain ⟨above', located', place, entries⟩ := Workspace.exists_of_removeFile?_join isName nonempty removed
    cases located.symm.trans located'
    have change : s.workspace.ChangesOnly mayChange w :=
      Workspace.changesOnly_of_removeFile? removed fun p h => by
        cases place.symm.trans h
        exact changes
    obtain ⟨later, gone⟩ := ih others (change.locate_eq_ok located) rest
    refine ⟨change.trans later, fun other content found => ?_⟩
    obtain ⟨found, notLater⟩ := gone other content found
    rw [entries] at found
    split at found
    · cases found
    · next differs =>
      refine ⟨found, fun listed => ?_⟩
      rcases List.mem_cons.1 listed with same | listed
      · have same := Path.join_injective (FileTree.isEntryName_of_find? found) isName same
        exact differs (same ▸ rfl)
      · exact notLater listed

/-- Whether a place is that of a file in a directory with the suffix of generated files that is none of some. -/
def isStaleIn (artifacts : ArtifactSet) (dir : Location) (place : Location) : Bool :=
  isGeneratedIn dir place && !isAmong artifacts.toList dir place

theorem isStaleIn_iff {artifacts : ArtifactSet} {name : String} :
    isStaleIn artifacts above (name :: above) = true ↔
      endsWith name Config.temporal.generatedFileSuffix = true ∧ ∀ a ∈ artifacts.toList, a.fileName ≠ name := by
  simp only [isStaleIn, isGeneratedIn, isGeneratedPlace, isAmong, List.tail_cons, decide_true, Bool.and_true,
    Bool.and_eq_true, Bool.not_eq_true', List.any_eq_false, decide_eq_true_eq, List.cons.injEq, and_true]
  exact and_congr_right fun _ => forall₂_congr fun a _ => not_congr eq_comm

/-- A directory that holds the files of an output is up to date once the leftover files are removed. -/
theorem holdsExactly_of_removeStales {artifacts : ArtifactSet} {u : Unit} (nonempty : dir.text ≠ "")
    (names : ∀ a ∈ artifacts.toList, isEntryName a.fileName = true) (located : s.workspace.locate dir = .ok above)
    (isDirectory : s.workspace.isDirectory dir = true)
    (files : ∀ a ∈ artifacts.toList, s.workspace.readFile? (dir.join a.fileName) = some a.content)
    (ends :
      Ends ((s.workspace.leftoverFiles dir Config.temporal.generatedFileSuffix artifacts).forM removeStale) s u s') :
    s.workspace.ChangesOnly (isStaleIn artifacts above) s'.workspace ∧ s'.workspace.HoldsExactly dir artifacts := by
  have leftovers : ∀ file ∈ s.workspace.leftoverFiles dir Config.temporal.generatedFileSuffix artifacts,
      ∃ name, isEntryName name = true ∧ isStaleIn artifacts above (name :: above) = true ∧ file = dir.join name := by
    intro file hfile
    obtain ⟨name, content, found, suffix, other, rfl⟩ := (Workspace.mem_leftoverFiles_iff located).1 hfile
    exact ⟨name, FileTree.isEntryName_of_find? found, isStaleIn_iff.2 ⟨suffix, other⟩, rfl⟩
  obtain ⟨changes, gone⟩ := not_mem_of_removeStales nonempty leftovers located ends
  refine ⟨changes, changes.isDirectory_eq_true isDirectory, fun a ha => ?_, ?_⟩
  · refine changes.readFile?_eq_some (files a ha) fun place h => ?_
    obtain ⟨above', located', -, rfl⟩ := Workspace.locate_of_locate_join (names a ha) nonempty h
    cases located.symm.trans located'
    exact Bool.eq_false_iff.2 fun stale => (isStaleIn_iff.1 stale).2 a ha rfl
  · refine (Workspace.leftoverFiles_eq_nil_iff (changes.locate_eq_ok located)).2 fun name content found suffix => ?_
    by_contra none
    push Not at none
    obtain ⟨found, kept⟩ := gone name content found
    exact kept ((Workspace.mem_leftoverFiles_iff located).2 ⟨name, content, found, suffix, none, rfl⟩)

/-! ## One output -/

/-- An output that is written leaves its directory up to date and changes no other files. -/
theorem holdsExactly_of_writeOutput {u : Unit} (wellFormed : o.WellFormed)
    (ends : Ends (writeOutput outputDir o) s u s') :
    ∃ above, s'.workspace.locate (outputDir.join o.name) = .ok above ∧
      s.workspace.ChangesOnly (isGeneratedIn above) s'.workspace ∧
      s'.workspace.HoldsExactly (outputDir.join o.name) o.output.artifacts := by
  have nonempty := Path.join_ne_empty (p := outputDir) wellFormed.name
  have names := fun a ha => (wellFormed.artifacts a ha).1
  simp only [writeOutput, ends_bind_iff, ends_look_iff, makeDirectories] at ends
  obtain ⟨_, s₁, made, _, s₂, written, _, _, ⟨rfl, rfl⟩, _, s₃, removed, _, s₄, warned, told⟩ := ends
  have unchanged : s'.workspace = s₄.workspace := by rw [ends_tell_iff.1 told]
  rw [unchanged, workspace_eq_of_forM_tell warned]
  generalize outputDir.join o.name = dir at *
  obtain ⟨above, located, isDirectory⟩ := exists_locate_of_writeArtifacts nonempty wellFormed.nonempty names written
  have isDirectory := Workspace.isDirectory_eq_true_iff.2 ⟨above, located, isDirectory⟩
  have distinct := o.output.artifacts.fileNames_eq ▸ o.output.artifacts.nodup_fileNames
  obtain ⟨changes₂, files⟩ := readFile?_of_writeArtifacts nonempty names distinct located written
  have located₂ := changes₂.locate_eq_ok located
  obtain ⟨changes₃, holds⟩ := holdsExactly_of_removeStales nonempty names located₂
    (changes₂.isDirectory_eq_true isDirectory) files removed
  refine ⟨above, changes₃.locate_eq_ok located₂, ?_, holds⟩
  have changes₁ : s.workspace.ChangesOnly (isGeneratedIn above) s₁.workspace := changesOnly_of_makeInside made
  refine (changes₁.trans (changes₂.mono fun place h => ?_)).trans (changes₃.mono fun place h => ?_)
  · obtain ⟨a, ha, same⟩ := List.any_eq_true.1 h
    obtain rfl := of_decide_eq_true same
    simp [isGeneratedIn, isGeneratedPlace, (wellFormed.artifacts a ha).2]
  · exact (Bool.and_eq_true_iff.1 h).1

/-! ## Several outputs -/

/-- An output that is written keeps the directories of outputs with other names up to date. -/
theorem holdsExactly_of_writeOutput_other {other : SnapshotOutput} {u : Unit} (wellFormed : o.WellFormed)
    (otherWellFormed : other.WellFormed) (apart : other.name ≠ o.name) (ends : Ends (writeOutput outputDir o) s u s')
    (holds : s.workspace.HoldsExactly (outputDir.join other.name) other.output.artifacts) :
    s'.workspace.HoldsExactly (outputDir.join other.name) other.output.artifacts := by
  obtain ⟨place, located, changes, -⟩ := holdsExactly_of_writeOutput wellFormed ends
  refine holds.of_changesOnly (Path.join_ne_empty otherWellFormed.name)
    (fun a ha => (otherWellFormed.artifacts a ha).1) changes fun otherPlace name otherLocated => ?_
  -- Both directories lie in the output directory, under different names.
  obtain ⟨-, above, landing, -, -, rfl⟩ := (Workspace.locate_join_eq_ok_iff wellFormed.name).1 located
  obtain ⟨-, otherAbove, otherLanding, -, -, rfl⟩ :=
    (Workspace.locate_join_eq_ok_iff otherWellFormed.name).1 (changes.locate_eq_ok otherLocated)
  simp [isGeneratedIn, apart]

/-- Outputs that are written leave all their directories up to date and change no files but generated ones. -/
theorem holdsExactly_of_writeOutputs {outputs : List SnapshotOutput} {u : Unit}
    (wellFormed : ∀ o ∈ outputs, o.WellFormed) (distinct : (outputs.map SnapshotOutput.name).Nodup)
    (ends : Ends (outputs.forM (writeOutput outputDir)) s u s') :
    s.workspace.ChangesOnly isGeneratedPlace s'.workspace ∧
      (∀ o ∈ outputs, s'.workspace.HoldsExactly (outputDir.join o.name) o.output.artifacts) ∧
      ∀ other : SnapshotOutput, other.WellFormed → other.name ∉ outputs.map SnapshotOutput.name →
        s.workspace.HoldsExactly (outputDir.join other.name) other.output.artifacts →
        s'.workspace.HoldsExactly (outputDir.join other.name) other.output.artifacts := by
  induction outputs generalizing s with
  | nil =>
    obtain rfl := ends_forM_nil_iff.1 ends
    exact ⟨.refl _ _, by simp, fun _ _ _ holds => holds⟩
  | cons o outputs ih =>
    obtain ⟨isWellFormed, wellFormed⟩ := List.forall_mem_cons.1 wellFormed
    obtain ⟨notLater, distinct⟩ := List.nodup_cons.1 distinct
    obtain ⟨s₁, first, rest⟩ := ends_forM_cons_iff.1 ends
    obtain ⟨place, -, change, holds⟩ := holdsExactly_of_writeOutput isWellFormed first
    obtain ⟨changes, all, others⟩ := ih wellFormed distinct rest
    refine ⟨(change.mono fun _ => isGeneratedPlace_of_isGeneratedIn).trans changes, ?_, ?_⟩
    · exact List.forall_mem_cons.2 ⟨others o isWellFormed notLater holds, all⟩
    · intro other otherWellFormed apart otherHolds
      rw [List.map_cons, List.mem_cons, not_or] at apart
      exact others other otherWellFormed apart.2
        (holdsExactly_of_writeOutput_other isWellFormed otherWellFormed apart.1 first otherHolds)

/-! ## Where nothing is to be done -/

theorem yields_makeDirectories {step : Option FailedStep} (nonempty : dir.text ≠ "")
    (isDirectory : w.isDirectory dir = true) : Yields (makeDirectories step dir) w () := by
  obtain ⟨place, located, -⟩ := Workspace.isDirectory_eq_true_iff.1 isDirectory
  have ancestors : ∃ above, dir.ancestors = dir :: above := by
    rw [Path.ancestors, Path.ancestorsWithin, if_neg nonempty]
    exact ⟨_, rfl⟩
  obtain ⟨above, ancestors⟩ := ancestors
  rw [makeDirectories, ancestors, makeInside]
  refine yields_look.bind ?_
  have reached : w.isCutOff dir = false := by rw [Workspace.isCutOff, located]
  rw [reached, if_neg Bool.false_ne_true]
  have same : (if w.isDirectory dir then some w else w.makeDirectory? dir) = some w := if_pos isDirectory
  exact yields_change same

/-- Where the directory is up to date, writing the output changes nothing. -/
theorem yields_writeOutput (wellFormed : o.WellFormed)
    (holds : w.HoldsExactly (outputDir.join o.name) o.output.artifacts) : Yields (writeOutput outputDir o) w () := by
  refine (yields_makeDirectories (Path.join_ne_empty wellFormed.name) holds.isDirectory).bind ?_
  refine (yields_forM fun a ha => ?_).bind (yields_look.bind ?_)
  · exact (yields_change (Workspace.writeFile?_eq_self (holds.files a ha))).bind yields_tell
  · rw [holds.leftovers]
    exact (yields_forM (by simp)).bind ((yields_forM fun _ _ => yields_tell).bind yields_tell)

end Command

end TypedWrappers
