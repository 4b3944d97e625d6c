import TypedWrappers.Project.OutputDirectory
import TypedWrappers.Proofs.SnapshotOutputs

/-!
# Directories that are up to date

A directory is up to date with an output if it holds the files of the output and no other file with the suffix of
generated files. This is what a comparison finds, unless two different texts have one digest.

- `Workspace.HoldsExactly`: a directory that is up to date;
- `Workspace.outOfDate_eq_nil_iff`: what a comparison finds; `HoldsExactly.outOfDate_eq`, `holdsExactly_of_outOfDate`:
  it finds nothing wrong in a directory that is up to date, and only in such a one;
- `Workspace.HoldsExactly.of_changesOnly`: changes elsewhere leave the directory up to date.
-/

namespace TypedWrappers

open Text

theorem ArtifactSet.find?_isNone_iff {artifacts : ArtifactSet} {name : String} :
    (artifacts.find? name).isNone = true ↔ ∀ a ∈ artifacts.toList, a.fileName ≠ name := by
  rw [Option.isNone_iff_eq_none, find?_eq_none_iff, mem_fileNames]
  simp

namespace Workspace

variable {w w' : Workspace} {dir p : Path} {artifacts : ArtifactSet} {place : Location}

/-- What stands in front of a joined name can be asked for if the whole can. -/
theorem admits_of_admits_join {name : String} (isName : isEntryName name = true)
    (admitted : admits (dir.join name) = true) : admits dir = true := by
  obtain ⟨rest, text⟩ : ∃ rest, (dir.join name).text = dir.text ++ rest := by
    have start : dir.text.toList <+: (dir.join name).text.toList := Path.toList_prefix_join isName
    obtain ⟨rest, e⟩ := start
    exact ⟨String.ofList rest, String.toList_inj.1 (by simp [← e])⟩
  simp only [admits, Path.hasNull, text, String.toList_append, String.utf8ByteSize_append, Bool.and_eq_true,
    Bool.not_eq_true', List.contains_eq_mem, decide_eq_false_iff_not, List.mem_append, not_or,
    decide_eq_true_eq] at admitted ⊢
  exact ⟨admitted.1.1, by omega⟩

/-- A path in front of a joined name that leads somewhere leads to a directory itself, unless it is empty. -/
theorem locate_of_locate_join {name : String} (isName : isEntryName name = true) (nonempty : dir.text ≠ "")
    (located : w.locate (dir.join name) = .ok place) :
    ∃ above, w.locate dir = .ok above ∧ w.tree.find? above = some .directory ∧ place = name :: above := by
  obtain ⟨admitted, above, landing, isDirectory, -, rfl⟩ := (locate_join_eq_ok_iff isName).1 located
  exact ⟨above, locate_eq_ok_iff.2 ⟨admits_of_admits_join isName admitted, nonempty, landing⟩, isDirectory, rfl⟩

/-- The directory is there, holds the files of an output, and has no other file with the suffix of generated files. -/
structure HoldsExactly (w : Workspace) (dir : Path) (artifacts : ArtifactSet) : Prop where
  isDirectory : w.isDirectory dir = true
  files : ∀ a ∈ artifacts.toList, w.readFile? (dir.join a.fileName) = some a.content
  leftovers : w.leftoverFiles dir Config.temporal.generatedFileSuffix artifacts = []

/-- The files that should not be in a directory. -/
theorem mem_leftoverFiles_iff (located : w.locate dir = .ok place) {file : Path} :
    file ∈ w.leftoverFiles dir Config.temporal.generatedFileSuffix artifacts ↔
      ∃ name content, w.tree.find? (name :: place) = some (.file content) ∧
        endsWith name Config.temporal.generatedFileSuffix = true ∧ (∀ a ∈ artifacts.toList, a.fileName ≠ name) ∧
        file = dir.join name := by
  simp only [leftoverFiles, filesIn, locate?, located, Except.toOption, Option.map_some, Option.getD_some,
    List.mem_mergeSort, List.mem_map, List.mem_filter, FileTree.mem_filesIn, Bool.and_eq_true,
    ArtifactSet.find?_isNone_iff]
  constructor
  · rintro ⟨name, ⟨⟨content, found⟩, suffix, other⟩, rfl⟩
    exact ⟨name, content, found, suffix, other, rfl⟩
  · rintro ⟨name, content, found, suffix, other, rfl⟩
    exact ⟨name, ⟨⟨content, found⟩, suffix, other⟩, rfl⟩

theorem leftoverFiles_eq_nil_iff (located : w.locate dir = .ok place) :
    w.leftoverFiles dir Config.temporal.generatedFileSuffix artifacts = [] ↔
      ∀ name content, w.tree.find? (name :: place) = some (.file content) →
        endsWith name Config.temporal.generatedFileSuffix = true → ∃ a ∈ artifacts.toList, a.fileName = name := by
  rw [List.eq_nil_iff_forall_not_mem]
  simp only [mem_leftoverFiles_iff located]
  constructor
  · intro none name content found suffix
    by_contra other
    push Not at other
    exact none _ ⟨name, content, found, suffix, other, rfl⟩
  · rintro all file ⟨name, content, found, suffix, other, -⟩
    obtain ⟨a, ha, e⟩ := all name content found suffix
    exact other a ha e

/-! ## What a comparison finds -/

theorem artifactState_eq_none_iff {a : Artifact} :
    w.artifactState dir a = .ok none ↔
      ∃ text, w.readFile? (dir.join a.fileName) = some text ∧ Sha256.ofText text = Sha256.ofText a.content := by
  rw [artifactState]
  cases read : w.readFile? (dir.join a.fileName) with
  | none => by_cases missing : w.hasEntry (dir.join a.fileName) = true <;> simp [missing]
  | some text =>
    simp only [hasEntry_of_readFile? read, Bool.not_true, Bool.false_eq_true, if_false, Except.ok.injEq,
      Option.some.injEq, exists_eq_left']
    split
    · next same => simp [same]
    · next differs => simp [differs]

theorem outOfDate_eq_nil_iff {suffix : String} :
    w.outOfDate dir suffix artifacts = .ok [] ↔
      (∀ a ∈ artifacts.toList, w.artifactState dir a = .ok none) ∧ w.leftoverFiles dir suffix artifacts = [] := by
  rw [outOfDate, bind_eq_ok_iff]
  simp only [pure, Except.pure, Except.ok.injEq, ← List.length_eq_zero_iff, List.length_mergeSort, List.length_map]
  simp only [List.length_eq_zero_iff, List.append_eq_nil_iff, List.map_eq_nil_iff, List.filterMap_eq_nil_iff, id]
  constructor
  · rintro ⟨states, ok, same, leftovers⟩
    refine ⟨fun a ha => ?_, leftovers⟩
    obtain ⟨state, hstate, ok⟩ := exists_mem_of_mapM_eq_ok ok ha
    rw [ok, same state hstate]
  · rintro ⟨same, leftovers⟩
    obtain ⟨states, ok⟩ := mapM_ok_iff.2 fun a ha => ⟨none, same a ha⟩
    refine ⟨states, ok, fun state hstate => ?_, leftovers⟩
    obtain ⟨a, ha, ok⟩ := exists_mem_of_mem_results ok hstate
    exact Except.ok.inj (ok.symm.trans (same a ha))

/-- A comparison finds nothing wrong in a directory that is up to date. -/
theorem HoldsExactly.outOfDate_eq (h : HoldsExactly w dir artifacts) :
    w.outOfDate dir Config.temporal.generatedFileSuffix artifacts = .ok [] :=
  outOfDate_eq_nil_iff.2
    ⟨fun a ha => artifactState_eq_none_iff.2 ⟨a.content, h.files a ha, rfl⟩, h.leftovers⟩

/-- Of the texts that are compared in a directory no two different ones have the same digest. -/
def CollisionlessIn (w : Workspace) (dir : Path) (artifacts : ArtifactSet) : Prop :=
  ∀ a ∈ artifacts.toList, ∀ text, w.readFile? (dir.join a.fileName) = some text →
    Sha256.ofText text = Sha256.ofText a.content → text = a.content

/-- A directory in which a comparison finds nothing wrong is up to date. -/
theorem holdsExactly_of_outOfDate (nonempty : dir.text ≠ "") (filled : artifacts.toList ≠ [])
    (names : ∀ a ∈ artifacts.toList, isEntryName a.fileName = true) (apart : CollisionlessIn w dir artifacts)
    (same : w.outOfDate dir Config.temporal.generatedFileSuffix artifacts = .ok []) :
    HoldsExactly w dir artifacts := by
  obtain ⟨states, leftovers⟩ := outOfDate_eq_nil_iff.1 same
  have files : ∀ a ∈ artifacts.toList, w.readFile? (dir.join a.fileName) = some a.content := by
    intro a ha
    obtain ⟨text, read, digest⟩ := artifactState_eq_none_iff.1 (states a ha)
    rw [read, apart a ha text read digest]
  refine ⟨?_, files, leftovers⟩
  -- The directory is there because one of the files is.
  obtain ⟨a, ha⟩ := List.exists_mem_of_ne_nil _ filled
  obtain ⟨_, located, -⟩ := readFile?_eq_some_iff.1 (files a ha)
  obtain ⟨above, located, isDirectory, -⟩ := locate_of_locate_join (names a ha) nonempty located
  exact isDirectory_eq_true_iff.2 ⟨above, located, isDirectory⟩

/-! ## Changes elsewhere -/

/-- Changes elsewhere leave a directory up to date. -/
theorem HoldsExactly.of_changesOnly {mayChange : Location → Bool} (h : HoldsExactly w dir artifacts)
    (nonempty : dir.text ≠ "") (names : ∀ a ∈ artifacts.toList, isEntryName a.fileName = true)
    (changes : ChangesOnly mayChange w w')
    (elsewhere : ∀ place name, w.locate dir = .ok place → mayChange (name :: place) = false) :
    HoldsExactly w' dir artifacts := by
  obtain ⟨place, located, -⟩ := isDirectory_eq_true_iff.1 h.isDirectory
  refine ⟨changes.isDirectory_eq_true h.isDirectory, fun a ha => ?_, ?_⟩
  · refine changes.readFile?_eq_some (h.files a ha) fun file hfile => ?_
    obtain ⟨above, located, -, rfl⟩ := locate_of_locate_join (names a ha) nonempty hfile
    exact elsewhere above a.fileName located
  · refine (leftoverFiles_eq_nil_iff (changes.locate_eq_ok located)).2 fun name content found => ?_
    rw [changes.tree.find?_eq_file_iff (elsewhere place name located)] at found
    exact (leftoverFiles_eq_nil_iff located).1 h.leftovers name content found

end Workspace

end TypedWrappers
