import Mathlib.Data.List.TakeWhile
import TypedWrappers.Project.Basic
import TypedWrappers.Project.Generation
import TypedWrappers.Proofs.WorkspaceChanges

/-!
# What generated files have no part in

No snapshot has the suffix of generated files, so that a project and what is generated from its inputs stay the same
under changes that only touch files with that suffix.

- `isGeneratedPlace`: the places of files with the suffix;
- `Workspace.ChangesOnly.loadProject_eq_ok`: the project stays, unless its settings file has the suffix;
- `Workspace.ChangesOnly.generateInputs_eq_ok`: what is generated stays.
-/

namespace TypedWrappers

open Text

/-- Whether a place has a name with the suffix of generated files. -/
def isGeneratedPlace : Location → Bool
  | [] => false
  | name :: _ => endsWith name Config.temporal.generatedFileSuffix

/-- A path to a file with the suffix has no format. -/
theorem SnapshotFormat.ofPath?_eq_none {p : Path} {name : String} (fileName : p.fileName? = some name)
    (generated : endsWith name Config.temporal.generatedFileSuffix = true) : ofPath? p = none := by
  obtain ⟨stem, e⟩ := List.isSuffixOf_iff_suffix.1 generated
  have chars : name.toList = (stem ++ ['.', 'g']) ++ '.' :: ['c', 's'] := by
    rw [← e]
    simp [Config.temporal]
  have extension : p.extension? = some "cs" := by
    rw [Path.extension?, fileName, Option.bind_some, chars, cutLast_append_dot (by decide)]
    cases stem <;> rfl
  rw [ofPath?, extension]
  rfl

/-- The format is that of all paths with the same components. -/
theorem SnapshotFormat.ofPath?_congr {p q : Path} (same : p.components = q.components) : ofPath? p = ofPath? q := by
  rw [ofPath?, ofPath?, Path.extension?, Path.extension?, Path.fileName?, Path.fileName?, same]

theorem Compilation.generate_eq_ok_iff {c : Compilation} {p : Path} {o : SnapshotOutput} :
    c.generate p = .ok o ↔
      ∃ output, Pass.run .temporal FileModel.emitter c = .ok output ∧ o = ⟨p, outputName c p, output⟩ := by
  rw [generate]
  cases Pass.run .temporal FileModel.emitter c <;> simp [eq_comm]

theorem exists_mem_dropSamePaths {paths : List Path} {p : Path} (h : p ∈ paths) :
    ∃ q ∈ dropSamePaths paths, q.components = p.components := by
  induction paths with
  | nil => cases h
  | cons first rest ih =>
    rw [dropSamePaths]
    rcases List.mem_cons.1 h with rfl | h
    · exact ⟨p, List.mem_cons_self, rfl⟩
    · obtain ⟨q, hq, same⟩ := ih h
      rw [← List.takeWhile_append_dropWhile (p := fun r : Path => decide (r.components = first.components))
        (l := dropSamePaths rest)] at hq
      rcases List.mem_append.1 hq with dropped | kept
      · -- The path was dropped as one with the components of the first.
        have dropped : q.components = first.components := by simpa using List.mem_takeWhile_imp dropped
        exact ⟨first, List.mem_cons_self, dropped.symm.trans same⟩
      · exact ⟨q, List.mem_cons_of_mem _ kept, same⟩

/-- Of every path one with the same components is kept. -/
theorem exists_mem_distinctPaths {paths : List Path} {p : Path} (h : p ∈ paths) :
    ∃ q ∈ distinctPaths paths, q.components = p.components :=
  exists_mem_dropSamePaths (List.mem_mergeSort.2 h)

namespace Workspace

variable {w w' : Workspace} {p path input : Path}

theorem hasEntry_of_readFile? {text : String} (read : w.readFile? p = some text) : w.hasEntry p = true := by
  obtain ⟨place, located, found⟩ := readFile?_eq_some_iff.1 read
  simp [hasEntry, entry?, locate?, located, found, Except.toOption]

theorem isDirectory_eq_true_iff :
    w.isDirectory p = true ↔ ∃ place, w.locate p = .ok place ∧ w.tree.find? place = some .directory := by
  rw [isDirectory, decide_eq_true_eq, entry?, locate?]
  cases w.locate p <;> simp [Except.toOption]

theorem isDirectory_eq_false {text : String} (read : w.readFile? p = some text) : w.isDirectory p = false := by
  obtain ⟨place, located, found⟩ := readFile?_eq_some_iff.1 read
  refine Bool.eq_false_iff.2 fun isDirectory => ?_
  obtain ⟨place', located', found'⟩ := isDirectory_eq_true_iff.1 isDirectory
  cases located.symm.trans located'
  cases found.symm.trans found'

theorem not_isFile (isDirectory : w.isDirectory p = true) : ¬w.isFile p = true := by
  intro isFile
  obtain ⟨text, read⟩ := Option.isSome_iff_exists.1 isFile
  rw [isDirectory_eq_false read] at isDirectory
  cases isDirectory

theorem loadProject_eq_ok_iff {project : Project} :
    w.loadProject path = .ok project ↔
      ∃ text, w.readFile? (w.settingsAt path).1 = some text ∧
        ∃ settings, Settings.ofText? text = some settings ∧ settings.inputs ≠ [] ∧
          project = ⟨settings, (w.settingsAt path).2⟩ := by
  rw [loadProject]
  obtain ⟨file, base⟩ := w.settingsAt path
  dsimp only
  cases read : w.readFile? file with
  | none => by_cases missing : w.hasEntry file = true <;> simp [missing]
  | some text =>
    rw [hasEntry_of_readFile? read]
    cases loaded : Settings.ofText? text with
    | none => simp [loaded]
    | some settings => by_cases none : settings.inputs = [] <;> simp [loaded, none, eq_comm]

theorem loadSnapshot_eq_ok_iff {c : Compilation} :
    w.loadSnapshot p = .ok c ↔
      ∃ format, SnapshotFormat.ofPath? p = some format ∧
        ∃ text, w.readFile? p = some text ∧ Compilation.ofText format text = .ok c := by
  rw [loadSnapshot]
  cases SnapshotFormat.ofPath? p with
  | none => simp
  | some format => cases w.readFile? p <;> simp

theorem generateFrom_eq_ok_iff {o : SnapshotOutput} :
    w.generateFrom p = .ok o ↔
      ∃ c, w.loadSnapshot p = .ok c ∧
        ∃ output, Pass.run .temporal FileModel.emitter c = .ok output ∧ o = ⟨p, outputName c p, output⟩ := by
  rw [generateFrom]
  cases w.loadSnapshot p with
  | error e => simp
  | ok c => simp [Compilation.generate_eq_ok_iff]

theorem generateAll_eq_ok_iff {snapshots : List Path} {outputs : List SnapshotOutput} :
    w.generateAll snapshots = .ok outputs ↔
      snapshots.mapM w.generateFrom = .ok outputs ∧ SnapshotOutput.checkAll [] outputs = .ok () := by
  simp only [generateAll, bind_eq_ok_iff, pure, Except.pure, Except.ok.injEq]
  constructor
  · rintro ⟨_, ok, ⟨⟩, checked, rfl⟩
    exact ⟨ok, checked⟩
  · rintro ⟨ok, checked⟩
    exact ⟨outputs, ok, (), checked, rfl⟩

theorem generateInputs_of_discoverSnapshots {inputs snapshots : List Path}
    (discovered : w.discoverSnapshots inputs = .ok snapshots) :
    w.generateInputs inputs =
      if snapshots = [] then .error ⟨none, .noSnapshots⟩ else w.generateAll snapshots := by
  rw [generateInputs, discovered]
  rfl

theorem generateInputs_eq_ok_iff {inputs : List Path} {outputs : List SnapshotOutput} :
    w.generateInputs inputs = .ok outputs ↔
      ∃ found, inputs.mapM w.snapshotsAt = .ok found ∧ distinctPaths found.flatten ≠ [] ∧
        (distinctPaths found.flatten).mapM w.generateFrom = .ok outputs ∧
          SnapshotOutput.checkAll [] outputs = .ok () := by
  cases snapshots : inputs.mapM w.snapshotsAt with
  | error e =>
    rw [generateInputs, bind_eq_ok_iff, discoverSnapshots, snapshots]
    simp [Except.map]
  | ok found =>
    have discovered : w.discoverSnapshots inputs = .ok (distinctPaths found.flatten) := by
      rw [discoverSnapshots, snapshots]
      rfl
    rw [generateInputs_of_discoverSnapshots discovered]
    simp only [Except.ok.injEq, exists_eq_left']
    split
    · next none => simp [none]
    · next some => rw [generateAll_eq_ok_iff, and_iff_right some]

/-- Where only paths with a format count, the files below a directory that have the suffix do not. -/
theorem filterMap_files_eq {t : FileTree} {place : Location} (isDirectory : t.find? place = some .directory)
    {pick : Location → Option (List String)}
    (formats : ∀ q names, pick q = some names → q = names ++ place ∧ (SnapshotFormat.ofPath? (below p names)).isSome) :
    (t.entries.filter (·.2 ≠ .directory)).filterMap (fun entry => pick entry.1) =
      (t.entries.filter (FileTree.isKept isGeneratedPlace)).filterMap fun entry => pick entry.1 := by
  rw [List.filterMap_filter, List.filterMap_filter]
  refine List.filterMap_congr fun entry listed => ?_
  obtain ⟨q, content | _⟩ := entry
  · cases generated : isGeneratedPlace q with
    | false => simp [FileTree.isKept, generated]
    | true =>
      have notPicked : pick q = none := by
        refine Option.eq_none_iff_forall_ne_some.2 fun names picked => ?_
        obtain ⟨rfl, format⟩ := formats q names picked
        have found := FileTree.find?_eq_file_iff_mem.2 listed
        cases names with
        | nil => rw [List.nil_append, isDirectory] at found; cases found
        | cons name rest =>
          have fileName : (below p (name :: rest)).fileName? = some name :=
            Path.fileName?_join (FileTree.isEntryName_of_find? found)
          rw [SnapshotFormat.ofPath?_eq_none fileName generated] at format
          cases format
      simp [FileTree.isKept, generated, notPicked]
  · simp [FileTree.isKept]

namespace ChangesOnly

variable (h : ChangesOnly isGeneratedPlace w w')
include h

/-- A file without the suffix is still there and holds what it did. -/
theorem readFile?_eq_some_of_fileName {text name : String} (read : w.readFile? p = some text)
    (fileName : p.fileName? = some name) (other : endsWith name Config.temporal.generatedFileSuffix = false) :
    w'.readFile? p = some text := by
  obtain ⟨name', above, located, -, fileName', -⟩ := exists_name_of_readFile? read
  cases fileName.symm.trans fileName'
  refine h.readFile?_eq_some read fun place located' => ?_
  cases located.symm.trans located'
  exact other

/-- A file of some format is still there and holds what it did. -/
theorem readFile?_eq_some_of_ofPath? {text : String} (read : w.readFile? p = some text)
    (format : (SnapshotFormat.ofPath? p).isSome) : w'.readFile? p = some text := by
  obtain ⟨name, -, -, -, fileName, -⟩ := exists_name_of_readFile? read
  refine h.readFile?_eq_some_of_fileName read fileName (Bool.eq_false_iff.2 fun generated => ?_)
  rw [SnapshotFormat.ofPath?_eq_none fileName generated] at format
  cases format

/-- The settings file and the directory of the project stay. -/
theorem settingsAt_eq {text : String} (read : w.readFile? (w.settingsAt path).1 = some text)
    (other : endsWith (w.settingsAt path).1.text Config.temporal.generatedFileSuffix = false) :
    w'.settingsAt path = w.settingsAt path ∧ w'.readFile? (w.settingsAt path).1 = some text := by
  obtain ⟨name, -, -, -, fileName, suffix⟩ := exists_name_of_readFile? read
  have otherName : endsWith name Config.temporal.generatedFileSuffix = false := by
    refine Bool.eq_false_iff.2 fun generated => Bool.eq_false_iff.1 other ?_
    exact List.isSuffixOf_iff_suffix.2 ((List.isSuffixOf_iff_suffix.1 generated).trans suffix)
  have read' := h.readFile?_eq_some_of_fileName read fileName otherName
  refine ⟨?_, read'⟩
  by_cases isDirectory : w.isDirectory path = true
  · rw [settingsAt, settingsAt, if_pos isDirectory, if_pos (h.isDirectory_eq_true isDirectory)]
  · rw [settingsAt, if_neg isDirectory] at read'
    rw [settingsAt, settingsAt, if_neg isDirectory, isDirectory_eq_false read']
    rfl

/-- The project stays, unless its settings file has the suffix. -/
theorem loadProject_eq_ok {project : Project} (ok : w.loadProject path = .ok project)
    (other : endsWith (w.settingsAt path).1.text Config.temporal.generatedFileSuffix = false) :
    w'.loadProject path = .ok project := by
  obtain ⟨text, read, rest⟩ := loadProject_eq_ok_iff.1 ok
  obtain ⟨same, read'⟩ := h.settingsAt_eq read other
  rw [loadProject_eq_ok_iff, same]
  exact ⟨text, read', rest⟩

/-- The files of some format below a directory stay. -/
theorem filter_filesBelow (isDirectory : w.isDirectory p = true) :
    (w'.filesBelow p).filter Path.hasSnapshotExtension = (w.filesBelow p).filter Path.hasSnapshotExtension := by
  obtain ⟨place, located, found⟩ := isDirectory_eq_true_iff.1 isDirectory
  have found' := h.tree.directories place found
  simp only [filesBelow, locate?, located, h.locate_eq_ok located, Except.toOption, Option.map_some, Option.getD_some,
    FileTree.filesBelow, List.filter_map, List.filter_filterMap]
  have formats (q : Location) (names : List String)
      (picked : ((FileTree.namesBelow? place q).filter fun names => admits (below p names.tail)).filter
        (Path.hasSnapshotExtension ∘ below p) = some names) :
      q = names ++ place ∧ (SnapshotFormat.ofPath? (below p names)).isSome := by
    simp only [Option.filter_eq_some_iff, Function.comp_apply, ← SnapshotFormat.isSome_ofPath?] at picked
    exact ⟨FileTree.namesBelow?_eq_some_iff.1 picked.1.1, picked.2⟩
  rw [filterMap_files_eq found' formats, filterMap_files_eq found formats, h.tree.others]

/-- An input stands for the snapshots that it stood for. -/
theorem snapshotsAt_eq_ok {found : List Path} (ok : w.snapshotsAt input = .ok found)
    (formats : ∀ p ∈ found, (SnapshotFormat.ofPath? p).isSome) : w'.snapshotsAt input = .ok found := by
  rw [snapshotsAt] at ok ⊢
  split at ok
  · next isFile =>
    cases ok
    obtain ⟨text, read⟩ := Option.isSome_iff_exists.1 isFile
    have read' := h.readFile?_eq_some_of_ofPath? read (formats input List.mem_cons_self)
    rw [if_pos (by simp [Workspace.isFile, read'])]
  · split at ok
    · next isDirectory =>
      have isDirectory' := h.isDirectory_eq_true isDirectory
      rw [if_neg (not_isFile isDirectory'), if_pos isDirectory', h.filter_filesBelow isDirectory]
      exact ok
    · cases ok

theorem generateFrom_eq_ok {o : SnapshotOutput} (ok : w.generateFrom p = .ok o) : w'.generateFrom p = .ok o := by
  obtain ⟨c, loaded, generated⟩ := generateFrom_eq_ok_iff.1 ok
  obtain ⟨format, ofPath, text, read, ofText⟩ := loadSnapshot_eq_ok_iff.1 loaded
  have read' := h.readFile?_eq_some_of_ofPath? read (by simp [ofPath])
  exact generateFrom_eq_ok_iff.2 ⟨c, loadSnapshot_eq_ok_iff.2 ⟨format, ofPath, text, read', ofText⟩, generated⟩

/-- What is generated from the inputs stays. -/
theorem generateInputs_eq_ok {inputs : List Path} {outputs : List SnapshotOutput}
    (ok : w.generateInputs inputs = .ok outputs) : w'.generateInputs inputs = .ok outputs := by
  obtain ⟨found, snapshots, some, generated, checked⟩ := generateInputs_eq_ok_iff.1 ok
  have formats : ∀ p ∈ found.flatten, (SnapshotFormat.ofPath? p).isSome := by
    intro p hp
    obtain ⟨q, hq, same⟩ := exists_mem_distinctPaths hp
    obtain ⟨o, -, generated⟩ := exists_mem_of_mapM_eq_ok generated hq
    obtain ⟨c, loaded, -⟩ := generateFrom_eq_ok_iff.1 generated
    obtain ⟨format, ofPath, -⟩ := loadSnapshot_eq_ok_iff.1 loaded
    rw [← SnapshotFormat.ofPath?_congr same, ofPath]
    rfl
  refine generateInputs_eq_ok_iff.2 ⟨found, ?_, some, ?_, checked⟩
  · exact mapM_eq_ok_of_imp (fun input _ paths hpaths ok =>
      h.snapshotsAt_eq_ok ok fun p hp => formats p (List.mem_flatten_of_mem hpaths hp)) snapshots
  · exact mapM_eq_ok_of_imp (fun _ _ _ _ ok => h.generateFrom_eq_ok ok) generated

end ChangesOnly

end Workspace

end TypedWrappers
