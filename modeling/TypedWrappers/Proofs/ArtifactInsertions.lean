import TypedWrappers.Proofs.WrittenArtifacts
import Mathlib.Data.List.Dedup
import Mathlib.Data.List.Induction

/-!
# Files added one after another

A set of files takes the first file under each name. Later ones are refused and leave no trace, so that what it holds is
known from the files alone that were offered to it.

- `ArtifactSet.insert`, `ArtifactSet.insertAll`: a file is offered to a set, and files in turn to the empty one;
- `ArtifactSet.find?_insert`, `ArtifactSet.find?_insertAll`: what is found under a name, behind one file and behind all;
- `Pass.write_eq_ok_iff`: what a pass writes is such a set, and no file of it was refused;
- `ArtifactSet.insertAll_exact`: when a file is refused, and what the set holds in the end.
-/

namespace TypedWrappers

/-- The first of some files under a name. -/
def firstUnder? (name : String) (files : List Artifact) : Option Artifact :=
  files.find? (·.fileName = name)

theorem firstUnder?_eq_none_iff {name : String} {files : List Artifact} :
    firstUnder? name files = none ↔ name ∉ files.map Artifact.fileName := by
  simp [firstUnder?]

/-- A file is the first under its name when the files in front of it have other names. -/
theorem firstUnder?_fileName_iff {a : Artifact} {files : List Artifact} :
    firstUnder? a.fileName files = some a ↔
      ∃ before after, files = before ++ a :: after ∧ a.fileName ∉ before.map Artifact.fileName := by
  rw [firstUnder?, List.find?_eq_some_iff_append]
  simp

/-- One more file is the first under its name where no other file is. -/
theorem firstUnder?_concat {name : String} {files : List Artifact} {artifact : Artifact} :
    firstUnder? name (files ++ [artifact]) =
      (firstUnder? name files).or (if artifact.fileName = name then some artifact else none) := by
  rw [firstUnder?, List.find?_append, firstUnder?, List.find?_singleton]
  simp only [decide_eq_true_eq]

namespace ArtifactSet

/-- Offers a file to a set: what comes of it, and the set behind it. A file under a name that is taken is refused. -/
def insert (artifact : Artifact) (set : ArtifactSet) : Except PassError Unit × ArtifactSet :=
  match set.insert? artifact with
  | some set' => (.ok (), set')
  | none => (.error (.duplicateArtifact artifact.fileName), set)

/-- The set behind files that are offered to the empty one in turn, whatever comes of each. -/
def insertAll (files : List Artifact) : ArtifactSet :=
  files.foldl (fun set artifact => (set.insert artifact).2) ∅

variable {set : ArtifactSet} {artifact : Artifact}

theorem insert_of_mem (taken : artifact.fileName ∈ set.fileNames) :
    set.insert artifact = (.error (.duplicateArtifact artifact.fileName), set) := by
  have refused : set.insert? artifact = none := dif_pos taken
  rw [insert, refused]

theorem exists_insert_of_not_mem (new : artifact.fileName ∉ set.fileNames) :
    ∃ set', set.insert artifact = (.ok (), set') ∧ ∀ a, a ∈ set'.toList ↔ a = artifact ∨ a ∈ set.toList := by
  obtain ⟨set', inserted, mem⟩ := exists_insert?_eq_some new
  exact ⟨set', by rw [insert, inserted], mem⟩

theorem mem_iff_find?_eq_some {a : Artifact} : a ∈ set.toList ↔ set.find? a.fileName = some a := by
  rw [find?_eq_some_iff, and_iff_left rfl]

/-- A file that is offered is found under its name where no other file is. -/
theorem find?_insert (name : String) :
    (set.insert artifact).2.find? name =
      (set.find? name).or (if artifact.fileName = name then some artifact else none) := by
  by_cases taken : artifact.fileName ∈ set.fileNames
  · rw [insert_of_mem taken]
    cases found : set.find? name with
    | some a => rfl
    | none =>
      have other : artifact.fileName ≠ name := fun same => find?_eq_none_iff.1 found (same ▸ taken)
      rw [if_neg other]
      rfl
  · obtain ⟨set', inserted, mem⟩ := exists_insert_of_not_mem taken
    rw [inserted]
    refine Option.ext fun a => ?_
    rw [find?_eq_some_iff, mem, or_and_right, ← find?_eq_some_iff]
    by_cases same : artifact.fileName = name
    · rw [if_pos same, ← same, find?_eq_none_iff.2 taken]
      constructor
      · rintro (⟨rfl, -⟩ | found)
        · rfl
        · cases found
      · intro found
        cases found
        exact .inl ⟨rfl, rfl⟩
    · rw [if_neg same, Option.or_none]
      refine or_iff_right ?_
      rintro ⟨rfl, same'⟩
      exact same same'

/-! ## Files in turn -/

theorem insertAll_concat (files : List Artifact) (artifact : Artifact) :
    insertAll (files ++ [artifact]) = ((insertAll files).insert artifact).2 := by
  rw [insertAll, List.foldl_concat]
  rfl

/-- What is found behind files that are offered in turn is the first one under the name. -/
theorem find?_insertAll (files : List Artifact) (name : String) :
    (insertAll files).find? name = firstUnder? name files := by
  induction files using List.reverseRecOn with
  | nil => rfl
  | append_singleton files artifact ih => rw [insertAll_concat, find?_insert, ih, firstUnder?_concat]

theorem mem_fileNames_insertAll {files : List Artifact} {name : String} :
    name ∈ (insertAll files).fileNames ↔ name ∈ files.map Artifact.fileName := by
  rw [← not_iff_not, ← find?_eq_none_iff, find?_insertAll, firstUnder?_eq_none_iff]

theorem mem_insertAll {files : List Artifact} {a : Artifact} :
    a ∈ (insertAll files).toList ↔
      ∃ before after, files = before ++ a :: after ∧ a.fileName ∉ before.map Artifact.fileName := by
  rw [mem_iff_find?_eq_some, find?_insertAll, firstUnder?_fileName_iff]

/-- A file is refused exactly under a name that was offered before, and the set stays as it was. -/
theorem insert_insertAll (files : List Artifact) (artifact : Artifact) :
    (insertAll files).insert artifact =
      if artifact.fileName ∈ files.map Artifact.fileName then
        (.error (.duplicateArtifact artifact.fileName), insertAll files)
      else (.ok (), insertAll (files ++ [artifact])) := by
  split
  · next taken => exact insert_of_mem (mem_fileNames_insertAll.2 taken)
  · next new =>
    obtain ⟨set', inserted, -⟩ := exists_insert_of_not_mem (mt mem_fileNames_insertAll.1 new)
    rw [insertAll_concat, inserted]

/-- There are as many files as there are names. -/
theorem size_insertAll (files : List Artifact) :
    (insertAll files).size = (files.map Artifact.fileName).dedup.length := by
  have names : (insertAll files).fileNames.Perm (files.map Artifact.fileName).dedup :=
    (List.perm_ext_iff_of_nodup (nodup_fileNames _) (List.nodup_dedup _)).2 fun name => by
      rw [mem_fileNames_insertAll, List.mem_dedup]
  rw [← names.length_eq, fileNames, List.length_map, size]

theorem isEmpty_insertAll_iff {files : List Artifact} : (insertAll files).isEmpty = true ↔ files = [] := by
  rw [isEmpty, List.isEmpty_iff, ← List.length_eq_zero_iff]
  change (insertAll files).size = 0 ↔ files = []
  rw [size_insertAll, List.length_eq_zero_iff, List.dedup_eq_nil, List.map_eq_nil_iff]

end ArtifactSet

/-! ## What a pass writes -/

namespace Pass

variable {emit : Emitter}

theorem addFile_eq_ok_iff {planned : Except GenerationError GeneratedFile} {written set : ArtifactSet} :
    addFile emit written planned = .ok set ↔
      ∃ artifact, artifactOf emit planned = .ok artifact ∧ written.insert artifact = (.ok (), set) := by
  rw [addFile_eq]
  cases artifactOf emit planned with
  | error e => exact ⟨nofun, nofun⟩
  | ok artifact =>
    simp only [Except.ok.injEq, exists_eq_left', ArtifactSet.insert]
    cases written.insert? artifact with
    | some written' => simp
    | none => simp

/-- A pass writes its files by offering them in turn, and every one of them is taken. -/
theorem write_eq_ok_iff {files : List (Except GenerationError GeneratedFile)} {set : ArtifactSet} :
    write emit files = .ok set ↔
      ∃ artifacts, files.mapM (artifactOf emit) = .ok artifacts ∧ (artifacts.map Artifact.fileName).Nodup ∧
        set = ArtifactSet.insertAll artifacts := by
  -- from the end, as the last file meets the set behind all others
  induction files using List.reverseRecOn generalizing set with
  | nil =>
    constructor
    · intro ok
      cases ok
      exact ⟨[], rfl, .nil, rfl⟩
    · rintro ⟨artifacts, texts, -, rfl⟩
      cases texts
      rfl
  | append_singleton files planned ih =>
    rw [write, foldlM_concat_eq_ok_iff]
    change (∃ written, write emit files = .ok written ∧ addFile emit written planned = .ok set) ↔ _
    simp only [ih, addFile_eq_ok_iff, mapM_concat_eq_ok_iff]
    constructor
    · rintro ⟨-, ⟨artifacts, texts, nodup, rfl⟩, artifact, text, taken⟩
      rw [ArtifactSet.insert_insertAll] at taken
      split at taken
      · cases taken
      · next new =>
        cases taken
        refine ⟨_, ⟨artifacts, artifact, texts, text, rfl⟩, ?_, rfl⟩
        rw [List.map_append, List.map_singleton, List.nodup_append]
        exact ⟨nodup, List.nodup_singleton _, fun name hn other ho e => new (List.mem_singleton.1 ho ▸ e ▸ hn)⟩
    · rintro ⟨-, ⟨artifacts, artifact, texts, text, rfl⟩, nodup, rfl⟩
      rw [List.map_append, List.map_singleton, List.nodup_append] at nodup
      have new : artifact.fileName ∉ artifacts.map Artifact.fileName := fun taken =>
        nodup.2.2 _ taken _ (List.mem_singleton_self _) rfl
      refine ⟨_, ⟨artifacts, texts, nodup.1, rfl⟩, artifact, text, ?_⟩
      rw [ArtifactSet.insert_insertAll, if_neg new]

end Pass

/-- **A set of files keeps the first one under each name**: whatever files are offered to an empty set, another one is
refused exactly under a name that was offered before, and then the set stays as it was. In increasing order of names the
set holds the first file under each name and no others, and look-ups, names and size agree with that. -/
theorem ArtifactSet.insertAll_exact (files : List Artifact) :
    (∀ artifact, (insertAll files).insert artifact =
        if artifact.fileName ∈ files.map Artifact.fileName then
          (.error (.duplicateArtifact artifact.fileName), insertAll files)
        else (.ok (), insertAll (files ++ [artifact]))) ∧
      ((insertAll files).toList.map Artifact.fileName).Pairwise (· < ·) ∧
      (∀ a, a ∈ (insertAll files).toList ↔
        ∃ before after, files = before ++ a :: after ∧ a.fileName ∉ before.map Artifact.fileName) ∧
      (∀ name a, (insertAll files).find? name = some a ↔ a ∈ (insertAll files).toList ∧ a.fileName = name) ∧
      (insertAll files).fileNames = (insertAll files).toList.map Artifact.fileName ∧
      (∀ name, name ∈ (insertAll files).fileNames ↔ name ∈ files.map Artifact.fileName) ∧
      (insertAll files).size = (insertAll files).toList.length ∧
      (insertAll files).size = (files.map Artifact.fileName).dedup.length ∧
      ((insertAll files).isEmpty = true ↔ files = []) :=
  ⟨insert_insertAll files, fileNames_eq (insertAll files) ▸ (insertAll files).sorted, fun _ => mem_insertAll,
    fun _ _ => find?_eq_some_iff, fileNames_eq _, fun _ => mem_fileNames_insertAll, size_eq _, size_insertAll files,
    isEmpty_insertAll_iff⟩

namespace Sample

/-- Files of which two share a name. -/
def offeredFiles : List Artifact :=
  [⟨"B.g.cs", "", ∅⟩, ⟨"A.g.cs", "first", ∅⟩, ⟨"A.g.cs", "again", ∅⟩]

theorem insert_offeredFiles :
    ((ArtifactSet.insertAll offeredFiles).insert ⟨"B.g.cs", "later", ∅⟩ =
        (.error (.duplicateArtifact "B.g.cs"), ArtifactSet.insertAll offeredFiles)) ∧
      (ArtifactSet.insertAll offeredFiles).find? "A.g.cs" = some ⟨"A.g.cs", "first", ∅⟩ ∧
      (ArtifactSet.insertAll offeredFiles).size = 2 := by
  obtain ⟨inserted, -, holds, found, -, -, -, size, -⟩ := ArtifactSet.insertAll_exact offeredFiles
  refine ⟨?_, ?_, ?_⟩
  · rw [inserted, if_pos (by decide)]
  · rw [found, holds]
    exact ⟨⟨[⟨"B.g.cs", "", ∅⟩], [⟨"A.g.cs", "again", ∅⟩], rfl, by decide⟩, rfl⟩
  · rw [size]
    decide

end Sample

end TypedWrappers
