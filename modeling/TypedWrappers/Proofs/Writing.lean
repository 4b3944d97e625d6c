import TypedWrappers.Pass.Basic
import TypedWrappers.Proofs.FileDrafts

/-!
# Writing planned files

Files under names of their own never get in each other's way, so that a pass writes all of them or fails with the first
that cannot be written.

- `Pass.artifactOf`: one planned file as text, whatever the others are;
- `Pass.mem_of_write_eq_ok`: what was written is what the planned files became;
- `Pass.write_ok_iff`, `Pass.write_eq_error_iff`: all of them, where the names are known to differ.
-/

namespace TypedWrappers

namespace Pass

/-- A planned file as text. -/
def artifactOf (emit : Emitter) : Except GenerationError GeneratedFile → Except PassError Artifact
  | .error e => .error (.generation e)
  | .ok file => (emit file.model).map fun content => ⟨file.fileName, content, file.model.imports⟩

/-- A planned file goes by a name, if it can be generated at all. -/
def Named (planned : Except GenerationError GeneratedFile) (fileName : String) : Prop :=
  ∀ file, planned = .ok file → file.fileName = fileName

variable {emit : Emitter} {planned : Except GenerationError GeneratedFile} {written : ArtifactSet}

theorem fileName_of_artifactOf {fileName : String} (named : Named planned fileName) {artifact : Artifact}
    (ok : artifactOf emit planned = .ok artifact) : artifact.fileName = fileName := by
  cases planned with
  | error e => cases ok
  | ok file =>
    rw [← named file rfl]
    cases content : emit file.model with
    | error e => rw [artifactOf, content] at ok; cases ok
    | ok text => rw [artifactOf, content] at ok; cases ok; rfl

/-- One file is added by its text alone. -/
theorem addFile_eq :
    addFile emit written planned =
      match artifactOf emit planned with
      | .error e => .error e
      | .ok artifact =>
        match written.insert? artifact with
        | some written => .ok written
        | none => .error (.duplicateArtifact artifact.fileName) := by
  cases planned with
  | error e => rfl
  | ok file =>
    rw [addFile, artifactOf]
    cases emit file.model <;> rfl

theorem of_addFile_eq_ok {written' : ArtifactSet} (added : addFile emit written planned = .ok written') :
    ∃ artifact, artifactOf emit planned = .ok artifact ∧
      ∀ a, a ∈ written'.toList ↔ a = artifact ∨ a ∈ written.toList := by
  rw [addFile_eq] at added
  split at added
  · cases added
  · next artifact text =>
    split at added
    · next inserted =>
      cases added
      exact ⟨artifact, text, ArtifactSet.mem_of_insert?_eq_some inserted⟩
    · cases added

/-- Every step that succeeds adds the text of one file. -/
theorem mem_of_foldlM_addFile_eq_ok {files : List (Except GenerationError GeneratedFile)} {set : ArtifactSet}
    (ok : files.foldlM (addFile emit) written = .ok set) :
    ∃ artifacts, files.mapM (artifactOf emit) = .ok artifacts ∧
      ∀ a, a ∈ set.toList ↔ a ∈ artifacts ∨ a ∈ written.toList := by
  induction files generalizing written with
  | nil => cases ok; exact ⟨[], rfl, by simp⟩
  | cons planned files ih =>
    rw [List.foldlM_cons] at ok
    cases added : addFile emit written planned with
    | error e => rw [added] at ok; cases ok
    | ok written' =>
      rw [added] at ok
      obtain ⟨artifact, text, mem⟩ := of_addFile_eq_ok added
      obtain ⟨artifacts, texts, mem'⟩ := ih ok
      refine ⟨artifact :: artifacts, mapM_cons_ok text texts, fun a => ?_⟩
      rw [mem', mem, List.mem_cons, or_left_comm, ← or_assoc]

/-- What was written is what the planned files became. -/
theorem mem_of_write_eq_ok {files : List (Except GenerationError GeneratedFile)} {set : ArtifactSet}
    (ok : write emit files = .ok set) :
    ∃ artifacts, files.mapM (artifactOf emit) = .ok artifacts ∧ ∀ a, a ∈ set.toList ↔ a ∈ artifacts := by
  obtain ⟨artifacts, texts, mem⟩ := mem_of_foldlM_addFile_eq_ok ok
  exact ⟨artifacts, texts, fun a => (mem a).trans (or_iff_left List.not_mem_nil)⟩

/-- A file under a new name is written if it can be, and takes no name but its own. -/
theorem exists_addFile_eq_ok {name : String} (named : Named planned name) (new : name ∉ written.fileNames)
    {artifact : Artifact} (text : artifactOf emit planned = .ok artifact) :
    ∃ written', addFile emit written planned = .ok written' ∧
      (∀ a, a ∈ written'.toList ↔ a = artifact ∨ a ∈ written.toList) ∧
      ∀ other ≠ name, other ∉ written.fileNames → other ∉ written'.fileNames := by
  have fileName : artifact.fileName = name := fileName_of_artifactOf named text
  obtain ⟨written', inserted, mem⟩ := ArtifactSet.exists_insert?_eq_some (fileName ▸ new)
  refine ⟨written', ?_, mem, fun other ne free taken => ?_⟩
  · rw [addFile_eq, text]
    dsimp only
    rw [inserted]
  · obtain ⟨a, ha, rfl⟩ := ArtifactSet.mem_fileNames.1 taken
    rcases (mem a).1 ha with rfl | ha
    · exact ne fileName
    · exact free (ArtifactSet.mem_fileNames.2 ⟨a, ha, rfl⟩)

variable {files : List (Except GenerationError GeneratedFile)} {names : List String}

/-- Files under names of their own are all written if each of them can be. -/
theorem foldlM_addFile_eq_ok (named : List.Forall₂ Named files names) (distinct : names.Nodup)
    (new : ∀ name ∈ names, name ∉ written.fileNames) {artifacts : List Artifact}
    (ok : files.mapM (artifactOf emit) = .ok artifacts) :
    ∃ set, files.foldlM (addFile emit) written = .ok set ∧
      ∀ a, a ∈ set.toList ↔ a ∈ artifacts ∨ a ∈ written.toList := by
  induction named generalizing written artifacts with
  | nil => cases ok; exact ⟨written, rfl, by simp⟩
  | @cons planned name files names isNamed named ih =>
    obtain ⟨notLater, distinct⟩ := List.nodup_cons.1 distinct
    obtain ⟨newName, new⟩ := List.forall_mem_cons.1 new
    obtain ⟨artifact, others, text, texts, rfl⟩ := mapM_cons_eq_ok_iff.1 ok
    obtain ⟨written', added, mem, stillFree⟩ := exists_addFile_eq_ok isNamed newName text
    have stillNew : ∀ other ∈ names, other ∉ written'.fileNames := fun other hother =>
      stillFree other (fun e => notLater (e ▸ hother)) (new other hother)
    obtain ⟨set, ok, mem'⟩ := ih distinct stillNew texts
    refine ⟨set, ?_, fun a => ?_⟩
    · rw [List.foldlM_cons, added]
      exact ok
    · rw [mem', mem, List.mem_cons, or_left_comm, ← or_assoc]

/-- Files under names of their own fail with the first that cannot be written. -/
theorem foldlM_addFile_eq_error (named : List.Forall₂ Named files names) (distinct : names.Nodup)
    (new : ∀ name ∈ names, name ∉ written.fileNames) {e : PassError}
    (failed : files.mapM (artifactOf emit) = .error e) : files.foldlM (addFile emit) written = .error e := by
  induction named generalizing written with
  | nil => cases failed
  | @cons planned name files names isNamed named ih =>
    obtain ⟨notLater, distinct⟩ := List.nodup_cons.1 distinct
    obtain ⟨newName, new⟩ := List.forall_mem_cons.1 new
    rw [List.mapM_cons] at failed
    rw [List.foldlM_cons]
    cases text : artifactOf emit planned with
    | error e' =>
      rw [text] at failed
      cases failed
      rw [addFile_eq, text]
      rfl
    | ok artifact =>
      cases texts : files.mapM (artifactOf emit) with
      | ok others => rw [text, texts] at failed; cases failed
      | error e' =>
        rw [text, texts] at failed
        cases failed
        obtain ⟨written', added, -, stillFree⟩ := exists_addFile_eq_ok isNamed newName text
        have stillNew : ∀ other ∈ names, other ∉ written'.fileNames := fun other hother =>
          stillFree other (fun e => notLater (e ▸ hother)) (new other hother)
        rw [added]
        exact ih distinct stillNew texts

/-- Files under names of their own are written when each of them can be. -/
theorem write_ok_iff (named : List.Forall₂ Named files names) (distinct : names.Nodup) :
    (∃ set, write emit files = .ok set) ↔ ∀ planned ∈ files, ∃ artifact, artifactOf emit planned = .ok artifact := by
  rw [← mapM_ok_iff]
  have none : ∀ name ∈ names, name ∉ (∅ : ArtifactSet).fileNames := fun _ _ => List.not_mem_nil
  cases texts : files.mapM (artifactOf emit) with
  | error e =>
    rw [write, foldlM_addFile_eq_error named distinct none texts]
    exact ⟨nofun, nofun⟩
  | ok artifacts =>
    obtain ⟨set, ok, -⟩ := foldlM_addFile_eq_ok named distinct none texts
    exact ⟨fun _ => ⟨artifacts, rfl⟩, fun _ => ⟨set, ok⟩⟩

/-- Files under names of their own fail with what is wrong with the first of them that does not become text. -/
theorem write_eq_error_iff (named : List.Forall₂ Named files names) (distinct : names.Nodup) {e : PassError} :
    write emit files = .error e ↔ files.mapM (artifactOf emit) = .error e := by
  have none : ∀ name ∈ names, name ∉ (∅ : ArtifactSet).fileNames := fun _ _ => List.not_mem_nil
  cases texts : files.mapM (artifactOf emit) with
  | error e' => rw [write, foldlM_addFile_eq_error named distinct none texts, Except.error.injEq, Except.error.injEq]
  | ok artifacts =>
    obtain ⟨set, ok, -⟩ := foldlM_addFile_eq_ok named distinct none texts
    rw [write, ok]
    exact ⟨nofun, nofun⟩

end Pass

end TypedWrappers
