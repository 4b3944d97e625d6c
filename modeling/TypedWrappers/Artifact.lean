import TypedWrappers.NameSet

/-!
# Artifacts

The files that one pass generates, each under a name of its own. A set keeps its files behind keys, and the key of a
file is its name.

- `ArtifactSet.insert?`: adds a file, unless its name is taken;
- `ArtifactSet.exists_insert?_eq_some`: under a new name a file is added to the others;
- `ArtifactSet.toList`, `fileNames`, `find?`, `size`: the files and the keys, in increasing order of keys;
- `ArtifactSet.fileNames_eq`, `find?_eq_some_iff`, `find?_eq_none_iff`: the keys tell the names of the files.
-/

namespace TypedWrappers

/-- A generated file as text. -/
structure Artifact where
  /-- The name of the file. -/
  fileName : String
  /-- The text. -/
  content : String
  /-- The namespaces that the text imports. -/
  imports : NameSet
  deriving DecidableEq

/-- Files by name, in increasing order. -/
structure ArtifactSet where
  /-- The files behind their keys. -/
  entries : List (String × Artifact)
  /-- Each key is below all later ones. -/
  sorted : (entries.map Prod.fst).Pairwise (· < ·)
  /-- The key of a file is its name. -/
  named : ∀ entry ∈ entries, entry.1 = entry.2.fileName

namespace ArtifactSet

instance : DecidableEq ArtifactSet := fun a b =>
  decidable_of_iff (a.entries = b.entries) <| by cases a; cases b; simp

theorem sorted_nil : (([] : List (String × Artifact)).map Prod.fst).Pairwise (· < ·) :=
  List.Pairwise.nil

theorem named_nil : ∀ entry ∈ ([] : List (String × Artifact)), entry.1 = entry.2.fileName := by
  simp

/-- No files. -/
def empty : ArtifactSet :=
  ⟨[], sorted_nil, named_nil⟩

instance : EmptyCollection ArtifactSet := ⟨empty⟩

instance : Inhabited ArtifactSet := ⟨empty⟩

/-- The files in increasing order of their keys. -/
def toList (set : ArtifactSet) : List Artifact :=
  set.entries.map Prod.snd

/-- The keys. -/
def fileNames (set : ArtifactSet) : List String :=
  set.entries.map Prod.fst

/-- The file under a key. -/
def find? (set : ArtifactSet) (fileName : String) : Option Artifact :=
  set.entries.lookup fileName

/-- How many files there are. -/
def size (set : ArtifactSet) : Nat :=
  set.entries.length

/-- Whether there are no files. -/
def isEmpty (set : ArtifactSet) : Bool :=
  set.entries.isEmpty

/-! ## Insertion -/

/-- Puts an entry in its place in an increasing list of entries under other keys. -/
def insertEntry (entry : String × Artifact) : List (String × Artifact) → List (String × Artifact)
  | [] => [entry]
  | head :: tail => if entry.1 < head.1 then entry :: head :: tail else head :: insertEntry entry tail

theorem mem_insertEntry {entry e : String × Artifact} {entries : List (String × Artifact)} :
    e ∈ insertEntry entry entries ↔ e = entry ∨ e ∈ entries := by
  induction entries with
  | nil => simp [insertEntry]
  | cons head tail ih =>
    rw [insertEntry]
    split
    · simp
    · simp only [List.mem_cons, ih]
      constructor <;> rintro (h | h | h) <;> simp [h]

theorem sorted_insertEntry {entry : String × Artifact} {entries : List (String × Artifact)}
    (h : (entries.map Prod.fst).Pairwise (· < ·)) (new : entry.1 ∉ entries.map Prod.fst) :
    ((insertEntry entry entries).map Prod.fst).Pairwise (· < ·) := by
  induction entries with
  | nil => simp [insertEntry]
  | cons head tail ih =>
    obtain ⟨below, rest⟩ := List.pairwise_cons.1 h
    simp only [List.map_cons, List.mem_cons, not_or] at new
    rw [insertEntry]
    split
    · next lt =>
      refine List.pairwise_cons.2 ⟨fun x hx => ?_, h⟩
      rcases List.mem_cons.1 hx with rfl | hx
      · exact lt
      · exact String.lt_trans lt (below x hx)
    · next ge =>
      refine List.pairwise_cons.2 ⟨fun x hx => ?_, ih rest new.2⟩
      obtain ⟨e, he, rfl⟩ := List.mem_map.1 hx
      rcases mem_insertEntry.1 he with rfl | he
      · exact String.not_le.1 fun le => new.1 (String.le_antisymm le (String.not_lt.1 ge))
      · exact below _ (List.mem_map_of_mem he)

theorem named_insertEntry {artifact : Artifact} {entries : List (String × Artifact)}
    (h : ∀ entry ∈ entries, entry.1 = entry.2.fileName) :
    ∀ entry ∈ insertEntry (artifact.fileName, artifact) entries, entry.1 = entry.2.fileName := by
  intro entry he
  rcases mem_insertEntry.1 he with rfl | he
  · rfl
  · exact h entry he

/-- The set with one more file under its name, unless the name is taken. -/
def insert? (artifact : Artifact) (set : ArtifactSet) : Option ArtifactSet :=
  if new : artifact.fileName ∈ set.fileNames then none
  else
    some
      { entries := insertEntry (artifact.fileName, artifact) set.entries
        sorted := sorted_insertEntry set.sorted new
        named := named_insertEntry set.named }

theorem mem_of_insert?_eq_some {artifact : Artifact} {set set' : ArtifactSet}
    (inserted : set.insert? artifact = some set') (a : Artifact) : a ∈ set'.toList ↔ a = artifact ∨ a ∈ set.toList := by
  unfold insert? at inserted
  split at inserted
  · cases inserted
  · cases inserted
    simp only [toList, List.mem_map, mem_insertEntry, or_and_right, exists_or, exists_eq_left, eq_comm]

/-- A file under a new name is added to the others. -/
theorem exists_insert?_eq_some {artifact : Artifact} {set : ArtifactSet}
    (new : artifact.fileName ∉ set.fileNames) :
    ∃ set', set.insert? artifact = some set' ∧ ∀ a, a ∈ set'.toList ↔ a = artifact ∨ a ∈ set.toList :=
  ⟨_, dif_neg new, mem_of_insert?_eq_some (dif_neg new)⟩

/-! ## Keys and names -/

variable {set : ArtifactSet}

/-- The keys are the names of the files. -/
theorem fileNames_eq (set : ArtifactSet) : set.fileNames = set.toList.map Artifact.fileName := by
  rw [fileNames, toList, List.map_map]
  exact List.map_congr_left set.named

theorem mem_fileNames {name : String} : name ∈ set.fileNames ↔ ∃ a ∈ set.toList, a.fileName = name := by
  rw [fileNames_eq, List.mem_map]

theorem size_eq (set : ArtifactSet) : set.size = set.toList.length :=
  (List.length_map _).symm

/-- A file is in the set when it stands under its name. -/
theorem mem_toList {a : Artifact} : a ∈ set.toList ↔ (a.fileName, a) ∈ set.entries := by
  refine ⟨fun h => ?_, List.mem_map_of_mem⟩
  obtain ⟨entry, he, rfl⟩ := List.mem_map.1 h
  rw [← set.named entry he]
  exact he

/-- The names of the files are different. -/
theorem nodup_fileNames (set : ArtifactSet) : set.fileNames.Nodup :=
  set.sorted.imp String.ne_of_lt

/-- A look-up finds what the set holds. -/
theorem find?_eq_some_iff {name : String} {a : Artifact} :
    set.find? name = some a ↔ a ∈ set.toList ∧ a.fileName = name := by
  rw [find?, List.lookup_eq_some_iff]
  constructor
  · rintro ⟨before, after, split, -⟩
    have he : (name, a) ∈ set.entries := split ▸ List.mem_append_right before List.mem_cons_self
    exact ⟨List.mem_map_of_mem he, (set.named _ he).symm⟩
  · rintro ⟨ha, rfl⟩
    obtain ⟨before, after, split⟩ := List.append_of_mem (mem_toList.1 ha)
    -- the keys in front of the file are below its own
    have sorted := set.sorted
    rw [split, List.map_append, List.map_cons, List.pairwise_append] at sorted
    refine ⟨before, after, split, fun entry he => bne_iff_ne.2 ?_⟩
    exact (String.ne_of_lt (sorted.2.2 entry.1 (List.mem_map_of_mem he) a.fileName List.mem_cons_self)).symm

theorem find?_eq_none_iff {name : String} : set.find? name = none ↔ name ∉ set.fileNames := by
  simp only [find?, List.lookup_eq_none_iff, bne_iff_ne, fileNames, List.mem_map, not_exists, not_and]
  exact forall₂_congr fun entry _ => ne_comm

end ArtifactSet

end TypedWrappers
