import TypedWrappers.FileTree.Basic

/-!
# What changes do to a file tree

A file tree is seen through `FileTree.find?`. Each change sets the entry at one place and keeps all others.

- `find?_eq_some_iff_mem`: the entries are those that can be found;
- `find?_setFile?`, `find?_addDirectory?`, `find?_removeFile?`: the entries after a change; `setFile?_eq_self`: writing
  what is there changes nothing;
- `mem_filesBelow`, `mem_filesIn`: the files that are listed are those that can be found.
-/

namespace TypedWrappers.FileTree

/-- The root is a directory. -/
@[simp] theorem find?_nil (t : FileTree) : t.find? [] = some .directory := rfl

/-- Below the root the listed entries count. -/
theorem find?_cons (t : FileTree) (name : String) (parent : Location) :
    t.find? (name :: parent) = t.entries.lookup (name :: parent) := rfl

/-- The first entry at a place counts. -/
theorem lookup_cons_ite (p place : Location) (entry : Entry) (rest : List (Location × Entry)) :
    ((p, entry) :: rest).lookup place = if place = p then some entry else rest.lookup place := by
  rw [List.lookup_cons]
  by_cases h : place = p
  · simp [h]
  · have test : (place == p) = false := beq_eq_false_iff_ne.2 h
    simp [test, h]

/-- In a list without two entries at one place, the entry at a place is the one that is listed. -/
theorem lookup_eq_some_iff_mem {entries : List (Location × Entry)} (distinct : (entries.map Prod.fst).Nodup)
    {place : Location} {entry : Entry} : entries.lookup place = some entry ↔ (place, entry) ∈ entries := by
  refine ⟨mem_of_lookup, fun h => ?_⟩
  induction entries with
  | nil => simp at h
  | cons head tail ih =>
    obtain ⟨p, e⟩ := head
    obtain ⟨absent, rest⟩ := List.nodup_cons.1 distinct
    rw [lookup_cons_ite]
    rcases List.mem_cons.1 h with same | h
    · simp_all
    · have different : place ≠ p := fun same => absent (same ▸ (List.mem_map_of_mem h : place ∈ tail.map Prod.fst))
      rw [if_neg different, ih rest h]

/-- Below the root, what is at a place is what is listed. -/
theorem find?_eq_some_iff_mem {t : FileTree} {name : String} {parent : Location} {entry : Entry} :
    t.find? (name :: parent) = some entry ↔ (name :: parent, entry) ∈ t.entries :=
  lookup_eq_some_iff_mem t.distinct

/-- No entry is listed for the root. -/
theorem nil_not_mem (t : FileTree) (entry : Entry) : ([], entry) ∉ t.entries := fun h => by
  obtain ⟨_, _, e, _⟩ := t.inDirectory _ h
  simp at e

/-- A file is found where it is listed. -/
theorem find?_eq_file_iff_mem {t : FileTree} {place : Location} {content : String} :
    t.find? place = some (.file content) ↔ (place, .file content) ∈ t.entries := by
  cases place with
  | nil => simp [nil_not_mem]
  | cons => exact find?_eq_some_iff_mem

/-! ## Changes -/

/-- Adding an entry sets it and keeps all others. -/
theorem find?_add {t : FileTree} {name : String} {parent : Location} {entry : Entry}
    {new : t.entries.lookup (name :: parent) = none} {isName : isEntryName name}
    {isDir : t.find? parent = some .directory} (p : Location) :
    (t.add name parent entry new isName isDir).find? p = if p = name :: parent then some entry else t.find? p := by
  cases p with
  | nil => simp
  | cons n rest => exact lookup_cons_ite ..

/-- Replacing the content of a file elsewhere changes nothing at a place. -/
theorem lookup_map_withContent_of_ne {place p : Location} (h : p ≠ place) (content : String)
    (entries : List (Location × Entry)) : (entries.map (withContent place content)).lookup p = entries.lookup p := by
  induction entries with
  | nil => rfl
  | cons head tail ih =>
    obtain ⟨q, _ | _⟩ := head <;> simp only [List.map_cons, withContent, lookup_cons_ite, ih]
    by_cases hq : p = q
    · simp [← hq, h]
    · simp [hq]

/-- Replacing the content of a file gives it the new content. -/
theorem lookup_map_withContent_self {entries : List (Location × Entry)} {place : Location} {old : String}
    (found : entries.lookup place = some (.file old)) (content : String) :
    (entries.map (withContent place content)).lookup place = some (.file content) := by
  induction entries with
  | nil => simp at found
  | cons head tail ih =>
    obtain ⟨q, _ | _⟩ := head <;> simp only [List.map_cons, withContent, lookup_cons_ite] at found ⊢
    · by_cases hq : place = q
      · simp [hq]
      · simp only [hq, if_false] at found ⊢
        exact ih found
    · by_cases hq : place = q
      · simp [hq] at found
      · simp only [hq, if_false] at found ⊢
        exact ih found

/-- Replacing the content of a file sets it and keeps all other entries. -/
theorem find?_replaceContent {t : FileTree} {name : String} {parent : Location} {old content : String}
    (found : t.entries.lookup (name :: parent) = some (.file old)) (p : Location) :
    (t.replaceContent (name :: parent) content).find? p =
      if p = name :: parent then some (.file content) else t.find? p := by
  cases p with
  | nil => simp
  | cons n rest =>
    split
    · next h =>
      rw [h]
      exact lookup_map_withContent_self found content
    · next h => exact lookup_map_withContent_of_ne h content _

/-- After a file is written it has its content, and nothing else has changed. -/
theorem find?_setFile? {t t' : FileTree} {place : Location} {content : String}
    (h : t.setFile? place content = some t') (p : Location) :
    t'.find? p = if p = place then some (.file content) else t.find? p := by
  cases place with
  | nil => simp [setFile?] at h
  | cons name parent =>
    simp only [setFile?] at h
    split at h
    · simp at h
    · next old found =>
      obtain rfl := Option.some.inj h
      exact find?_replaceContent found p
    · split at h
      · obtain rfl := Option.some.inj h
        exact find?_add p
      · simp at h

/-- A file that holds a text is left as it is when the text is written. -/
theorem setFile?_eq_self {t : FileTree} {place : Location} {content : String}
    (found : t.find? place = some (.file content)) : t.setFile? place content = some t := by
  cases place with
  | nil => simp at found
  | cons name parent =>
    have same : t.entries.map (withContent (name :: parent) content) = t.entries := by
      refine (List.map_congr_left fun entry listed => ?_).trans (List.map_id _)
      obtain ⟨p, old | _⟩ := entry
      · by_cases hp : p = name :: parent
        · subst hp
          have holds := find?_eq_some_iff_mem.2 listed
          rw [found] at holds
          cases holds
          simp [withContent]
        · simp [withContent, hp]
      · rfl
    have unchanged : t.replaceContent (name :: parent) content = t := by
      cases t
      simpa [replaceContent] using same
    simp only [setFile?]
    rw [find?_cons] at found
    split <;> simp_all

/-- After a directory is made it is there, and nothing else has changed. -/
theorem find?_addDirectory? {t t' : FileTree} {place : Location} (h : t.addDirectory? place = some t')
    (p : Location) : t'.find? p = if p = place then some .directory else t.find? p := by
  cases place with
  | nil => simp [addDirectory?] at h
  | cons name parent =>
    simp only [addDirectory?] at h
    split at h
    · simp at h
    · split at h
      · obtain rfl := Option.some.inj h
        exact find?_add p
      · simp at h

/-- After a file is removed it is gone, and nothing else has changed. -/
theorem find?_removeFile? {t t' : FileTree} {place : Location} (h : t.removeFile? place = some t')
    (p : Location) : t'.find? p = if p = place then none else t.find? p := by
  unfold removeFile? at h
  split at h
  · next content found =>
    obtain rfl := Option.some.inj h
    cases p with
    | nil =>
      have : place ≠ [] := fun e => by simp [e] at found
      simp [Ne.symm this]
    | cons n rest =>
      refine Option.ext fun e => ?_
      rw [find?_eq_some_iff_mem, dropFile, List.mem_filter]
      have listed := find?_eq_file_iff_mem.1 found
      by_cases hp : n :: rest = place
      · subst hp
        have only : (n :: rest, e) ∈ t.entries → e = .file content := fun he => by
          rw [← find?_eq_some_iff_mem, found] at he
          exact (Option.some.inj he).symm
        simp only [isFileAt, if_true, reduceCtorEq, iff_false, not_and]
        intro he
        simp [only he]
      · simp [isFileAt, hp, find?_eq_some_iff_mem]
  · simp at h

/-! ## Listing -/

/-- The content of a file is what is found at its place. -/
theorem content?_eq_some_iff {t : FileTree} {place : Location} {content : String} :
    t.content? place = some content ↔ t.find? place = some (.file content) := by
  unfold content?
  split <;> simp_all

/-- The files listed below a place are those that can be found there. -/
theorem mem_filesBelow {t : FileTree} {place names : Location} :
    names ∈ t.filesBelow place ↔ ∃ content, t.find? (names ++ place) = some (.file content) := by
  simp only [filesBelow, List.mem_filterMap, List.mem_filter, namesBelow?_eq_some_iff, decide_eq_true_eq, ne_eq]
  constructor
  · rintro ⟨⟨p, e⟩, ⟨he, kind⟩, rfl⟩
    cases e with
    | file content => exact ⟨content, find?_eq_file_iff_mem.2 he⟩
    | directory => simp at kind
  · rintro ⟨content, h⟩
    exact ⟨_, ⟨find?_eq_file_iff_mem.1 h, by simp⟩, rfl⟩

/-- The files listed in a directory are those that can be found there. -/
theorem mem_filesIn {t : FileTree} {place : Location} {name : String} :
    name ∈ t.filesIn place ↔ ∃ content, t.find? (name :: place) = some (.file content) := by
  simp only [filesIn, List.mem_filterMap]
  constructor
  · rintro ⟨names, h, e⟩
    split at e
    · obtain rfl := Option.some.inj e
      exact mem_filesBelow.1 h
    · simp at e
  · rintro ⟨content, h⟩
    exact ⟨[name], mem_filesBelow.2 ⟨content, h⟩, rfl⟩

end TypedWrappers.FileTree
