/-!
# File trees

The directories and files of a file system without links.

A place in the tree is the list of names from it up to the root. Every place below the root lies in a directory, no
place has two entries, and each name is one that an entry can have, by the type of trees.

- `FileTree.find?`: the entry at a place;
- `FileTree.setFile?`, `addDirectory?`, `removeFile?`: the changes, each of which fails where a file system refuses it;
- `FileTree.filesBelow`, `filesIn`: the files below a place and those directly in it.
-/

namespace TypedWrappers

/-- A place in a file tree: its name, then the name of the directory that it is in, up to the root. -/
abbrev Location := List String

/-- What stands at a place. -/
inductive Entry
  | file (content : String)
  | directory
  deriving Repr, DecidableEq

/-- Whether a text can be the name of an entry: it is not empty, not dots alone, and has no slash. -/
def isEntryName (name : String) : Bool :=
  name ∉ ["", ".", ".."] && !name.toList.contains '/'

/-- Files and directories below a root. -/
structure FileTree where
  /-- The entries by place. The root itself is not listed. -/
  entries : List (Location × Entry)
  /-- A place has at most one entry. -/
  distinct : (entries.map Prod.fst).Nodup
  /-- A place with an entry lies in the root or in a directory that is listed. -/
  inDirectory : ∀ entry ∈ entries, ∃ name rest, entry.1 = name :: rest ∧ (rest = [] ∨ (rest, .directory) ∈ entries)
  /-- Places with an entry are made of names that entries can have. -/
  named : ∀ entry ∈ entries, ∀ name ∈ entry.1, isEntryName name

namespace FileTree

/-- The root alone. -/
def empty : FileTree :=
  ⟨[], by simp, by simp, by simp⟩

/-- The entry at a place. -/
def find? (t : FileTree) (place : Location) : Option Entry :=
  if place = [] then some .directory else t.entries.lookup place

theorem mem_of_lookup {entries : List (Location × Entry)} {place : Location} {entry : Entry}
    (h : entries.lookup place = some entry) : (place, entry) ∈ entries := by
  induction entries with
  | nil => simp at h
  | cons head tail ih =>
    obtain ⟨p, e⟩ := head
    rw [List.lookup_cons] at h
    split at h
    · next heq =>
      have : place = p := by simpa using heq
      simp_all
    · exact List.mem_cons_of_mem _ (ih h)

theorem not_mem_of_lookup_eq_none {entries : List (Location × Entry)} {place : Location}
    (h : entries.lookup place = none) : place ∉ entries.map Prod.fst := by
  induction entries with
  | nil => simp
  | cons head tail ih =>
    obtain ⟨p, e⟩ := head
    rw [List.lookup_cons] at h
    split at h
    · simp at h
    · next hne =>
      have : place ≠ p := by simpa using hne
      simp only [List.map_cons, List.mem_cons, not_or]
      exact ⟨this, ih h⟩

theorem eq_nil_or_mem_of_find? {t : FileTree} {place : Location} {entry : Entry} (h : t.find? place = some entry) :
    place = [] ∨ (place, entry) ∈ t.entries := by
  by_cases root : place = []
  · exact .inl root
  · rw [find?, if_neg root] at h
    exact .inr (mem_of_lookup h)

/-- Adds an entry at a new place in a directory. -/
def add (t : FileTree) (name : String) (parent : Location) (entry : Entry)
    (new : t.entries.lookup (name :: parent) = none) (isName : isEntryName name)
    (isDir : t.find? parent = some .directory) : FileTree where
  entries := (name :: parent, entry) :: t.entries
  distinct := List.nodup_cons.2 ⟨not_mem_of_lookup_eq_none new, t.distinct⟩
  inDirectory := by
    intro e he
    rcases List.mem_cons.1 he with rfl | he
    · exact ⟨name, parent, rfl, (eq_nil_or_mem_of_find? isDir).imp_right (List.mem_cons_of_mem _)⟩
    · obtain ⟨n, rest, e1, e2⟩ := t.inDirectory e he
      exact ⟨n, rest, e1, e2.imp_right (List.mem_cons_of_mem _)⟩
  named := by
    intro e he
    rcases List.mem_cons.1 he with rfl | he
    · refine List.forall_mem_cons.2 ⟨isName, ?_⟩
      rcases eq_nil_or_mem_of_find? isDir with rfl | listed
      · simp
      · exact t.named _ listed
    · exact t.named e he

/-- The entry with its content replaced, if it is the file at a place. -/
def withContent (place : Location) (content : String) (entry : Location × Entry) : Location × Entry :=
  match entry with
  | (p, .file old) => (p, .file (if p = place then content else old))
  | (p, .directory) => (p, .directory)

theorem fst_withContent (place : Location) (content : String) (entry : Location × Entry) :
    (withContent place content entry).1 = entry.1 := by
  obtain ⟨p, _ | _⟩ := entry <;> rfl

/-- Replaces the content of a file. -/
def replaceContent (t : FileTree) (place : Location) (content : String) : FileTree where
  entries := t.entries.map (withContent place content)
  distinct := by
    have : (t.entries.map (withContent place content)).map Prod.fst = t.entries.map Prod.fst := by
      rw [List.map_map]
      exact List.map_congr_left fun e _ => fst_withContent place content e
    rw [this]
    exact t.distinct
  inDirectory := by
    intro e he
    obtain ⟨old, hold, rfl⟩ := List.mem_map.1 he
    obtain ⟨n, rest, e1, e2⟩ := t.inDirectory old hold
    refine ⟨n, rest, by rw [fst_withContent, e1], e2.imp_right fun hd => ?_⟩
    exact List.mem_map.2 ⟨_, hd, rfl⟩
  named := by
    intro e he
    obtain ⟨old, hold, rfl⟩ := List.mem_map.1 he
    rw [fst_withContent]
    exact t.named old hold

/-- Whether an entry is a file at a place. -/
def isFileAt (place : Location) (entry : Location × Entry) : Bool :=
  entry.1 = place && entry.2 ≠ .directory

/-- Removes the file at a place, if one is there. -/
def dropFile (t : FileTree) (place : Location) : FileTree where
  entries := t.entries.filter fun entry => !isFileAt place entry
  distinct := (List.filter_sublist.map Prod.fst).nodup t.distinct
  inDirectory := by
    intro e he
    obtain ⟨n, rest, e1, e2⟩ := t.inDirectory e (List.mem_filter.1 he).1
    exact ⟨n, rest, e1, e2.imp_right fun hd => List.mem_filter.2 ⟨hd, by simp [isFileAt]⟩⟩
  named := fun e he => t.named e (List.mem_filter.1 he).1

/-! ## Changes -/

/-- Writes a file: a new one in a directory, or over an old one. -/
def setFile? (t : FileTree) (place : Location) (content : String) : Option FileTree :=
  match place with
  | [] => none
  | name :: parent =>
    match new : t.entries.lookup (name :: parent) with
    | some .directory => none
    | some (.file _) => some (t.replaceContent (name :: parent) content)
    | none =>
      if h : isEntryName name ∧ t.find? parent = some .directory then
        some (t.add name parent (.file content) new h.1 h.2)
      else none

/-- Makes a new directory in a directory. -/
def addDirectory? (t : FileTree) (place : Location) : Option FileTree :=
  match place with
  | [] => none
  | name :: parent =>
    match new : t.entries.lookup (name :: parent) with
    | some _ => none
    | none =>
      if h : isEntryName name ∧ t.find? parent = some .directory then
        some (t.add name parent .directory new h.1 h.2)
      else none

/-- Removes a file. -/
def removeFile? (t : FileTree) (place : Location) : Option FileTree :=
  match t.find? place with
  | some (.file _) => some (t.dropFile place)
  | _ => none

/-! ## Listing -/

/-- The names that lead from a place to one below it, the innermost first. -/
def namesBelow? (above place : Location) : Option (List String) :=
  if above <:+ place then some (place.take (place.length - above.length)) else none

theorem namesBelow?_eq_some_iff {above place names : List String} :
    namesBelow? above place = some names ↔ place = names ++ above := by
  unfold namesBelow?
  split
  · next h =>
    obtain ⟨front, rfl⟩ := h
    simp [eq_comm]
  · next h => simpa using fun e : place = names ++ above => h ⟨names, e.symm⟩

/-- The content of a file; none for a place without one. -/
def content? (t : FileTree) (place : Location) : Option String :=
  match t.find? place with
  | some (.file content) => some content
  | _ => none

/-- The files below a place, each as the names that lead to it, the innermost first. -/
def filesBelow (t : FileTree) (place : Location) : List (List String) :=
  (t.entries.filter (·.2 ≠ .directory)).filterMap fun entry => namesBelow? place entry.1

/-- The names of the files in a directory. -/
def filesIn (t : FileTree) (place : Location) : List String :=
  (t.filesBelow place).filterMap fun
    | [name] => some name
    | _ => none

end FileTree

end TypedWrappers
