import TypedWrappers.Config
import TypedWrappers.Proofs.Places

/-!
# Changes that keep to some places

Most changes of a workspace only touch the files at some places. All directories stay, new ones may come, and the other
files stay in their order. What a path leads to stays as well, unless it is a file at one of these places.

- `FileTree.ChangesOnly`, `Workspace.ChangesOnly`: a change that keeps to some places; `refl`, `trans` and `mono`: such
  changes add up;
- `Workspace.changesOnly_of_writeFile?`, `changesOnly_of_makeDirectory?`, `changesOnly_of_removeFile?`: the changes that
  there are;
- `Workspace.ChangesOnly.locate_eq_ok`, `ChangesOnly.readFile?_eq_some`: what stays.
-/

namespace TypedWrappers

namespace FileTree

/-- Whether an entry is a file at none of the places that may change. -/
def isKept (mayChange : Location → Bool) (entry : Location × Entry) : Bool :=
  entry.2 ≠ .directory && !mayChange entry.1

/-- From one tree to the other only files at some places have changed and directories have come. -/
structure ChangesOnly (mayChange : Location → Bool) (t t' : FileTree) : Prop where
  /-- Directories stay. -/
  directories : ∀ place, t.find? place = some .directory → t'.find? place = some .directory
  /-- All other files stay as they are listed. -/
  others : t'.entries.filter (isKept mayChange) = t.entries.filter (isKept mayChange)

variable {mayChange : Location → Bool} {t t' t'' : FileTree} {place : Location}

namespace ChangesOnly

theorem refl (mayChange : Location → Bool) (t : FileTree) : ChangesOnly mayChange t t :=
  ⟨fun _ h => h, rfl⟩

theorem trans (first : ChangesOnly mayChange t t') (second : ChangesOnly mayChange t' t'') :
    ChangesOnly mayChange t t'' :=
  ⟨fun place h => second.directories place (first.directories place h), second.others.trans first.others⟩

theorem mono {mayChange' : Location → Bool} (h : ChangesOnly mayChange t t')
    (le : ∀ place, mayChange place = true → mayChange' place = true) : ChangesOnly mayChange' t t' := by
  refine ⟨h.directories, ?_⟩
  have narrower : isKept mayChange' = fun entry => isKept mayChange' entry && isKept mayChange entry := by
    funext entry
    cases kept : isKept mayChange' entry with
    | false => rfl
    | true =>
      simp only [isKept, Bool.and_eq_true, Bool.not_eq_true'] at kept ⊢
      cases changes : mayChange entry.1 with
      | false => simpa using kept.1
      | true => rw [le _ changes] at kept; cases kept.2
  rw [narrower, ← List.filter_filter, ← List.filter_filter, h.others]

/-- The other files are the same. -/
theorem find?_eq_file_iff (h : ChangesOnly mayChange t t') (kept : mayChange place = false) {content : String} :
    t'.find? place = some (.file content) ↔ t.find? place = some (.file content) := by
  have listed (t : FileTree) : t.find? place = some (.file content) ↔
      (place, .file content) ∈ t.entries.filter (isKept mayChange) := by
    simp [find?_eq_file_iff_mem, isKept, kept]
  rw [listed, listed, h.others]

end ChangesOnly

theorem filter_map_withContent (changes : mayChange place = true) (content : String)
    (entries : List (Location × Entry)) :
    (entries.map (withContent place content)).filter (isKept mayChange) = entries.filter (isKept mayChange) := by
  induction entries with
  | nil => rfl
  | cons head tail ih =>
    obtain ⟨p, _ | _⟩ := head
    · by_cases same : p = place
      · simp [withContent, isKept, same, changes, ih]
      · simp [withContent, same, List.filter_cons, ih]
    · simp [withContent, isKept, ih]

theorem changesOnly_of_setFile? {content : String} (set : t.setFile? place content = some t')
    (changes : mayChange place = true) : ChangesOnly mayChange t t' := by
  refine ⟨fun p isDirectory => ?_, ?_⟩
  · rw [find?_setFile? set, if_neg ?_]
    · exact isDirectory
    · -- No file is written over a directory.
      rintro rfl
      cases p with
      | nil => cases set
      | cons name parent =>
        rw [find?_cons] at isDirectory
        simp only [setFile?] at set
        split at set <;> simp_all
  · cases place with
    | nil => cases set
    | cons name parent =>
      simp only [setFile?] at set
      split at set
      · cases set
      · cases set
        exact filter_map_withContent changes content t.entries
      · split at set
        · cases set
          simp [add, isKept, changes]
        · cases set

theorem changesOnly_of_addDirectory? (made : t.addDirectory? place = some t') : ChangesOnly mayChange t t' := by
  refine ⟨fun p isDirectory => ?_, ?_⟩
  · rw [find?_addDirectory? made]
    split
    · rfl
    · exact isDirectory
  · cases place with
    | nil => cases made
    | cons name parent =>
      simp only [addDirectory?] at made
      split at made
      · cases made
      · split at made
        · cases made
          simp [add, isKept]
        · cases made

theorem changesOnly_of_removeFile? (removed : t.removeFile? place = some t') (changes : mayChange place = true) :
    ChangesOnly mayChange t t' := by
  unfold removeFile? at removed
  split at removed
  · next content found =>
    cases removed
    refine ⟨fun p isDirectory => ?_, ?_⟩
    · cases p with
      | nil => exact find?_nil _
      | cons name parent =>
        rw [find?_eq_some_iff_mem] at isDirectory ⊢
        exact List.mem_filter.2 ⟨isDirectory, by simp [isFileAt]⟩
    · rw [dropFile, List.filter_filter]
      refine List.filter_congr fun entry _ => ?_
      by_cases same : entry.1 = place
      · simp [isKept, same, changes]
      · simp [isFileAt, same]
  · cases removed

end FileTree

namespace Workspace

variable {mayChange : Location → Bool} {w w' w'' : Workspace} {p : Path} {place : Location}

/-- From one workspace to the other only files at some places have changed and directories have come. -/
structure ChangesOnly (mayChange : Location → Bool) (w w' : Workspace) : Prop where
  /-- Relative paths start where they did. -/
  here : w'.here = w.here
  /-- What has become of the directories and files. -/
  tree : FileTree.ChangesOnly mayChange w.tree w'.tree

/-! ## The changes there are -/

theorem writeFile?_eq_some_iff {content : String} :
    w.writeFile? p content = some w' ↔
      ∃ place tree, w.locate p = .ok place ∧ w.tree.setFile? place content = some tree ∧ w' = { w with tree } := by
  simp only [writeFile?, locate?, Option.bind_eq_bind, Option.bind_eq_some_iff, Option.some.injEq,
    @eq_comm Workspace _ w']
  cases w.locate p <;> simp [Except.toOption]

theorem removeFile?_eq_some_iff :
    w.removeFile? p = some w' ↔
      ∃ place tree, w.locate p = .ok place ∧ w.tree.removeFile? place = some tree ∧ w' = { w with tree } := by
  simp only [removeFile?, locate?, Option.bind_eq_bind, Option.bind_eq_some_iff, Option.some.injEq,
    @eq_comm Workspace _ w']
  cases w.locate p <;> simp [Except.toOption]

theorem changesOnly_of_writeFile? {content : String} (written : w.writeFile? p content = some w')
    (changes : ∀ place, w.locate p = .ok place → mayChange place = true) : ChangesOnly mayChange w w' := by
  obtain ⟨place, tree, located, set, rfl⟩ := writeFile?_eq_some_iff.1 written
  exact ⟨rfl, FileTree.changesOnly_of_setFile? set (changes place located)⟩

theorem changesOnly_of_removeFile? (removed : w.removeFile? p = some w')
    (changes : ∀ place, w.locate p = .ok place → mayChange place = true) : ChangesOnly mayChange w w' := by
  obtain ⟨place, tree, located, dropped, rfl⟩ := removeFile?_eq_some_iff.1 removed
  exact ⟨rfl, FileTree.changesOnly_of_removeFile? dropped (changes place located)⟩

theorem changesOnly_of_makeDirectory? (made : w.makeDirectory? p = some w') : ChangesOnly mayChange w w' := by
  unfold makeDirectory? at made
  split at made
  · simp only [Option.bind_eq_bind, Option.bind_eq_some_iff, Option.some.injEq] at made
    obtain ⟨place, -, tree, made, rfl⟩ := made
    exact ⟨rfl, FileTree.changesOnly_of_addDirectory? made⟩
  · cases made

namespace ChangesOnly

theorem refl (mayChange : Location → Bool) (w : Workspace) : ChangesOnly mayChange w w :=
  ⟨rfl, .refl mayChange w.tree⟩

theorem trans (first : ChangesOnly mayChange w w') (second : ChangesOnly mayChange w' w'') :
    ChangesOnly mayChange w w'' :=
  ⟨second.here.trans first.here, first.tree.trans second.tree⟩

theorem mono {mayChange' : Location → Bool} (h : ChangesOnly mayChange w w')
    (le : ∀ place, mayChange place = true → mayChange' place = true) : ChangesOnly mayChange' w w' :=
  ⟨h.here, h.tree.mono le⟩

/-! ## What stays -/

variable (h : ChangesOnly mayChange w w')
include h

theorem step_eq_ok {above : Location} {piece : List Char} (ok : w.step above piece = .ok place) :
    w'.step above piece = .ok place := by
  cases found : w.tree.find? above with
  | none => rw [step, found] at ok; cases ok
  | some entry =>
    cases entry with
    | file content => rw [step, found] at ok; cases ok
    | directory =>
      rw [step, found] at ok
      rw [step, h.tree.directories above found]
      exact ok

theorem foldlM_step_eq_ok {start : Location} {pieces : List (List Char)}
    (ok : pieces.foldlM w.step start = .ok place) : pieces.foldlM w'.step start = .ok place := by
  induction pieces generalizing start with
  | nil => exact ok
  | cons piece pieces ih =>
    rw [List.foldlM_cons, bind_eq_ok_iff] at ok ⊢
    obtain ⟨next, stepped, ok⟩ := ok
    exact ⟨next, h.step_eq_ok stepped, ih ok⟩

theorem landing_eq_ok (ok : w.landing p = .ok place) : w'.landing p = .ok place := by
  rw [landing] at ok ⊢
  rw [h.here]
  split at ok
  · next empty => rw [if_pos empty]; exact ok
  · next nonempty => rw [if_neg nonempty]; exact h.foldlM_step_eq_ok ok

/-- A path that leads somewhere still leads there. -/
theorem locate_eq_ok (ok : w.locate p = .ok place) : w'.locate p = .ok place := by
  obtain ⟨admitted, nonempty, ok⟩ := locate_eq_ok_iff.1 ok
  exact locate_eq_ok_iff.2 ⟨admitted, nonempty, h.landing_eq_ok ok⟩

theorem isDirectory_eq_true (isDirectory : w.isDirectory p = true) : w'.isDirectory p = true := by
  rw [Workspace.isDirectory, decide_eq_true_eq, entry?, locate?] at isDirectory ⊢
  cases located : w.locate p with
  | error e => rw [located] at isDirectory; cases isDirectory
  | ok place =>
    rw [located] at isDirectory
    rw [h.locate_eq_ok located]
    exact h.tree.directories place isDirectory

/-- A file is still there and holds what it did, if it is at none of the places. -/
theorem readFile?_eq_some {text : String} (read : w.readFile? p = some text)
    (kept : ∀ place, w.locate p = .ok place → mayChange place = false) : w'.readFile? p = some text := by
  obtain ⟨place, located, found⟩ := readFile?_eq_some_iff.1 read
  exact readFile?_eq_some_iff.2
    ⟨place, h.locate_eq_ok located, (h.tree.find?_eq_file_iff (kept place located)).2 found⟩

end ChangesOnly

end Workspace

end TypedWrappers
