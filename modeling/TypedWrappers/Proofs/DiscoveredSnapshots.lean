import Mathlib.Data.List.Perm.Basic
import TypedWrappers.Project.SnapshotFile
import TypedWrappers.Proofs.DescriptorOrder
import TypedWrappers.Proofs.ProjectInputs

/-!
# The snapshots that inputs stand for

Inputs stand for a set of snapshots: their order and their repetitions do not matter, nor how they overlap. Paths count
as the same when they have the same components, however they are written.

- `Workspace.IsFileBelow`, `Workspace.StandsFor`: a file below a directory, and the snapshots that inputs stand for;
- `pairwise_distinctPaths`: distinct paths are strictly increasing; `map_components_eq`: such lists are known by their
  members;
- `Workspace.ListsExactly.of_discoverSnapshots`: what is discovered is all that the inputs stand for, each path once;
- `Workspace.discoverSnapshots_set`: the same inputs lead to the same snapshots.
-/

namespace TypedWrappers

/-! ## The order of paths -/

instance : Std.TransCmp PathComponent.compare := by
  unfold PathComponent.compare
  infer_instance

instance : Std.LawfulEqCmp PathComponent.compare where
  eq_of_compare {a b} h := by
    simp only [PathComponent.compare, compareLex_eq_eq, compareOn, Std.LawfulEqCmp.compare_eq_iff_eq] at h
    cases a <;> cases b <;> simp_all [PathComponent.rank, PathComponent.name]

/-- Lists in strictly increasing order are known by their members. -/
theorem eq_of_increasing {α : Type} {compare : α → α → Ordering} [Std.TransCmp compare] {l l' : List α}
    (increasing : l.Pairwise fun a b => compare a b = .lt) (increasing' : l'.Pairwise fun a b => compare a b = .lt)
    (same : ∀ a, a ∈ l ↔ a ∈ l') : l = l' := by
  have once {l : List α} (h : l.Pairwise fun a b => compare a b = .lt) : l.Nodup := by
    refine h.imp ?_
    rintro a _ lt rfl
    have self : compare a a = .eq := Std.ReflCmp.compare_self
    rw [self] at lt
    cases lt
  refine List.Perm.eq_of_pairwise ?_ increasing increasing'
    ((List.perm_ext_iff_of_nodup (once increasing) (once increasing')).2 same)
  intro a b _ _ lt gt
  rw [Std.OrientedCmp.gt_of_lt lt] at gt
  cases gt

namespace Path

/-- Paths compare equal when they have the same components. -/
theorem compare_eq_eq_iff {p q : Path} : p.compare q = .eq ↔ p.components = q.components := by
  rw [compare, Std.LawfulEqCmp.compare_eq_iff_eq]

instance : Std.TransCmp Path.compare where
  eq_swap {p q} := by
    rw [compare, compare]
    exact Std.OrientedCmp.eq_swap
  isLE_trans {p q r} := by
    simp only [compare]
    exact Std.TransCmp.isLE_trans

end Path

/-- Strictly increasing paths. -/
def Increasing (paths : List Path) : Prop :=
  paths.Pairwise fun p q => p.compare q = .lt

theorem Increasing.map_components {paths : List Path} (h : Increasing paths) :
    (paths.map Path.components).Pairwise fun a b => List.compareLex PathComponent.compare a b = .lt :=
  List.pairwise_map.2 h

theorem dropSamePaths_sublist (paths : List Path) : (dropSamePaths paths).Sublist paths := by
  induction paths with
  | nil => exact .slnil
  | cons p rest ih => exact ((List.dropWhile_sublist _).trans ih).cons_cons p

/-- Of paths in order, those that are left without repetitions are strictly increasing. -/
theorem increasing_dropSamePaths {paths : List Path} (ordered : paths.Pairwise fun p q => (p.compare q).isLE = true) :
    Increasing (dropSamePaths paths) := by
  induction paths with
  | nil => exact .nil
  | cons p rest ih =>
    obtain ⟨first, ordered⟩ := List.pairwise_cons.1 ordered
    have increasing : Increasing ((dropSamePaths rest).dropWhile (·.components = p.components)) :=
      (ih ordered).sublist (List.dropWhile_sublist _)
    refine List.pairwise_cons.2 ⟨?_, increasing⟩
    cases left : (dropSamePaths rest).dropWhile (·.components = p.components) with
    | nil => exact nofun
    | cons q others =>
      rw [left] at increasing
      have among : q ∈ rest := by
        have kept : q ∈ (dropSamePaths rest).dropWhile (·.components = p.components) := by
          rw [left]
          exact List.mem_cons_self
        exact (dropSamePaths_sublist rest).subset ((List.dropWhile_sublist _).subset kept)
      -- the first path that is left is another one, and the others stand behind it
      have other : ¬q.components = p.components := by
        have stops := List.head?_dropWhile_not (fun r : Path => decide (r.components = p.components))
          (dropSamePaths rest)
        rw [left] at stops
        simpa using stops
      have below : p.compare q = .lt := by
        cases order : p.compare q with
        | lt => rfl
        | eq => exact absurd (Path.compare_eq_eq_iff.1 order).symm other
        | gt =>
          have isLE := first q among
          rw [order] at isLE
          cases isLE
      intro r mem
      rcases List.mem_cons.1 mem with rfl | mem
      · exact below
      · exact Std.TransCmp.lt_trans below ((List.pairwise_cons.1 increasing).1 r mem)

theorem increasing_distinctPaths (paths : List Path) : Increasing (distinctPaths paths) :=
  increasing_dropSamePaths
    (List.pairwise_mergeSort (fun _ _ _ => Std.TransCmp.isLE_trans) (isLE_or_isLE Path.compare) paths)

theorem mem_of_mem_distinctPaths {paths : List Path} {p : Path} (h : p ∈ distinctPaths paths) : p ∈ paths :=
  List.mem_mergeSort.1 ((dropSamePaths_sublist _).subset h)

namespace Workspace

variable {w : Workspace} {dir input p : Path} {inputs inputs' found found' : List Path}

/-! ## Files below a directory -/

/-- A path leads on from a directory to a file, by the names on the way. -/
def IsFileBelow (w : Workspace) (dir p : Path) : Prop :=
  ∃ place names content, w.locate dir = .ok place ∧ w.tree.find? (names ++ place) = some (.file content) ∧
    p = below dir names

/-- A directory and all directories below it can be looked into. -/
def IsReadable (w : Workspace) (dir : Path) : Prop :=
  ∀ place names, w.locate dir = .ok place → w.tree.find? (names ++ place) = some .directory →
    admits (below dir names) = true

/-- The directories below a directory are those that are listed. -/
theorem isReadable_of_entries {place : Location} (located : w.locate dir = .ok place)
    (all : ∀ entry ∈ w.tree.entries, entry.2 = .directory →
      ∀ names ∈ FileTree.namesBelow? place entry.1, admits (below dir names) = true) : w.IsReadable dir := by
  intro place' names located' isDirectory
  cases located.symm.trans located'
  cases top : names ++ place with
  | nil =>
    obtain ⟨rfl, -⟩ := List.append_eq_nil_iff.1 top
    exact (locate_eq_ok_iff.1 located).1
  | cons name above =>
    rw [top] at isDirectory
    exact all _ (FileTree.find?_eq_some_iff_mem.1 isDirectory) rfl names
      (FileTree.namesBelow?_eq_some_iff.2 top.symm)

/-- All files below a directory are listed, if it can be looked into down to the last directory. -/
theorem mem_filesBelow_iff (isDirectory : w.isDirectory dir = true) (readable : w.IsReadable dir) :
    p ∈ w.filesBelow dir ↔ w.IsFileBelow dir p := by
  obtain ⟨place, located, found⟩ := isDirectory_eq_true_iff.1 isDirectory
  simp only [filesBelow, locate?, located, Except.toOption, Option.map_some, Option.getD_some, List.mem_map,
    List.mem_filter, FileTree.mem_filesBelow]
  constructor
  · rintro ⟨names, ⟨⟨content, isFile⟩, -⟩, rfl⟩
    exact ⟨place, names, content, located, isFile, rfl⟩
  · rintro ⟨place', names, content, located', isFile, rfl⟩
    cases located.symm.trans located'
    cases names with
    | nil =>
      rw [List.nil_append, found] at isFile
      cases isFile
    | cons name names =>
      have inside : admits (below dir names) = true := readable place names located (FileTree.find?_of_cons isFile)
      exact ⟨name :: names, ⟨⟨content, isFile⟩, inside⟩, rfl⟩

/-! ## Inputs -/

/-- Inputs stand for those of them that are files, and for the files below those that are directories that have the
extension of a snapshot. -/
def StandsFor (w : Workspace) (inputs : List Path) (p : Path) : Prop :=
  (p ∈ inputs ∧ w.isFile p = true) ∨
    ∃ dir ∈ inputs, w.isDirectory dir = true ∧ w.IsFileBelow dir p ∧ p.hasSnapshotExtension = true

theorem standsFor_congr (same : ∀ q, q ∈ inputs ↔ q ∈ inputs') : w.StandsFor inputs p ↔ w.StandsFor inputs' p := by
  simp only [StandsFor, same]

theorem exists_snapshotsAt_iff :
    (∃ found, w.snapshotsAt input = .ok found) ↔ w.isFile input = true ∨ w.isDirectory input = true := by
  rw [snapshotsAt]
  cases w.isFile input <;> cases w.isDirectory input <;> simp

theorem snapshotsAt_of_isDirectory (isDirectory : w.isDirectory dir = true) :
    w.snapshotsAt dir = .ok ((w.filesBelow dir).filter Path.hasSnapshotExtension) := by
  rw [snapshotsAt, if_neg (not_isFile isDirectory), if_pos isDirectory]

theorem mem_of_snapshotsAt (readable : w.IsReadable input) (ok : w.snapshotsAt input = .ok found) :
    p ∈ found ↔ (p = input ∧ w.isFile input = true) ∨
      (w.isDirectory input = true ∧ w.IsFileBelow input p ∧ p.hasSnapshotExtension = true) := by
  by_cases isDirectory : w.isDirectory input = true
  · rw [snapshotsAt_of_isDirectory isDirectory] at ok
    cases ok
    simp [mem_filesBelow_iff isDirectory readable, isDirectory, not_isFile isDirectory]
  · rw [snapshotsAt, if_neg isDirectory] at ok
    split at ok
    · next isFile =>
      cases ok
      simp [isFile, isDirectory]
    · cases ok

theorem mem_flatten_iff {lists : List (List Path)} (readable : ∀ dir ∈ inputs, w.IsReadable dir)
    (ok : inputs.mapM w.snapshotsAt = .ok lists) : p ∈ lists.flatten ↔ w.StandsFor inputs p := by
  rw [List.mem_flatten]
  constructor
  · rintro ⟨found, mem, isFound⟩
    obtain ⟨input, isInput, ok⟩ := exists_mem_of_mem_results ok mem
    rcases (mem_of_snapshotsAt (readable input isInput) ok).1 isFound with ⟨rfl, isFile⟩ | ⟨isDirectory, isBelow⟩
    · exact .inl ⟨isInput, isFile⟩
    · exact .inr ⟨input, isInput, isDirectory, isBelow⟩
  · rintro (⟨isInput, isFile⟩ | ⟨dir, isInput, isDirectory, isBelow⟩)
    · obtain ⟨found, mem, ok⟩ := exists_mem_of_mapM_eq_ok ok isInput
      exact ⟨found, mem, (mem_of_snapshotsAt (readable p isInput) ok).2 (.inl ⟨rfl, isFile⟩)⟩
    · obtain ⟨found, mem, ok⟩ := exists_mem_of_mapM_eq_ok ok isInput
      exact ⟨found, mem, (mem_of_snapshotsAt (readable dir isInput) ok).2 (.inr ⟨isDirectory, isBelow⟩)⟩

theorem discoverSnapshots_eq_ok_iff :
    w.discoverSnapshots inputs = .ok found ↔
      ∃ lists, inputs.mapM w.snapshotsAt = .ok lists ∧ found = distinctPaths lists.flatten := by
  rw [discoverSnapshots]
  cases inputs.mapM w.snapshotsAt with
  | error failure => simp [Except.map]
  | ok lists => simp [Except.map, eq_comm]

/-- Snapshots are discovered when each input is a file or a directory. -/
theorem exists_discoverSnapshots_iff :
    (∃ found, w.discoverSnapshots inputs = .ok found) ↔
      ∀ input ∈ inputs, w.isFile input = true ∨ w.isDirectory input = true := by
  simp only [discoverSnapshots_eq_ok_iff, ← exists_snapshotsAt_iff, ← mapM_ok_iff]
  exact ⟨fun ⟨_, lists, ok, _⟩ => ⟨lists, ok⟩, fun ⟨lists, ok⟩ => ⟨_, lists, ok, rfl⟩⟩

/-- A list has all paths that inputs stand for, each once and in increasing order. -/
structure ListsExactly (w : Workspace) (inputs found : List Path) : Prop where
  increasing : Increasing found
  sound : ∀ p ∈ found, w.StandsFor inputs p
  complete : ∀ p, w.StandsFor inputs p → ∃ q ∈ found, q.components = p.components

namespace ListsExactly

theorem of_discoverSnapshots (readable : ∀ dir ∈ inputs, w.IsReadable dir)
    (ok : w.discoverSnapshots inputs = .ok found) : w.ListsExactly inputs found := by
  obtain ⟨lists, each, rfl⟩ := discoverSnapshots_eq_ok_iff.1 ok
  refine ⟨increasing_distinctPaths _, fun p mem => ?_, fun p stands => ?_⟩
  · exact (mem_flatten_iff readable each).1 (mem_of_mem_distinctPaths mem)
  · exact exists_mem_distinctPaths ((mem_flatten_iff readable each).2 stands)

theorem mem_map_components_iff (h : w.ListsExactly inputs found) {components : List PathComponent} :
    components ∈ found.map Path.components ↔ ∃ p, w.StandsFor inputs p ∧ p.components = components := by
  rw [List.mem_map]
  constructor
  · rintro ⟨p, mem, rfl⟩
    exact ⟨p, h.sound p mem, rfl⟩
  · rintro ⟨p, stands, rfl⟩
    exact h.complete p stands

/-- The paths that inputs stand for can be listed in one way. -/
theorem map_components_eq (h : w.ListsExactly inputs found) (h' : w.ListsExactly inputs' found')
    (same : ∀ q, q ∈ inputs ↔ q ∈ inputs') : found.map Path.components = found'.map Path.components := by
  refine eq_of_increasing h.increasing.map_components h'.increasing.map_components fun components => ?_
  rw [h.mem_map_components_iff, h'.mem_map_components_iff]
  simp only [standsFor_congr same]

end ListsExactly

/-- **Discovery is a set operation**: for inputs in another order and with other repetitions it fails as well, when an
input is neither a file nor a directory, or it gives the same paths. These are strictly increasing and are those of the
inputs that are files and of the files below the others with the extension of a snapshot. Every file that is found below
a directory has a format.

The paths that are found are the same as paths, component by component, while the inputs are the same as they are
written. -/
theorem discoverSnapshots_set (same : ∀ q, q ∈ inputs ↔ q ∈ inputs') (readable : ∀ dir ∈ inputs, w.IsReadable dir) :
    (((∃ input ∈ inputs, ¬(w.isFile input = true ∨ w.isDirectory input = true)) ∧
        (∃ failure, w.discoverSnapshots inputs = .error failure) ∧
        ∃ failure, w.discoverSnapshots inputs' = .error failure) ∨
      ∃ found found', w.discoverSnapshots inputs = .ok found ∧ w.discoverSnapshots inputs' = .ok found' ∧
        found.map Path.components = found'.map Path.components ∧ w.ListsExactly inputs found) ∧
      ∀ dir, w.isDirectory dir = true → ∃ found, w.snapshotsAt dir = .ok found ∧
        ∀ p ∈ found, (SnapshotFormat.ofPath? p).isSome = true := by
  refine ⟨?_, fun dir isDirectory => ⟨_, snapshotsAt_of_isDirectory isDirectory, fun p mem => ?_⟩⟩
  · have readable' : ∀ dir ∈ inputs', w.IsReadable dir := fun dir mem => readable dir ((same dir).2 mem)
    by_cases all : ∀ input ∈ inputs, w.isFile input = true ∨ w.isDirectory input = true
    · obtain ⟨found, ok⟩ := exists_discoverSnapshots_iff.2 all
      obtain ⟨found', ok'⟩ := exists_discoverSnapshots_iff.2 fun input mem => all input ((same input).2 mem)
      have exactly := ListsExactly.of_discoverSnapshots readable ok
      have exactly' := ListsExactly.of_discoverSnapshots readable' ok'
      exact .inr ⟨found, found', ok, ok', exactly.map_components_eq exactly' same, exactly⟩
    · have all' : ¬∀ input ∈ inputs', w.isFile input = true ∨ w.isDirectory input = true :=
        fun all' => all fun input mem => all' input ((same input).1 mem)
      refine .inl ⟨by simpa only [not_forall, exists_prop] using all, ?_, ?_⟩
      · exact exists_error_of_not_exists_ok (mt exists_discoverSnapshots_iff.1 all)
      · exact exists_error_of_not_exists_ok (mt exists_discoverSnapshots_iff.1 all')
  · rw [SnapshotFormat.isSome_ofPath?]
    exact (List.mem_filter.1 mem).2

end Workspace

/-! ## An example -/

namespace Sample

/-- Snapshots at several depths, and a note beside them. -/
def nestedSnapshots : Workspace where
  tree :=
    { entries :=
        [(["b.yaml", "s"], .file ""), (["a.json", "nested", "s"], .file ""), (["notes.txt", "s"], .file ""),
          (["nested", "s"], .directory), (["s"], .directory)]
      distinct := by decide
      inDirectory := by simp
      named := by decide +kernel }
  here := []

/-- A file and the directories around it, in two orders and with one of them twice, stand for the same snapshots. -/
theorem nestedSnapshots_set :
    (∀ q, q ∈ [Path.mk "s/b.yaml", ⟨"s"⟩, ⟨"s/nested"⟩] ↔ q ∈ [Path.mk "s/nested", ⟨"s"⟩, ⟨"s/b.yaml"⟩, ⟨"s"⟩]) ∧
      (∀ dir ∈ [Path.mk "s/b.yaml", ⟨"s"⟩, ⟨"s/nested"⟩], nestedSnapshots.IsReadable dir) ∧
      ∃ found, nestedSnapshots.discoverSnapshots [⟨"s/nested"⟩, ⟨"s"⟩, ⟨"s/b.yaml"⟩, ⟨"s"⟩] = .ok found ∧
        found.map Path.components =
          [[.named "s", .named "b.yaml"], [.named "s", .named "nested", .named "a.json"]] := by
  have same : ∀ q, q ∈ [Path.mk "s/b.yaml", ⟨"s"⟩, ⟨"s/nested"⟩] ↔
      q ∈ [Path.mk "s/nested", ⟨"s"⟩, ⟨"s/b.yaml"⟩, ⟨"s"⟩] := by
    intro q
    simp only [List.mem_cons, List.not_mem_nil, or_false]
    tauto
  have readable : ∀ dir ∈ [Path.mk "s/b.yaml", ⟨"s"⟩, ⟨"s/nested"⟩], nestedSnapshots.IsReadable dir := by
    simp only [List.forall_mem_cons, List.not_mem_nil, false_imp_iff, implies_true, and_true]
    have first : nestedSnapshots.locate ⟨"s/b.yaml"⟩ = .ok ["b.yaml", "s"] := by decide +kernel
    have second : nestedSnapshots.locate ⟨"s"⟩ = .ok ["s"] := by decide +kernel
    have third : nestedSnapshots.locate ⟨"s/nested"⟩ = .ok ["nested", "s"] := by decide +kernel
    refine ⟨Workspace.isReadable_of_entries first ?_, Workspace.isReadable_of_entries second ?_,
      Workspace.isReadable_of_entries third ?_⟩ <;> decide +kernel
  refine ⟨same, readable, ?_⟩
  have ok : nestedSnapshots.discoverSnapshots [⟨"s/b.yaml"⟩, ⟨"s"⟩, ⟨"s/nested"⟩] =
      .ok [⟨"s/b.yaml"⟩, ⟨"s/nested/a.json"⟩] := by
    refine Workspace.discoverSnapshots_eq_ok_iff.2
      ⟨[[⟨"s/b.yaml"⟩], [⟨"s/b.yaml"⟩, ⟨"s/nested/a.json"⟩], [⟨"s/nested/a.json"⟩]], by decide +kernel, ?_⟩
    rw [distinctPaths, List.mergeSort_of_pairwise (by decide +kernel)]
    decide +kernel
  rcases (Workspace.discoverSnapshots_set same readable).1 with
    ⟨-, ⟨failure, failed⟩, -⟩ | ⟨found, found', ok₁, ok₂, e, -⟩
  · rw [ok] at failed
    cases failed
  · rw [ok] at ok₁
    cases ok₁
    exact ⟨found', ok₂, by rw [← e]; decide +kernel⟩

end Sample

end TypedWrappers
