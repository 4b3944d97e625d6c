import TypedWrappers.FileTree.Lemmas
import TypedWrappers.Proofs.Results
import TypedWrappers.Workspace

/-!
# Where paths lead

A name that is joined to a path leads to the entry of that name in the directory that the path stands for, and every
path to a file ends in the name of the file.

- `Workspace.landing`: the place that a path stands for in front of a name, where the empty path is the directory in
  which relative paths start;
- `Workspace.locate_join_eq_ok_iff`: where a joined name leads;
- `Workspace.exists_name_of_readFile?`: the name of a file that a path leads to.
-/

namespace TypedWrappers

open Text

theorem isEntryName_iff {name : String} :
    isEntryName name = true ↔
      name.toList ≠ [] ∧ name.toList ≠ ['.'] ∧ name.toList ≠ ['.', '.'] ∧ '/' ∉ name.toList := by
  have chars (cs : List Char) : name = String.ofList cs ↔ name.toList = cs := by
    rw [← String.toList_inj, String.toList_ofList]
  have empty := chars []
  have dot := chars ['.']
  have dots := chars ['.', '.']
  simp only [isEntryName, Bool.and_eq_true, Bool.not_eq_true', List.contains_eq_mem, decide_eq_false_iff_not,
    decide_eq_true_eq, List.mem_cons, List.not_mem_nil, or_false, not_or, ne_eq, ← empty, ← dot, ← dots, and_assoc]

theorem FileTree.isEntryName_of_find? {t : FileTree} {name : String} {parent : Location} {entry : Entry}
    (found : t.find? (name :: parent) = some entry) : isEntryName name = true :=
  t.named _ (find?_eq_some_iff_mem.1 found) name List.mem_cons_self

/-- What an entry lies in is a directory. -/
theorem FileTree.find?_of_cons {t : FileTree} {name : String} {parent : Location} {entry : Entry}
    (found : t.find? (name :: parent) = some entry) : t.find? parent = some .directory := by
  obtain ⟨_, _, e, above⟩ := t.inDirectory _ (find?_eq_some_iff_mem.1 found)
  cases e
  rcases above with rfl | above
  · exact find?_nil t
  · cases parent with
    | nil => exact find?_nil t
    | cons => exact find?_eq_some_iff_mem.2 above

/-- What a directory lies in is a directory. -/
theorem FileTree.find?_tail {t : FileTree} {place : Location} (h : t.find? place = some .directory) :
    t.find? place.tail = some .directory := by
  cases place with
  | nil => exact h
  | cons name parent => exact find?_of_cons h

namespace Path

variable {p : Path} {name : String}

theorem isAbsolute_of_not_mem (noSlash : '/' ∉ p.text.toList) : p.isAbsolute = false := by
  rw [isAbsolute, decide_eq_false_iff_not]
  exact fun head => noSlash (List.mem_of_head? head)

/-- What stands in front of a name that is joined to a path. -/
def lead (p : Path) : List Char :=
  if p.text = "" then [] else if p.text.toList.getLast? = some '/' then p.text.toList else p.text.toList ++ ['/']

theorem toList_join_of_relative {path : String} (relative : (Path.mk path).isAbsolute = false) :
    (p.join path).text.toList = p.lead ++ path.toList := by
  simp only [join, relative, Bool.false_or, decide_eq_true_eq, lead]
  split
  · rfl
  · split
    · exact String.toList_append
    · simp

theorem toList_join (isName : isEntryName name = true) : (p.join name).text.toList = p.lead ++ name.toList :=
  toList_join_of_relative (isAbsolute_of_not_mem (isEntryName_iff.1 isName).2.2.2)

theorem lead_of_ne_empty (nonempty : p.text ≠ "") :
    (∃ front, p.text.toList = front ++ ['/'] ∧ p.lead = front ++ ['/']) ∨ p.lead = p.text.toList ++ ['/'] := by
  rw [lead, if_neg nonempty]
  split
  · next slash =>
    obtain ⟨front, e⟩ := List.getLast?_eq_some_iff.1 slash
    exact .inl ⟨front, e, e⟩
  · exact .inr rfl

theorem toList_prefix_join (isName : isEntryName name = true) : p.text.toList <+: (p.join name).text.toList := by
  rw [toList_join isName]
  by_cases empty : p.text = ""
  · simp [empty]
  · rcases lead_of_ne_empty empty with ⟨front, text, lead⟩ | lead
    · rw [lead, ← text]
      exact List.prefix_append _ _
    · rw [lead, List.append_assoc]
      exact List.prefix_append _ _

theorem join_ne_empty (isName : isEntryName name = true) : (p.join name).text ≠ "" := by
  intro empty
  have chars := toList_join (p := p) isName
  rw [empty] at chars
  exact (isEntryName_iff.1 isName).1 (List.append_eq_nil_iff.1 chars.symm).2

theorem join_injective {other : String} (isName : isEntryName name = true) (isOther : isEntryName other = true)
    (same : p.join name = p.join other) : name = other := by
  have chars := congrArg (fun q : Path => q.text.toList) same
  simp only [toList_join isName, toList_join isOther] at chars
  exact String.toList_inj.1 (List.append_cancel_left chars)

/-- A joined name is the last piece. -/
theorem pieces_join (isName : isEntryName name = true) :
    ∃ front, (p.join name).pieces = front ++ [name.toList] ∧
      (p.text = "" ∧ front = [] ∨ p.text ≠ "" ∧ (p.pieces = front ∨ p.pieces = front ++ [[]])) := by
  obtain ⟨-, -, -, noSlash⟩ := isEntryName_iff.1 isName
  rw [pieces, toList_join isName, pieces]
  by_cases empty : p.text = ""
  · refine ⟨[], ?_, .inl ⟨empty, rfl⟩⟩
    rw [lead, if_pos empty]
    exact segments_of_not_mem noSlash
  · rcases lead_of_ne_empty empty with ⟨front, text, lead⟩ | lead
    · refine ⟨segments '/' front, ?_, .inr ⟨empty, .inr ?_⟩⟩
      · rw [lead, List.append_assoc, List.singleton_append, segments_append_sep, segments_of_not_mem noSlash]
      · rw [text, segments_append_sep]
        rfl
    · refine ⟨segments '/' p.text.toList, ?_, .inr ⟨empty, .inl rfl⟩⟩
      rw [lead, List.append_assoc, List.singleton_append, segments_append_sep, segments_of_not_mem noSlash]

theorem isAbsolute_join (isName : isEntryName name = true) (nonempty : p.text ≠ "") :
    (p.join name).isAbsolute = p.isAbsolute := by
  have chars : p.text.toList ≠ [] := fun e => nonempty (String.toList_inj.1 e)
  obtain ⟨rest, e⟩ := toList_prefix_join (p := p) isName
  rw [isAbsolute, isAbsolute, ← e, List.head?_append_of_ne_nil _ chars]

theorem isAbsolute_join_of_eq_empty (isName : isEntryName name = true) (empty : p.text = "") :
    (p.join name).isAbsolute = false := by
  refine isAbsolute_of_not_mem ?_
  rw [toList_join isName, lead, if_pos empty]
  exact (isEntryName_iff.1 isName).2.2.2

theorem componentOf_eq_named (nonempty : name.toList ≠ []) (noDot : name.toList ≠ ['.'])
    (noDots : name.toList ≠ ['.', '.']) (first : Bool) : componentOf first name.toList = some (.named name) := by
  rw [componentOf, if_neg nonempty, if_neg noDot, if_neg noDots, String.ofList_toList]

/-- The name of an entry is one component of a path. -/
theorem components_of_isEntryName (isName : isEntryName name = true) : (Path.mk name).components = [.named name] := by
  obtain ⟨nonempty, noDot, noDots, noSlash⟩ := isEntryName_iff.1 isName
  have pieces : (Path.mk name).pieces = [name.toList] := segments_of_not_mem noSlash
  have relative : (Path.mk name).isAbsolute = false := isAbsolute_of_not_mem noSlash
  simp [components, relative, markedPieces, pieces, componentOf_eq_named nonempty noDot noDots]

/-- A path whose last piece is a name ends in that name. -/
theorem fileName?_of_pieces {front : List (List Char)} (pieces : p.pieces = front ++ [name.toList])
    (nonempty : name.toList ≠ []) (noDot : name.toList ≠ ['.']) (noDots : name.toList ≠ ['.', '.']) :
    p.fileName? = some name := by
  have component := componentOf_eq_named nonempty noDot noDots
  have marked : ∃ before first, p.markedPieces = before ++ [(name.toList, componentOf first name.toList)] := by
    rw [markedPieces, pieces]
    cases front with
    | nil => exact ⟨[], true, rfl⟩
    | cons head front =>
      exact ⟨(head, componentOf true head) :: front.map fun piece => (piece, componentOf false piece), false, by simp⟩
  obtain ⟨before, first, marked⟩ := marked
  rw [fileName?, components, marked, component]
  simp

theorem fileName?_join (isName : isEntryName name = true) : (p.join name).fileName? = some name := by
  obtain ⟨front, pieces, -⟩ := pieces_join (p := p) isName
  obtain ⟨nonempty, noDot, noDots, -⟩ := isEntryName_iff.1 isName
  exact fileName?_of_pieces pieces nonempty noDot noDots

end Path

namespace Workspace

variable {w : Workspace} {dir p : Path} {name : String} {place : Location}

/-- The place that a path stands for in front of a name. -/
def landing (w : Workspace) (p : Path) : Except PathError Location :=
  if p.text = "" then .ok w.here else p.pieces.foldlM w.step (if p.isAbsolute then [] else w.here)

theorem locate_eq_ok_iff : w.locate p = .ok place ↔ admits p = true ∧ p.text ≠ "" ∧ w.landing p = .ok place := by
  rw [locate, landing]
  cases admits p
  · simp
  · by_cases empty : p.text = "" <;> simp [empty]

theorem step_eq_ok_iff (isName : isEntryName name = true) {above : Location} :
    w.step above name.toList = .ok place ↔
      w.tree.find? above = some .directory ∧ name.utf8ByteSize ≤ maxNameBytes ∧ place = name :: above := by
  obtain ⟨nonempty, noDot, noDots, -⟩ := isEntryName_iff.1 isName
  have noStay : ¬(name.toList = [] ∨ name.toList = ['.']) := by simp [nonempty, noDot]
  rw [step, String.ofList_toList, if_neg noStay, if_neg noDots]
  cases w.tree.find? above with
  | none => simp
  | some entry =>
    cases entry with
    | file content => simp
    | directory =>
      by_cases short : name.utf8ByteSize ≤ maxNameBytes
      · simp [short, eq_comm]
      · simp [short]

theorem step_nil_eq_ok_iff {above : Location} :
    w.step above [] = .ok place ↔ w.tree.find? above = some .directory ∧ place = above := by
  rw [step]
  cases w.tree.find? above with
  | none => simp
  | some entry => cases entry <;> simp [eq_comm]

/-- A joined name stands for the entry of that name in the directory in front of it. -/
theorem landing_join_eq_ok_iff (isName : isEntryName name = true) :
    w.landing (dir.join name) = .ok place ↔
      ∃ above, w.landing dir = .ok above ∧ w.tree.find? above = some .directory ∧
        name.utf8ByteSize ≤ maxNameBytes ∧ place = name :: above := by
  obtain ⟨front, pieces, before⟩ := Path.pieces_join (p := dir) isName
  rw [landing, if_neg (Path.join_ne_empty isName), pieces, foldlM_concat_eq_ok_iff, landing]
  simp only [step_eq_ok_iff isName]
  rcases before with ⟨empty, rfl⟩ | ⟨nonempty, before⟩
  · rw [Path.isAbsolute_join_of_eq_empty isName empty, if_pos empty, List.foldlM_nil]
    rfl
  · rw [Path.isAbsolute_join isName nonempty, if_neg nonempty]
    rcases before with before | before
    · rw [before]
    · -- A slash at the end of the path asks for a directory once more.
      simp only [before, foldlM_concat_eq_ok_iff, step_nil_eq_ok_iff]
      constructor
      · rintro ⟨above, walked, isDirectory, rest⟩
        exact ⟨above, ⟨above, walked, isDirectory, rfl⟩, isDirectory, rest⟩
      · rintro ⟨above, ⟨_, walked, isDirectory, rfl⟩, rest⟩
        exact ⟨above, walked, rest⟩

theorem locate_join_eq_ok_iff (isName : isEntryName name = true) :
    w.locate (dir.join name) = .ok place ↔
      admits (dir.join name) = true ∧
        ∃ above, w.landing dir = .ok above ∧ w.tree.find? above = some .directory ∧
          name.utf8ByteSize ≤ maxNameBytes ∧ place = name :: above := by
  rw [locate_eq_ok_iff, landing_join_eq_ok_iff isName]
  simp only [ne_eq, Path.join_ne_empty isName, not_false_eq_true, true_and]

theorem readFile?_eq_some_iff {text : String} :
    w.readFile? p = some text ↔ ∃ place, w.locate p = .ok place ∧ w.tree.find? place = some (.file text) := by
  rw [readFile?, locate?]
  cases w.locate p <;> simp [Except.toOption, FileTree.content?_eq_some_iff]

/-- A step that does not lead by a name leads to a directory. -/
theorem name_of_step {above : Location} {piece : List Char} (ok : w.step above piece = .ok place)
    (notDirectory : w.tree.find? place ≠ some .directory) :
    piece ≠ [] ∧ piece ≠ ['.'] ∧ piece ≠ ['.', '.'] ∧ place = String.ofList piece :: above := by
  rw [step] at ok
  split at ok
  · cases ok
  · cases ok
  · next isDirectory =>
    split at ok
    · cases ok
      exact absurd isDirectory notDirectory
    · next noStay =>
      split at ok
      · cases ok
        exact absurd (FileTree.find?_tail isDirectory) notDirectory
      · next noUp =>
        split at ok
        · cases ok
          exact ⟨fun e => noStay (.inl e), fun e => noStay (.inr e), noUp, rfl⟩
        · cases ok

/-- Every path to a file ends in the name of the file. -/
theorem exists_name_of_readFile? {text : String} (read : w.readFile? p = some text) :
    ∃ name above, w.locate p = .ok (name :: above) ∧ w.tree.find? (name :: above) = some (.file text) ∧
      p.fileName? = some name ∧ name.toList <:+ p.text.toList := by
  obtain ⟨place, located, found⟩ := readFile?_eq_some_iff.1 read
  obtain ⟨-, nonempty, walked⟩ := locate_eq_ok_iff.1 located
  obtain ⟨front, last, pieces, suffix⟩ := exists_segments_eq_append '/' p.text.toList
  rw [landing, if_neg nonempty, Path.pieces, pieces, foldlM_concat_eq_ok_iff] at walked
  obtain ⟨above, -, stepped⟩ := walked
  obtain ⟨noEmpty, noDot, noDots, rfl⟩ := name_of_step stepped (by simp [found])
  refine ⟨String.ofList last, above, located, found, ?_, by rwa [String.toList_ofList]⟩
  rw [← String.toList_ofList (l := last)] at noEmpty noDot noDots
  exact Path.fileName?_of_pieces (by rw [Path.pieces, pieces, String.toList_ofList]) noEmpty noDot noDots

end Workspace

end TypedWrappers
