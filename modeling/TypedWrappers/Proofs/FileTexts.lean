import Mathlib.Data.List.Basic
import TypedWrappers.Pass.Basic

/-!
# Files by their text

The text of a file tells the file: no two files under one banner are written out alike, as long as their strings are
lines and each member has some.

A line may look like any other, so that no line says by itself which part it belongs to. But an import line never starts
like the line of the namespace, and below the line that opens the class every line is empty, a brace that closes, or
further in, so that this line is the last one of its look.

- `eq_of_cut_at`: a list falls apart at its first element of a kind in one way only;
- `FileModel.join_lines_injective`: the text tells the lines;
- `FileModel.memberLines_injective`, `FileModel.lines_injective`: the lines tell the members, and the file;
- `FileModel.emitter_injective`: the text tells the file.
-/

namespace TypedWrappers

open Text

/-- A list falls apart in one way at its first element of a kind. -/
theorem eq_of_cut_at {α : Type} (kind : α → Bool) {front front' rest rest' : List α} {x x' : α}
    (before : ∀ y ∈ front, kind y = false) (before' : ∀ y ∈ front', kind y = false) (isCut : kind x = true)
    (isCut' : kind x' = true) (same : front ++ x :: rest = front' ++ x' :: rest') :
    front = front' ∧ x = x' ∧ rest = rest' := by
  induction front generalizing front' with
  | nil =>
    cases front' with
    | nil => simpa using same
    | cons y front' =>
      obtain ⟨rfl, -⟩ := List.cons.inj same
      rw [before' x List.mem_cons_self] at isCut
      cases isCut
  | cons y front ih =>
    cases front' with
    | nil =>
      obtain ⟨rfl, -⟩ := List.cons.inj same
      rw [before y List.mem_cons_self] at isCut'
      cases isCut'
    | cons y' front' =>
      obtain ⟨rfl, tail⟩ := List.cons.inj same
      rw [List.forall_mem_cons] at before before'
      obtain ⟨rfl, cut⟩ := ih before.2 before'.2 tail
      exact ⟨rfl, cut⟩

/-- A list falls apart in one way at its last element of a kind. -/
theorem eq_of_cut_at_last {α : Type} (kind : α → Bool) {front front' rest rest' : List α} {x x' : α}
    (behind : ∀ y ∈ rest, kind y = false) (behind' : ∀ y ∈ rest', kind y = false) (isCut : kind x = true)
    (isCut' : kind x' = true) (same : front ++ x :: rest = front' ++ x' :: rest') :
    front = front' ∧ x = x' ∧ rest = rest' := by
  have reversed : rest.reverse ++ x :: front.reverse = rest'.reverse ++ x' :: front'.reverse := by
    simpa using congrArg List.reverse same
  have cut := eq_of_cut_at kind (fun y h => behind y (List.mem_reverse.1 h))
    (fun y h => behind' y (List.mem_reverse.1 h)) isCut isCut' reversed
  exact ⟨List.reverse_inj.1 cut.2.2, cut.2.1, List.reverse_inj.1 cut.1⟩

namespace FileModel

/-- A text without a line break. -/
def IsLine (text : String) : Prop :=
  '\n' ∉ text.toList

instance (text : String) : Decidable (IsLine text) :=
  inferInstanceAs (Decidable ('\n' ∉ text.toList))

/-- The strings of a file are lines, its banner apart, and each member has a line. -/
structure IsLined (file : FileModel) : Prop where
  imports : ∀ name ∈ file.imports.toList, IsLine name
  ns : IsLine file.ns
  classAttributes : ∀ text ∈ file.classAttributes, IsLine text
  declaration : IsLine file.declaration
  members : ∀ member ∈ file.members, member ≠ [] ∧ ∀ text ∈ member, IsLine text

theorem IsLine.append {a b : String} (ha : IsLine a) (hb : IsLine b) : IsLine (a ++ b) := by
  rw [IsLine, String.toList_append, List.mem_append]
  exact not_or.2 ⟨ha, hb⟩

/-! ## Lines and text -/

/-- The lines of a text that is made of lines. -/
theorem segments_join_lines {texts : List String} (lined : ∀ text ∈ texts, IsLine text) :
    segments '\n' (String.join (texts.map line)).toList = texts.map String.toList ++ [[]] := by
  induction texts with
  | nil => rfl
  | cons text texts ih =>
    rw [List.forall_mem_cons] at lined
    have first : (String.join ((text :: texts).map line)).toList =
        text.toList ++ '\n' :: (String.join (texts.map line)).toList := by
      simp [line, String.toList_join]
    rw [first, segments_append_sep, segments_of_not_mem lined.1, ih lined.2]
    rfl

theorem join_lines_injective {texts texts' : List String} (lined : ∀ text ∈ texts, IsLine text)
    (lined' : ∀ text ∈ texts', IsLine text) (same : String.join (texts.map line) = String.join (texts'.map line)) :
    texts = texts' := by
  have pieces : texts.map String.toList ++ [[]] = texts'.map String.toList ++ [[]] := by
    rw [← segments_join_lines lined, ← segments_join_lines lined', same]
  exact List.map_injective_iff.2 (fun _ _ => String.toList_inj.1) (List.append_cancel_right pieces)

/-- Lines further in are told apart by what stands behind the blanks. -/
theorem map_append_injective (indent : String) : Function.Injective (List.map (indent ++ ·)) :=
  List.map_injective_iff.2 fun _ _ => (String.append_right_inj _).1

theorem isLine_of_mem_map {indent text : String} {texts : List String} (indented : IsLine indent)
    (lined : ∀ text ∈ texts, IsLine text) (h : text ∈ texts.map (indent ++ ·)) : IsLine text := by
  obtain ⟨inner, mem, rfl⟩ := List.mem_map.1 h
  exact indented.append (lined inner mem)

/-! ## Members -/

/-- With an empty line behind the last member too, there is one behind each. -/
theorem memberLines_append {members : List (List String)} (some : members ≠ []) :
    memberLines members ++ [""] = members.flatMap fun member => member.map ("        " ++ ·) ++ [""] := by
  induction members with
  | nil => exact absurd rfl some
  | cons member rest ih =>
    cases rest with
    | nil => simp [memberLines]
    | cons next rest =>
      rw [List.flatMap_cons, ← ih (List.cons_ne_nil _ _), memberLines]
      simp

theorem eq_or_exists_of_mem_memberLines {members : List (List String)} {text : String}
    (h : text ∈ memberLines members) :
    text = "" ∨ ∃ member ∈ members, ∃ inner ∈ member, text = "        " ++ inner := by
  have some : members ≠ [] := by
    rintro rfl
    cases h
  have closed := List.mem_append_left [""] h
  rw [memberLines_append some] at closed
  obtain ⟨member, mem, h⟩ := List.mem_flatMap.1 closed
  rcases List.mem_append.1 h with h | h
  · obtain ⟨inner, mem', rfl⟩ := List.mem_map.1 h
    exact .inr ⟨member, mem, inner, mem', rfl⟩
  · exact .inl (List.mem_singleton.1 h)

theorem memberLines_eq_nil_iff {members : List (List String)} (filled : ∀ member ∈ members, member ≠ []) :
    memberLines members = [] ↔ members = [] := by
  constructor
  · intro none
    cases members with
    | nil => rfl
    | cons member rest =>
      have closed := memberLines_append (List.cons_ne_nil member rest)
      rw [none, List.flatMap_cons] at closed
      have long := congrArg List.length closed
      have first : member.length ≠ 0 := mt List.length_eq_zero_iff.1 (filled member List.mem_cons_self)
      simp only [List.nil_append, List.length_append, List.length_cons, List.length_nil, List.length_map] at long
      omega
  · rintro rfl
    rfl

/-- Members with an empty line behind each are told by the lines. -/
theorem flatMap_members_injective : Function.Injective fun members : List (List String) =>
    members.flatMap fun member => member.map ("        " ++ ·) ++ [""] := by
  intro members
  induction members with
  | nil =>
    intro members' same
    cases members' with
    | nil => rfl
    | cons member' rest' => simp at same
  | cons member rest ih =>
    intro members' same
    cases members' with
    | nil => simp at same
    | cons member' rest' =>
      have indented (texts : List String) : ∀ text ∈ texts.map ("        " ++ ·), (text == "") = false := by
        intro text h
        obtain ⟨inner, -, rfl⟩ := List.mem_map.1 h
        simp
      simp only [List.flatMap_cons, List.append_assoc, List.singleton_append] at same
      obtain ⟨first, -, others⟩ := eq_of_cut_at (· == "") (indented member) (indented member') rfl rfl same
      rw [map_append_injective _ first, ih others]

/-- The lines of members tell the members. -/
theorem memberLines_injective {members members' : List (List String)} (filled : ∀ member ∈ members, member ≠ [])
    (filled' : ∀ member ∈ members', member ≠ []) (same : memberLines members = memberLines members') :
    members = members' := by
  by_cases none : members = []
  · rw [none] at same ⊢
    exact ((memberLines_eq_nil_iff filled').1 same.symm).symm
  · have none' : members' ≠ [] := by
      rw [Ne, ← memberLines_eq_nil_iff filled', ← same, memberLines_eq_nil_iff filled]
      exact none
    refine flatMap_members_injective ?_
    simp only [← memberLines_append none, ← memberLines_append none', same]

/-! ## Files -/

/-- Import lines and the line of a namespace start differently. -/
theorem head?_of_mem_importLines {names : List String} {text : String} (h : text ∈ importLines names) :
    (text.toList.head? == some 'n') = false := by
  rw [importLines] at h
  split at h
  · cases h
  · rcases List.mem_append.1 h with h | h
    · obtain ⟨name, -, rfl⟩ := List.mem_map.1 h
      simp
    · rw [List.mem_singleton.1 h]
      rfl

theorem importLines_injective : Function.Injective importLines := by
  intro names names' same
  unfold importLines at same
  have inner : Function.Injective fun name => "using " ++ name ++ ";" := fun a b h =>
    (String.append_right_inj _).1 ((String.append_left_inj _).1 h)
  split at same <;> split at same
  · next e e' => rw [e, e']
  · simp at same
  · simp at same
  · exact List.map_injective_iff.2 inner (List.append_cancel_right same)

/-- No line below the one that opens the class looks like it. -/
theorem ne_opening_of_mem {members : List (List String)} {text : String}
    (h : text ∈ memberLines members ++ ["    \x7d", "\x7d"]) : (text == "    \x7b") = false := by
  rcases List.mem_append.1 h with h | h
  · rcases eq_or_exists_of_mem_memberLines h with rfl | ⟨_, _, inner, _, rfl⟩
    · rfl
    · have different : "        " ++ inner ≠ "    \x7b" := by
        intro e
        simpa using congrArg String.toList e
      exact beq_false_of_ne different
  · have closing : ∀ text ∈ ["    \x7d", "\x7d"], (text == "    \x7b") = false := by decide
    exact closing text h

theorem lines_injective {file file' : FileModel} (banner : file.banner = file'.banner)
    (filled : ∀ member ∈ file.members, member ≠ []) (filled' : ∀ member ∈ file'.members, member ≠ [])
    (same : file.lines = file'.lines) : file = file' := by
  have parts (file : FileModel) : file.lines = importLines file.imports.toList ++ ("namespace " ++ file.ns) ::
      "\x7b" :: (file.classAttributes.map ("    " ++ ·) ++ ["    " ++ file.declaration] ++
        "    \x7b" :: (memberLines file.members ++ ["    \x7d", "\x7d"])) := by
    simp [lines]
  rw [parts, parts] at same
  -- the namespace stands in the first line that starts like it
  have named (ns : String) : (("namespace " ++ ns).toList.head? == some 'n') = true := by simp
  obtain ⟨imports, ns, below⟩ := eq_of_cut_at (fun text => text.toList.head? == some 'n')
    (fun _ => head?_of_mem_importLines) (fun _ => head?_of_mem_importLines) (named _) (named _) same
  -- the class opens with the last line that looks so
  obtain ⟨above, -, inside⟩ := eq_of_cut_at_last (· == "    \x7b") (fun _ => ne_opening_of_mem)
    (fun _ => ne_opening_of_mem) rfl rfl (List.cons.inj below).2
  have members := memberLines_injective filled filled' (List.append_cancel_right inside)
  obtain ⟨attributes, declaration⟩ := List.append_inj' above rfl
  have importsEq : file.imports = file'.imports :=
    NameSet.eq_of_mem_iff fun _ => by
      show _ ∈ file.imports.toList ↔ _ ∈ file'.imports.toList
      rw [importLines_injective imports]
  obtain ⟨_, _, _, _, _, _⟩ := file
  obtain ⟨_, _, _, _, _, _⟩ := file'
  simp only [FileModel.mk.injEq]
  exact ⟨banner, importsEq, (String.append_right_inj _).1 ns, map_append_injective _ attributes,
    (String.append_right_inj _).1 (List.singleton_inj.1 declaration), members⟩

theorem isLine_of_mem_importLines {names : List String} {text : String} (lined : ∀ name ∈ names, IsLine name)
    (h : text ∈ importLines names) : IsLine text := by
  rw [importLines] at h
  split at h
  · cases h
  · rcases List.mem_append.1 h with h | h
    · obtain ⟨name, mem, rfl⟩ := List.mem_map.1 h
      exact (IsLine.append (by decide) (lined name mem)).append (by decide)
    · rw [List.mem_singleton.1 h]
      decide

theorem isLine_of_mem_memberLines {members : List (List String)} {text : String}
    (lined : ∀ member ∈ members, ∀ text ∈ member, IsLine text) (h : text ∈ memberLines members) : IsLine text := by
  rcases eq_or_exists_of_mem_memberLines h with rfl | ⟨member, mem, inner, mem', rfl⟩
  · decide
  · exact IsLine.append (by decide) (lined member mem inner mem')

theorem IsLined.isLine_of_mem_lines {file : FileModel} (lined : file.IsLined) {text : String} (h : text ∈ file.lines) :
    IsLine text := by
  simp only [lines, List.mem_append, List.mem_cons, List.not_mem_nil, or_false] at h
  rcases h with ((((h | rfl | rfl) | h) | rfl | rfl) | h) | rfl | rfl
  · exact isLine_of_mem_importLines lined.imports h
  · exact IsLine.append (by decide) lined.ns
  · decide
  · exact isLine_of_mem_map (by decide) lined.classAttributes h
  · exact IsLine.append (by decide) lined.declaration
  · decide
  · exact isLine_of_mem_memberLines (fun member mem => (lined.members member mem).2) h
  · decide
  · decide

/-- **The text of a file tells the file**: two files under one banner whose strings are lines and whose members have
some are the same if they are written out alike. -/
theorem emitter_injective {file file' : FileModel} (banner : file.banner = file'.banner) (lined : file.IsLined)
    (lined' : file'.IsLined) (same : emitter file = emitter file') : file = file' := by
  have texts : file.text = file'.text := Except.ok.inj same
  rw [text, text, banner] at texts
  have joined := (String.append_right_inj _).1 texts
  refine lines_injective banner (fun member h => (lined.members member h).1)
    (fun member h => (lined'.members member h).1) ?_
  exact join_lines_injective (fun _ => lined.isLine_of_mem_lines) (fun _ => lined'.isLine_of_mem_lines) joined

/-- A member without lines is not seen in the text. -/
example (file : FileModel) : { file with members := [[]] }.text = { file with members := [] }.text := rfl

end FileModel

/-! ## An example -/

namespace Sample

/-- A file whose lines look like those of other parts. -/
def maskedFile (imports : List String) : FileModel where
  banner := "//\nusing A;\n"
  imports := .ofList imports
  ns := "using B;"
  classAttributes := ["\x7b", "namespace C"]
  declaration := "    \x7d"
  members := [["\x7b", "", "\x7d"], ["using D;"]]

/-- However its imports are listed, a file whose lines look like those of other parts is known by its text. -/
theorem maskedFile_injective :
    (maskedFile ["B", "", "A"]).IsLined ∧ (maskedFile ["A", "B", "A", ""]).IsLined ∧
      FileModel.emitter (maskedFile ["B", "", "A"]) = FileModel.emitter (maskedFile ["A", "B", "A", ""]) ∧
      maskedFile ["B", "", "A"] = maskedFile ["A", "B", "A", ""] := by
  have lined : (maskedFile ["B", "", "A"]).IsLined :=
    ⟨by decide +kernel, by decide, by decide, by decide, by decide⟩
  have lined' : (maskedFile ["A", "B", "A", ""]).IsLined :=
    ⟨by decide +kernel, by decide, by decide, by decide, by decide⟩
  have text : (maskedFile ["B", "", "A"]).text = (maskedFile ["A", "B", "A", ""]).text := by decide +kernel
  have same : FileModel.emitter (maskedFile ["B", "", "A"]) = FileModel.emitter (maskedFile ["A", "B", "A", ""]) :=
    congrArg Except.ok text
  exact ⟨lined, lined', same, FileModel.emitter_injective rfl lined lined' same⟩

end Sample

end TypedWrappers
