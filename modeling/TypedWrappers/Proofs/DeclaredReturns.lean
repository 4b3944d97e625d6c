import TypedWrappers.Extraction.Method
import TypedWrappers.Proofs.Rendering
import TypedWrappers.Proofs.TypeReading
import TypedWrappers.Proofs.TypeScan

/-!
# Declared return types

The return type that a double declares is empty exactly where the sources leave the return type out.

- `SymbolTable.display_describe_ne_empty`: types are displayed as something;
- `declaredReturn_eq_empty_iff`: a return type is nothing when it is written as nothing.
-/

namespace TypedWrappers

open Text TypeSyntax

/-- A text that can be read as a type is not blank. -/
theorem trim_ne_empty_of_parse? {text : String} {t : TypeSyntax} (h : parse? text = some t) : trim text ≠ "" := by
  obtain ⟨name, arguments, marks⟩ := t
  obtain ⟨⟨isName, -⟩, scanned⟩ := parse?_eq_some_iff.1 h
  obtain ⟨nonempty, characters⟩ := isNameCharacter_of_isTypeName isName
  obtain ⟨c, hc⟩ := List.exists_mem_of_ne_nil _ nonempty
  have inText : c ∈ text.toList := by
    refine TypeToken.mem_of_word_mem_scan ?_ c hc
    rw [scanned, tokens]
    exact List.mem_cons_self
  intro blank
  have isBlank := trim_eq_empty_iff.1 blank c inText
  rw [isBlank_of_isNameCharacter (characters c hc)] at isBlank
  cases isBlank

namespace SymbolTable

variable {table : SymbolTable} {scope : Scope} {task : TaskType}

theorem ne_empty_of_find?_enclosingCandidates {name full : String} {p : String → Bool}
    (h : (enclosingCandidates scope name).find? p = some full) : full ≠ "" := by
  obtain ⟨ns, -, rfl⟩ := List.mem_map.1 (List.mem_of_find?_eq_some h)
  exact append_ne_empty_of_left (append_ne_empty_of_right (by decide))

theorem ne_empty_of_lookupDotted {name full : String} (name_ne : name ≠ "")
    (h : table.lookupDotted scope name = some full) : full ≠ "" := by
  unfold lookupDotted at h
  split at h
  · cases h
    exact name_ne
  · exact ne_empty_of_find?_enclosingCandidates h

theorem ne_empty_of_lookupSimple {name full : String} (name_ne : name ≠ "")
    (h : table.lookupSimple scope name = some full) : full ≠ "" := by
  unfold lookupSimple at h
  split at h
  · next found =>
    cases h
    exact ne_empty_of_find?_enclosingCandidates found
  · split at h
    · next imported =>
      cases h
      have mem : full ∈ table.imported scope name := by rw [imported]; exact List.mem_singleton_self _
      obtain ⟨ns, -, rfl⟩ := List.mem_map.1 (List.mem_filter.1 mem).1
      exact append_ne_empty_of_left (append_ne_empty_of_right (by decide))
    · cases h
    · split at h
      · cases h
        exact name_ne
      · cases h

/-- What a name means has a name. -/
theorem ne_empty_of_resolve? {t : TypeSyntax} {full : String} (isName : isTypeName t.name = true)
    (h : table.resolve? scope t.name = some full) : full ≠ "" := by
  have name_ne : t.name ≠ "" := fun e => (isNameCharacter_of_isTypeName isName).1 (String.toList_eq_nil_iff.2 e)
  rw [resolve?, trim_of_isTypeName isName] at h
  split at h
  · next base stripped =>
    split at h
    · cases h
      have base_ne := baseName_ne_empty isName
      rwa [baseName, stripped] at base_ne
    · cases h
  · split at h
    · next keyword =>
      cases h
      have all : ∀ entry ∈ keywordTypes, entry.2 ≠ "" := by decide
      obtain ⟨before, after, split, -⟩ := List.lookup_eq_some_iff.1 keyword
      exact all (t.name, full) (by rw [split]; simp)
    · split at h
      · exact ne_empty_of_lookupDotted name_ne h
      · exact ne_empty_of_lookupSimple name_ne h

theorem display_describeName_ne_empty {t : TypeSyntax} (isName : isTypeName t.name = true) :
    (table.describeName scope t).display ≠ "" := by
  have name_ne : t.name ≠ "" := fun e => (isNameCharacter_of_isTypeName isName).1 (String.toList_eq_nil_iff.2 e)
  unfold describeName
  split
  · exact name_ne
  · split
    · next found =>
      split
      · exact ne_empty_of_resolve? isName found
      · exact name_ne
    · exact name_ne

/-- Types are displayed as something. -/
theorem display_describe_ne_empty {t : TypeSyntax} (named : t.WellNamed) : (table.describe scope t).display ≠ "" := by
  obtain ⟨name, arguments, marks⟩ := t
  have name_ne : (table.describeName scope ⟨name, arguments, marks⟩).display ≠ "" :=
    display_describeName_ne_empty named.1
  rw [describe, TypeReference.ofParts, TypeReference.applied]
  split
  · exact append_ne_empty_of_left name_ne
  · exact append_ne_empty_of_left (append_ne_empty_of_left (append_ne_empty_of_left (append_ne_empty_of_left name_ne)))

/-- A return type is nothing exactly when it is written as nothing. -/
theorem declaredReturn_eq_empty_iff (task_ne : task.name ≠ "") {text : String} :
    MockTarget.declaredReturn task (table.returnShape scope task text) = "" ↔ trim text = "" := by
  cases read : parse? text with
  | none =>
    rw [returnShape, read]
    exact Iff.rfl
  | some t =>
    have display_ne : (table.describe scope t).display ≠ "" := display_describe_ne_empty (parse?_eq_some_iff.1 read).1
    have declared_ne : MockTarget.declaredReturn task (table.returnShape scope task text) ≠ "" := by
      rw [returnShape, read]
      dsimp only
      split
      · show "void" ≠ ""
        decide
      · split
        · split
          · show task.of none ≠ ""
            exact TaskType.of_ne_empty task_ne _
          · show task.of (some _) ≠ ""
            exact TaskType.of_ne_empty task_ne _
          · exact display_ne
        · exact display_ne
    exact iff_of_false declared_ne (trim_ne_empty_of_parse? read)

end SymbolTable

end TypedWrappers
