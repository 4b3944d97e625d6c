import TypedWrappers.Text.Blank
import TypedWrappers.TypeSyntax.Token

/-!
# Names of types

Names of types are made of few characters, none of them a blank or punctuation, and a name has at least one of them
behind the alias of the global namespace.

- `isNameCharacter_of_isTypeName`: the characters of a name;
- `baseName_ne_empty`: what is left without the alias;
- `trim_of_isTypeName`: no blank is cut off a name.
-/

namespace TypedWrappers

open Text TypeToken

/-! ## Characters -/

/-- The characters that names of types are made of. -/
def isNameCharacter (c : Char) : Bool :=
  isIdentifierPart c || c = '.' || c = '@' || c = ':'

theorem isAlpha_eq (c : Char) :
    c.isAlpha = (decide ('A'.val ≤ c.val ∧ c.val ≤ 'Z'.val) || ('a'.val ≤ c.val && c.val ≤ 'z'.val)) :=
  rfl

theorem toNat_of_isNameCharacter {c : Char} (h : isNameCharacter c = true) : 46 ≤ c.toNat ∧ c.toNat ≤ 122 := by
  simp only [isNameCharacter, isIdentifierPart, Char.isAlphanum, isAlpha_eq, Char.isDigit, Bool.or_eq_true,
    Bool.and_eq_true, decide_eq_true_eq, ge_iff_le, UInt32.le_iff_toNat_le] at h
  have toNat : c.val.toNat = c.toNat := rfl
  rcases h with (((((h | h) | h) | rfl) | rfl) | rfl) | rfl
  · simp [toNat] at h; omega
  · simp [toNat] at h; omega
  · simp [toNat] at h; omega
  all_goals decide

theorem toNat_of_isBlank {c : Char} (h : isBlank c = true) : c.toNat ≤ 32 ∨ 133 ≤ c.toNat := by
  simp [isBlank, blankRanges] at h
  omega

theorem isBlank_of_isSpace {c : Char} (h : isSpace c = true) : isBlank c = true := by
  simp only [isSpace, Bool.or_eq_true, decide_eq_true_eq] at h
  rcases h with (((rfl | rfl) | rfl) | rfl) | rfl <;> decide

theorem isBlank_of_isNameCharacter {c : Char} (h : isNameCharacter c = true) : isBlank c = false := by
  rw [Bool.eq_false_iff]
  intro blank
  have := toNat_of_isNameCharacter h
  have := toNat_of_isBlank blank
  omega

theorem isSpace_of_isNameCharacter {c : Char} (h : isNameCharacter c = true) : isSpace c = false := by
  rw [Bool.eq_false_iff]
  intro space
  have blank := isBlank_of_isSpace space
  rw [isBlank_of_isNameCharacter h] at blank
  cases blank

theorem punctuation?_of_isNameCharacter {c : Char} (h : isNameCharacter c = true) : punctuation? c = none := by
  unfold punctuation?
  split <;> first | rfl | exact absurd h (by decide)

/-! ## Names -/

theorem isIdentifierPart_of_isIdentifier {cs : List Char} (h : isIdentifier cs = true) :
    cs ≠ [] ∧ ∀ c ∈ cs, isIdentifierPart c = true := by
  cases cs with
  | nil => cases h
  | cons c cs =>
    obtain ⟨start, rest⟩ := Bool.and_eq_true_iff.1 h
    refine ⟨nofun, fun d hd => ?_⟩
    rcases List.mem_cons.1 hd with rfl | hd
    · simp only [isIdentifierStart, isIdentifierPart, Char.isAlphanum, Bool.or_eq_true] at start ⊢
      exact start.imp_left .inl
    · exact List.all_eq_true.1 rest d hd

theorem isNameCharacter_of_isNamePart {cs : List Char} (h : isNamePart cs = true) :
    cs ≠ [] ∧ ∀ c ∈ cs, isNameCharacter c = true := by
  have ofPart {c : Char} (h : isIdentifierPart c = true) : isNameCharacter c = true := by simp [isNameCharacter, h]
  unfold isNamePart at h
  split at h
  · refine ⟨nofun, fun c hc => ?_⟩
    rcases List.mem_cons.1 hc with rfl | hc
    · rfl
    · exact ofPart ((isIdentifierPart_of_isIdentifier h).2 c hc)
  · exact (isIdentifierPart_of_isIdentifier h).imp_right fun all c hc => ofPart (all c hc)

theorem isNameCharacter_of_isDottedName {cs : List Char} (h : isDottedName cs = true) :
    cs ≠ [] ∧ ∀ c ∈ cs, isNameCharacter c = true := by
  have parts := List.all_eq_true.1 h
  refine ⟨?_, fun c hc => ?_⟩
  · rintro rfl
    exact (isNameCharacter_of_isNamePart (parts [] (by simp [segments]))).1 rfl
  · have split : c = '.' ∨ ∃ piece ∈ segments '.' cs, c ∈ piece := eq_or_mem_segments hc
    rcases split with rfl | ⟨piece, hp, hc⟩
    · rfl
    · exact (isNameCharacter_of_isNamePart (parts piece hp)).2 c hc

/-- A name is not empty, and its characters are few. -/
theorem isNameCharacter_of_isTypeName {name : String} (h : isTypeName name = true) :
    name.toList ≠ [] ∧ ∀ c ∈ name.toList, isNameCharacter c = true := by
  rw [isTypeName] at h
  cases stripped : stripPrefix? TypeSyntax.globalAlias.toList name.toList with
  | none =>
    rw [stripped] at h
    exact isNameCharacter_of_isDottedName h
  | some rest =>
    rw [stripped] at h
    obtain ⟨nonempty, all⟩ := isNameCharacter_of_isDottedName h
    rw [eq_append_of_stripPrefix? stripped]
    refine ⟨fun e => nonempty (List.append_eq_nil_iff.1 e).2, fun c hc => ?_⟩
    rcases List.mem_append.1 hc with hc | hc
    · have ofAlias : TypeSyntax.globalAlias.toList.all isNameCharacter = true := by decide
      exact List.all_eq_true.1 ofAlias c hc
    · exact all c hc

/-- No blank is cut off a name. -/
theorem trim_of_isTypeName {name : String} (h : isTypeName name = true) : trim name = name :=
  trim_eq_self
    (fun c hc => isBlank_of_isNameCharacter ((isNameCharacter_of_isTypeName h).2 c (List.mem_of_mem_head? hc)))
    (fun c hc => isBlank_of_isNameCharacter ((isNameCharacter_of_isTypeName h).2 c (List.mem_of_mem_getLast? hc)))

/-- What is a name of a type is decided without the alias. -/
theorem isTypeName_eq (t : TypeSyntax) : isTypeName t.name = isDottedName t.baseName.toList := by
  rw [isTypeName, TypeSyntax.baseName, afterPrefix?]
  cases stripPrefix? TypeSyntax.globalAlias.toList t.name.toList with
  | none => rfl
  | some rest => rw [Option.map_some, Option.getD_some, Option.getD_some, String.toList_ofList]

/-- Something of a name is left without the alias. -/
theorem baseName_ne_empty {t : TypeSyntax} (h : isTypeName t.name = true) : t.baseName ≠ "" := by
  rw [isTypeName_eq] at h
  intro e
  exact (isNameCharacter_of_isDottedName h).1 (String.toList_eq_nil_iff.2 e)

end TypedWrappers
