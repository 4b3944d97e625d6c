/-!
# Blank characters

The characters with the property `White_Space`, and what is left of a text when the blanks around it are cut off.

- `isBlank`: the property, as a table of ranges;
- `trim`: the text without blanks at either end (`trim_eq_self`: nothing else is ever cut; `trim_eq_empty_iff`: nothing
  is left of blanks alone; `trim_trim`: once is enough).
-/

namespace TypedWrappers.Text

/-- First and last code point of each range of `White_Space`. -/
def blankRanges : List (Nat × Nat) :=
  [(0x09, 0x0D), (0x20, 0x20), (0x85, 0x85), (0xA0, 0xA0), (0x1680, 0x1680), (0x2000, 0x200A), (0x2028, 0x2029),
    (0x202F, 0x202F), (0x205F, 0x205F), (0x3000, 0x3000)]

/-- A character is blank when a range of the table holds it. -/
def isBlank (c : Char) : Bool :=
  blankRanges.any fun range => range.1 ≤ c.toNat && c.toNat ≤ range.2

/-- Cuts blanks off both ends. -/
def trimChars (cs : List Char) : List Char :=
  ((cs.dropWhile isBlank).reverse.dropWhile isBlank).reverse

/-- The text without the blanks around it. -/
def trim (s : String) : String :=
  String.ofList (trimChars s.toList)

/-- A text whose ends are not blank is kept as it is. -/
theorem trimChars_eq_self {cs : List Char} (first : ∀ c ∈ cs.head?, isBlank c = false)
    (last : ∀ c ∈ cs.getLast?, isBlank c = false) : trimChars cs = cs := by
  have keep : ∀ l : List Char, (∀ c ∈ l.head?, isBlank c = false) → l.dropWhile isBlank = l := by
    intro l h
    cases l with
    | nil => rfl
    | cons c l => simp [h c (by simp)]
  rw [trimChars, keep cs first, keep cs.reverse (by simpa using last), List.reverse_reverse]

/-- What is left ends with no blank. -/
theorem isBlank_of_getLast?_trimChars {cs : List Char} {c : Char} (h : (trimChars cs).getLast? = some c) :
    isBlank c = false := by
  rw [trimChars, List.getLast?_reverse] at h
  have first := List.head?_dropWhile_not isBlank (cs.dropWhile isBlank).reverse
  rwa [h] at first

/-- What is left starts with no blank. -/
theorem isBlank_of_head?_trimChars {cs : List Char} {c : Char} (h : (trimChars cs).head? = some c) :
    isBlank c = false := by
  rw [trimChars, List.head?_reverse] at h
  -- cutting off the end leaves the first character of what is left of the front
  obtain ⟨cut, split⟩ := List.dropWhile_suffix isBlank (l := (cs.dropWhile isBlank).reverse)
  have same : (cs.dropWhile isBlank).head? = some c := by
    rw [← List.getLast?_reverse, ← split, List.getLast?_append, h, Option.some_or]
  have first := List.head?_dropWhile_not isBlank cs
  rwa [same] at first

/-- A text that neither starts nor ends with a blank loses nothing. -/
theorem trim_eq_self {s : String} (first : ∀ c ∈ s.toList.head?, isBlank c = false)
    (last : ∀ c ∈ s.toList.getLast?, isBlank c = false) : trim s = s := by
  rw [trim, trimChars_eq_self first last, String.ofList_toList]

/-- Cutting blanks off a second time changes nothing. -/
theorem trim_trim (s : String) : trim (trim s) = trim s := by
  rw [trim, trim, String.toList_ofList, trimChars_eq_self (fun _ => isBlank_of_head?_trimChars)
    fun _ => isBlank_of_getLast?_trimChars]

/-- Further blanks at the ends make no difference. -/
theorem trimChars_append {before after : List Char} (cs : List Char) (hb : ∀ c ∈ before, isBlank c = true)
    (ha : ∀ c ∈ after, isBlank c = true) : trimChars (before ++ cs ++ after) = trimChars cs := by
  have blanks : ∀ l : List Char, (∀ c ∈ l, isBlank c = true) → l.dropWhile isBlank = [] := by
    intro l h
    have e : (l ++ []).dropWhile isBlank = [].dropWhile isBlank := List.dropWhile_append_of_pos h
    rwa [List.append_nil] at e
  unfold trimChars
  rw [List.append_assoc, List.dropWhile_append_of_pos hb, List.dropWhile_append]
  split
  · next empty => rw [List.isEmpty_iff.1 empty, blanks after ha]
  · rw [List.reverse_append, List.dropWhile_append_of_pos (by simpa using ha)]

theorem trimChars_eq_nil_iff {cs : List Char} : trimChars cs = [] ↔ ∀ c ∈ cs, isBlank c = true := by
  have all_blank : ∀ l : List Char, l.dropWhile isBlank = [] → ∀ c ∈ l, isBlank c = true := by
    intro l h
    have whole : l.takeWhile isBlank ++ l.dropWhile isBlank = l := List.takeWhile_append_dropWhile
    rw [h, List.append_nil] at whole
    have taken : (l.takeWhile isBlank).all isBlank = true := List.all_takeWhile
    rw [whole] at taken
    exact List.all_eq_true.1 taken
  constructor
  · intro h c hc
    have kept : ∀ c ∈ cs.dropWhile isBlank, isBlank c = true := by
      simpa using all_blank _ (List.reverse_eq_nil_iff.1 h)
    have taken : (cs.takeWhile isBlank).all isBlank = true := List.all_takeWhile
    rw [← List.takeWhile_append_dropWhile (p := isBlank) (l := cs), List.mem_append] at hc
    rcases hc with hc | hc
    · exact List.all_eq_true.1 taken c hc
    · exact kept c hc
  · intro h
    have e : trimChars (cs ++ [] ++ []) = trimChars [] := trimChars_append [] h nofun
    rwa [List.append_nil, List.append_nil] at e

/-- Only blanks are nothing when they are cut off. -/
theorem trim_eq_empty_iff {s : String} : trim s = "" ↔ ∀ c ∈ s.toList, isBlank c = true := by
  rw [trim, ← String.toList_eq_nil_iff, String.toList_ofList, trimChars_eq_nil_iff]

end TypedWrappers.Text
