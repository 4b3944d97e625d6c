/-!
# Cutting text at a separator

Lists of characters cut at a character, at a leading text or at a trailing text.

- `segments`: all pieces between the separators (`eq_or_mem_segments`: no character is lost; `segments_append_sep`: a
  separator divides them);
- `leads`: what stands before each separator, shortest first;
- `cutLast`: what stands before and after the last separator (`cutLast_eq_some`: the two parts and the separator
  between them are the whole);
- `stripPrefix?`, `stripSuffix?`: what is left when a text is taken off one end;
- `replaceAll`: every occurrence of a text replaced, from the left.
-/

namespace TypedWrappers.Text

/-- The pieces between the separators: one more than there are separators. -/
def segments (sep : Char) : List Char → List (List Char)
  | [] => [[]]
  | c :: cs =>
    if c = sep then [] :: segments sep cs
    else
      match segments sep cs with
      | [] => [[c]]
      | piece :: pieces => (c :: piece) :: pieces

/-- What stands before each separator, shortest first. -/
def leads (sep : Char) : List Char → List (List Char)
  | [] => []
  | c :: cs => (if c = sep then [[]] else []) ++ (leads sep cs).map (c :: ·)

/-- What stands before and after the last separator, if there is one. -/
def cutLast (sep : Char) : List Char → Option (List Char × List Char)
  | [] => none
  | c :: cs =>
    match cutLast sep cs with
    | some (before, after) => some (c :: before, after)
    | none => if c = sep then some ([], cs) else none

/-- What follows the given beginning, if the text begins so. -/
def stripPrefix? : List Char → List Char → Option (List Char)
  | [], cs => some cs
  | _ :: _, [] => none
  | p :: ps, c :: cs => if p = c then stripPrefix? ps cs else none

/-- What precedes the given ending, if the text ends so. -/
def stripSuffix? (ending cs : List Char) : Option (List Char) :=
  (stripPrefix? ending.reverse cs.reverse).map List.reverse

/-- Replaces occurrences of `pattern` from the left; `skip` counts the characters of an occurrence still to pass. -/
def replaceFrom (pattern insert : List Char) : Nat → List Char → List Char
  | _, [] => []
  | skip + 1, _ :: cs => replaceFrom pattern insert skip cs
  | 0, c :: cs =>
    if pattern.isPrefixOf (c :: cs) then insert ++ replaceFrom pattern insert (pattern.length - 1) cs
    else c :: replaceFrom pattern insert 0 cs

/-- The text with every occurrence of `pattern`, which is not empty, replaced by `insert`. -/
def replaceAll (pattern insert s : String) : String :=
  String.ofList (replaceFrom pattern.toList insert.toList 0 s.toList)

/-- Whether the text ends with `ending`. -/
def endsWith (s ending : String) : Bool :=
  ending.toList.isSuffixOf s.toList

/-- What follows the given beginning of a text. -/
def afterPrefix? (beginning s : String) : Option String :=
  (stripPrefix? beginning.toList s.toList).map String.ofList

/-- What precedes the given ending of a text. -/
def beforeSuffix? (ending s : String) : Option String :=
  (stripSuffix? ending.toList s.toList).map String.ofList

/-- Every character is a separator or in a piece. -/
theorem eq_or_mem_segments {sep c : Char} {cs : List Char} (h : c ∈ cs) :
    c = sep ∨ ∃ piece ∈ segments sep cs, c ∈ piece := by
  induction cs with
  | nil => cases h
  | cons d cs ih =>
    rw [segments]
    by_cases hd : d = sep
    · rw [if_pos hd]
      rcases List.mem_cons.1 h with rfl | h
      · exact .inl hd
      · exact (ih h).imp_right fun ⟨piece, hp, hc⟩ => ⟨piece, List.mem_cons_of_mem _ hp, hc⟩
    · rw [if_neg hd]
      split
      · next none =>
        rcases List.mem_cons.1 h with rfl | h
        · exact .inr ⟨[c], by simp, by simp⟩
        · rw [none] at ih
          exact (ih h).imp_right fun ⟨piece, hp, _⟩ => nomatch hp
      · next first pieces found =>
        rcases List.mem_cons.1 h with rfl | h
        · exact .inr ⟨c :: first, by simp, by simp⟩
        · rw [found] at ih
          refine (ih h).imp_right fun ⟨piece, hp, hc⟩ => ?_
          rcases List.mem_cons.1 hp with rfl | hp
          · exact ⟨d :: piece, by simp, List.mem_cons_of_mem _ hc⟩
          · exact ⟨piece, List.mem_cons_of_mem _ hp, hc⟩

theorem segments_ne_nil (sep : Char) (cs : List Char) : segments sep cs ≠ [] := by
  induction cs with
  | nil => exact List.cons_ne_nil _ _
  | cons c cs ih =>
    rw [segments]
    split
    · exact List.cons_ne_nil _ _
    · split <;> exact List.cons_ne_nil _ _

theorem segments_append_sep (sep : Char) (before after : List Char) :
    segments sep (before ++ sep :: after) = segments sep before ++ segments sep after := by
  induction before with
  | nil =>
    rw [List.nil_append, segments]
    exact if_pos rfl
  | cons c before ih =>
    rw [List.cons_append, segments, segments, ih]
    split
    · rfl
    · cases pieces : segments sep before with
      | nil => exact absurd pieces (segments_ne_nil sep before)
      | cons piece pieces => rfl

/-- A text without a separator is one piece. -/
theorem segments_of_not_mem {sep : Char} {cs : List Char} (h : sep ∉ cs) : segments sep cs = [cs] := by
  induction cs with
  | nil => rfl
  | cons c cs ih =>
    rw [List.mem_cons, not_or] at h
    rw [segments, if_neg (Ne.symm h.1), ih h.2]

/-- The text ends in its last piece. -/
theorem exists_segments_eq_append (sep : Char) (cs : List Char) :
    ∃ front last, segments sep cs = front ++ [last] ∧ last <:+ cs := by
  by_cases h : sep ∈ cs
  · obtain ⟨after, before, e, notLater⟩ := List.eq_append_cons_of_mem (List.mem_reverse.2 h)
    have cut : cs = before.reverse ++ sep :: after.reverse := by simpa using congrArg List.reverse e
    refine ⟨segments sep before.reverse, after.reverse, ?_, before.reverse ++ [sep], by simp [cut]⟩
    rw [cut, segments_append_sep, segments_of_not_mem (mt List.mem_reverse.1 notLater)]
  · exact ⟨[], cs, segments_of_not_mem h, List.suffix_refl cs⟩

theorem cutLast_eq_some {sep : Char} {cs before after : List Char} (h : cutLast sep cs = some (before, after)) :
    cs = before ++ sep :: after ∧ sep ∉ after := by
  induction cs generalizing before with
  | nil => simp [cutLast] at h
  | cons c cs ih =>
    rw [cutLast] at h
    split at h
    · next b a hcut =>
      simp only [Option.some.injEq, Prod.mk.injEq] at h
      obtain ⟨rfl, rfl⟩ := h
      obtain ⟨e, hn⟩ := ih hcut
      exact ⟨by rw [e]; rfl, hn⟩
    · next hcut =>
      split at h
      · next hc =>
        simp only [Option.some.injEq, Prod.mk.injEq] at h
        obtain ⟨rfl, rfl⟩ := h
        refine ⟨by rw [hc]; rfl, ?_⟩
        clear ih hc
        induction cs with
        | nil => simp
        | cons d ds ih =>
          rw [cutLast] at hcut
          split at hcut
          · simp at hcut
          · next hd =>
            split at hcut
            · simp at hcut
            · next hne => simp only [List.mem_cons, not_or]; exact ⟨fun e => hne e.symm, ih hd⟩
      · simp at h

/-- More text in front does not move the last separator. -/
theorem cutLast_append {sep : Char} {cs before after : List Char} (h : cutLast sep cs = some (before, after))
    (front : List Char) : cutLast sep (front ++ cs) = some (front ++ before, after) := by
  induction front with
  | nil => exact h
  | cons c front ih => rw [List.cons_append, cutLast, ih, List.cons_append]

theorem eq_append_of_stripPrefix? {ps cs rest : List Char} (h : stripPrefix? ps cs = some rest) :
    cs = ps ++ rest := by
  induction ps generalizing cs with
  | nil => simpa [stripPrefix?] using h
  | cons p ps ih =>
    cases cs with
    | nil => simp [stripPrefix?] at h
    | cons c cs =>
      rw [stripPrefix?] at h
      split at h
      · next e => rw [e, ih h]; rfl
      · simp at h

theorem stripPrefix?_append (beginning rest : List Char) : stripPrefix? beginning (beginning ++ rest) = some rest := by
  induction beginning with
  | nil => simp [stripPrefix?]
  | cons c beginning ih => simp [stripPrefix?, ih]

theorem append_of_afterPrefix? {beginning s rest : String} (h : afterPrefix? beginning s = some rest) :
    beginning ++ rest = s := by
  obtain ⟨after, stripped, rfl⟩ := Option.map_eq_some_iff.1 h
  rw [← String.toList_inj, String.toList_append, String.toList_ofList, eq_append_of_stripPrefix? stripped]

end TypedWrappers.Text
