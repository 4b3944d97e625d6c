import Mathlib.Data.List.TakeWhile
import TypedWrappers.Proofs.ScopeLookup
import TypedWrappers.Proofs.TypeArguments
import TypedWrappers.Proofs.TypeSpelling

/-!
# The grammar of types

The text of types by rules, next to the reader that looks at tokens:

    type ::= name [ '<' type (',' type)* '>' ] ( '?' | '[' ','* ']' )*
    name ::= [ 'global::' ] part ('.' part)*
    part ::= [ '@' ] identifier

Blanks may stand before and behind every token, where a name is one token. So a text has many ways to be written, but
stands for one tree at most.

- `Grammar.Name`, `Grammar.name_iff`: the rules of names;
- `Grammar.Derives`: the rules of types, `Grammar.derives_iff`: the same by the tokens of a text;
- `parse?_exact`: the reader follows the rules.
-/

namespace TypedWrappers

open Text TypeToken

namespace TypeSyntax

namespace Grammar

/-! ## Names -/

/-- An identifier: an ASCII letter or an underscore, and then ASCII letters, digits and underscores. -/
inductive Identifier : List Char → Prop
  | mk {c : Char} {cs : List Char} (first : c.isAlpha = true ∨ c = '_')
      (others : ∀ d ∈ cs, d.isAlphanum = true ∨ d = '_') : Identifier (c :: cs)

/-- A part of a name: an identifier, with or without an at-sign in front. -/
inductive Part : List Char → Prop
  | plain {cs : List Char} : Identifier cs → Part cs
  | escaped {cs : List Char} : Identifier cs → Part ('@' :: cs)

/-- Parts with dots between them. -/
inductive Dotted : List Char → Prop
  | last {cs : List Char} : Part cs → Dotted cs
  | cons {cs rest : List Char} : Part cs → Dotted rest → Dotted (cs ++ '.' :: rest)

/-- A name: parts with dots between them, with or without the alias of the global namespace in front. -/
inductive Name : List Char → Prop
  | plain {cs : List Char} : Dotted cs → Name cs
  | aliased {cs : List Char} : Dotted cs → Name (globalAlias.toList ++ cs)

theorem identifier_iff {cs : List Char} : Identifier cs ↔ isIdentifier cs = true := by
  have whole (c : Char) (cs : List Char) : isIdentifier (c :: cs) = true ↔
      (c.isAlpha = true ∨ c = '_') ∧ ∀ d ∈ cs, d.isAlphanum = true ∨ d = '_' := by
    simp [isIdentifier, isIdentifierStart, isIdentifierPart]
  constructor
  · rintro ⟨first, others⟩
    exact (whole _ _).2 ⟨first, others⟩
  · intro h
    cases cs with
    | nil => cases h
    | cons c cs =>
      obtain ⟨first, others⟩ := (whole c cs).1 h
      exact .mk first others

theorem part_iff {cs : List Char} : Part cs ↔ isNamePart cs = true := by
  constructor
  · intro h
    cases h with
    | plain identifier =>
      rw [identifier_iff] at identifier
      unfold isNamePart
      split
      · exact absurd identifier (by simp [isIdentifier, isIdentifierStart])
      · exact identifier
    | escaped identifier => exact identifier_iff.1 identifier
  · intro h
    unfold isNamePart at h
    split at h
    · exact .escaped (identifier_iff.2 h)
    · exact .plain (identifier_iff.2 h)

/-- What has no dots is one part, and the first dot of any other text divides it. -/
theorem dotted_iff {cs : List Char} : Dotted cs ↔ isDottedName cs = true := by
  constructor
  · intro h
    induction h with
    | last part => exact isDottedName_of_isNamePart (part_iff.1 part)
    | cons part _ ih => exact isDottedName_append_dot.2 ⟨isDottedName_of_isNamePart (part_iff.1 part), ih⟩
  · intro h
    by_cases dot : '.' ∈ cs
    · obtain ⟨front, rest, rfl, notEarlier⟩ := List.eq_append_cons_of_mem dot
      obtain ⟨ofFront, ofRest⟩ := isDottedName_append_dot.1 h
      rw [isDottedName, segments_of_not_mem notEarlier] at ofFront
      exact .cons (part_iff.2 (by simpa using ofFront)) (dotted_iff.2 ofRest)
    · rw [isDottedName, segments_of_not_mem dot] at h
      exact .last (part_iff.2 (by simpa using h))
termination_by cs.length
decreasing_by
  subst_vars
  simp only [List.length_append, List.length_cons]
  omega

/-- The names of the grammar are the names of types. -/
theorem name_iff {name : String} : Name name.toList ↔ isTypeName name = true := by
  constructor
  · intro h
    generalize chars : name.toList = cs at h
    cases h with
    | plain dotted => exact isTypeName_of_isDottedName (by rw [chars]; exact dotted_iff.1 dotted)
    | aliased dotted =>
      rw [isTypeName, chars, stripPrefix?_append]
      exact dotted_iff.1 dotted
  · intro h
    rw [isTypeName] at h
    cases stripped : stripPrefix? globalAlias.toList name.toList with
    | none =>
      rw [stripped] at h
      exact .plain (dotted_iff.2 h)
    | some rest =>
      rw [stripped] at h
      rw [eq_append_of_stripPrefix? stripped]
      exact .aliased (dotted_iff.2 h)

/-! ## Types -/

/-- A token with blanks before and behind it. -/
inductive Padded (token : List Char) : List Char → Prop
  | mk {before after : List Char} (blankBefore : ∀ c ∈ before, isSpace c = true)
      (blankAfter : ∀ c ∈ after, isSpace c = true) : Padded token (before ++ token ++ after)

/-- A number of commas. -/
inductive Commas : Nat → List Char → Prop
  | none : Commas 0 []
  | cons {n : Nat} {comma rest : List Char} : Padded [','] comma → Commas n rest → Commas (n + 1) (comma ++ rest)

/-- A mark: a question mark, or brackets with commas between them. -/
inductive Mark : TypeMark → List Char → Prop
  | nullable {question : List Char} : Padded ['?'] question → Mark .nullable question
  | array {n : Nat} {opening commas closing : List Char} : Padded ['['] opening → Commas n commas →
      Padded [']'] closing → Mark (.array n) (opening ++ commas ++ closing)

/-- A sequence of marks. -/
inductive Marks : List TypeMark → List Char → Prop
  | nil : Marks [] []
  | cons {mark : TypeMark} {marks : List TypeMark} {first rest : List Char} : Mark mark first → Marks marks rest →
      Marks (mark :: marks) (first ++ rest)

mutual

/-- A type: a name, its arguments and its marks. -/
inductive Derives : TypeSyntax → List Char → Prop
  | type {name : String} {arguments : List TypeSyntax} {marks : List TypeMark} {word inner suffix : List Char} :
      Name name.toList → Padded name.toList word → Arguments arguments inner → Marks marks suffix →
        Derives ⟨name, arguments, marks⟩ (word ++ inner ++ suffix)

/-- The arguments of a type: none, or one or more in angle brackets. -/
inductive Arguments : List TypeSyntax → List Char → Prop
  | none : Arguments [] []
  | list {t : TypeSyntax} {others : List TypeSyntax} {opening first rest closing : List Char} :
      Padded ['<'] opening → Derives t first → Others others rest → Padded ['>'] closing →
        Arguments (t :: others) (opening ++ first ++ rest ++ closing)

/-- Further arguments, each behind a comma. -/
inductive Others : List TypeSyntax → List Char → Prop
  | nil : Others [] []
  | cons {t : TypeSyntax} {others : List TypeSyntax} {comma first rest : List Char} :
      Padded [','] comma → Derives t first → Others others rest → Others (t :: others) (comma ++ first ++ rest)

end

/-! ## The tokens of what is derived -/

/-- The text ends any word in front of it. -/
def EndsWord (rest : List Char) : Prop :=
  ∀ pending, scanFrom pending rest = endWord pending (scanFrom [] rest)

theorem EndsWord.spaces {rest after : List Char} (h : EndsWord rest) (blank : ∀ c ∈ after, isSpace c = true) :
    EndsWord (after ++ rest) := by
  cases after with
  | nil => exact h
  | cons c after =>
    intro pending
    have space := blank c List.mem_cons_self
    rw [List.cons_append, scanFrom_space space, scanFrom_space space]
    rfl

/-- Punctuation with blanks around it is scanned as its token. -/
theorem Padded.scanFrom {c : Char} {token : TypeToken} {cs : List Char} (padded : Padded [c] cs)
    (h : punctuation? c = some token) (rest : List Char) : scanFrom [] (cs ++ rest) = token :: scanFrom [] rest := by
  obtain ⟨blankBefore, blankAfter⟩ := padded
  simp only [List.append_assoc]
  rw [scanFrom_spaces blankBefore, List.singleton_append, scanFrom_punctuation h, scanFrom_spaces blankAfter]

theorem Padded.endsWord {c : Char} {token : TypeToken} {cs : List Char} (padded : Padded [c] cs)
    (h : punctuation? c = some token) (rest : List Char) : EndsWord (cs ++ rest) := by
  obtain ⟨blankBefore, -⟩ := padded
  simp only [List.append_assoc]
  exact EndsWord.spaces (scanFrom_of_breaks (breaks_cons h _)) blankBefore

/-- A name with blanks around it is scanned as a word. -/
theorem Padded.scanFrom_name {name : String} {cs rest : List Char} (padded : Padded name.toList cs)
    (isName : isTypeName name = true) (ends : EndsWord rest) :
    TypeToken.scanFrom [] (cs ++ rest) = word name :: TypeToken.scanFrom [] rest := by
  obtain ⟨blankBefore, blankAfter⟩ := padded
  obtain ⟨nonempty, characters⟩ := isNameCharacter_of_isTypeName isName
  simp only [List.append_assoc]
  rw [scanFrom_spaces blankBefore, scanFrom_nameCharacters characters, List.append_nil, ends.spaces blankAfter,
    scanFrom_spaces blankAfter, endWord, if_neg (mt List.reverse_eq_nil_iff.1 nonempty), List.reverse_reverse,
    String.ofList_toList]

theorem Commas.scanFrom {n : Nat} {cs : List Char} (h : Commas n cs) (rest : List Char) :
    scanFrom [] (cs ++ rest) = List.replicate n comma ++ scanFrom [] rest := by
  induction h with
  | none => rfl
  | cons padded _ ih => rw [List.append_assoc, padded.scanFrom rfl, ih, List.replicate_succ, List.cons_append]

theorem Mark.scanFrom {mark : TypeMark} {cs : List Char} (h : Mark mark cs) (rest : List Char) :
    scanFrom [] (cs ++ rest) = mark.tokens ++ scanFrom [] rest := by
  cases h with
  | nullable padded => exact padded.scanFrom rfl rest
  | array opening commas closing =>
    simp only [List.append_assoc]
    rw [opening.scanFrom rfl, commas.scanFrom, closing.scanFrom rfl]
    simp [TypeMark.tokens]

theorem Mark.endsWord {mark : TypeMark} {cs : List Char} (h : Mark mark cs) (rest : List Char) :
    EndsWord (cs ++ rest) := by
  cases h with
  | nullable padded => exact padded.endsWord rfl rest
  | array opening commas closing =>
    simp only [List.append_assoc]
    exact opening.endsWord rfl _

theorem Marks.scanFrom {marks : List TypeMark} {cs : List Char} (h : Marks marks cs) (rest : List Char) :
    scanFrom [] (cs ++ rest) = marks.flatMap TypeMark.tokens ++ scanFrom [] rest := by
  induction h with
  | nil => rfl
  | cons mark _ ih => rw [List.append_assoc, mark.scanFrom, ih, List.flatMap_cons, List.append_assoc]

theorem Marks.endsWord {marks : List TypeMark} {cs rest : List Char} (h : Marks marks cs) (ends : EndsWord rest) :
    EndsWord (cs ++ rest) := by
  cases h with
  | nil => exact ends
  | cons mark marks =>
    rw [List.append_assoc]
    exact mark.endsWord _

theorem Arguments.endsWord {arguments : List TypeSyntax} {cs rest : List Char} (h : Arguments arguments cs)
    (ends : EndsWord rest) : EndsWord (cs ++ rest) := by
  cases h with
  | none => exact ends
  | list opening first others closing =>
    simp only [List.append_assoc]
    exact opening.endsWord rfl _

theorem Others.endsWord {others : List TypeSyntax} {cs rest : List Char} (h : Others others cs)
    (ends : EndsWord rest) : EndsWord (cs ++ rest) := by
  cases h with
  | nil => exact ends
  | cons separator first others =>
    simp only [List.append_assoc]
    exact separator.endsWord rfl _

mutual

/-- What is derived has the tokens of its tree, whatever ends the last word. -/
theorem Derives.scanFrom : ∀ {t : TypeSyntax} {cs : List Char}, Derives t cs → ∀ {rest : List Char}, EndsWord rest →
    t.WellNamed ∧ scanFrom [] (cs ++ rest) = t.tokens ++ scanFrom [] rest
  | _, _, .type isName written arguments marks, rest, ends => by
    have isName := name_iff.1 isName
    have behind := marks.endsWord ends
    obtain ⟨named, scanned⟩ := arguments.scanFrom behind
    refine ⟨⟨isName, named⟩, ?_⟩
    simp only [List.append_assoc]
    rw [written.scanFrom_name isName (arguments.endsWord behind), scanned, marks.scanFrom, tokens, List.cons_append,
      List.append_assoc]

theorem Arguments.scanFrom : ∀ {ts : List TypeSyntax} {cs : List Char}, Arguments ts cs → ∀ {rest : List Char},
    EndsWord rest → AllWellNamed ts ∧ scanFrom [] (cs ++ rest) = argumentTokens ts ++ scanFrom [] rest
  | _, _, .none, _, _ => ⟨trivial, rfl⟩
  | _, _, .list opening first others closing, rest, ends => by
    have behind := closing.endsWord rfl rest
    obtain ⟨named, scannedFirst⟩ := first.scanFrom (others.endsWord behind)
    obtain ⟨allNamed, scannedRest⟩ := others.scanFrom closing rest
    refine ⟨⟨named, allNamed⟩, ?_⟩
    simp only [List.append_assoc]
    rw [opening.scanFrom rfl, scannedFirst, scannedRest, argumentTokens, List.cons_append, List.append_assoc]

theorem Others.scanFrom : ∀ {ts : List TypeSyntax} {cs closing : List Char}, Others ts cs → Padded ['>'] closing →
    ∀ rest : List Char,
      AllWellNamed ts ∧ scanFrom [] (cs ++ (closing ++ rest)) = restTokens ts ++ scanFrom [] rest
  | _, _, _, .nil, closing, rest => ⟨trivial, closing.scanFrom rfl rest⟩
  | _, _, _, .cons separator first others, closing, rest => by
    have behind := closing.endsWord rfl rest
    obtain ⟨named, scannedFirst⟩ := first.scanFrom (others.endsWord behind)
    obtain ⟨allNamed, scannedRest⟩ := others.scanFrom closing rest
    refine ⟨⟨named, allNamed⟩, ?_⟩
    simp only [List.append_assoc]
    rw [separator.scanFrom rfl, scannedFirst, scannedRest, restTokens, List.cons_append, List.append_assoc]

end

/-! ## What the tokens derive -/

/-- What is left of a text: its tokens, and not even a blank when there are none. -/
structure Remains (cs : List Char) (ts : List TypeToken) : Prop where
  scanned : scanFrom [] cs = ts
  nothing : ts = [] → cs = []

/-- A text that starts with a piece of some kind, and what is left behind the piece. -/
def StartsWith (kind : List Char → Prop) (cs : List Char) (ts : List TypeToken) : Prop :=
  ∃ piece back, cs = piece ++ back ∧ kind piece ∧ Remains back ts

/-- The blanks behind a token belong to it. -/
theorem startsWith_padded {before token after : List Char} {ts : List TypeToken}
    (blank : ∀ c ∈ before, isSpace c = true) (scanned : scanFrom [] after = ts) :
    StartsWith (Padded token) (before ++ token ++ after) ts := by
  have spaces : ∀ c ∈ after.takeWhile isSpace, isSpace c = true := List.all_eq_true.1 List.all_takeWhile
  have whole : after.takeWhile isSpace ++ after.dropWhile isSpace = after := List.takeWhile_append_dropWhile
  have same : scanFrom [] (after.dropWhile isSpace) = ts := by rw [← scanned, ← scanFrom_spaces spaces, whole]
  refine ⟨before ++ token ++ after.takeWhile isSpace, after.dropWhile isSpace, ?_, .mk blank spaces, same, ?_⟩
  · rw [List.append_assoc _ _ (after.dropWhile isSpace), whole]
  · rintro rfl
    exact List.dropWhile_eq_nil_iff.2 (isSpace_of_scanFrom_eq_nil scanned).2

namespace Remains

variable {cs : List Char} {ts : List TypeToken}

theorem name {name : String} (h : Remains cs (word name :: ts)) : StartsWith (Padded name.toList) cs ts := by
  obtain ⟨before, after, split, blank, scanned⟩ := exists_of_scanFrom_eq_word_cons h.scanned
  rw [List.reverse_nil, List.nil_append] at split
  rw [split]
  exact startsWith_padded blank scanned

theorem punctuation {c : Char} {token : TypeToken} (isToken : punctuation? c = some token) (ne : token ≠ parenthesis)
    (h : Remains cs (token :: ts)) : StartsWith (Padded [c]) cs ts := by
  have noWord (w : String) : token ≠ word w := fun e => punctuation?_ne_word (isToken.trans (congrArg some e))
  have atFront : scanFrom [] cs = [] ++ token :: ts := h.scanned
  obtain ⟨front, d, back, rfl, isToken', blank⟩ := exists_of_scanFrom_eq_append noWord atFront
  obtain rfl : c = d := eq_of_punctuation? ne isToken isToken'
  have scanned : scanFrom [] back = ts := by
    have whole := h.scanned
    rw [scanFrom_append isToken, blank, List.nil_append] at whole
    exact (List.cons.inj whole).2
  have split : front ++ c :: back = front ++ [c] ++ back := by simp
  rw [split]
  exact startsWith_padded (isSpace_of_scanFrom_eq_nil blank).2 scanned

theorem commas {n : Nat} (h : Remains cs (List.replicate n comma ++ ts)) : StartsWith (Commas n) cs ts := by
  induction n generalizing cs with
  | zero => exact ⟨[], cs, rfl, .none, h⟩
  | succ n ih =>
    obtain ⟨first, back, rfl, separator, h⟩ := punctuation (c := ',') rfl (by simp) h
    obtain ⟨rest, back, rfl, commas, h⟩ := ih h
    exact ⟨first ++ rest, back, by rw [List.append_assoc], .cons separator commas, h⟩

theorem mark {mark : TypeMark} (h : Remains cs (mark.tokens ++ ts)) : StartsWith (Mark mark) cs ts := by
  cases mark with
  | nullable =>
    obtain ⟨question, back, rfl, padded, h⟩ := punctuation (c := '?') rfl (by simp) h
    exact ⟨question, back, rfl, .nullable padded, h⟩
  | array n =>
    simp only [TypeMark.tokens, List.append_assoc, List.cons_append, List.nil_append] at h
    obtain ⟨opening, back, rfl, opens, h⟩ := punctuation (c := '[') rfl (by simp) h
    obtain ⟨commas, back, rfl, between, h⟩ := h.commas
    obtain ⟨closing, back, rfl, closes, h⟩ := punctuation (c := ']') rfl (by simp) h
    exact ⟨opening ++ commas ++ closing, back, by simp only [List.append_assoc], .array opens between closes, h⟩

theorem marks {marks : List TypeMark} (h : Remains cs (marks.flatMap TypeMark.tokens ++ ts)) :
    StartsWith (Marks marks) cs ts := by
  induction marks generalizing cs with
  | nil => exact ⟨[], cs, rfl, .nil, h⟩
  | cons mark marks ih =>
    rw [List.flatMap_cons, List.append_assoc] at h
    obtain ⟨first, back, rfl, isMark, h⟩ := h.mark
    obtain ⟨rest, back, rfl, areMarks, h⟩ := ih h
    exact ⟨first ++ rest, back, by rw [List.append_assoc], .cons isMark areMarks, h⟩

end Remains

mutual

/-- A text that starts with the tokens of a tree of names starts with a piece that is derived. -/
theorem startsWith_derives : ∀ (t : TypeSyntax) {cs : List Char} {ts : List TypeToken}, t.WellNamed →
    Remains cs (t.tokens ++ ts) → StartsWith (Derives t) cs ts
  | ⟨name, arguments, marks⟩, cs, ts, ⟨isName, named⟩, h => by
    rw [tokens, List.cons_append, List.append_assoc] at h
    obtain ⟨written, back, rfl, padded, h⟩ := h.name
    obtain ⟨inner, back, rfl, areArguments, h⟩ := startsWith_arguments arguments named h
    obtain ⟨suffix, back, rfl, areMarks, h⟩ := h.marks
    exact ⟨written ++ inner ++ suffix, back, by simp only [List.append_assoc],
      .type (name_iff.2 isName) padded areArguments areMarks, h⟩

theorem startsWith_arguments : ∀ (arguments : List TypeSyntax) {cs : List Char} {ts : List TypeToken},
    AllWellNamed arguments → Remains cs (argumentTokens arguments ++ ts) → StartsWith (Arguments arguments) cs ts
  | [], cs, _, _, h => ⟨[], cs, rfl, .none, h⟩
  | t :: others, cs, ts, ⟨named, allNamed⟩, h => by
    rw [argumentTokens, List.cons_append, List.append_assoc] at h
    obtain ⟨opening, back, rfl, opens, h⟩ := Remains.punctuation (c := '<') rfl (by simp) h
    obtain ⟨first, back, rfl, isType, h⟩ := startsWith_derives t named h
    obtain ⟨inner, back, rfl, ⟨rest, closing, rfl, areOthers, closes⟩, behind⟩ := startsWith_others others allNamed h
    exact ⟨opening ++ first ++ rest ++ closing, back, by simp only [List.append_assoc],
      .list opens isType areOthers closes, behind⟩

theorem startsWith_others : ∀ (others : List TypeSyntax) {cs : List Char} {ts : List TypeToken},
    AllWellNamed others → Remains cs (restTokens others ++ ts) →
      StartsWith (fun piece => ∃ rest closing, piece = rest ++ closing ∧ Others others rest ∧ Padded ['>'] closing)
        cs ts
  | [], cs, _, _, h => by
    obtain ⟨closing, back, rfl, closes, h⟩ := Remains.punctuation (c := '>') rfl (by simp) h
    exact ⟨closing, back, rfl, ⟨[], closing, rfl, .nil, closes⟩, h⟩
  | t :: others, cs, ts, ⟨named, allNamed⟩, h => by
    rw [restTokens, List.cons_append, List.append_assoc] at h
    obtain ⟨separator, back, rfl, separates, h⟩ := Remains.punctuation (c := ',') rfl (by simp) h
    obtain ⟨first, back, rfl, isType, h⟩ := startsWith_derives t named h
    obtain ⟨inner, back, rfl, ⟨rest, closing, rfl, areOthers, closes⟩, behind⟩ := startsWith_others others allNamed h
    have more : Others (t :: others) (separator ++ first ++ rest) := .cons separates isType areOthers
    exact ⟨separator ++ first ++ (rest ++ closing), back, by simp only [List.append_assoc],
      ⟨_, closing, by simp only [List.append_assoc], more, closes⟩, behind⟩

end

/-- What is derived for a tree are the texts that have its tokens, as long as its names are names of types. -/
theorem derives_iff {t : TypeSyntax} {cs : List Char} : Derives t cs ↔ t.WellNamed ∧ scanFrom [] cs = t.tokens := by
  constructor
  · intro h
    have scanned := h.scanFrom (scanFrom_of_breaks breaks_nil)
    rwa [List.append_nil, scanFrom, endWord, if_pos rfl, List.append_nil] at scanned
  · rintro ⟨named, scanned⟩
    have remains : Remains cs (t.tokens ++ []) := by
      refine ⟨by rw [scanned, List.append_nil], fun none => ?_⟩
      obtain ⟨name, arguments, marks⟩ := t
      simp [tokens] at none
    obtain ⟨piece, back, rfl, derives, remains⟩ := startsWith_derives t named remains
    rwa [remains.nothing rfl, List.append_nil]

end Grammar

/-- **The reader follows the grammar**: a text is read as a tree exactly when the grammar derives it for that tree, no
tree is read where it derives none, and no text is derived for two trees. -/
theorem parse?_exact (text : String) :
    (∀ t : TypeSyntax, parse? text = some t ↔ Grammar.Derives t text.toList) ∧
      (parse? text = none ↔ ∀ t : TypeSyntax, ¬ Grammar.Derives t text.toList) ∧
      ∀ t u : TypeSyntax, Grammar.Derives t text.toList ∧ Grammar.Derives u text.toList → t = u := by
  have exact (t : TypeSyntax) : parse? text = some t ↔ Grammar.Derives t text.toList :=
    parse?_eq_some_iff.trans Grammar.derives_iff.symm
  refine ⟨exact, ?_, ?_⟩
  · rw [Option.eq_none_iff_forall_ne_some]
    exact forall_congr' fun t => not_congr (exact t)
  · rintro t u ⟨derivesT, derivesU⟩
    have read := (exact t).2 derivesT
    rw [(exact u).2 derivesU] at read
    exact (Option.some.inj read).symm

/-- Blanks may stand around tokens, but not in a name. -/
example : parse? "\tList < int ,A.B > [ , ]" =
      some ⟨"List", [⟨"int", [], []⟩, ⟨"A.B", [], []⟩], [.array 1]⟩ ∧
    parse? "A. B" = none := by decide +kernel

end TypeSyntax

end TypedWrappers
