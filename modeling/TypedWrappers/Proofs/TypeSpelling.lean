import Mathlib.Logic.ExistsUnique
import TypedWrappers.Proofs.TypeReading
import TypedWrappers.Proofs.TypeScan

/-!
# Spelling types

The normal spelling of a tree is read as that tree again, as long as all names in the tree are names of types.

- `scanFrom_text`: a spelling is scanned as the tokens of its tree, whatever punctuation comes behind;
- `parse?_text`, `text_inj`: a spelling is read as its tree, so that no two trees have one spelling;
- `IsSuffix`: how marks are spelled;
- `normal?`: the normal spelling of what a text is read as, and `spelling_inverse`: what it is good for.
-/

namespace TypedWrappers

open TypeToken

namespace TypeToken

/-- The text is at its end or goes on with punctuation. -/
def Breaks (rest : List Char) : Prop :=
  ∀ c ∈ rest.head?, (punctuation? c).isSome = true

theorem breaks_nil : Breaks [] := nofun

theorem breaks_cons {c : Char} {token : TypeToken} (h : punctuation? c = some token) (rest : List Char) :
    Breaks (c :: rest) := by
  rintro d hd
  cases hd
  rw [h]
  rfl

/-- A break ends the pending word. -/
theorem scanFrom_of_breaks {rest : List Char} (h : Breaks rest) (pending : List Char) :
    scanFrom pending rest = endWord pending (scanFrom [] rest) := by
  cases rest with
  | nil => rfl
  | cons c rest =>
    obtain ⟨token, isToken⟩ := Option.isSome_iff_exists.1 (h c rfl)
    rw [scanFrom, scanFrom, isToken]
    rfl

/-- The characters of a name go on with the pending word. -/
theorem scanFrom_nameCharacters {cs : List Char} (h : ∀ c ∈ cs, isNameCharacter c = true) (pending rest : List Char) :
    scanFrom pending (cs ++ rest) = scanFrom (cs.reverse ++ pending) rest := by
  induction cs generalizing pending with
  | nil => rfl
  | cons c cs ih =>
    obtain ⟨first, others⟩ := List.forall_mem_cons.1 h
    have step : scanFrom pending (c :: (cs ++ rest)) = scanFrom (c :: pending) (cs ++ rest) := by
      rw [scanFrom, punctuation?_of_isNameCharacter first]
      exact if_neg (by simp [isSpace_of_isNameCharacter first])
    rw [List.cons_append, step, ih others, List.reverse_cons, List.append_assoc, List.singleton_append]

/-- A name in front of a break is one word. -/
theorem scanFrom_name {name : String} (h : isTypeName name = true) {rest : List Char} (breaks : Breaks rest) :
    scanFrom [] (name.toList ++ rest) = word name :: scanFrom [] rest := by
  obtain ⟨nonempty, characters⟩ := isNameCharacter_of_isTypeName h
  rw [scanFrom_nameCharacters characters, List.append_nil, scanFrom_of_breaks breaks, endWord,
    if_neg (mt List.reverse_eq_nil_iff.1 nonempty), List.reverse_reverse, String.ofList_toList]

/-- Punctuation by itself is its token. -/
theorem scanFrom_punctuation {c : Char} {token : TypeToken} (h : punctuation? c = some token) (rest : List Char) :
    scanFrom [] (c :: rest) = token :: scanFrom [] rest := by
  rw [scanFrom, h]
  rfl

end TypeToken

namespace TypeSyntax

/-! ## Marks -/

theorem scanFrom_commas (n : Nat) (rest : List Char) :
    scanFrom [] (List.replicate n ',' ++ rest) = List.replicate n comma ++ scanFrom [] rest := by
  induction n with
  | zero => rfl
  | succ n ih =>
    rw [List.replicate_succ, List.cons_append, scanFrom_punctuation rfl, ih]
    rfl

theorem scanFrom_mark (mark : TypeMark) (rest : List Char) :
    scanFrom [] (mark.text.toList ++ rest) = mark.tokens ++ scanFrom [] rest := by
  cases mark with
  | nullable => exact scanFrom_punctuation rfl rest
  | array commas =>
    have text : (TypeMark.array commas).text.toList = '[' :: (List.replicate commas ',' ++ [']']) := by
      simp [TypeMark.text]
    rw [text, List.cons_append, scanFrom_punctuation rfl, List.append_assoc, scanFrom_commas, List.singleton_append,
      scanFrom_punctuation rfl]
    simp [TypeMark.tokens]

theorem toList_textAll_cons (mark : TypeMark) (marks : List TypeMark) :
    (TypeMark.textAll (mark :: marks)).toList = mark.text.toList ++ (TypeMark.textAll marks).toList := by
  simp [TypeMark.textAll]

theorem scanFrom_marks (marks : List TypeMark) (rest : List Char) :
    scanFrom [] ((TypeMark.textAll marks).toList ++ rest) = marks.flatMap TypeMark.tokens ++ scanFrom [] rest := by
  induction marks with
  | nil => rfl
  | cons mark marks ih =>
    rw [toList_textAll_cons, List.append_assoc, scanFrom_mark, ih, List.flatMap_cons, List.append_assoc]

theorem breaks_marks (marks : List TypeMark) {rest : List Char} (h : Breaks rest) :
    Breaks ((TypeMark.textAll marks).toList ++ rest) := by
  cases marks with
  | nil => exact h
  | cons mark marks =>
    rw [toList_textAll_cons]
    cases mark with
    | nullable => exact breaks_cons rfl _
    | array commas =>
      have text : (TypeMark.array commas).text.toList = '[' :: (List.replicate commas ',' ++ [']']) := by
        simp [TypeMark.text]
      rw [text]
      exact breaks_cons rfl _

/-! ## Trees -/

theorem breaks_argumentsText (arguments : List TypeSyntax) {rest : List Char} (h : Breaks rest) :
    Breaks ((argumentsText arguments).toList ++ rest) := by
  cases arguments with
  | nil => exact h
  | cons t others =>
    have text : (argumentsText (t :: others)).toList = '<' :: (t.text.toList ++ (restText others).toList) := by
      simp [argumentsText]
    rw [text]
    exact breaks_cons rfl _

theorem breaks_restText (arguments : List TypeSyntax) (rest : List Char) :
    Breaks ((restText arguments).toList ++ rest) := by
  cases arguments with
  | nil => exact breaks_cons rfl _
  | cons t others =>
    have text : (restText (t :: others)).toList = ',' :: ' ' :: (t.text.toList ++ (restText others).toList) := by
      simp [restText]
    rw [text]
    exact breaks_cons rfl _

mutual

/-- In front of a break, a spelling is scanned as the tokens of its tree. -/
theorem scanFrom_text : ∀ (t : TypeSyntax), t.WellNamed → ∀ {rest : List Char}, Breaks rest →
    scanFrom [] (t.text.toList ++ rest) = t.tokens ++ scanFrom [] rest
  | ⟨name, arguments, marks⟩, ⟨isName, named⟩, rest, breaks => by
    have behind : Breaks ((TypeMark.textAll marks).toList ++ rest) := breaks_marks marks breaks
    have text : (text ⟨name, arguments, marks⟩).toList ++ rest =
        name.toList ++ ((argumentsText arguments).toList ++ ((TypeMark.textAll marks).toList ++ rest)) := by
      simp [TypeSyntax.text]
    rw [text, scanFrom_name isName (breaks_argumentsText arguments behind),
      scanFrom_argumentsText arguments named behind, scanFrom_marks, tokens, List.cons_append, List.append_assoc]

theorem scanFrom_argumentsText : ∀ (ts : List TypeSyntax), AllWellNamed ts → ∀ {rest : List Char}, Breaks rest →
    scanFrom [] ((argumentsText ts).toList ++ rest) = argumentTokens ts ++ scanFrom [] rest
  | [], _, _, _ => rfl
  | t :: others, ⟨named, allNamed⟩, rest, breaks => by
    have text : (argumentsText (t :: others)).toList ++ rest =
        '<' :: (t.text.toList ++ ((restText others).toList ++ rest)) := by
      simp [argumentsText]
    rw [text, scanFrom_punctuation rfl, scanFrom_text t named (breaks_restText others rest),
      scanFrom_restText others allNamed rest, argumentTokens, List.cons_append, List.append_assoc]

theorem scanFrom_restText : ∀ (ts : List TypeSyntax), AllWellNamed ts → ∀ (rest : List Char),
    scanFrom [] ((restText ts).toList ++ rest) = restTokens ts ++ scanFrom [] rest
  | [], _, rest => scanFrom_punctuation rfl rest
  | t :: others, ⟨named, allNamed⟩, rest => by
    have text : (restText (t :: others)).toList ++ rest =
        ',' :: ' ' :: (t.text.toList ++ ((restText others).toList ++ rest)) := by
      simp [restText]
    have space (cs : List Char) : scanFrom [] (' ' :: cs) = scanFrom [] cs := rfl
    rw [text, scanFrom_punctuation rfl, space, scanFrom_text t named (breaks_restText others rest),
      scanFrom_restText others allNamed rest, restTokens, List.cons_append, List.append_assoc]

end

/-- **Spelling and reading are inverse**: the spelling of a tree of names is read as that tree. -/
theorem parse?_text {t : TypeSyntax} (named : t.WellNamed) : parse? t.text = some t := by
  refine parse?_eq_some_iff.2 ⟨named, ?_⟩
  have scanned := scanFrom_text t named breaks_nil
  rw [List.append_nil, scanFrom, endWord, if_pos rfl, List.append_nil] at scanned
  exact scanned

theorem text_inj {t u : TypeSyntax} (namedT : t.WellNamed) (namedU : u.WellNamed) : t.text = u.text ↔ t = u := by
  constructor
  · intro e
    have read := parse?_text namedT
    rw [e, parse?_text namedU] at read
    exact (Option.some.inj read).symm
  · rintro rfl
    rfl

/-! ## Suffixes -/

/-- A sequence of question marks and of brackets with nothing but commas between them. -/
inductive IsSuffix : List Char → Prop
  | none : IsSuffix []
  | nullable {cs : List Char} : IsSuffix cs → IsSuffix ('?' :: cs)
  | array (commas : Nat) {cs : List Char} : IsSuffix cs → IsSuffix ('[' :: (List.replicate commas ',' ++ ']' :: cs))

theorem isSuffix_textAll (marks : List TypeMark) : IsSuffix (TypeMark.textAll marks).toList := by
  induction marks with
  | nil => exact .none
  | cons mark marks ih =>
    rw [toList_textAll_cons]
    cases mark with
    | nullable => exact .nullable ih
    | array commas => simpa [TypeMark.text] using IsSuffix.array commas ih

theorem exists_textAll_eq {cs : List Char} (h : IsSuffix cs) :
    ∃ marks : List TypeMark, (TypeMark.textAll marks).toList = cs := by
  induction h with
  | none => exact ⟨[], rfl⟩
  | nullable _ ih =>
    obtain ⟨marks, rfl⟩ := ih
    exact ⟨.nullable :: marks, by rw [toList_textAll_cons]; rfl⟩
  | array commas _ ih =>
    obtain ⟨marks, rfl⟩ := ih
    exact ⟨.array commas :: marks, by rw [toList_textAll_cons]; simp [TypeMark.text]⟩

theorem textAll_inj {marks marks' : List TypeMark} (h : TypeMark.textAll marks = TypeMark.textAll marks') :
    marks = marks' := by
  have read (marks : List TypeMark) : readMarks (scanFrom [] (TypeMark.textAll marks).toList) = some (marks, []) := by
    have scanned := scanFrom_marks marks []
    rw [List.append_nil] at scanned
    rw [scanned]
    exact readMarks_tokens marks ⟨nofun, nofun⟩
  have again := read marks
  rw [h, read marks'] at again
  exact (Prod.mk.inj (Option.some.inj again)).1.symm

/-- Each suffix is the spelling of one sequence of marks. -/
theorem isSuffix_iff {cs : List Char} :
    IsSuffix cs ↔ ∃! marks : List TypeMark, (TypeMark.textAll marks).toList = cs := by
  constructor
  · intro h
    obtain ⟨marks, rfl⟩ := exists_textAll_eq h
    exact ⟨marks, rfl, fun marks' same => textAll_inj (String.toList_inj.1 same)⟩
  · rintro ⟨marks, rfl, -⟩
    exact isSuffix_textAll marks

mutual

/-- The spellings of the marks in a tree, at any depth. -/
def suffixes : TypeSyntax → List String
  | ⟨_, arguments, marks⟩ => TypeMark.textAll marks :: allSuffixes arguments

/-- The spellings of the marks in several trees. -/
def allSuffixes : List TypeSyntax → List String
  | [] => []
  | t :: rest => suffixes t ++ allSuffixes rest

end

mutual

theorem isSuffix_of_mem_suffixes : ∀ t : TypeSyntax, ∀ suffix ∈ t.suffixes, IsSuffix suffix.toList
  | ⟨_, arguments, marks⟩ => by
    rw [suffixes, List.forall_mem_cons]
    exact ⟨isSuffix_textAll marks, isSuffix_of_mem_allSuffixes arguments⟩

theorem isSuffix_of_mem_allSuffixes : ∀ ts : List TypeSyntax, ∀ suffix ∈ allSuffixes ts, IsSuffix suffix.toList
  | [] => nofun
  | t :: rest => by
    rw [allSuffixes, List.forall_mem_append]
    exact ⟨isSuffix_of_mem_suffixes t, isSuffix_of_mem_allSuffixes rest⟩

end

/-! ## Normal spellings -/

/-- The normal spelling of the type that a text is read as. -/
def normal? (s : String) : Option String :=
  (parse? s).map text

/-- **Normal spellings**: trees of names are read from their spellings, and only such trees are read, whose marks are
spelled as suffixes (each suffix spells one sequence of marks). So a normal spelling is its own normal spelling, and two
texts have the same one exactly when they are read as the same tree. -/
theorem spelling_inverse :
    (∀ t : TypeSyntax, t.WellNamed → parse? t.text = some t) ∧
      (∀ (s : String) (t : TypeSyntax), parse? s = some t →
        t.WellNamed ∧ ∀ suffix ∈ t.suffixes, IsSuffix suffix.toList) ∧
      (∀ cs : List Char, IsSuffix cs ↔ ∃! marks : List TypeMark, (TypeMark.textAll marks).toList = cs) ∧
      (∀ s : String, (normal? s).bind normal? = normal? s) ∧
      ∀ s s' : String, normal? s = normal? s' ↔ parse? s = parse? s' := by
  have named {s : String} {t : TypeSyntax} (read : parse? s = some t) : t.WellNamed := (parse?_eq_some_iff.1 read).1
  refine ⟨fun t => parse?_text, fun s t read => ⟨named read, isSuffix_of_mem_suffixes t⟩, fun cs => isSuffix_iff,
    fun s => ?_, fun s s' => ?_⟩
  · unfold normal?
    cases read : parse? s with
    | none => rfl
    | some t => rw [Option.map_some, Option.bind_some, parse?_text (named read), Option.map_some]
  · refine ⟨fun same => ?_, fun same => by rw [normal?, normal?, same]⟩
    unfold normal? at same
    cases read : parse? s with
    | none =>
      rw [read, Option.map_none] at same
      exact (Option.map_eq_none_iff.1 same.symm).symm
    | some t =>
      rw [read, Option.map_some] at same
      obtain ⟨t', read', sameText⟩ := Option.map_eq_some_iff.1 same.symm
      rw [read', (text_inj (named read') (named read)).1 sameText]

end TypeSyntax

end TypedWrappers
