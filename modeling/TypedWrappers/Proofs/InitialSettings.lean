import Mathlib
import TypedWrappers.Command.Start
import TypedWrappers.Proofs.PlainLines
import TypedWrappers.Proofs.TokenScan

/-!
# The settings of a new project

The name of a project is put into its settings file as it is. So it is read as YAML: what stands there may end early, go
on over further lines, be quoted, or be something else than a scalar.

- `Settings.toList_initialText`, `Settings.run_front`: the text, and what is read up to the name;
- `Settings.Waits`: the scanner in front of the node of the name; blanks, comments, anchors and tags keep it there;
- `Settings.isPlainLine_of_readsScalar`: only a plain scalar that is all of a name has the text of the name;
- `Settings.lead?_of_scan?`: where a name is no plain line, the token that leads its node is not the name.
-/

namespace TypedWrappers.Settings

open Yaml

/-! ## The text -/

/-- The comment in front of the inputs, behind its sign. -/
def inputsComment : List Char :=
  " Snapshot files or directories".toList

/-- The inputs and an empty line. -/
def inputLines : List Char :=
  "inputs:\n  - snapshots\n\n".toList

/-- The comment in front of the output directory, behind its sign. -/
def outputComment : List Char :=
  " Generated sources land in <output_dir>/<compilation name>/".toList

/-- The output directory. -/
def outputLine : List Char :=
  "output_dir: generated\n".toList

/-- What stands behind the name, an empty line and a comment. -/
def behindComment : List Char :=
  inputLines ++ '#' :: (outputComment ++ '\n' :: outputLine)

/-- What stands behind the name and an empty line: a comment and the other settings. -/
def behindName : List Char :=
  '#' :: inputsComment ++ '\n' :: behindComment

theorem toList_initialText (name : String) :
    (initialText name).toList =
      "# wfgen Project Configuration\nname:".toList ++ (' ' :: (name.toList ++ ['\n', '\n']) ++ behindName) := by
  have lineFeed : "\n".toList = ['\n'] := by decide +kernel
  have front : "# wfgen Project Configuration\nname:".toList =
      "# wfgen Project Configuration".toList ++ '\n' :: "name:".toList := by decide +kernel
  have key : "name: ".toList = "name:".toList ++ [' '] := by decide +kernel
  have inputs : inputLines = "inputs:".toList ++ '\n' :: ("  - snapshots".toList ++ ['\n', '\n']) := by decide +kernel
  have output : outputLine = "output_dir: generated".toList ++ ['\n'] := by decide +kernel
  have comment : "# Snapshot files or directories".toList = '#' :: inputsComment := by decide +kernel
  have comment' : "# Generated sources land in <output_dir>/<compilation name>/".toList = '#' :: outputComment := by
    decide +kernel
  simp only [initialText, String.intercalate_cons_cons, String.intercalate_singleton, String.toList_append,
    String.toList_empty, lineFeed, front, key, inputs, output, comment, comment', behindName, behindComment,
    List.append_assoc, List.cons_append, List.nil_append]

theorem behindComment_eq : ∃ cs, behindComment = ['i', 'n', 'p', 'u', 't', 's'] ++ ':' :: '\n' :: cs := by
  have lines : inputLines = ['i', 'n', 'p', 'u', 't', 's'] ++ ':' :: '\n' :: "  - snapshots\n\n".toList := by
    decide +kernel
  exact ⟨_, by rw [behindComment, lines, List.append_assoc]; rfl⟩

theorem head?_behindComment : behindComment.head? = some 'i' := by
  obtain ⟨cs, e⟩ := behindComment_eq
  rw [e]
  rfl

theorem noBreak_inputsComment : (inputsComment.any isBreak) = false := by
  decide +kernel

theorem head?_behindName : behindName.head? = some '#' :=
  rfl

theorem startsLine_behindName : Cursor.StartsLine behindName :=
  ⟨'#', _, rfl, by simp [IsGap, isBreak, isSpaceOrTab]⟩

/-! ## Up to the name -/

/-- The tokens in front of the name. -/
def front : List Token :=
  [.blockMappingStart, .key, .scalar "name" .plain, .value]

/-- The scanner behind the colon. -/
def atName (rest : List Char) : Scanner where
  cursor := ⟨rest, 35, 1, 5⟩
  tokens := front.toArray
  indent := 1
  outerIndents := [0]
  keys := [none]
  keyAllowed := false

theorem run_front (fuel : Nat) (rest : List Char) :
    (Scanner.start ("# wfgen Project Configuration\nname:".toList ++ ' ' :: rest)).run (fuel + 2) =
      (atName (' ' :: rest)).run fuel := by
  cbv

/-! ## From the name to its node -/

variable {s s' : Scanner} {z : List Char} {fuel : Nat}

/-- Over the rest of a line, which may be that of the comment. -/
theorem before_skipLine {c : Cursor} (before : c.Before z behindName) :
    (∃ q z', z = q ++ z' ∧ (c.skipWhile fun ch => !isBreak ch).Before z' behindName) ∨
      (c.skipWhile fun ch => !isBreak ch).rest = '\n' :: behindComment := by
  have inLine : ∀ ch, (!isBreak ch) = true → isBreak ch = false := fun _ h => by simpa using h
  by_cases nonempty : z = []
  · subst nonempty
    refine .inr ?_
    rw [Cursor.rest_skipWhile, before.rest_eq, List.nil_append, behindName, List.dropWhile_append_of_pos]
    · rfl
    · refine List.forall_mem_cons.2 ⟨rfl, fun ch mem => ?_⟩
      simpa using List.any_eq_false.1 noBreak_inputsComment ch mem
  · obtain ⟨z', -, cut, before', -⟩ := before.skipWhile inLine nonempty
    exact .inl ⟨_, z', cut, before'⟩

theorem skipToToken_behindComment (rest : s.cursor.rest = behindComment) (fuel : Nat) : s.skipToToken fuel = s := by
  have first : s.cursor.rest.head? = some 'i' := by rw [rest, head?_behindComment]
  refine Scanner.skipToToken_eq_self (fun ch h => ?_) (by simp [first])
  rw [first] at h
  cases h
  exact ⟨by simp [IsGap, isBreak, isSpaceOrTab], by decide⟩

/-- Over a byte order mark at the start of a line. -/
theorem before_skipMark {c : Cursor} (before : c.Before z behindName) :
    ∃ q z', z = q ++ z' ∧
      (if c.column = 0 && c.rest.head? = some '\uFEFF' then c.skip else c).Before z' behindName := by
  split
  · next mark =>
    simp only [Bool.and_eq_true, decide_eq_true_eq] at mark
    obtain ⟨cs, rest⟩ := List.head?_eq_some_iff.1 mark.2
    have nonempty : z ≠ [] := by
      rintro rfl
      rw [before.rest_eq, List.nil_append, head?_behindName] at mark
      cases mark.2
    obtain ⟨z', -, cut, before'⟩ := before.of_inLine nonempty (Cursor.passes_skip rest rfl) (by simp [isBreak])
    exact ⟨_, z', cut, before'⟩
  · exact ⟨[], z, rfl, before⟩

/-- Over the blanks of a line. -/
theorem before_skipBlanks {c : Cursor} {blank : Char → Bool} (isBlank : ∀ ch, blank ch = true → isSpaceOrTab ch = true)
    (before : c.Before z behindName) : ∃ q z', z = q ++ z' ∧ (c.skipWhile blank).Before z' behindName := by
  have passes := Cursor.passes_skipWhile (c := c) fun ch h => isBreak_of_isSpaceOrTab (isBlank ch h)
  obtain ⟨z', cut, before'⟩ := before.of_gap startsLine_behindName passes fun ch mem =>
    .inr (isBlank ch (List.all_eq_true.1 List.all_takeWhile ch mem))
  exact ⟨_, z', cut, before'⟩

/-- Over a line break, which is not that of the comment. -/
theorem before_skipBreak {c : Cursor} (before : c.Before z behindName)
    (atBreak : (c.rest.head?.map isBreak).getD false = true) :
    ∃ q z', z = q ++ z' ∧ c.skipBreak.Before z' behindName := by
  cases z with
  | nil =>
    rw [before.rest_eq, List.nil_append, head?_behindName] at atBreak
    cases atBreak
  | cons ch z =>
    have lineEnd : isBreak ch = true := by simpa [before.rest_eq] using atBreak
    obtain ⟨q, z', cut, -, before'⟩ := before.skipBreak startsLine_behindName lineEnd
    exact ⟨q, z', cut, before'⟩

/-- Going to the next token in front of the comment ends there, or at the key behind it. -/
theorem before_skipToToken (fuel : Nat) (before : s.cursor.Before z behindName) :
    (∃ q z', z = q ++ z' ∧ (s.skipToToken fuel).cursor.Before z' behindName) ∨
      (s.skipToToken fuel).cursor.rest = behindComment := by
  induction fuel generalizing s z with
  | zero => exact .inl ⟨[], z, rfl, before⟩
  | succ fuel ih =>
    have isBlank : ∀ ch, (ch = ' ' || ((s.inFlow || !s.keyAllowed) && ch = '\t')) = true → isSpaceOrTab ch = true := by
      intro ch h
      simp only [Bool.or_eq_true, Bool.and_eq_true, decide_eq_true_eq] at h
      rcases h with rfl | ⟨-, rfl⟩ <;> rfl
    obtain ⟨q₀, z₀, rfl, before₀⟩ := before_skipMark before
    obtain ⟨q₁, z₁, rfl, before₁⟩ := before_skipBlanks isBlank before₀
    rw [Scanner.skipToToken]
    generalize (if s.cursor.column = 0 && s.cursor.rest.head? = some '\uFEFF' then s.cursor.skip else s.cursor) = c₀
      at before₁ ⊢
    generalize (c₀.skipWhile fun ch => ch = ' ' || ((s.inFlow || !s.keyAllowed) && ch = '\t')) = c₁ at before₁ ⊢
    generalize comment : (if c₁.rest.head? = some '#' then c₁.skipWhile fun ch => !isBreak ch else c₁) = c₂
    have before₂ : (∃ q z', z₁ = q ++ z' ∧ c₂.Before z' behindName) ∨ c₂.rest = '\n' :: behindComment := by
      rw [← comment]
      split
      · exact before_skipLine before₁
      · exact .inl ⟨[], z₁, rfl, before₁⟩
    split
    · next atBreak =>
      rcases before₂ with ⟨q₂, z₂, rfl, before₂⟩ | rest
      · obtain ⟨q₃, z₃, rfl, before₃⟩ := before_skipBreak before₂ atBreak
        have moved : Cursor.Before z₃ behindName
            { s with cursor := c₂.skipBreak, keyAllowed := s.keyAllowed || !s.inFlow : Scanner }.cursor := before₃
        rcases ih moved with ⟨q₄, z₄, rfl, before₄⟩ | atKey
        · exact .inl ⟨q₀ ++ (q₁ ++ (q₂ ++ (q₃ ++ q₄))), z₄, by simp, before₄⟩
        · exact .inr atKey
      · have rest' : c₂.skipBreak.rest = behindComment := by simp [Cursor.skipBreak, rest, breakWidth]
        rw [skipToToken_behindComment]
        · exact .inr rest'
        · exact rest'
    · next noBreak =>
      rcases before₂ with ⟨q₂, z₂, rfl, before₂⟩ | rest
      · exact .inl ⟨q₀ ++ (q₁ ++ q₂), z₂, by simp, before₂⟩
      · rw [rest] at noBreak
        exact absurd rfl noBreak

/-- A cursor is in front of a part of the name, or of the key behind the comment. -/
def InFront (name : List Char) (c : Cursor) : Prop :=
  (∃ q z, ' ' :: (name ++ ['\n', '\n']) = q ++ z ∧ c.Before z behindName) ∨ c.rest = behindComment

/-- The node of the name is still to be read, in the outermost mapping. -/
structure Waits (name : List Char) (s : Scanner) : Prop where
  indent_eq : s.indent = 1
  keys_length : s.keys.length = 1
  inFront : InFront name s.cursor

variable {name text : List Char} {u : List Token}

theorem atName_waits (name : List Char) : Waits name (atName (' ' :: (name ++ ['\n', '\n']) ++ behindName)) := by
  refine ⟨rfl, rfl, .inl ⟨[], _, rfl, rfl, ?_, nofun⟩⟩
  intro ch last
  rw [← List.cons_append, List.getLast?_append] at last
  cases last
  rfl

/-- No block ends in front of the node of the name. -/
theorem Waits.settle (waits : Waits name s) (settle : s.settle fuel = some s') : Waits name s' := by
  obtain ⟨s₁, expire, rfl⟩ := Option.map_eq_some_iff.1 settle
  have inFront : InFront name (s.skipToToken fuel).cursor := by
    rcases waits.inFront with ⟨q, z, cut, before⟩ | rest
    · rcases before_skipToToken fuel before with ⟨q', z', rfl, before'⟩ | atKey
      · exact .inl ⟨q ++ q', z', by rw [cut, List.append_assoc], before'⟩
      · exact .inr atKey
    · rw [skipToToken_behindComment rest]
      exact .inr rest
  obtain ⟨cursor, keyAllowed, e⟩ := Scanner.exists_skipToToken fuel s
  rw [e] at expire inFront
  obtain ⟨keys, rfl, length, -⟩ := Scanner.exists_expireKeys expire
  rw [Scanner.closeBlocks_of_le]
  · exact ⟨waits.indent_eq, length.trans waits.keys_length, inFront⟩
  · have := waits.indent_eq
    simp only [Scanner.margin]
    omega

/-! ## The node of the name -/

theorem InFront.of_passes {c c' : Cursor} {q : List Char} (inFront : InFront name c) (passes : c.Passes q c')
    (inLine : ∀ ch ∈ q, isBreak ch = false) (noComment : c.rest.head? ≠ some '#') (noKey : c.rest.head? ≠ some 'i') :
    InFront name c' := by
  rcases inFront with ⟨q', z, cut, before⟩ | rest
  · have nonempty : z ≠ [] := by
      rintro rfl
      exact noComment (by rw [before.rest_eq, List.nil_append, head?_behindName])
    obtain ⟨z', -, rfl, before'⟩ := before.of_inLine nonempty passes inLine
    exact .inl ⟨q' ++ q, z', by rw [cut, List.append_assoc], before'⟩
  · exact absurd (by rw [rest, head?_behindComment]) noKey

/-- A property of the name leaves the node of the name to be read. -/
theorem Waits.fetchName (waits : Waits name s) (first : s.cursor.rest.head? = some '&')
    (fetch : s.fetchName .anchor = some s') : Waits name s' := by
  simp only [Scanner.fetchName, Option.bind_eq_bind, Option.bind_eq_some_iff, Option.ite_none_left_eq_some,
    Option.some.injEq] at fetch
  obtain ⟨s₁, save, -, rfl⟩ := fetch
  obtain ⟨keys, rfl, length⟩ := Scanner.exists_saveKey save
  obtain ⟨cs, rest⟩ := List.head?_eq_some_iff.1 first
  have word : ∀ ch ∈ cs.takeWhile isWordChar, isBreak ch = false := by
    intro ch mem
    have tagChar : isTagChar false ch = true := by rw [isTagChar, List.all_eq_true.1 List.all_takeWhile ch mem]; rfl
    exact inLine_of_isTagChar tagChar
  have name : s.cursor.rest = ('&' :: cs.takeWhile isWordChar) ++ cs.dropWhile isWordChar := by
    rw [rest, List.cons_append, List.takeWhile_append_dropWhile]
  have inLine : ∀ ch ∈ '&' :: cs.takeWhile isWordChar, isBreak ch = false := List.forall_mem_cons.2 ⟨rfl, word⟩
  have passes := Cursor.passes_skipMany name inLine
  refine ⟨waits.indent_eq, length waits.keys_length, ?_⟩
  have inFront := waits.inFront.of_passes passes inLine (by rw [first]; decide) (by rw [first]; decide)
  simpa [Scanner.allowKey, Scanner.emit, Scanner.advance, rest] using inFront

theorem Waits.fetchTag (waits : Waits name s) (first : s.cursor.rest.head? = some '!')
    (fetch : s.fetchTag = some s') : Waits name s' := by
  simp only [Scanner.fetchTag, Option.bind_eq_bind, Option.bind_eq_some_iff, Option.some.injEq, Prod.exists] at fetch
  obtain ⟨s₁, save, tag, rest, read, rfl⟩ := fetch
  obtain ⟨keys, rfl, length⟩ := Scanner.exists_saveKey save
  obtain ⟨q, passes, inLine⟩ := Cursor.passes_of_inLine (inLine_of_readTag read)
  refine ⟨waits.indent_eq, length waits.keys_length, waits.inFront.of_passes passes inLine ?_ ?_⟩ <;>
    rw [first] <;> decide

/-- At the key behind the comment the key is read. -/
theorem text_of_readPlain {c c' : Cursor} {margin : Nat} {broken : Bool} (rest : c.rest = behindComment)
    (read : readPlain false margin c = some (text, broken, c')) : text = ['i', 'n', 'p', 'u', 't', 's'] := by
  obtain ⟨cs, e⟩ := behindComment_eq
  rw [e] at rest
  have length : plainWordLength false c.rest = some 6 := by
    rw [rest]
    rfl
  have noMark : (c.atDocumentMark || decide (c.rest.head? = some '#')) = false := by
    simp [Cursor.atDocumentMark, Cursor.startsWithMark, rest]
  have noBlank : (isBreak ':' || isSpaceOrTab ':') = false := rfl
  have word : readPlain false margin c = some (['i', 'n', 'p', 'u', 't', 's'], false, c.skipMany 6) := by
    rw [readPlain, readPlainFrom, noMark, length]
    simp [rest, Cursor.skipMany, noBlank, BlankRun.start, BlankRun.fold]
  cases word.symm.trans read
  rfl

/-- Where something other than a blank or a comment stands in front of the node, it is in the name. -/
theorem InFront.exists_part {c : Cursor} {ch : Char} (inFront : InFront name c) (first : c.rest.head? = some ch)
    (noGap : ¬IsGap ch) (noComment : ch ≠ '#') :
    c.rest = behindComment ∨ ∃ q x, name = q ++ ch :: x ∧ c.Before (ch :: (x ++ ['\n', '\n'])) behindName := by
  obtain ⟨q, z, cut, before⟩ | rest := inFront
  · refine .inr ?_
    rw [before.rest_eq] at first
    cases z with
    | nil =>
      rw [List.nil_append, head?_behindName] at first
      cases first
      exact absurd rfl noComment
    | cons d z =>
      obtain rfl : d = ch := by simpa using first
      rw [← List.cons_append] at cut
      rcases List.append_eq_append_iff.1 cut with ⟨r, -, behind⟩ | ⟨r, inName, behind⟩
      · -- the breaks behind the name are blanks
        have mem : d ∈ ['\n', '\n'] := by
          rw [behind]
          simp
        have lineFeed : d = '\n' := by simpa using mem
        exact absurd (.inl (by rw [lineFeed]; rfl)) noGap
      · cases r with
        | nil =>
          obtain ⟨rfl, -⟩ := List.cons.inj behind
          exact absurd (.inl rfl) noGap
        | cons e x =>
          obtain ⟨rfl, rfl⟩ := List.cons.inj behind
          cases q with
          | nil =>
            obtain ⟨rfl, -⟩ := List.cons.inj inName
            exact absurd (.inr rfl) noGap
          | cons e q => exact ⟨q, x, (List.cons.inj inName).2, before⟩
  · exact .inl rest

/-- A block scalar does not have the text of the name: its sign is in the name, and not in the text. -/
theorem InFront.readBlock_ne {c c' : Cursor} {folded : Bool} {indent : Nat} (inFront : InFront name c)
    (first : c.rest.head? = some (if folded then '>' else '|')) :
    readBlock folded indent c ≠ some (name, c') := by
  intro read
  have mark : ∀ ch ∈ some (if folded then '>' else '|'), ¬IsGap ch ∧ ch ≠ '#' ∧ ch ≠ 'i' ∧ isBreak ch = false := by
    cases folded <;> simp [IsGap, isBreak, isSpaceOrTab]
  obtain ⟨noGap, noComment, noKey, inLine⟩ := mark _ rfl
  rcases inFront.exists_part first noGap noComment with rest | ⟨q, x, part, before⟩
  · rw [rest, head?_behindComment] at first
    exact noKey (Option.some.inj first).symm
  · have bound := ink_le_of_readBlock startsLine_behindName before inLine read
    have counted : ink [if folded then '>' else '|'] = 1 := by cases folded <;> rfl
    rw [part, ← List.singleton_append, ink_append, ink_append, ink_append, counted] at bound
    have : ink ['\n', '\n'] = 0 := rfl
    omega

/-- A quoted scalar does not have the text of the name: its quotes are in the name. -/
theorem InFront.readQuoted_ne {c c' : Cursor} {single : Bool} (inFront : InFront name c)
    (first : c.rest.head? = some (quoteMark single)) : readQuoted single c ≠ some (name, c') := by
  intro read
  have mark : ∀ ch ∈ some (quoteMark single), ¬IsGap ch ∧ ch ≠ '#' ∧ ch ≠ 'i' := by
    cases single <;> simp [quoteMark, IsGap, isBreak, isSpaceOrTab]
  obtain ⟨noGap, noComment, noKey⟩ := mark _ rfl
  rcases inFront.exists_part first noGap noComment with rest | ⟨q, x, part, before⟩
  · rw [rest, head?_behindComment] at first
    exact noKey (Option.some.inj first).symm
  · have unquoted : quoteMark single ∉ '\n' :: '\n' :: behindName := by
      cases single <;> decide +kernel
    have bound := length_lt_of_readQuoted (by simpa using before.rest_eq) unquoted read
    have length := congrArg List.length part
    simp only [List.length_append, List.length_cons] at length
    omega

/-- A plain scalar with the text of the name is all of it. -/
theorem InFront.isPlainLine_of_readPlain {c c' : Cursor} {margin : Nat} {broken : Bool} (inFront : InFront name c)
    (indented : 1 ≤ margin) (permitted : name.all isPermitted = true) (starts : Scanner.startsPlain false c.rest = true)
    (noItem : ¬(c.rest.head? = some '-' ∧ atBlankOrEnd (c.rest.drop 1) = true))
    (read : readPlain false margin c = some (name, broken, c')) : isPlainLine name = true := by
  obtain ⟨ch, cs, rest, noGap, noComment⟩ := first_of_startsPlain starts
  rcases inFront.exists_part (by rw [rest]; rfl) noGap noComment with rest | ⟨q, x, part, before⟩
  · rw [text_of_readPlain rest read]
    rfl
  · rw [← List.cons_append] at before
    obtain ⟨bound, same⟩ := eq_of_readPlain indented head?_behindName (by simp [isBreak]) (by simp) before read
    have length := congrArg List.length part
    rw [List.length_append] at length
    obtain ⟨whole, noBreak, continues⟩ := same (by omega)
    rw [← whole] at before noBreak continues
    have nonempty : name ≠ [] := by
      rw [part]
      simp
    have rest : c.rest = name ++ ('\n' :: '\n' :: behindName) := by
      rw [before.rest_eq, List.append_assoc]
      rfl
    have sameHead : (name ++ '\n' :: '\n' :: behindName).head? = name.head? := by
      rw [List.head?_append, List.head?_eq_some_head nonempty, Option.some_or]
    rw [rest] at starts noItem
    rw [sameHead] at noItem
    have first := (startsPlainLine_iff nonempty rfl).2 ⟨starts, noItem⟩
    simp only [isPlainLine, first, continues, Bool.true_and, List.all_eq_true] at permitted ⊢
    exact fun ch mem => by rw [permitted ch mem, noBreak ch mem]; rfl

/-- Only a plain scalar that is all of the name has the text of it. -/
theorem isPlainLine_of_readsScalar (waits : Waits name s) (permitted : name.all isPermitted = true)
    (reads : s.ReadsScalar name) : isPlainLine name = true := by
  cases reads with
  | block first read => exact absurd read (waits.inFront.readBlock_ne first)
  | quoted first read => exact absurd read (waits.inFront.readQuoted_ne first)
  | plain starts noItem read =>
    exact waits.inFront.isPlainLine_of_readPlain (Nat.le_of_eq waits.indent_eq.symm) permitted starts noItem read

/-! ## The tokens of a name that is no plain line -/

/-- The node of the name is still to be read, or what leads it is not the name. -/
def Misses (name : List Char) (s : Scanner) : Prop :=
  ∃ u, s.Holds front u ∧ (∀ style, lead? u ≠ some (.scalar (String.ofList name) style)) ∧
    (lead? u = none → Waits name s)

/-- Structure that is put in does not bring in the name. -/
theorem noLead_of_sameLead {u u' : List Token} (same : SameLead u u')
    (noName : ∀ style, lead? u ≠ some (.scalar (String.ofList name) style)) :
    (∀ style, lead? u' ≠ some (.scalar (String.ofList name) style)) ∧ (lead? u' = none → lead? u = none) := by
  rcases same with same | ⟨t, isStructure, lead⟩
  · rw [same]
    exact ⟨noName, id⟩
  · rw [lead]
    refine ⟨fun style e => ?_, nofun⟩
    cases e
    cases isStructure

theorem Misses.settle (misses : Misses name s) (settle : s.settle fuel = some s') : Misses name s' := by
  obtain ⟨u, holds, noName, waits⟩ := misses
  obtain ⟨u', same, holds'⟩ := holds.settle settle
  obtain ⟨noName', unled⟩ := noLead_of_sameLead same noName
  exact ⟨u', holds', noName', fun none => (waits (unled none)).settle settle⟩

/-- A token leads if none did, unless it is a property. -/
theorem Misses.emits {t : Token} (misses : Misses name s) (emits : s.Emits t s')
    (noName : Waits name s → ∀ style, t ≠ .scalar (String.ofList name) style)
    (property : t.isProperty = true → Waits name s → Waits name s') : Misses name s' := by
  obtain ⟨u, holds, noLead, waits⟩ := misses
  obtain ⟨u', same, holds'⟩ := emits front u holds
  obtain ⟨noLead', unled⟩ := noLead_of_sameLead same noLead
  refine ⟨u' ++ [t], holds', fun style => ?_, fun none => ?_⟩
  · rw [lead?_append]
    cases lead : lead? u' with
    | some d =>
      rw [lead] at noLead'
      exact noLead' style
    | none =>
      rw [Option.none_or]
      split
      · exact nofun
      · exact fun e => noName (waits (unled lead)) style (Option.some.inj e)
  · rw [lead?_append, Option.or_eq_none_iff] at none
    refine property ?_ (waits (unled none.1))
    cases isProperty : t.isProperty with
    | true => rfl
    | false =>
      rw [isProperty] at none
      cases none.2

theorem Misses.fetch (misses : Misses name s) (permitted : name.all isPermitted = true)
    (noLine : isPlainLine name = false) (fetch : s.fetch = some s') : Misses name s' := by
  rcases Scanner.fetch_cases fetch with ⟨t, property, scalar, emits⟩ | ⟨first, fetch⟩ | ⟨first, fetch⟩ |
    ⟨text, style, emits, reads⟩
  · refine misses.emits emits (fun _ style e => ?_) fun isProperty => ?_
    · rw [e] at scalar
      cases scalar
    · rw [property] at isProperty
      cases isProperty
  · obtain ⟨anchor, emits⟩ := Scanner.emits_name fetch
    exact misses.emits emits nofun fun _ waits => waits.fetchName first fetch
  · obtain ⟨tag, emits⟩ := Scanner.emits_tag fetch
    exact misses.emits emits nofun fun _ waits => waits.fetchTag first fetch
  · refine misses.emits emits (fun waits style e => ?_) nofun
    obtain rfl : text = name := String.ofList_injective (Token.scalar.inj e).1
    rw [isPlainLine_of_readsScalar waits permitted (reads waits.keys_length)] at noLine
    cases noLine

theorem Misses.run {ts : List Token} (misses : Misses name s) (permitted : name.all isPermitted = true)
    (noLine : isPlainLine name = false) (run : s.run fuel = some ts) :
    ∃ u, ts = front ++ u ∧ ∀ style, lead? u ≠ some (.scalar (String.ofList name) style) := by
  induction fuel generalizing s with
  | zero => cases run
  | succ fuel ih =>
    rw [Scanner.run_succ, Option.bind_eq_some_iff] at run
    obtain ⟨s₁, settle, run⟩ := run
    have misses₁ := misses.settle settle
    split at run
    · obtain ⟨s₂, drop, rfl⟩ := Option.map_eq_some_iff.1 run
      obtain ⟨u, holds, noLead, -⟩ := misses₁
      obtain ⟨u', same, holds'⟩ := holds.closeBlocks 0
      exact ⟨u', (holds'.dropKey drop).tokens_eq, (noLead_of_sameLead same noLead).1⟩
    · obtain ⟨s₂, fetch, run⟩ := Option.bind_eq_some_iff.1 run
      exact ih (misses₁.fetch permitted noLine fetch) run

theorem all_isPermitted_of_scan? {name : String} {ts : List Token}
    (scan : Token.scan? (initialText name).toList = some ts) : name.toList.all isPermitted = true := by
  rw [Token.scan?, Option.ite_none_right_eq_some, toList_initialText] at scan
  simp only [List.all_append, List.all_cons, Bool.and_eq_true] at scan
  obtain ⟨⟨-, ⟨-, permitted, -⟩, -⟩, -⟩ := scan
  exact permitted

/-- Where a name is no plain line, what leads its node is not the name. -/
theorem lead?_of_scan? {name : String} {ts : List Token} (scan : Token.scan? (initialText name).toList = some ts)
    (noLine : isPlainLine name.toList = false) :
    ∃ u, ts = front ++ u ∧ ∀ style, lead? u ≠ some (.scalar name style) := by
  have permitted := all_isPermitted_of_scan? scan
  rw [Token.scan?, Option.ite_none_right_eq_some] at scan
  obtain ⟨-, run⟩ := scan
  rw [toList_initialText, List.cons_append, run_front, ← List.cons_append] at run
  have start : Misses name.toList (atName (' ' :: (name.toList ++ ['\n', '\n']) ++ behindName)) :=
    ⟨[], ⟨rfl, by simp [atName]⟩, nofun, fun _ => atName_waits name.toList⟩
  obtain ⟨u, e, noLead⟩ := start.run permitted noLine run
  rw [String.ofList_toList] at noLead
  exact ⟨u, e, noLead⟩

end TypedWrappers.Settings
