import TypedWrappers.Proofs.ReadSettings
import TypedWrappers.Proofs.ScanSteps

/-!
# Projects with a plain line for a name

A plain line is read as the node of the name, whatever its characters. What stands behind it is the same for all names,
but at another place in the text.

- `Settings.run_atName`: the tokens of the name;
- `Settings.run_behindNode`: the tokens behind it;
- `Settings.ofText?_initialText_iff`: the names that a new project is loaded with.
-/

namespace TypedWrappers.Settings

open Yaml

variable {name : String} {fuel i : Nat}

/-! ## The tokens of the name -/

/-- The tokens up to the name. -/
def nameTokens (name : String) : List Token :=
  front ++ [Token.scalar name .plain]

/-- The scanner behind the node of the name, at the comment. -/
def behindNode (name : String) (i : Nat) : Scanner :=
  ⟨⟨behindName, i, 3, 0⟩, (nameTokens name).toArray, 1, [0], [none], true⟩

/-- A plain line is a plain scalar, behind which a key may start. -/
theorem run_atName (line : isPlainLine name.toList = true) :
    ∃ i, ∀ fuel, (atName (' ' :: (name.toList ++ '\n' :: '\n' :: behindName))).run (fuel + 1) =
      (behindNode name i).run fuel := by
  have starts : startsPlainLine name.toList = true := by
    simp only [isPlainLine, Bool.and_eq_true] at line
    exact line.1.1
  have nonempty : name.toList ≠ [] := by
    intro none
    rw [none] at starts
    cases starts
  have head? : (name.toList ++ '\n' :: '\n' :: behindName).head? = name.toList.head? := by
    rw [List.head?_append, List.head?_eq_some_head nonempty, Option.some_or]
  obtain ⟨startsPlain, noItem⟩ := (startsPlainLine_iff nonempty (r := '\n' :: '\n' :: behindName) rfl).1 starts
  rw [← head?] at noItem
  have first : ∀ ch ∈ (name.toList ++ '\n' :: '\n' :: behindName).head?, ¬IsGap ch ∧ ch ≠ '#' := by
    rw [head?]
    exact first_of_startsPlainLine starts
  generalize text : name.toList ++ '\n' :: '\n' :: behindName = cs at *
  have settle (fuel : Nat) : (atName (' ' :: cs)).settle (fuel + 1) =
      some ⟨⟨cs, 36, 1, 6⟩, front.toArray, 1, [0], [none], false⟩ := by
    rw [Scanner.settle, Scanner.skipToToken_spaces (q := [' ']) rfl (by simp) first (by simp [atName])]
    rfl
  have read := readPlain_of_isPlainLine startsLine_behindName Nat.zero_lt_one line (c := ⟨cs, 36, 1, 6⟩) text.symm
    (Nat.le_of_ble_eq_true rfl)
  obtain ⟨i, behind⟩ : ∃ i, ((Cursor.mk cs 36 1 6).skipMany name.toList.length).skipBreak.skipBreak =
      ⟨behindName, i, 3, 0⟩ :=
    ⟨36 + byteCount name.toList + byteCount ['\n'] + byteCount ['\n'], by
      simp [← text, Cursor.skipMany, Cursor.skipBreak, breakWidth]⟩
  refine ⟨i, fun fuel => Scanner.run_of_step ?_⟩
  rw [Scanner.step, settle, Option.bind_some, Scanner.fetch_eq_fetchPlain rfl (Nat.succ_ne_zero 5) startsPlain noItem,
    Scanner.fetchPlain_of_readPlain rfl rfl read, behind, String.ofList_toList]
  rfl

/-! ## The tokens behind the name -/

/-- The tokens up to the inputs. -/
def inputsTokens (name : String) : List Token :=
  nameTokens name ++ [.key, .scalar "inputs" .plain, .value]

/-- The tokens up to the item of the inputs. -/
def itemTokens (name : String) : List Token :=
  inputsTokens name ++ [.blockSequenceStart, .blockEntry, .scalar "snapshots" .plain]

/-- The tokens up to the output directory. -/
def outputTokens (name : String) : List Token :=
  itemTokens name ++ [.blockEnd, .key, .scalar "output_dir" .plain, .value]

/-- The tokens of all settings. -/
def allTokens (name : String) : List Token :=
  outputTokens name ++ [.scalar "generated" .plain, .blockEnd]

/-- The scanner in the outermost mapping, so many characters behind the comment, with a key remembered or none. -/
def inMapping (tokens : List Token) (n line column i : Nat) (key : Option PossibleKey) : Scanner :=
  ⟨⟨behindComment.drop n, i + n, line, column⟩, tokens.toArray, 1, [0], [key], false⟩

/-- The scanner in the sequence of the inputs. -/
def inInputs (tokens : List Token) (n line column i : Nat) (key : Option PossibleKey) : Scanner :=
  ⟨⟨behindComment.drop n, i + n, line, column⟩, tokens.toArray, 3, [1, 0], [key], true⟩

/-- At a colon near to the key in front of it the value starts. -/
theorem step_of_colon {tokens : List Token} {n line column : Nat} {key : PossibleKey}
    (colon : (behindComment.drop n).head? = some ':') (inside : column ≠ 0) (sameLine : line = key.line)
    (near : i + n ≤ key.index + 1024) :
    (inMapping tokens n line column i (some key)).step fuel = (inMapping tokens n line column i (some key)).fetch := by
  refine Scanner.step_of_near (fun ch first => ?_) inside rfl (Nat.le_of_eq sameLine) near
    (Nat.succ_le_succ (Nat.zero_le _))
  cases colon.symm.trans first
  exact ⟨by simp [IsGap, isBreak, isSpaceOrTab], by decide⟩

theorem step_inputs : (behindNode name i).step (fuel + 2) =
    some (inMapping (nameTokens name ++ [.scalar "inputs" .plain]) 6 4 6 (i + 32) (some ⟨true, 5, i + 32, 4, 0⟩)) := by
  cbv

theorem step_inputsColon :
    (inMapping (nameTokens name ++ [.scalar "inputs" .plain]) 6 4 6 i (some ⟨true, 5, i, 4, 0⟩)).step fuel =
      some (inMapping (inputsTokens name) 7 4 7 i none) := by
  have colon : (behindComment.drop 6).head? = some ':' := by cbv
  have fetch : (inMapping (nameTokens name ++ [.scalar "inputs" .plain]) 6 4 6 i (some ⟨true, 5, i, 4, 0⟩)).fetch =
      some (inMapping (inputsTokens name) 7 4 7 i none) := by
    cbv
  exact Eq.trans (step_of_colon colon (Nat.succ_ne_zero 5) rfl (Nat.add_le_add_left (by decide) i)) fetch

theorem step_hyphen : (inMapping (inputsTokens name) 7 4 7 i none).step (fuel + 2) =
    some (inInputs (inputsTokens name ++ [.blockSequenceStart, .blockEntry]) 11 5 3 i none) := by
  cbv

theorem step_item : (inInputs (inputsTokens name ++ [.blockSequenceStart, .blockEntry]) 11 5 3 i none).step (fuel + 1) =
    some (inInputs (itemTokens name) 23 7 0 i (some ⟨false, 10, i + 12, 5, 4⟩)) := by
  cbv

/-- On a later line the item is no key, and the sequence ends. -/
theorem step_outputDir :
    (inInputs (itemTokens name) 23 7 0 i (some ⟨false, 10, i + 12, 5, 4⟩)).step (fuel + 2) =
      some (inMapping (itemTokens name ++ [.blockEnd, .scalar "output_dir" .plain]) 94 8 10 i
        (some ⟨true, 12, i + 84, 8, 0⟩)) := by
  have skip : (inInputs (itemTokens name) 23 7 0 i (some ⟨false, 10, i + 12, 5, 4⟩)).skipToToken (fuel + 2) =
      inInputs (itemTokens name) 84 8 0 i (some ⟨false, 10, i + 12, 5, 4⟩) := by
    cbv
  have fetch : ((inInputs (itemTokens name) 84 8 0 i none).closeBlocks 1).fetch =
      some (inMapping (itemTokens name ++ [.blockEnd, .scalar "output_dir" .plain]) 94 8 10 i
        (some ⟨true, 12, i + 84, 8, 0⟩)) := by
    cbv
  exact (Scanner.step_of_later skip rfl (by decide : 5 < 8) rfl).trans fetch

theorem step_outputDirColon :
    (inMapping (itemTokens name ++ [.blockEnd, .scalar "output_dir" .plain]) 94 8 10 i
        (some ⟨true, 12, i + 84, 8, 0⟩)).step fuel =
      some (inMapping (outputTokens name) 95 8 11 i none) := by
  have colon : (behindComment.drop 94).head? = some ':' := by cbv
  have fetch : (inMapping (itemTokens name ++ [.blockEnd, .scalar "output_dir" .plain]) 94 8 10 i
      (some ⟨true, 12, i + 84, 8, 0⟩)).fetch = some (inMapping (outputTokens name) 95 8 11 i none) := by
    cbv
  have near : i + 94 ≤ i + 84 + 1024 := by omega
  exact Eq.trans (step_of_colon colon (Nat.succ_ne_zero 9) rfl near) fetch

theorem run_outputDir : (inMapping (outputTokens name) 95 8 11 i none).run (fuel + 2) = some (allTokens name) := by
  cbv

theorem run_behindNode (i fuel : Nat) : (behindNode name i).run (fuel + 8) = some (allTokens name) := by
  rw [Scanner.run_of_step step_inputs, Scanner.run_of_step step_inputsColon, Scanner.run_of_step step_hyphen,
    Scanner.run_of_step step_item, Scanner.run_of_step step_outputDir, Scanner.run_of_step step_outputDirColon,
    run_outputDir]

/-! ## The settings -/

theorem all_isPermitted_initialText (permitted : name.toList.all isPermitted = true) :
    (initialText name).toList.all isPermitted = true := by
  have front : "# wfgen Project Configuration\nname:".toList.all isPermitted = true := by decide +kernel
  have behind : behindName.all isPermitted = true := by decide +kernel
  simp only [toList_initialText, List.all_append, List.all_cons, List.all_nil, front, behind, permitted]
  decide

theorem scan?_initialText (line : isPlainLine name.toList = true) :
    Token.scan? (initialText name).toList = some (allTokens name) := by
  have permitted : name.toList.all isPermitted = true := by
    simp only [isPlainLine, Bool.and_eq_true, List.all_eq_true] at line ⊢
    exact fun ch mem => (line.2 ch mem).1
  obtain ⟨fuel, length⟩ : ∃ fuel, (initialText name).toList.length = fuel + 9 := by
    have front : "# wfgen Project Configuration\nname:".toList.length = 35 := by decide +kernel
    refine ⟨_, (Nat.sub_add_cancel ?_).symm⟩
    rw [toList_initialText, List.length_append, front]
    omega
  obtain ⟨i, node⟩ := run_atName line
  rw [Token.scan?, if_pos (all_isPermitted_initialText permitted), length, toList_initialText, List.cons_append,
    run_front, List.append_assoc]
  exact (node (fuel + 8)).trans (run_behindNode i fuel)

/-- The settings of a new project. -/
def initial (name : String) : Settings :=
  ⟨name, defaultInputs, defaultOutputDir⟩

theorem ofText?_of_scan? (scan : Token.scan? (initialText name).toList = some (allTokens name)) :
    ofText? (initialText name) = some (initial name) := by
  rw [ofText?, Document.parse?, scan]
  cbv

/-- Without a name its place is left blank. -/
theorem ofText?_initialText_empty : ofText? (initialText "") = some (initial "") := by
  rw [ofText?, Document.parse?, toList_initialText]
  cbv

/-- **A new project is loaded with the settings it was made with** exactly where its name is blank or a plain line. -/
theorem ofText?_initialText_iff (name : String) :
    ofText? (initialText name) = some (initial name) ↔ name = "" ∨ isPlainLine name.toList = true := by
  refine ⟨fun read => isPlainLine_of_ofText? read rfl, ?_⟩
  rintro (rfl | line)
  · exact ofText?_initialText_empty
  · exact ofText?_of_scan? (scan?_initialText line)

end TypedWrappers.Settings
