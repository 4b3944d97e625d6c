import TypedWrappers.Proofs.TokenScan

/-!
# Reading tokens step by step

Reading all tokens is a chain of steps, each of which goes to a token and reads it. So a run over a text is put together
from runs over its parts.

- `Scanner.step`, `Scanner.run_of_step`: the step that a run starts with;
- `Scanner.step_of_near`, `Scanner.step_of_later`: a key that was remembered, on this line or on an earlier one;
- `Scanner.fetch_eq_fetchPlain`: where a plain scalar starts one is read.
-/

namespace TypedWrappers.Yaml.Scanner

variable {s s' : Scanner} {fuel : Nat} {key : PossibleKey}

/-! ## Steps -/

/-- Goes to the next token and reads it. -/
def step (fuel : Nat) (s : Scanner) : Option Scanner :=
  (s.settle fuel).bind fetch

theorem rest_ne_nil_of_fetch (fetch : s.fetch = some s') : s.cursor.rest ≠ [] := by
  intro none
  simp [Scanner.fetch, none, Cursor.startsWithMark, startsPlain] at fetch

/-- A run goes on behind its first step. -/
theorem run_of_step (step : s.step (fuel + 1) = some s') : s.run (fuel + 1) = s'.run fuel := by
  obtain ⟨s₁, settle, fetch⟩ := Option.bind_eq_some_iff.1 step
  rw [run_succ, settle, Option.bind_some, if_neg (rest_ne_nil_of_fetch fetch), fetch, Option.bind_some]

/-! ## Remembered keys -/

theorem expireKeys_of_near (keys : s.keys = [some key]) (line : s.cursor.line ≤ key.line)
    (near : s.cursor.index ≤ key.index + 1024) : s.expireKeys = some s := by
  have kept : expireKey s.cursor (some key) = some (some key) := by
    simp [expireKey, Nat.not_lt.2 line, Nat.not_lt.2 near]
  have all : s.keys.mapM (expireKey s.cursor) = some s.keys := by simp [keys, kept]
  rw [expireKeys, all]
  rfl

theorem expireKeys_of_later (keys : s.keys = [some key]) (line : key.line < s.cursor.line)
    (optional : key.isRequired = false) : s.expireKeys = some { s with keys := [none] } := by
  have forgotten : expireKey s.cursor (some key) = some none := by simp [expireKey, line, optional]
  have all : s.keys.mapM (expireKey s.cursor) = some [none] := by simp [keys, forgotten]
  rw [expireKeys, all]
  rfl

/-- Reads a token that stands here and near to a key that is remembered. -/
theorem step_of_near (first : ∀ ch ∈ s.cursor.rest.head?, ¬IsGap ch ∧ ch ≠ '#') (column : s.cursor.column ≠ 0)
    (keys : s.keys = [some key]) (line : s.cursor.line ≤ key.line) (near : s.cursor.index ≤ key.index + 1024)
    (inside : s.indent ≤ s.margin) : s.step fuel = s.fetch := by
  rw [step, settle, skipToToken_eq_self first fun h => column h.1, expireKeys_of_near keys line near, Option.map_some,
    closeBlocks_of_le inside, Option.bind_some]

/-- On a later line a key that is remembered is forgotten. -/
theorem step_of_later (skip : s.skipToToken fuel = s') (keys : s'.keys = [some key]) (line : key.line < s'.cursor.line)
    (optional : key.isRequired = false) :
    s.step fuel = ({ s' with keys := [none] }.closeBlocks s'.margin).fetch := by
  rw [step, settle, skip, expireKeys_of_later keys line optional]
  rfl

/-! ## Plain scalars -/

theorem fetch_eq_fetchPlain (outside : s.keys.length = 1) (column : s.cursor.column ≠ 0)
    (starts : startsPlain false s.cursor.rest = true)
    (noItem : ¬(s.cursor.rest.head? = some '-' ∧ atBlankOrEnd (s.cursor.rest.drop 1) = true)) :
    s.fetch = s.fetchPlain := by
  have noFlow : s.inFlow = false := by simp [inFlow, outside]
  cases rest : s.cursor.rest with
  | nil =>
    rw [rest] at starts
    cases starts
  | cons ch cs =>
    rw [rest] at starts noItem
    have marks (d : Char) : decide ((ch :: cs).head? = some d) = decide (ch = d) := by simp
    simp only [fetch, Cursor.startsWithMark, column, noFlow, rest, marks, starts, List.drop_one, List.tail_cons,
      decide_false, Bool.false_and, Bool.false_or, if_true, if_false, Bool.false_eq_true, Bool.not_false, Bool.and_true]
    simp only [startsPlain, Bool.or_eq_true, Bool.and_eq_true, Bool.not_eq_true', decide_eq_true_eq] at starts
    rcases starts with (⟨-, sign⟩ | ⟨rfl, sign⟩) | ⟨⟨-, rfl | rfl⟩, sign⟩
    · simp only [isIndicator, List.contains_eq_mem, List.mem_cons, List.not_mem_nil, decide_eq_false_iff_not,
        not_or] at sign
      simp [sign]
    · have noBlank : atBlankOrEnd cs = false := by simpa using noItem
      simp [noBlank]
    · simp [sign]
    · simp [sign]

/-- A plain scalar where no key may start. -/
theorem fetchPlain_of_readPlain {text : List Char} {broken : Bool} {c : Cursor} (noKey : s.keyAllowed = false)
    (outside : s.keys.length = 1) (read : readPlain false s.indent s.cursor = some (text, broken, c)) :
    s.fetchPlain = some (((s.emit (.scalar (String.ofList text) .plain)).moveTo c).allowKey broken) := by
  simp [fetchPlain, saveKey, noKey, inFlow, outside, read]

end TypedWrappers.Yaml.Scanner
