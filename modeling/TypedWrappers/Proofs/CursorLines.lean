import TypedWrappers.Yaml.Scalar.Fold

/-!
# Moving over characters

What readers move over, and the lines that are then still in front of a cursor. Behind a line break the cursor is at
column zero.

- `Cursor.Passes`: the characters moved over;
- `Cursor.Before`, `Before.of_gap`, `Before.of_inLine`: the lines that are left in front of a tail;
- `BlankRun.passes_readFrom`: folding a run of blanks never makes it longer.
-/

namespace TypedWrappers.Yaml

/-- A space, a tab or a line break. -/
def IsGap (ch : Char) : Prop :=
  isBreak ch = true ∨ isSpaceOrTab ch = true

theorem isBreak_of_isSpaceOrTab {ch : Char} (blank : isSpaceOrTab ch = true) : isBreak ch = false := by
  simp only [isSpaceOrTab, Bool.or_eq_true, decide_eq_true_eq] at blank
  rcases blank with rfl | rfl <;> rfl

/-- What is left of a text behind characters that are no breaks. -/
def InLine (cs rest : List Char) : Prop :=
  ∃ q, cs = q ++ rest ∧ ∀ ch ∈ q, isBreak ch = false

theorem InLine.refl (cs : List Char) : InLine cs cs :=
  ⟨[], rfl, nofun⟩

theorem InLine.trans {cs cs' cs'' : List Char} (first : InLine cs cs') (second : InLine cs' cs'') : InLine cs cs'' := by
  obtain ⟨q, rfl, inLine⟩ := first
  obtain ⟨q', rfl, inLine'⟩ := second
  exact ⟨q ++ q', by rw [List.append_assoc], List.forall_mem_append.2 ⟨inLine, inLine'⟩⟩

theorem InLine.cons {ch : Char} {cs rest : List Char} (noBreak : isBreak ch = false) (h : InLine cs rest) :
    InLine (ch :: cs) rest := by
  obtain ⟨q, rfl, inLine⟩ := h
  exact ⟨ch :: q, rfl, List.forall_mem_cons.2 ⟨noBreak, inLine⟩⟩

namespace Cursor

variable {tail p q z : List Char} {c c' c'' : Cursor} {ch : Char}

theorem byteCount_append (xs ys : List Char) : byteCount (xs ++ ys) = byteCount xs + byteCount ys := by
  have start (k : Nat) : ys.foldl (fun n c => n + c.utf8Size) k = k + byteCount ys := by
    induction ys generalizing k with
    | nil => rfl
    | cons c ys ih => rw [byteCount, List.foldl_cons, List.foldl_cons, ih, ih, Nat.zero_add, Nat.add_assoc]
  rw [byteCount, List.foldl_append, start]
  rfl

theorem skipMany_skipMany (c : Cursor) (m n : Nat) : (c.skipMany m).skipMany n = c.skipMany (m + n) := by
  simp only [skipMany, List.drop_drop, Nat.add_assoc, List.take_add, byteCount_append]

/-- A cursor has moved over some characters. -/
structure Passes (q : List Char) (c c' : Cursor) : Prop where
  rest_eq : c.rest = q ++ c'.rest
  behindBreak : ∀ ch ∈ q.getLast?, isBreak ch = true → c'.column = 0
  stays : q = [] → c'.column = c.column

theorem Passes.refl (c : Cursor) : Passes [] c c :=
  ⟨rfl, nofun, fun _ => rfl⟩

theorem Passes.trans (first : Passes p c c') (second : Passes q c' c'') : Passes (p ++ q) c c'' := by
  refine ⟨?_, fun ch last atBreak => ?_, fun none => ?_⟩
  · rw [first.rest_eq, second.rest_eq, List.append_assoc]
  · rw [List.getLast?_append, Option.mem_def, Option.or_eq_some_iff] at last
    rcases last with last | ⟨none, last⟩
    · exact second.behindBreak ch last atBreak
    · rw [second.stays (List.getLast?_eq_none_iff.1 none), first.behindBreak ch last atBreak]
  · obtain ⟨rfl, rfl⟩ := List.append_eq_nil_iff.1 none
    rw [second.stays rfl, first.stays rfl]

theorem passes_skipMany (rest_eq : c.rest = p ++ z) (inLine : ∀ ch ∈ p, isBreak ch = false) :
    Passes p c (c.skipMany p.length) := by
  refine ⟨?_, fun ch last atBreak => ?_, ?_⟩
  · rw [skipMany, rest_eq, List.drop_left]
  · rw [inLine ch (List.mem_of_getLast? last)] at atBreak
    cases atBreak
  · rintro rfl
    rfl

theorem passes_skip (rest_eq : c.rest = ch :: z) (inLine : isBreak ch = false) : Passes [ch] c c.skip :=
  passes_skipMany (p := [ch]) rest_eq (by simpa using inLine)

theorem passes_skipWhile {p : Char → Bool} (inLine : ∀ ch, p ch = true → isBreak ch = false) :
    Passes (c.rest.takeWhile p) c (c.skipWhile p) :=
  passes_skipMany List.takeWhile_append_dropWhile.symm fun _ mem =>
    inLine _ (List.all_eq_true.1 List.all_takeWhile _ mem)

theorem rest_skipWhile (p : Char → Bool) : (c.skipWhile p).rest = c.rest.dropWhile p := by
  have cut : (c.rest.takeWhile p ++ c.rest.dropWhile p).drop (c.rest.takeWhile p).length = c.rest.dropWhile p :=
    List.drop_left
  rwa [List.takeWhile_append_dropWhile] at cut

theorem passes_of_inLine {rest : List Char} (h : InLine c.rest rest) :
    ∃ q, Passes q c (c.skipMany (c.rest.length - rest.length)) ∧ ∀ ch ∈ q, isBreak ch = false := by
  obtain ⟨q, cut, inLine⟩ := h
  have length : c.rest.length - rest.length = q.length := by rw [cut, List.length_append, Nat.add_sub_cancel]
  rw [length]
  exact ⟨q, passes_skipMany cut inLine, inLine⟩

/-- A line break is one character or two. -/
theorem passes_skipBreak (rest_eq : c.rest = ch :: z) (atBreak : isBreak ch = true) :
    ∃ q, Passes q c c.skipBreak ∧ q ≠ [] ∧ ∀ d ∈ q, isBreak d = true := by
  have width : ∃ q r, c.rest = q ++ r ∧ breakWidth c.rest = q.length ∧ q ≠ [] ∧ ∀ d ∈ q, isBreak d = true := by
    rw [rest_eq, breakWidth.eq_def]
    split
    · next cs e => exact ⟨['\r', '\n'], cs, e, rfl, by simp, by simp [isBreak]⟩
    · exact ⟨[ch], z, rfl, rfl, by simp, by simpa using atBreak⟩
    · next e => cases e
  obtain ⟨q, r, cut, length, some, breaks⟩ := width
  refine ⟨q, ⟨?_, fun _ _ _ => rfl, fun none => absurd none some⟩, some, breaks⟩
  rw [skipBreak, length, cut, List.drop_left]

/-- A cursor stands in front of whole lines, the first of which may be a part of one, and then of a tail. -/
structure Before (z tail : List Char) (c : Cursor) : Prop where
  rest_eq : c.rest = z ++ tail
  lines : ∀ ch ∈ z.getLast?, isBreak ch = true
  column_eq : z = [] → c.column = 0

/-- The start of a line that is neither a break nor a blank. -/
def StartsLine (tail : List Char) : Prop :=
  ∃ ch cs, tail = ch :: cs ∧ ¬IsGap ch

namespace Before

theorem of_passes (before : c.Before (q ++ z) tail) (passes : Passes q c c') : c'.Before z tail := by
  refine ⟨?_, fun ch last => ?_, fun none => ?_⟩
  · have e := passes.rest_eq
    rw [before.rest_eq, List.append_assoc] at e
    exact (List.append_cancel_left e).symm
  · exact before.lines ch (by simp [List.getLast?_append, Option.mem_def.1 last])
  · subst none
    cases last : q.getLast? with
    | none =>
      obtain rfl := List.getLast?_eq_none_iff.1 last
      rw [passes.stays rfl, before.column_eq rfl]
    | some ch => exact passes.behindBreak ch last (before.lines ch (by simp [last]))

/-- Blanks and breaks that are moved over are in front of the tail. -/
theorem of_gap (starts : StartsLine tail) (before : c.Before z tail) (passes : Passes q c c')
    (gap : ∀ ch ∈ q, IsGap ch) : ∃ z', z = q ++ z' ∧ c'.Before z' tail := by
  have e := before.rest_eq.symm.trans passes.rest_eq
  rcases List.append_eq_append_iff.1 e with ⟨r, rfl, behind⟩ | ⟨z', rfl, -⟩
  · obtain ⟨ch, cs, rfl, noGap⟩ := starts
    cases r with
    | nil =>
      rw [List.append_nil] at passes
      exact ⟨[], by simp, of_passes ((List.append_nil z).symm ▸ before) passes⟩
    | cons d r =>
      obtain ⟨rfl, -⟩ := List.cons.inj behind
      exact absurd (gap ch (by simp)) noGap
  · exact ⟨z', rfl, before.of_passes passes⟩

/-- Of a line that is moved over at least the break is left. -/
theorem of_inLine (before : c.Before z tail) (some : z ≠ []) (passes : Passes q c c')
    (inLine : ∀ ch ∈ q, isBreak ch = false) : ∃ z', z' ≠ [] ∧ z = q ++ z' ∧ c'.Before z' tail := by
  have e := before.rest_eq.symm.trans passes.rest_eq
  have last := before.lines (z.getLast some) (by simp [List.getLast?_eq_some_getLast some])
  have beyond {r : List Char} : q ≠ z ++ r := by
    rintro rfl
    rw [inLine _ (List.mem_append_left _ (List.getLast_mem some))] at last
    cases last
  rcases List.append_eq_append_iff.1 e with ⟨r, cut, -⟩ | ⟨z', rfl, -⟩
  · exact absurd cut beyond
  · refine ⟨z', ?_, rfl, before.of_passes passes⟩
    rintro rfl
    exact beyond (by rw [List.append_nil, List.append_nil])

/-- Skipping characters inside a line. -/
theorem skipWhile {p : Char → Bool} (inLine : ∀ ch, p ch = true → isBreak ch = false) (before : c.Before z tail)
    (nonempty : z ≠ []) :
    ∃ z', z' ≠ [] ∧ z = c.rest.takeWhile p ++ z' ∧ (c.skipWhile p).Before z' tail ∧
      ∀ ch ∈ z'.head?, p ch = false := by
  have passes := passes_skipWhile (c := c) inLine
  obtain ⟨z', more, cut, before'⟩ := before.of_inLine nonempty passes fun ch mem =>
    inLine ch (List.all_eq_true.1 List.all_takeWhile ch mem)
  refine ⟨z', more, cut, before', fun ch first => ?_⟩
  have rest' : c.rest.dropWhile p = z' ++ tail := by
    have e := passes.rest_eq
    rw [before'.rest_eq] at e
    exact List.append_cancel_left (List.takeWhile_append_dropWhile.trans e)
  have stops := List.head?_dropWhile_not p c.rest
  rw [rest', List.head?_append, Option.mem_def.1 first] at stops
  simpa using stops

theorem skipBreak (starts : StartsLine tail) (before : c.Before (ch :: z) tail) (atBreak : isBreak ch = true) :
    ∃ q z', ch :: z = q ++ z' ∧ (∀ d ∈ q, isBreak d = true) ∧ c.skipBreak.Before z' tail := by
  obtain ⟨q, passes, -, breaks⟩ := passes_skipBreak before.rest_eq atBreak
  obtain ⟨z', cut, before'⟩ := before.of_gap starts passes fun d mem => .inl (breaks d mem)
  exact ⟨q, z', cut, breaks, before'⟩

end Before

end Cursor

/-! ## Runs of blanks -/

namespace BlankRun

variable {margin fuel : Nat} {run run' : BlankRun} {c c' : Cursor}

/-- How far a run counts towards the text, with the blanks in front of the next word on a further line. -/
def weight (run : BlankRun) (c : Cursor) : Nat :=
  run.fold.length + if run.broken then c.column else 0

theorem weight_addBlank (run : BlankRun) (c : Cursor) (ch : Char) :
    (run.addBlank ch).weight c.skip ≤ run.weight c + 1 := by
  have column : c.skip.column = c.column + 1 := rfl
  cases broken : run.broken with
  | true => simp [addBlank, weight, broken, column, Nat.add_assoc]
  | false => simp [addBlank, weight, fold, broken]

theorem fold_addBlank {run : BlankRun} {ch : Char} (unbroken : run.broken = false) :
    (run.addBlank ch).fold = run.fold ++ [ch] := by
  simp [addBlank, fold, unbroken]

/-- A first break counts as one character, and of further breaks each. -/
theorem weight_addBreak (run : BlankRun) (c : Cursor) (ch : Char) :
    (run.addBreak ch).weight c.skipBreak ≤ run.weight c + 1 := by
  have column : c.skipBreak.column = 0 := rfl
  cases broken : run.broken with
  | false =>
    have first : (run.addBreak ch).fold.length = 1 := by
      simp only [addBreak, broken, fold, Bool.false_eq_true, if_false, if_true]
      split <;> first | rfl | contradiction
    simp [weight, column, first]
  | true =>
    have further : (run.addBreak ch).fold.length ≤ run.fold.length + 1 := by
      simp only [addBreak, broken, fold, if_true]
      split
      · cases run.moreBreaks <;> simp
      · simp
      · simp
    simp only [weight, column, broken, if_true]
    split <;> omega

theorem broken_addBreak (run : BlankRun) (ch : Char) : (run.addBreak ch).broken = true := by
  rw [addBreak]
  split
  · assumption
  · rfl

theorem broken_addBlank (run : BlankRun) (ch : Char) : (run.addBlank ch).broken = run.broken := by
  rw [addBlank]
  split <;> rfl

/-- A run that has ended a line is not taken back to one that has not. -/
theorem broken_of_readFrom (read : readFrom margin fuel run c = some (run', c')) (broken : run.broken = true) :
    run'.broken = true := by
  induction fuel generalizing run c with
  | zero => cases read
  | succ fuel ih =>
    rw [readFrom] at read
    split at read
    · cases read
      exact broken
    · split at read
      · split at read
        · cases read
        · exact ih read (by rw [broken_addBlank, broken])
      · split at read
        · exact ih read (broken_addBreak run _)
        · cases read
          exact broken

/-- Reading a run of blanks and breaks takes some characters; folded and with the blanks in front of the next word it
is no longer than these. A run without a break is kept as it is. -/
theorem passes_readFrom (read : readFrom margin fuel run c = some (run', c')) :
    ∃ q, c.Passes q c' ∧ (∀ ch ∈ q, IsGap ch) ∧ run'.weight c' ≤ run.weight c + q.length ∧
      (run'.broken = false → (∀ ch ∈ q, isBreak ch = false) ∧ run'.fold = run.fold ++ q) := by
  induction fuel generalizing run c with
  | zero => cases read
  | succ fuel ih =>
    rw [readFrom] at read
    have nothing : ∃ q, c.Passes q c ∧ (∀ ch ∈ q, IsGap ch) ∧ run.weight c ≤ run.weight c + q.length ∧
        (run.broken = false → (∀ ch ∈ q, isBreak ch = false) ∧ run.fold = run.fold ++ q) :=
      ⟨[], .refl c, nofun, by simp, by simp⟩
    cases rest : c.rest with
    | nil =>
      simp only [rest, Option.some.injEq, Prod.mk.injEq] at read
      obtain ⟨rfl, rfl⟩ := read
      exact nothing
    | cons ch cs =>
      simp only [rest] at read
      by_cases blank : isSpaceOrTab ch = true
      · rw [if_pos blank] at read
        split at read
        · cases read
        · obtain ⟨q, passes, gap, weight, kept⟩ := ih read
          have inLine : isBreak ch = false := isBreak_of_isSpaceOrTab blank
          have step : c.Passes [ch] c.skip := Cursor.passes_skip rest inLine
          refine ⟨ch :: q, step.trans passes, List.forall_mem_cons.2 ⟨.inr blank, gap⟩, ?_, fun unbroken => ?_⟩
          · have more := weight_addBlank run c ch
            rw [List.length_cons]
            omega
          · obtain ⟨inLine', fold⟩ := kept unbroken
            refine ⟨List.forall_mem_cons.2 ⟨inLine, inLine'⟩, ?_⟩
            have start : run.broken = false := by
              cases broken : run.broken with
              | false => rfl
              | true => rw [broken_of_readFrom read (by rw [broken_addBlank, broken])] at unbroken; cases unbroken
            rw [fold, fold_addBlank start, List.append_assoc, List.singleton_append]
      · rw [if_neg blank] at read
        split at read
        · next atBreak =>
          obtain ⟨q, passes, gap, weight, -⟩ := ih read
          obtain ⟨p, step, some, breaks⟩ := Cursor.passes_skipBreak rest atBreak
          refine ⟨p ++ q, step.trans passes, ?_, ?_, fun unbroken => ?_⟩
          · exact List.forall_mem_append.2 ⟨fun d mem => .inl (breaks d mem), gap⟩
          · have more := weight_addBreak run c ch
            have := List.length_pos_iff.2 some
            rw [List.length_append]
            omega
          · rw [broken_of_readFrom read (broken_addBreak run ch)] at unbroken
            cases unbroken
        · simp only [Option.some.injEq, Prod.mk.injEq] at read
          obtain ⟨rfl, rfl⟩ := read
          exact nothing

theorem passes_read {broken : Bool} (read : BlankRun.read margin broken c = some (run', c'))
    (lineStart : broken = true → c.column = 0) :
    ∃ q, c.Passes q c' ∧ (∀ ch ∈ q, IsGap ch) ∧ run'.fold.length ≤ q.length ∧
      (0 < c'.column → run'.fold.length = q.length → broken = false → (∀ ch ∈ q, isBreak ch = false) ∧
        run'.fold = q) := by
  obtain ⟨q, passes, gap, bound, kept⟩ := passes_readFrom read
  have first : (start broken).fold = [] := by cases broken <;> rfl
  have nothing : (start broken).weight c = 0 := by
    rw [weight, first]
    cases broken with
    | false => rfl
    | true => simp [lineStart rfl]
  rw [nothing, Nat.zero_add, weight] at bound
  refine ⟨q, passes, gap, by omega, fun inside e unbroken => ?_⟩
  cases run'Broken : run'.broken with
  | false => simpa [first] using kept run'Broken
  | true =>
    -- the blanks in front of the next word are lost
    rw [run'Broken, if_pos rfl] at bound
    omega

theorem readFrom_blanks {q r : List Char} (rest : c.rest = q ++ r) (blanks : ∀ ch ∈ q, isSpaceOrTab ch = true)
    (unbroken : run.broken = false) :
    readFrom margin (fuel + q.length) run c =
      readFrom margin fuel { run with spaces := run.spaces ++ q } (c.skipMany q.length) := by
  induction q generalizing run c with
  | nil => simp [Cursor.skipMany, byteCount]
  | cons ch q ih =>
    obtain ⟨blank, blanks⟩ := List.forall_mem_cons.1 blanks
    have rest' : c.skip.rest = q ++ r := by simp [Cursor.skip, Cursor.skipMany, rest]
    have cursor : c.skip.skipMany q.length = c.skipMany (ch :: q).length := by
      rw [Cursor.skip, Cursor.skipMany_skipMany, List.length_cons, Nat.add_comm]
    rw [List.length_cons, ← Nat.add_assoc, readFrom, rest]
    simp only [List.cons_append, blank, unbroken, if_true, Bool.false_and, Bool.false_eq_true, if_false]
    rw [ih rest' blanks (by rw [broken_addBlank, unbroken]), cursor, addBlank, unbroken]
    simp

/-- Blanks inside a line are kept. -/
theorem read_blanks (margin : Nat) {q r : List Char} (rest : c.rest = q ++ r)
    (blanks : ∀ ch ∈ q, isSpaceOrTab ch = true) (word : ∀ ch ∈ r.head?, ¬IsGap ch) (more : r ≠ []) :
    BlankRun.read margin false c = some (⟨q, false, none, []⟩, c.skipMany q.length) := by
  obtain ⟨ch, r, rfl⟩ := List.exists_cons_of_ne_nil more
  have noGap : isSpaceOrTab ch = false ∧ isBreak ch = false := by
    simpa [IsGap, not_or, and_comm] using word ch rfl
  have fuel : (c.rest.takeWhile fun ch => isSpaceOrTab ch || isBreak ch).length = q.length := by
    rw [rest, List.takeWhile_append_of_pos fun d mem => by simp [blanks d mem]]
    simp [noGap]
  have rest' : (c.skipMany q.length).rest = ch :: r := by rw [Cursor.skipMany, rest, List.drop_left]
  rw [BlankRun.read, fuel, Nat.add_comm, readFrom_blanks rest blanks rfl, readFrom, rest']
  simp [noGap, start]

/-- An empty line is one line feed. -/
theorem read_emptyLine (margin : Nat) {tail : List Char} (rest : c.rest = '\n' :: '\n' :: tail)
    (starts : Cursor.StartsLine tail) :
    BlankRun.read margin false c = some (⟨[], true, some '\n', ['\n']⟩, c.skipBreak.skipBreak) := by
  obtain ⟨ch, cs, rfl, word⟩ := starts
  have noGap : isSpaceOrTab ch = false ∧ isBreak ch = false := by simpa [IsGap, not_or, and_comm] using word
  have first : c.skipBreak.rest = '\n' :: ch :: cs := by simp [Cursor.skipBreak, rest, breakWidth]
  have second : c.skipBreak.skipBreak.rest = ch :: cs := by
    rw [Cursor.skipBreak, first]
    simp [breakWidth]
  have lineFeed : isSpaceOrTab '\n' = false ∧ isBreak '\n' = true := by decide
  simp [BlankRun.read, rest, readFrom, first, second, noGap, lineFeed, start, addBreak, breakChar]

end BlankRun

end TypedWrappers.Yaml
