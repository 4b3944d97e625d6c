import TypedWrappers.Proofs.CursorLines
import TypedWrappers.Yaml.Scalar.Block
import TypedWrappers.Yaml.Scalar.Quoted
import TypedWrappers.Yaml.Tag

/-!
# What tags and scalars take of a text

A tag stands on one line. The text of a scalar in quotes or of a block scalar is less than what is written for it.

- `inLine_of_readTag`: the line of a tag goes on behind it;
- `length_lt_of_readQuoted`: a text is no longer than what stands between its quotes;
- `ink_le_of_readBlock`: a block scalar has no more characters, blanks and breaks apart, than its lines.
-/

namespace TypedWrappers.Yaml

open Text

variable {single broken : Bool} {fuel : Nat} {text t : List Char} {c c' : Cursor}

/-! ## Tags -/

theorem inLine_of_hexDigit? {ch : Char} {n : Nat} (digit : hexDigit? ch = some n) : isBreak ch = false := by
  cases atBreak : isBreak ch with
  | false => rfl
  | true =>
    simp only [isBreak, Bool.or_eq_true, decide_eq_true_eq] at atBreak
    rcases atBreak with (((rfl | rfl) | rfl) | rfl) | rfl <;> cases digit

theorem inLine_of_isTagChar {verbatim : Bool} {ch : Char} (tagChar : isTagChar verbatim ch = true) :
    isBreak ch = false := by
  cases atBreak : isBreak ch with
  | false => rfl
  | true =>
    simp only [isBreak, Bool.or_eq_true, decide_eq_true_eq] at atBreak
    rcases atBreak with (((rfl | rfl) | rfl) | rfl) | rfl <;> cases verbatim <;> cases tagChar

theorem inLine_of_readEscapedByte {cs rest : List Char} {byte : UInt8}
    (read : readEscapedByte cs = some (byte, rest)) : InLine cs rest := by
  unfold readEscapedByte at read
  split at read
  · next a b cs =>
    obtain ⟨n, digits, e⟩ := Option.map_eq_some_iff.1 read
    cases e
    simp only [hexNumber?, List.foldlM_cons, List.foldlM_nil, Option.bind_eq_bind, Option.bind_eq_some_iff,
      Option.map_eq_some_iff] at digits
    obtain ⟨_, ⟨_, first, -⟩, _, ⟨_, second, -⟩, -⟩ := digits
    exact .cons rfl (.cons (inLine_of_hexDigit? first) (.cons (inLine_of_hexDigit? second) (.refl _)))
  · cases read

theorem inLine_of_readContinuation {n : Nat} {cs rest : List Char} {bytes : List UInt8}
    (read : readContinuation n cs = some (bytes, rest)) : InLine cs rest := by
  induction n generalizing cs bytes with
  | zero =>
    cases read
    exact .refl _
  | succ n ih =>
    simp only [readContinuation, Option.bind_eq_bind, Option.bind_eq_some_iff, Option.ite_none_right_eq_some,
      Option.some.injEq, Prod.mk.injEq, Prod.exists] at read
    obtain ⟨_, _, first, -, _, _, more, -, rfl⟩ := read
    exact (inLine_of_readEscapedByte first).trans (ih more)

theorem inLine_of_readTagBytes {verbatim : Bool} {cs rest : List Char} {bytes : List UInt8}
    (read : readTagBytes verbatim fuel cs = some (bytes, rest)) : InLine cs rest := by
  induction fuel generalizing cs bytes with
  | zero => cases read
  | succ fuel ih =>
    unfold readTagBytes at read
    split at read
    · cases read
      exact .refl _
    · next c cs =>
      split at read
      · simp only [readEscapes, Option.bind_eq_bind, Option.bind_eq_some_iff, Option.some.injEq, Prod.mk.injEq,
          Prod.exists] at read
        obtain ⟨_, _, ⟨_, _, first, _, -, _, _, more, -, rfl⟩, _, _, behind, -, rfl⟩ := read
        exact ((inLine_of_readEscapedByte first).trans (inLine_of_readContinuation more)).trans (ih behind)
      · split at read
        · next tagChar =>
          simp only [Option.bind_eq_bind, Option.bind_eq_some_iff, Option.some.injEq, Prod.mk.injEq,
            Prod.exists] at read
          obtain ⟨_, _, more, -, rfl⟩ := read
          exact .cons (inLine_of_isTagChar tagChar) (ih more)
        · cases read
          exact .refl _

theorem inLine_of_readTagText {verbatim : Bool} {cs rest : List Char} {bytes : List UInt8}
    (read : readTagText verbatim cs = some (bytes, rest)) : InLine cs rest := by
  obtain ⟨⟨bytes, rest⟩, read, e⟩ := Option.map_eq_some_iff.1 read
  cases e
  exact inLine_of_readTagBytes read

theorem inLine_of_readHandle {cs rest handle : List Char} (read : readHandle cs = some (handle, rest)) :
    InLine cs rest := by
  unfold readHandle at read
  split at read
  · next cs =>
    have word : InLine cs (cs.drop (cs.takeWhile isWordChar).length) := by
      refine ⟨cs.takeWhile isWordChar, ?_, fun ch mem => ?_⟩
      · have cut : (cs.takeWhile isWordChar ++ cs.dropWhile isWordChar).drop (cs.takeWhile isWordChar).length =
            cs.dropWhile isWordChar := List.drop_left
        rw [List.takeWhile_append_dropWhile] at cut
        rw [cut, List.takeWhile_append_dropWhile]
      · have wordChar := List.all_eq_true.1 List.all_takeWhile ch mem
        have tagChar : isTagChar false ch = true := by rw [isTagChar, wordChar]; rfl
        exact inLine_of_isTagChar tagChar
    dsimp only at read
    split at read
    · next cs' behind =>
      cases read
      rw [behind] at word
      exact .cons rfl (word.trans (.cons rfl (.refl _)))
    · cases read
      exact .cons rfl word
  · cases read

/-- The line of a tag goes on behind it. -/
theorem inLine_of_readTag {inFlow : Bool} {cs rest : List Char} {tag : TagText}
    (read : readTag inFlow cs = some (tag, rest)) : InLine cs rest := by
  unfold readTag at read
  split at read
  · next cs =>
    simp only [Option.bind_eq_bind, Option.bind_eq_some_iff, Prod.exists] at read
    obtain ⟨text, rest', inside, read⟩ := read
    split at read
    · cases read
    · split at read
      · simp only [Option.bind_some, Option.ite_none_right_eq_some, Option.some.injEq, Prod.mk.injEq] at read
        obtain ⟨-, -, rfl⟩ := read
        exact .cons rfl (.cons rfl ((inLine_of_readTagText inside).trans (.cons rfl (.refl _))))
      · cases read
  · simp only [Option.bind_eq_bind, Option.bind_eq_some_iff, Prod.exists] at read
    obtain ⟨handle, rest₁, first, text, rest₂, second, read⟩ := read
    have last : rest₂ = rest := by
      split at read
      · split at read
        · cases read
        · simp only [Option.bind_some, Option.ite_none_right_eq_some, Option.some.injEq, Prod.mk.injEq] at read
          exact read.2.2
      · split at read <;>
          · simp only [Option.bind_some, Option.ite_none_right_eq_some, Option.some.injEq, Prod.mk.injEq] at read
            exact read.2.2
    exact last ▸ (inLine_of_readHandle first).trans (inLine_of_readTagText second)

/-! ## Quoted scalars -/

/-- The quote that opens and closes a scalar. -/
def quoteMark (single : Bool) : Char :=
  if single then '\'' else '"'

theorem pos_of_escaped? {cs : List Char} {value : Char} {n : Nat} (h : escaped? cs = some (value, n)) : 0 < n := by
  unfold escaped? at h
  split at h
  · split at h
    · split at h
      · simp only [Option.map_eq_some_iff, Prod.mk.injEq] at h
        omega
      · cases h
    · simp only [Option.map_eq_some_iff, Prod.mk.injEq] at h
      omega
  · cases h

/-- A word is read character by character or escape by escape, each of which takes one character at least. -/
theorem length_le_of_readQuotedWord (read : readQuotedWord single fuel text c = some (t, broken, c')) :
    ∃ q, c.rest = q ++ c'.rest ∧ t.length ≤ text.length + q.length ∧ (broken = true → c'.column = 0) := by
  induction fuel generalizing text c with
  | zero => cases read
  | succ fuel ih =>
    have step {ch : Char} {n : Nat}
        (read : readQuotedWord single fuel (ch :: text) (c.skipMany n) = some (t, broken, c')) (some : 0 < n)
        (more : c.rest ≠ []) :
        ∃ q, c.rest = q ++ c'.rest ∧ t.length ≤ text.length + q.length ∧ (broken = true → c'.column = 0) := by
      obtain ⟨q, rest, bound, column⟩ := ih read
      have taken : 0 < (c.rest.take n).length := by
        rw [List.length_take]
        have := List.length_pos_iff.2 more
        omega
      refine ⟨c.rest.take n ++ q, ?_, ?_, column⟩
      · rw [List.append_assoc, ← rest, Cursor.skipMany, List.take_append_drop]
      · rw [List.length_cons] at bound
        rw [List.length_append]
        omega
    have stop (read : some (text, false, c) = some (t, broken, c')) :
        ∃ q, c.rest = q ++ c'.rest ∧ t.length ≤ text.length + q.length ∧ (broken = true → c'.column = 0) := by
      cases read
      exact ⟨[], rfl, by simp, by simp⟩
    rw [readQuotedWord] at read
    split at read
    · exact stop read
    · next ch cs rest =>
      have more : c.rest ≠ [] := by simp [rest]
      split at read
      · exact stop read
      · split at read
        · split at read
          · split at read
            · exact step read (by decide) more
            · exact stop read
          · exact step read (by decide) more
        · split at read
          · exact stop read
          · split at read
            · split at read
              · -- an escaped line break ends the word
                cases read
                refine ⟨c.rest.take (breakWidth c.rest.tail + 1), ?_, Nat.le_add_right _ _, fun _ => rfl⟩
                simp [Cursor.skip, Cursor.skipMany, Cursor.skipBreak]
              · split at read
                · next escape => exact step read (pos_of_escaped? escape) more
                · cases read
            · exact step read (by decide) more

/-- A quoted scalar ends at its closing quote, and its text is no longer than what stands in front of that. -/
theorem length_le_of_readQuotedFrom (read : readQuotedFrom single fuel text c = some (t, c')) :
    ∃ q, c.rest = q ++ quoteMark single :: c'.rest ∧ t.length ≤ text.length + q.length := by
  induction fuel generalizing text c with
  | zero => cases read
  | succ fuel ih =>
    rw [readQuotedFrom] at read
    split at read
    · cases read
    · split at read
      · cases read
      · next text' broken c₁ word =>
        obtain ⟨q, rest, bound, column⟩ := length_le_of_readQuotedWord word
        change (if c₁.rest.head? = some (quoteMark single) then _ else _) = _ at read
        split at read
        · next closing =>
          cases read
          obtain ⟨cs, rest'⟩ := List.head?_eq_some_iff.1 closing
          refine ⟨q, ?_, by simpa using bound⟩
          rw [rest, Cursor.skip, Cursor.skipMany, rest']
          rfl
        · split at read
          · cases read
          · next run c₂ gap =>
            obtain ⟨q', passes, -, shorter, -⟩ := BlankRun.passes_read gap column
            obtain ⟨q₂, rest₂, bound₂⟩ := ih read
            refine ⟨q ++ (q' ++ q₂), ?_, ?_⟩
            · rw [rest, passes.rest_eq, rest₂, List.append_assoc, List.append_assoc]
            · simp only [List.length_append, List.length_reverse] at bound₂ ⊢
              omega

/-- In front of text without quotes a quoted scalar ends, and is shorter than what stands there. -/
theorem length_lt_of_readQuoted {ch : Char} {x tail : List Char} (rest : c.rest = ch :: (x ++ tail))
    (unquoted : quoteMark single ∉ tail) (read : readQuoted single c = some (t, c')) : t.length < x.length := by
  obtain ⟨q, rest', bound⟩ := length_le_of_readQuotedFrom read
  have e : x ++ tail = q ++ quoteMark single :: c'.rest := by
    rw [← rest', Cursor.skip, Cursor.skipMany, rest]
    rfl
  rcases List.append_eq_append_iff.1 e with ⟨r, rfl, rfl⟩ | ⟨r, rfl, cut⟩
  · exact absurd (by simp) unquoted
  · cases r with
    | nil =>
      obtain rfl : quoteMark single :: c'.rest = tail := cut
      exact absurd List.mem_cons_self unquoted
    | cons d r =>
      simp only [List.length_append, List.length_cons, List.length_nil] at bound ⊢
      omega

/-! ## Block scalars -/

/-- The characters that are neither blanks nor breaks. -/
def ink (cs : List Char) : Nat :=
  cs.countP fun ch => !isBreak ch && !isSpaceOrTab ch

theorem ink_append (xs ys : List Char) : ink (xs ++ ys) = ink xs + ink ys :=
  List.countP_append

theorem ink_breakChar (ch : Char) : ink [breakChar ch] = 0 := by
  rw [breakChar]
  split
  · next separator =>
    simp only [Bool.or_eq_true, decide_eq_true_eq] at separator
    rcases separator with rfl | rfl <;> rfl
  · rfl

theorem inLine_readChomping (cs : List Char) : InLine cs (readChomping cs).2 := by
  unfold readChomping
  split
  · exact .cons rfl (.refl _)
  · exact .cons rfl (.refl _)
  · exact .refl _

theorem inLine_of_readIncrement {cs rest : List Char} {increment : Option Nat}
    (read : readIncrement cs = some (increment, rest)) : (∀ n ∈ increment, 0 < n) ∧ InLine cs rest := by
  unfold readIncrement at read
  split at read
  · next c cs =>
    split at read
    · cases read
    · next notZero =>
      split at read
      · next digit =>
        cases read
        obtain ⟨low, high⟩ : 48 ≤ c.toNat ∧ c.toNat ≤ 57 := by
          simpa [Char.isDigit, UInt32.le_iff_toNat_le] using digit
        have further : c.toNat ≠ 48 := fun e => notZero (Char.toNat_inj.1 e)
        refine ⟨fun n h => ?_, .cons ?_ (.refl _)⟩
        · cases h
          omega
        · cases atBreak : isBreak c with
          | false => rfl
          | true =>
            simp only [isBreak, Bool.or_eq_true, decide_eq_true_eq] at atBreak
            rcases atBreak with (((rfl | rfl) | rfl) | rfl) | rfl <;> simp at low high
      · cases read
        exact ⟨by simp, .refl _⟩
  · cases read
    exact ⟨by simp, .refl _⟩

/-- The indicators of a block scalar stand on its first line, and it is not indented by nothing. -/
theorem inLine_of_readHeader {cs rest : List Char} {header : BlockHeader} (read : readHeader cs = some (header, rest)) :
    (∀ n ∈ header.increment, 0 < n) ∧ InLine cs rest := by
  have inLine := inLine_readChomping cs
  unfold readHeader at read
  split at read
  · next chomping r first =>
    obtain ⟨⟨increment, r'⟩, second, e⟩ := Option.map_eq_some_iff.1 read
    cases e
    obtain ⟨positive, inLine'⟩ := inLine_of_readIncrement second
    rw [first] at inLine
    exact ⟨positive, inLine.trans inLine'⟩
  · next r first =>
    rw [first] at inLine
    split at read
    · cases read
    · next second =>
      cases read
      exact ⟨nofun, inLine.trans (inLine_of_readIncrement second).2⟩
    · next n r' second =>
      cases read
      obtain ⟨positive, inLine'⟩ := inLine_of_readIncrement second
      exact ⟨positive, (inLine.trans inLine').trans (inLine_readChomping r')⟩

variable {header : BlockHeader} {tail z : List Char}

/-- Behind the indicators the break of their line is still left. -/
theorem before_skipHeader {ch : Char} {rest : List Char} (before : c.Before (ch :: z) tail) (inLine : isBreak ch = false)
    (header : InLine (c.rest.drop 1) rest) :
    ∃ q z', z = q ++ z' ∧ z' ≠ [] ∧ (c.skipMany (c.rest.length - rest.length)).Before z' tail := by
  obtain ⟨q, cut, header⟩ := header
  have ahead : c.rest = (ch :: q) ++ rest := by
    rw [before.rest_eq, List.cons_append] at cut ⊢
    rw [List.cons_append, ← cut]
    rfl
  have length : c.rest.length - rest.length = (ch :: q).length := by
    rw [ahead, List.length_append, Nat.add_sub_cancel]
  have inLine' : ∀ d ∈ ch :: q, isBreak d = false := List.forall_mem_cons.2 ⟨inLine, header⟩
  rw [length]
  obtain ⟨z', nonempty, cut, before'⟩ :=
    before.of_inLine (List.cons_ne_nil _ _) (Cursor.passes_skipMany ahead inLine') inLine'
  exact ⟨q, z', (List.cons.inj cut).2, nonempty, before'⟩

/-- The line of the indicators ends. -/
theorem before_skipLineEnd (starts : Cursor.StartsLine tail) (before : c.Before z tail) (nonempty : z ≠ [])
    (skip : skipLineEnd c = some c') : ∃ q z', z = q ++ z' ∧ c'.Before z' tail := by
  obtain ⟨z₁, nonempty₁, cut₁, before₁, -⟩ := before.skipWhile (fun _ => isBreak_of_isSpaceOrTab) nonempty
  have comment : ∃ q' z₂, z₂ ≠ [] ∧ z₁ = q' ++ z₂ ∧
      Cursor.Before z₂ tail (if (c.skipWhile isSpaceOrTab).rest.head? = some '#' then
        (c.skipWhile isSpaceOrTab).skipWhile fun ch => !isBreak ch else c.skipWhile isSpaceOrTab) := by
    split
    · have inLine : ∀ ch, (!isBreak ch) = true → isBreak ch = false := fun _ h => by simpa using h
      obtain ⟨z₂, nonempty₂, cut, before₂, -⟩ := before₁.skipWhile inLine nonempty₁
      exact ⟨_, z₂, nonempty₂, cut, before₂⟩
    · exact ⟨[], z₁, nonempty₁, rfl, before₁⟩
  obtain ⟨q', z₂, nonempty₂, rfl, before₂⟩ := comment
  obtain ⟨ch, z₂, rfl⟩ := List.exists_cons_of_ne_nil nonempty₂
  simp only [skipLineEnd, before₂.rest_eq, List.cons_append] at skip
  split at skip
  · next atBreak =>
    cases skip
    obtain ⟨q₃, z₃, cut, -, before₃⟩ := before₂.skipBreak starts atBreak
    exact ⟨c.rest.takeWhile isSpaceOrTab ++ (q' ++ q₃), z₃, by rw [cut₁, cut]; simp, before₃⟩
  · cases skip

theorem passes_spaces {k : Nat} (few : k ≤ (c.rest.takeWhile (· = ' ')).length) :
    ∃ q, c.Passes q (c.skipMany k) ∧ ∀ ch ∈ q, ch = ' ' := by
  have spaces : ∀ ch ∈ c.rest.take k, ch = ' ' := by
    intro ch mem
    rw [← List.takeWhile_append_dropWhile (p := (· = ' ')) (l := c.rest), List.take_append_of_le_length few] at mem
    simpa using List.all_eq_true.1 List.all_takeWhile ch (List.mem_of_mem_take mem)
  have length : (c.rest.take k).length = k := by
    rw [List.length_take, Nat.min_eq_left]
    exact Nat.le_trans few (List.takeWhile_sublist _).length_le
  have passes := Cursor.passes_skipMany (c := c) (List.take_append_drop k c.rest).symm fun ch mem => by
    rw [spaces ch mem]
    rfl
  rw [length] at passes
  exact ⟨_, passes, spaces⟩

/-- Reading empty lines skips a few spaces and looks at what follows. -/
theorem exists_readEmptyLines (indent : Option Nat) (fuel : Nat) (breaks : List Char) (widest : Nat) (c : Cursor) :
    ∃ k ≤ (c.rest.takeWhile (· = ' ')).length, readEmptyLines indent (fuel + 1) breaks widest c =
      match (c.skipMany k).rest with
      | [] => some (breaks, max widest (c.skipMany k).column, c.skipMany k)
      | ch :: _ =>
        if ch = '\t' && indent.all ((c.skipMany k).column < ·) then none
        else if isBreak ch then
          readEmptyLines indent fuel (breaks ++ [breakChar ch]) (max widest (c.skipMany k).column)
            (c.skipMany k).skipBreak
        else some (breaks, max widest (c.skipMany k).column, c.skipMany k) := by
  cases indent with
  | none => exact ⟨_, Nat.le_refl _, rfl⟩
  | some n => exact ⟨min _ (n - c.column), Nat.min_le_left _ _, rfl⟩

/-- Empty lines and indentation count for nothing. -/
theorem before_readEmptyLines {indent : Option Nat} {breaks breaks' : List Char} {widest widest' : Nat}
    (starts : Cursor.StartsLine tail) (before : c.Before z tail) (blank : ink breaks = 0)
    (read : readEmptyLines indent fuel breaks widest c = some (breaks', widest', c')) :
    ink breaks' = 0 ∧ ∃ q z', z = q ++ z' ∧ c'.Before z' tail := by
  induction fuel generalizing breaks widest c z with
  | zero => cases read
  | succ fuel ih =>
    obtain ⟨k, few, step⟩ := exists_readEmptyLines indent fuel breaks widest c
    rw [step] at read
    obtain ⟨q, passes, spaces⟩ := passes_spaces few
    obtain ⟨z₁, rfl, before₁⟩ := before.of_gap starts passes fun ch mem => .inr (by rw [spaces ch mem]; rfl)
    have stop : some (breaks, max widest (c.skipMany k).column, c.skipMany k) = some (breaks', widest', c') →
        ink breaks' = 0 ∧ ∃ q' z', q ++ z₁ = q' ++ z' ∧ c'.Before z' tail := by
      intro e
      cases e
      exact ⟨blank, q, z₁, rfl, before₁⟩
    split at read
    · exact stop read
    · next ch cs rest =>
      split at read
      · cases read
      · split at read
        · next atBreak =>
          cases z₁ with
          | nil =>
            obtain ⟨d, ds, rfl, noGap⟩ := starts
            rw [before₁.rest_eq, List.nil_append] at rest
            cases rest
            exact absurd (.inl atBreak) noGap
          | cons d z₁ =>
            obtain ⟨rfl, -⟩ := List.cons.inj (rest.symm.trans before₁.rest_eq)
            obtain ⟨q', z₂, cut, -, before₂⟩ := before₁.skipBreak starts atBreak
            obtain ⟨blank', q₂, z₃, rfl, before₃⟩ := ih before₂ (by rw [ink_append, blank, ink_breakChar]) read
            exact ⟨blank', q ++ (q' ++ q₂), z₃, by simp [cut], before₃⟩
        · exact stop read

theorem ink_join {folded nextBlank : Bool} {b : BlockText} (blank : ink b.lineBreak = 0)
    (blank' : ink b.emptyLines = 0) :
    ink (b.join folded nextBlank) = ink b.text := by
  rw [BlockText.join, ink_append, ink_append, blank', Nat.add_zero]
  split
  · split <;> rfl
  · rw [blank, Nat.add_zero]

theorem ink_chomp {chomping : Chomping} {b : BlockText} (blank : ink b.lineBreak = 0) (blank' : ink b.emptyLines = 0) :
    ink (b.chomp chomping) = ink b.text := by
  cases chomping <;> simp [BlockText.chomp, ink_append, blank, blank']

/-- The lines of a block scalar, which are indented, end in front of a line that is not. -/
theorem ink_le_of_readBlockLines {folded : Bool} {indent : Nat} {b b' : BlockText} (starts : Cursor.StartsLine tail)
    (indented : 0 < indent) (before : c.Before z tail) (blank : ink b.lineBreak = 0) (blank' : ink b.emptyLines = 0)
    (read : readBlockLines folded indent fuel b c = some (b', c')) :
    ink b'.lineBreak = 0 ∧ ink b'.emptyLines = 0 ∧ ink b'.text ≤ ink b.text + ink z := by
  induction fuel generalizing b c z with
  | zero => cases read
  | succ fuel ih =>
    have stop (read : some (b, c) = some (b', c')) :
        ink b'.lineBreak = 0 ∧ ink b'.emptyLines = 0 ∧ ink b'.text ≤ ink b.text + ink z := by
      cases read
      exact ⟨blank, blank', Nat.le_add_right _ _⟩
    rw [readBlockLines] at read
    split at read
    · exact stop read
    · next ch cs rest =>
      split at read
      · exact stop read
      · next column =>
        have nonempty : z ≠ [] := by
          rintro rfl
          rw [before.column_eq rfl] at column
          omega
        have inLine : ∀ ch, (!isBreak ch) = true → isBreak ch = false := fun _ h => by simpa using h
        obtain ⟨z₁, nonempty₁, cut, before₁, stops⟩ := before.skipWhile inLine nonempty
        obtain ⟨d, z₁, rfl⟩ := List.exists_cons_of_ne_nil nonempty₁
        have atBreak : isBreak d = true := by simpa using stops d rfl
        obtain ⟨q, z₂, cut₂, -, before₂⟩ := before₁.skipBreak starts atBreak
        have next : (c.skipMany (c.rest.takeWhile fun ch => !isBreak ch).length).rest = d :: (z₁ ++ tail) :=
          before₁.rest_eq
        dsimp only at read
        rw [next] at read
        split at read
        · cases read
        · next emptyLines _ c₂ empty =>
          obtain ⟨blank₂, q₂, z₃, rfl, before₃⟩ := before_readEmptyLines starts before₂ rfl empty
          obtain ⟨lineBreak, lines, bound⟩ := ih before₃ (by exact ink_breakChar d) blank₂ read
          refine ⟨lineBreak, lines, Nat.le_trans bound ?_⟩
          rw [cut, cut₂]
          simp only [ink_append, ink_join blank blank']
          omega

/-- In front of a line that is not indented a block scalar ends, and it has no more than what stands there. -/
theorem ink_le_of_readBlock {folded : Bool} {base : Nat} {ch : Char} (starts : Cursor.StartsLine tail)
    (before : c.Before (ch :: z) tail) (inLine : isBreak ch = false) (read : readBlock folded base c = some (t, c')) :
    ink t ≤ ink z := by
  rw [readBlock] at read
  split at read
  · cases read
  · next header rest headerRead =>
    obtain ⟨positive, indicators⟩ := inLine_of_readHeader headerRead
    obtain ⟨q, z₁, rfl, nonempty, before₁⟩ := before_skipHeader before inLine indicators
    split at read
    · cases read
    · next c₁ lineEnd =>
      obtain ⟨q₂, z₂, rfl, before₂⟩ := before_skipLineEnd starts before₁ nonempty lineEnd
      dsimp only at read
      split at read
      · cases read
      · next emptyLines widest c₂ empty =>
        obtain ⟨blank, q₃, z₃, rfl, before₃⟩ := before_readEmptyLines starts before₂ rfl empty
        split at read
        · cases read
        · next b c₃ lines =>
          cases read
          have indented : 0 < (header.increment.map fun n => (base - 1) + n).getD (max (max widest base) 1) := by
            cases increment : header.increment with
            | none => exact Nat.lt_of_lt_of_le Nat.zero_lt_one (Nat.le_max_right _ _)
            | some n =>
              have := positive n increment
              simp only [Option.map_some, Option.getD_some]
              omega
          obtain ⟨lineBreak, lines', bound⟩ := ink_le_of_readBlockLines starts indented before₃ rfl blank lines
          rw [ink_chomp lineBreak lines']
          refine Nat.le_trans bound ?_
          simp only [ink_append]
          have : ink [] = 0 := rfl
          omega

end TypedWrappers.Yaml
