import TypedWrappers.Proofs.CursorLines
import TypedWrappers.Yaml.Token.Scan

/-!
# Plain scalars on one line

- `isPlainLine`: the lines that are a plain scalar outside flow collections, and stand for themselves;
- `readPlain_of_isPlainLine`: such a line is read as it stands;
- `eq_of_readPlain`: of any other text in front of the end of a line less is read.
-/

namespace TypedWrappers.Yaml

/-! ## Lines -/

/-- Whether a plain scalar goes on over these characters up to the end of the line: no colon in front of a blank or of
the end, no blank in front of a number sign or of the end. -/
def continuesPlain : List Char → Bool
  | [] => true
  | c :: cs =>
    !(c = ':' && atBlankOrEnd cs) && !(isSpaceOrTab c && (cs.isEmpty || cs.head? = some '#')) && continuesPlain cs

/-- Whether a plain scalar starts with these characters: no blank, break or indicator, but for a hyphen, a question mark
or a colon in front of something that is none. -/
def startsPlainLine : List Char → Bool
  | [] => false
  | c :: cs =>
    (!isBreak c && !isSpaceOrTab c && !Scanner.isIndicator c) ||
      ((c = '-' || c = '?' || c = ':') && !atBlankOrEnd cs)

/-- Whether a text on one line is a plain scalar that stands for itself. -/
def isPlainLine (cs : List Char) : Bool :=
  startsPlainLine cs && continuesPlain cs && cs.all fun c => isPermitted c && !isBreak c

/-! ## Words -/

/-- The characters of a word in front of others. -/
def IsPlainWord : List Char → List Char → Prop
  | [], _ => True
  | c :: w, r => ¬IsGap c ∧ (c = ':' → atBlankOrEnd (w ++ r) = false) ∧ IsPlainWord w r

variable {w p q r cs x z tail text t : List Char} {c c' : Cursor} {run run' : BlankRun} {n margin fuel : Nat}
  {broken : Bool}

theorem IsPlainWord.not_gap (h : IsPlainWord w r) : ∀ ch ∈ w, ¬IsGap ch := by
  induction w with
  | nil => exact nofun
  | cons c w ih => exact List.forall_mem_cons.2 ⟨h.1, ih h.2.2⟩

theorem IsPlainWord.inLine (h : IsPlainWord w r) : ∀ ch ∈ w, isBreak ch = false :=
  fun ch mem => Bool.eq_false_iff.2 fun atBreak => h.not_gap ch mem (.inl atBreak)

theorem not_isGap {ch : Char} : ¬IsGap ch ↔ (isBreak ch || isSpaceOrTab ch) = false := by
  rw [IsGap, ← Bool.or_eq_true, Bool.not_eq_true]

/-- Outside flow collections a word goes on up to where it ends. -/
theorem plainWordLength_cons (c : Char) (cs : List Char) :
    plainWordLength false (c :: cs) =
      if endsPlainWord false (c :: cs) then some 0 else (plainWordLength false cs).map (· + 1) := by
  have stray : strayColon false (c :: cs) = false := by
    unfold strayColon
    split <;> rfl
  rw [plainWordLength, stray]
  by_cases gap : (isBreak c || isSpaceOrTab c) = true
  · simp [endsPlainWord, gap]
  · simp [gap]

theorem plainWordLength_eq_zero (ends : endsPlainWord false r = true) : plainWordLength false r = some 0 := by
  cases r with
  | nil => rfl
  | cons c cs => rw [plainWordLength_cons, if_pos ends]

theorem plainWordLength_append (isWord : IsPlainWord w r) (ends : endsPlainWord false r = true) :
    plainWordLength false (w ++ r) = some w.length := by
  induction w with
  | nil => exact plainWordLength_eq_zero ends
  | cons c w ih =>
    obtain ⟨noGap, colon, isWord⟩ := isWord
    have goesOn : ¬endsPlainWord false (c :: (w ++ r)) = true := by
      simpa [endsPlainWord] using And.intro (not_isGap.1 noGap) colon
    rw [List.cons_append, plainWordLength_cons, if_neg goesOn, ih isWord]
    rfl

theorem exists_word (read : plainWordLength false cs = some n) :
    ∃ w r, cs = w ++ r ∧ w.length = n ∧ IsPlainWord w r ∧ endsPlainWord false r = true := by
  induction cs generalizing n with
  | nil =>
    cases read
    exact ⟨[], [], rfl, rfl, trivial, rfl⟩
  | cons c cs ih =>
    rw [plainWordLength_cons] at read
    split at read
    · next ends =>
      cases read
      exact ⟨[], c :: cs, rfl, rfl, trivial, ends⟩
    · next goesOn =>
      have goesOn : (isBreak c || isSpaceOrTab c) = false ∧ (c = ':' → atBlankOrEnd cs = false) := by
        simpa [endsPlainWord] using goesOn
      obtain ⟨m, rest, rfl⟩ := Option.map_eq_some_iff.1 read
      obtain ⟨w, r, rfl, rfl, isWord, ends⟩ := ih rest
      exact ⟨c :: w, r, rfl, rfl, ⟨not_isGap.2 goesOn.1, goesOn.2, isWord⟩, ends⟩

/-! ## Words and blanks of a line -/

theorem atBlankOrEnd_append (ends : atBlankOrEnd r = true) (cs : List Char) :
    atBlankOrEnd (cs ++ r) = atBlankOrEnd cs := by
  cases cs with
  | nil => rw [List.nil_append, ends, atBlankOrEnd]
  | cons c cs => rfl

theorem continuesPlain_word_iff (noGap : ∀ ch ∈ w, ¬IsGap ch) (ends : atBlankOrEnd r = true) :
    continuesPlain (w ++ p) = true ↔ IsPlainWord w (p ++ r) ∧ continuesPlain p = true := by
  induction w with
  | nil => simp [IsPlainWord]
  | cons c w ih =>
    obtain ⟨first, noGap⟩ := List.forall_mem_cons.1 noGap
    have noBlank : isSpaceOrTab c = false := by
      cases blank : isSpaceOrTab c with
      | false => rfl
      | true => exact absurd (.inr blank) first
    have colon : (c = ':' → atBlankOrEnd (w ++ (p ++ r)) = false) ↔ (!(c = ':' && atBlankOrEnd (w ++ p))) = true := by
      rw [← List.append_assoc, atBlankOrEnd_append ends]
      simp [Decidable.imp_iff_not_or]
    simp only [List.cons_append, continuesPlain, IsPlainWord, ih noGap, first, noBlank, colon, Bool.and_eq_true,
      Bool.false_and, Bool.not_false, not_false_eq_true, and_true, true_and, and_assoc]

theorem continuesPlain_blanks_iff (blanks : ∀ ch ∈ q, isSpaceOrTab ch = true) :
    continuesPlain (q ++ p) = true ↔ (q ≠ [] → p ≠ [] ∧ p.head? ≠ some '#') ∧ continuesPlain p = true := by
  induction q with
  | nil => simp
  | cons c q ih =>
    obtain ⟨blank, blanks⟩ := List.forall_mem_cons.1 blanks
    have noColon : c ≠ ':' := by
      rintro rfl
      cases blank
    rw [List.cons_append, continuesPlain, Bool.and_eq_true, ih blanks]
    cases q with
    | nil => simp [noColon, blank]
    | cons d q =>
      have noSign : d ≠ '#' := by
        rintro rfl
        cases blanks '#' (by simp)
      simp [noColon, noSign]

/-! ## What is read of other texts -/

/-- What a scalar takes of a text in front of others: at most as many characters as stand there with the blanks in
front of them; and if as many, then these characters, which go on over a part of one line. -/
structure TakesPlain (blanks p r y : List Char) : Prop where
  length_le : y.length ≤ blanks.length + p.length
  same : y.length = blanks.length + p.length → y = blanks ++ p ∧ (∀ ch ∈ p, isBreak ch = false) ∧
    p.head? ≠ some '#' ∧ (atBlankOrEnd r = true → continuesPlain p = true)

theorem TakesPlain.word {blanks : List Char} (isWord : IsPlainWord w r) (sign : w.head? ≠ some '#') :
    TakesPlain blanks w r (blanks ++ w) := by
  refine ⟨by simp, fun _ => ⟨rfl, isWord.inLine, sign, fun ends => ?_⟩⟩
  have line := (continuesPlain_word_iff isWord.not_gap ends (p := [])).2 ⟨isWord, rfl⟩
  rwa [List.append_nil] at line

/-- A word, a gap that counts for no more than it takes, and what is taken behind it. -/
theorem TakesPlain.append {blanks blanks' y : List Char} (isWord : IsPlainWord w (q ++ (p ++ r))) (nonempty : w ≠ [])
    (sign : w.head? ≠ some '#') (gap : ∀ ch ∈ q, IsGap ch) (length_le : blanks'.length ≤ q.length)
    (same : blanks'.length = q.length → (∀ ch ∈ q, isBreak ch = false) ∧ blanks' = q) (goesOn : p ≠ [])
    (takes : TakesPlain blanks' p r y) : TakesPlain blanks (w ++ (q ++ p)) r (blanks ++ w ++ y) := by
  have bound := takes.length_le
  refine ⟨by simp only [List.length_append]; omega, fun e => ?_⟩
  simp only [List.length_append] at e
  obtain ⟨inLine, rfl⟩ := same (by omega)
  obtain ⟨rfl, inLine', sign', continues⟩ := takes.same (by omega)
  refine ⟨by simp, ?_, ?_, fun ends => ?_⟩
  · exact List.forall_mem_append.2 ⟨isWord.inLine, List.forall_mem_append.2 ⟨inLine, inLine'⟩⟩
  · cases w with
    | nil => exact absurd rfl nonempty
    | cons c w => exact sign
  · have blank : ∀ ch ∈ blanks', isSpaceOrTab ch = true := fun ch mem =>
      (gap ch mem).resolve_left (by simp [inLine ch mem])
    rw [← List.append_assoc] at isWord
    exact (continuesPlain_word_iff isWord.not_gap ends).2
      ⟨isWord, (continuesPlain_blanks_iff blank).2 ⟨fun _ => ⟨goesOn, sign'⟩, continues ends⟩⟩

/-- A word in front of lines and of a comment is in the lines. -/
theorem exists_of_plainWordLength (comment : tail.head? = some '#') (before : c.Before z tail)
    (sign : c.rest.head? ≠ some '#') (length : plainWordLength false c.rest = some (n + 1)) :
    ∃ w z', z = w ++ z' ∧ w ≠ [] ∧ w.head? ≠ some '#' ∧ c.rest.take (n + 1) = w ∧ IsPlainWord w (z' ++ tail) ∧
      (c.skipMany (n + 1)).Before z' tail := by
  obtain ⟨w, r, rest, wordLength, isWord, -⟩ := exists_word length
  have lines : z ≠ [] := by
    rintro rfl
    exact sign (by rw [before.rest_eq, List.nil_append, comment])
  have passes : c.Passes w (c.skipMany (n + 1)) := by
    rw [← wordLength]
    exact Cursor.passes_skipMany rest isWord.inLine
  obtain ⟨z', -, rfl, before'⟩ := before.of_inLine lines passes isWord.inLine
  obtain rfl : r = z' ++ tail :=
    List.append_cancel_left (rest.symm.trans (before.rest_eq.trans (List.append_assoc ..)))
  refine ⟨w, z', rfl, List.length_pos_iff.1 (by omega), fun h => sign ?_, ?_, isWord, before'⟩
  · rw [rest, List.head?_append, h, Option.some_or]
  · rw [rest, ← wordLength, List.take_left]

/-- In front of lines and of a comment a scalar takes no more than the lines. -/
theorem exists_of_readPlainFrom (indented : 1 ≤ margin) (comment : tail.head? = some '#') (before : c.Before z tail)
    (read : readPlainFrom false margin fuel text run c = some (t, broken, c')) :
    t = text ∨ ∃ p z' y, p ≠ [] ∧ z = p ++ z' ∧ (∀ ch ∈ p.getLast?, isBreak ch = false) ∧ t = text ++ y ∧
      TakesPlain run.fold p (z' ++ tail) y := by
  have starts : Cursor.StartsLine tail := by
    obtain ⟨cs, rfl⟩ := List.head?_eq_some_iff.1 comment
    exact ⟨'#', cs, rfl, by simp [IsGap, isBreak, isSpaceOrTab]⟩
  induction fuel generalizing text run c z with
  | zero => cases read
  | succ fuel ih =>
    rw [readPlainFrom] at read
    split at read
    · cases read
      exact .inl rfl
    · next stops =>
      have sign : c.rest.head? ≠ some '#' := fun h => stops (by simp [h])
      split at read
      · cases read
      · cases read
        exact .inl rfl
      · next n length =>
        obtain ⟨w, z', rfl, nonempty, wordSign, taken, isWord, before'⟩ :=
          exists_of_plainWordLength comment before sign length
        have last : ∀ ch ∈ w.getLast?, isBreak ch = false := fun ch h => isWord.inLine ch (List.mem_of_getLast? h)
        have word : TakesPlain run.fold w (z' ++ tail) (run.fold ++ w) := .word isWord wordSign
        simp only [taken, List.append_assoc] at read
        split at read
        · split at read
          · cases read
          · next run' c₂ gapRead =>
            obtain ⟨q, passes, gap, length_le, kept⟩ := BlankRun.passes_read gapRead (by simp)
            obtain ⟨z₂, rfl, before₂⟩ := before'.of_gap starts passes gap
            split at read
            · cases read
              exact .inr ⟨w, q ++ z₂, _, nonempty, rfl, last, rfl, word⟩
            · next margins =>
              rcases ih before₂ read with rfl | ⟨p, z₃, y, more, rfl, last', rfl, takes⟩
              · exact .inr ⟨w, q ++ z₂, _, nonempty, rfl, last, rfl, word⟩
              · refine .inr ⟨w ++ (q ++ p), z₃, run.fold ++ w ++ y, by simp [nonempty], by simp, ?_, by simp, ?_⟩
                · simpa [List.getLast?_append, List.getLast?_eq_some_getLast more] using last'
                · have inside : 0 < c₂.column := Nat.lt_of_lt_of_le indented (by simpa using margins)
                  exact .append (by simpa using isWord) nonempty wordSign gap length_le (fun e => kept inside e rfl)
                    more takes
        · cases read
          exact .inr ⟨w, z', _, nonempty, rfl, last, rfl, word⟩

/-- A scalar in front of the end of its line is no longer than the line, and as long only if it is the line and goes on
over all of it. -/
theorem eq_of_readPlain (indented : 1 ≤ margin) (comment : tail.head? = some '#') (breaks : ∀ ch ∈ q, isBreak ch = true)
    (ended : q ≠ []) (before : c.Before (x ++ q) tail) (read : readPlain false margin c = some (t, broken, c')) :
    t.length ≤ x.length ∧
      (t.length = x.length → t = x ∧ (∀ ch ∈ x, isBreak ch = false) ∧ continuesPlain x = true) := by
  rcases exists_of_readPlainFrom indented comment before read with rfl | ⟨p, z', y, -, cut, last, rfl, takes⟩
  · refine ⟨Nat.zero_le _, fun e => ?_⟩
    obtain rfl := List.length_eq_zero_iff.1 e.symm
    exact ⟨rfl, nofun, rfl⟩
  · have inside : ∃ r, x = p ++ r ∧ z' = r ++ q := by
      rcases List.append_eq_append_iff.1 cut with ⟨r, rfl, behind⟩ | ⟨r, rfl, rfl⟩
      · cases r with
        | nil => exact ⟨[], by simp, by simpa using behind.symm⟩
        | cons d r =>
          -- the last character of the scalar would be a break
          have atBreak := breaks ((d :: r).getLast (by simp)) (by
            rw [behind]
            exact List.mem_append_left _ (List.getLast_mem _))
          have noBreak := last ((d :: r).getLast (by simp)) (by
            rw [List.getLast?_append, List.getLast?_eq_some_getLast (List.cons_ne_nil d r), Option.some_or]
            rfl)
          rw [noBreak] at atBreak
          cases atBreak
      · exact ⟨r, rfl, rfl⟩
    obtain ⟨r, rfl, rfl⟩ := inside
    have bound : t.length ≤ 0 + p.length := takes.length_le
    rw [List.length_append]
    refine ⟨by omega, fun e => ?_⟩
    obtain rfl : r = [] := List.length_eq_zero_iff.1 (by omega)
    obtain ⟨rfl, inLine, -, continues⟩ := takes.same (by simpa [BlankRun.start, BlankRun.fold] using e)
    have ends : atBlankOrEnd ([] ++ q ++ tail) = true := by
      obtain ⟨d, q, rfl⟩ := List.exists_cons_of_ne_nil ended
      simp [atBlankOrEnd, breaks d]
    rw [List.append_nil]
    exact ⟨rfl, inLine, continues ends⟩

/-! ## What is read of a plain line -/

/-- A line is a word, blanks and what is behind them. -/
theorem exists_firstWord (inLine : ∀ ch ∈ x, isBreak ch = false) :
    ∃ w q x', x = w ++ (q ++ x') ∧ (∀ ch ∈ w, ¬IsGap ch) ∧ (∀ ch ∈ q, isSpaceOrTab ch = true) ∧
      (∀ ch ∈ x'.head?, ¬IsGap ch) ∧ (q = [] → x' = []) := by
  induction x with
  | nil => exact ⟨[], [], [], rfl, nofun, nofun, nofun, fun _ => rfl⟩
  | cons c x ih =>
    obtain ⟨noBreak, inLine⟩ := List.forall_mem_cons.1 inLine
    obtain ⟨w, q, x', rfl, word, blanks, next, ended⟩ := ih inLine
    by_cases blank : isSpaceOrTab c = true
    · cases w with
      | nil => exact ⟨[], c :: q, x', rfl, nofun, List.forall_mem_cons.2 ⟨blank, blanks⟩, next, nofun⟩
      | cons d w =>
        exact ⟨[], [c], d :: w ++ (q ++ x'), rfl, nofun, by simpa using blank, by simpa using word d, nofun⟩
    · have noGap : ¬IsGap c := by simp [IsGap, noBreak, blank]
      exact ⟨c :: w, q, x', rfl, List.forall_mem_cons.2 ⟨noGap, word⟩, blanks, next, ended⟩

/-- Reading goes from one word to the next. -/
theorem readPlainFrom_word (word : IsPlainWord w r) (nonempty : w ≠ []) (sign : w.head? ≠ some '#')
    (gap : ∀ ch ∈ r.head?, IsGap ch) (more : r ≠ []) (rest : c.rest = w ++ r) (inside : c.column ≠ 0)
    (read : BlankRun.read margin false (c.skipMany w.length) = some (run', c')) :
    readPlainFrom false margin (fuel + 1) text run c =
      if c'.column < margin then some (text ++ run.fold ++ w, run'.broken, c')
      else readPlainFrom false margin fuel (text ++ run.fold ++ w) run' c' := by
  obtain ⟨ch, r, rfl⟩ := List.exists_cons_of_ne_nil more
  have atGap : isBreak ch = true ∨ isSpaceOrTab ch = true := gap ch rfl
  have goesOn : ¬(c.atDocumentMark || c.rest.head? = some '#') = true := by
    obtain ⟨d, w, rfl⟩ := List.exists_cons_of_ne_nil nonempty
    simpa [Cursor.atDocumentMark, Cursor.startsWithMark, inside, rest] using sign
  obtain ⟨n, length⟩ : ∃ n, w.length = n + 1 := ⟨w.length - 1, by have := List.length_pos_iff.2 nonempty; omega⟩
  have wordRead : plainWordLength false c.rest = some (n + 1) := by
    rw [rest, plainWordLength_append word (by simp [endsPlainWord, atGap]), length]
  have taken : c.rest.take (n + 1) = w := by rw [rest, ← length, List.take_left]
  have rest' : (c.skipMany (n + 1)).rest = ch :: r := by rw [Cursor.skipMany, rest, ← length, List.drop_left]
  rw [readPlainFrom, if_neg goesOn, wordRead]
  rw [length] at read
  simp [taken, rest', read, atGap]

theorem readPlainFrom_of_continuesPlain (starts : Cursor.StartsLine tail) (indented : 0 < margin)
    (inLine : ∀ ch ∈ x, isBreak ch = false) (continues : continuesPlain x = true) (nonempty : x ≠ [])
    (first : ∀ ch ∈ x.head?, ¬IsGap ch ∧ ch ≠ '#') (rest : c.rest = x ++ '\n' :: '\n' :: tail)
    (column : margin ≤ c.column) (enough : x.length < fuel) :
    readPlainFrom false margin fuel text run c =
      some (text ++ run.fold ++ x, true, (c.skipMany x.length).skipBreak.skipBreak) := by
  induction fuel generalizing text run c x with
  | zero => cases enough
  | succ fuel ih =>
    obtain ⟨w, q, x', rfl, noGap, blanks, next, ended⟩ := exists_firstWord inLine
    have wordNonempty : w ≠ [] := by
      rintro rfl
      cases q with
      | nil => exact nonempty (ended rfl)
      | cons d q => exact (first d rfl).1 (.inr (blanks d (by simp)))
    have sign : w.head? ≠ some '#' := by
      obtain ⟨ch, w, rfl⟩ := List.exists_cons_of_ne_nil wordNonempty
      simpa using (first ch rfl).2
    have inside : c.column ≠ 0 := by omega
    obtain ⟨word, continues'⟩ := (continuesPlain_word_iff noGap (r := '\n' :: '\n' :: tail) rfl).1 continues
    obtain ⟨more, continues'⟩ := (continuesPlain_blanks_iff blanks).1 continues'
    simp only [List.append_assoc] at word rest
    have rest' : (c.skipMany w.length).rest = q ++ (x' ++ '\n' :: '\n' :: tail) := by
      rw [Cursor.skipMany, rest, List.drop_left]
    by_cases last : q = []
    · obtain ⟨rfl, rfl⟩ := And.intro last (ended last)
      have read := BlankRun.read_emptyLine margin rest' starts
      have lineFeed : ∀ ch ∈ ('\n' :: '\n' :: tail).head?, IsGap ch := by simp [IsGap, isBreak]
      rw [readPlainFrom_word word wordNonempty sign lineFeed (by simp) rest inside read]
      -- what is read next stands at the start of another line
      have nextLine : (c.skipMany w.length).skipBreak.skipBreak.column < margin := indented
      rw [if_pos nextLine, List.append_nil, List.append_nil]
    · obtain ⟨nonempty', sign'⟩ := more last
      obtain ⟨d, x', rfl⟩ := List.exists_cons_of_ne_nil nonempty'
      have read := BlankRun.read_blanks margin rest' blanks next (by simp)
      have gap : ∀ ch ∈ (q ++ (d :: x' ++ '\n' :: '\n' :: tail)).head?, IsGap ch := by
        obtain ⟨e, q, rfl⟩ := List.exists_cons_of_ne_nil last
        exact fun ch h => .inr (blanks ch (by cases h; simp))
      rw [readPlainFrom_word word wordNonempty sign gap (by simp) rest inside read]
      have column' : margin ≤ ((c.skipMany w.length).skipMany q.length).column := by
        simp only [Cursor.skipMany]
        omega
      have inLine' : ∀ ch ∈ d :: x', isBreak ch = false := fun ch mem => inLine ch (by simp [List.mem_cons.1 mem])
      have rest₂ : ((c.skipMany w.length).skipMany q.length).rest = d :: x' ++ '\n' :: '\n' :: tail := by
        rw [Cursor.skipMany, rest', List.drop_left]
      have first' : ∀ ch ∈ (d :: x').head?, ¬IsGap ch ∧ ch ≠ '#' :=
        fun ch h => ⟨next ch h, fun e => sign' (by rw [← e]; exact h)⟩
      have shorter : (d :: x').length < fuel := by
        have := List.length_pos_iff.2 wordNonempty
        simp only [List.length_append] at enough
        omega
      rw [if_neg (by omega), ih inLine' continues' nonempty' first' rest₂ column' shorter]
      simp [BlankRun.fold, Cursor.skipMany_skipMany, Nat.add_assoc]

/-- Where a plain line starts a scalar starts, and no item of a sequence. -/
theorem startsPlainLine_iff (nonempty : x ≠ []) (ends : atBlankOrEnd r = true) :
    startsPlainLine x = true ↔ Scanner.startsPlain false (x ++ r) = true ∧
      ¬(x.head? = some '-' ∧ atBlankOrEnd ((x ++ r).drop 1) = true) := by
  obtain ⟨c, cs, rfl⟩ := List.exists_cons_of_ne_nil nonempty
  have next := atBlankOrEnd_append ends cs
  by_cases hyphen : c = '-'
  · subst hyphen
    have blank : atBlankOrEnd cs = false → ((cs ++ r).head?.map isSpaceOrTab).getD false = false := by
      rw [← next]
      cases cs ++ r <;> simp [atBlankOrEnd]
    have indicator : Scanner.isIndicator '-' = true := by decide
    simpa [startsPlainLine, Scanner.startsPlain, next, indicator] using blank
  · simp [startsPlainLine, Scanner.startsPlain, next, hyphen]

theorem first_of_startsPlain (starts : Scanner.startsPlain false cs = true) :
    ∃ ch r, cs = ch :: r ∧ ¬IsGap ch ∧ ch ≠ '#' := by
  cases cs with
  | nil => cases starts
  | cons c cs =>
    simp only [Scanner.startsPlain, Bool.or_eq_true, Bool.and_eq_true, Bool.not_eq_true', decide_eq_true_eq] at starts
    rcases starts with (⟨⟨noBreak, noBlank⟩, noIndicator⟩ | ⟨rfl, -⟩) | ⟨⟨-, rfl | rfl⟩, -⟩
    · refine ⟨c, cs, rfl, by simp [IsGap, noBreak, noBlank], ?_⟩
      rintro rfl
      cases noIndicator
    all_goals exact ⟨_, cs, rfl, by simp [IsGap, isBreak, isSpaceOrTab], by decide⟩

theorem first_of_startsPlainLine (line : startsPlainLine x = true) : ∀ ch ∈ x.head?, ¬IsGap ch ∧ ch ≠ '#' := by
  have nonempty : x ≠ [] := by
    rintro rfl
    cases line
  obtain ⟨ch, r, e, first⟩ := first_of_startsPlain ((startsPlainLine_iff nonempty (r := []) rfl).1 line).1
  rw [List.append_nil] at e
  rw [e]
  rintro ch ⟨⟩
  exact first

/-- A plain line in front of an empty line is read as it stands. -/
theorem readPlain_of_isPlainLine (starts : Cursor.StartsLine tail) (indented : 0 < margin)
    (line : isPlainLine x = true) (rest : c.rest = x ++ '\n' :: '\n' :: tail) (column : margin ≤ c.column) :
    readPlain false margin c = some (x, true, (c.skipMany x.length).skipBreak.skipBreak) := by
  simp only [isPlainLine, Bool.and_eq_true, List.all_eq_true, Bool.not_eq_true'] at line
  obtain ⟨⟨first, continues⟩, each⟩ := line
  have nonempty : x ≠ [] := by
    rintro rfl
    cases first
  have enough : x.length < c.rest.length + 1 := by
    rw [rest, List.length_append]
    omega
  rw [readPlain, readPlainFrom_of_continuesPlain starts indented (fun ch mem => (each ch mem).2) continues nonempty
    (first_of_startsPlainLine first) rest column enough]
  rfl

end TypedWrappers.Yaml
