import TypedWrappers.TypeSyntax.Parse

/-!
# Reading types

What the reader of types accepts: a list of tokens is read as a tree exactly when it is the tokens of the tree and all
names in the tree are names of types.

- `readMarks_eq_some_iff`: the marks behind a type are read as long as there are any;
- `read_tokens_all`, `tokens_read_all`: a type is read whole, and what is read is a type;
- `parse?_eq_some_iff`: both for a whole text.
-/

namespace TypedWrappers.TypeSyntax

open TypeToken

mutual

/-- Every name in a tree is the name of a type. -/
def WellNamed : TypeSyntax → Prop
  | ⟨name, arguments, _⟩ => isTypeName name = true ∧ AllWellNamed arguments

/-- Every name in several trees is the name of a type. -/
def AllWellNamed : List TypeSyntax → Prop
  | [] => True
  | t :: rest => WellNamed t ∧ AllWellNamed rest

end

mutual

theorem wellNamed_iff : ∀ t : TypeSyntax, t.WellNamed ↔ ∀ name ∈ t.names, isTypeName name = true
  | ⟨name, arguments, marks⟩ => by rw [WellNamed, names, List.forall_mem_cons, allWellNamed_iff arguments]

theorem allWellNamed_iff : ∀ ts : List TypeSyntax, AllWellNamed ts ↔ ∀ name ∈ allNames ts, isTypeName name = true
  | [] => iff_of_true trivial nofun
  | t :: rest => by rw [AllWellNamed, allNames, List.forall_mem_append, wellNamed_iff t, allWellNamed_iff rest]

end

/-! ## Marks -/

/-- No mark stands in front. -/
def NoMark (ts : List TypeToken) : Prop :=
  ts.head? ≠ some question ∧ ts.head? ≠ some openBracket

theorem readMarks_of_noMark {ts : List TypeToken} (h : NoMark ts) : readMarks ts = some ([], ts) := by
  unfold readMarks
  split
  · exact absurd rfl h.1
  · exact absurd rfl h.2
  · rfl

theorem readRank_replicate (n commas : Nat) (ts : List TypeToken) :
    readRank commas (List.replicate n comma ++ closeBracket :: ts) =
      (readMarks ts).map fun (marks, rest) => (.array (commas + n) :: marks, rest) := by
  induction n generalizing commas with
  | zero => rw [List.replicate_zero, List.nil_append, readRank, Nat.add_zero]
  | succ n ih => rw [List.replicate_succ, List.cons_append, readRank, ih, Nat.add_right_comm, Nat.add_assoc]

theorem readMarks_tokens (marks : List TypeMark) {rest : List TypeToken} (h : NoMark rest) :
    readMarks (marks.flatMap TypeMark.tokens ++ rest) = some (marks, rest) := by
  induction marks with
  | nil => exact readMarks_of_noMark h
  | cons mark marks ih =>
    cases mark with
    | nullable =>
      rw [List.flatMap_cons, TypeMark.tokens, List.append_assoc, List.singleton_append, readMarks, ih]
      rfl
    | array commas =>
      rw [List.flatMap_cons, TypeMark.tokens, List.append_assoc, List.cons_append, List.cons_append, readMarks,
        List.append_assoc, List.singleton_append, readRank_replicate, ih, Nat.zero_add]
      rfl

theorem readRank_eq_some {n commas : Nat} {ts rest : List TypeToken} {marks : List TypeMark} (short : ts.length ≤ n)
    (ih : ∀ {ts rest marks}, ts.length ≤ n → readMarks ts = some (marks, rest) →
      ts = marks.flatMap TypeMark.tokens ++ rest ∧ NoMark rest)
    (h : readRank commas ts = some (marks, rest)) :
    ∃ more marks', ts = List.replicate more comma ++ closeBracket :: (marks'.flatMap TypeMark.tokens ++ rest) ∧
      marks = .array (commas + more) :: marks' ∧ NoMark rest := by
  induction ts generalizing commas with
  | nil => simp [readRank] at h
  | cons token ts ihTs =>
    have shorter : ts.length ≤ n := by simp only [List.length_cons] at short; omega
    cases token with
    | comma =>
      rw [readRank] at h
      obtain ⟨more, marks', rfl, rfl, noMark⟩ := ihTs shorter h
      exact ⟨more + 1, marks', by rw [List.replicate_succ, List.cons_append], by rw [Nat.add_assoc, Nat.add_comm 1],
        noMark⟩
    | closeBracket =>
      rw [readRank, Option.map_eq_some_iff] at h
      obtain ⟨⟨marks', rest'⟩, read, e⟩ := h
      obtain ⟨rfl, rfl⟩ := Prod.mk.inj e
      obtain ⟨rfl, noMark⟩ := ih shorter read
      exact ⟨0, marks', rfl, rfl, noMark⟩
    | _ => simp [readRank] at h

theorem tokens_of_readMarks {ts rest : List TypeToken} {marks : List TypeMark}
    (h : readMarks ts = some (marks, rest)) : ts = marks.flatMap TypeMark.tokens ++ rest ∧ NoMark rest := by
  -- on the length, because a rank takes several tokens before the next mark
  suffices main : ∀ n {ts rest marks}, ts.length ≤ n → readMarks ts = some (marks, rest) →
      ts = marks.flatMap TypeMark.tokens ++ rest ∧ NoMark rest from main ts.length (Nat.le_refl _) h
  intro n
  induction n with
  | zero =>
    intro ts rest marks short h
    obtain rfl := List.length_eq_zero_iff.1 (Nat.le_zero.1 short)
    rw [readMarks] at h
    · cases h
      exact ⟨rfl, by simp [NoMark]⟩
    all_goals intros; contradiction
  | succ n ih =>
    intro ts rest marks short h
    unfold readMarks at h
    split at h
    · next ts =>
      rw [Option.map_eq_some_iff] at h
      obtain ⟨⟨marks', rest'⟩, read, e⟩ := h
      obtain ⟨rfl, rfl⟩ := Prod.mk.inj e
      obtain ⟨rfl, noMark⟩ := ih (by simp only [List.length_cons] at short; omega) read
      exact ⟨rfl, noMark⟩
    · next ts =>
      obtain ⟨more, marks', rfl, rfl, noMark⟩ :=
        readRank_eq_some (by simp only [List.length_cons] at short; omega) ih h
      refine ⟨?_, noMark⟩
      rw [List.flatMap_cons, TypeMark.tokens, Nat.zero_add]
      simp
    · next noQuestion noBracket =>
      cases h
      refine ⟨rfl, fun e => ?_, fun e => ?_⟩
      · obtain ⟨ts', rfl⟩ := List.head?_eq_some_iff.1 e
        exact noQuestion ts' rfl
      · obtain ⟨ts', rfl⟩ := List.head?_eq_some_iff.1 e
        exact noBracket ts' rfl

/-- Marks are read as long as there are any. -/
theorem readMarks_eq_some_iff {ts rest : List TypeToken} {marks : List TypeMark} :
    readMarks ts = some (marks, rest) ↔ ts = marks.flatMap TypeMark.tokens ++ rest ∧ NoMark rest :=
  ⟨tokens_of_readMarks, fun ⟨e, noMark⟩ => e ▸ readMarks_tokens marks noMark⟩

/-! ## Types -/

/-- What may stand behind a type: nothing, or what ends an argument. -/
def EndsType (ts : List TypeToken) : Prop :=
  ts = [] ∨ ts.head? = some comma ∨ ts.head? = some greater

theorem EndsType.noMark {ts : List TypeToken} (h : EndsType ts) : NoMark ts := by
  rcases h with rfl | h | h
  · exact ⟨nofun, nofun⟩
  · exact ⟨by rw [h]; simp, by rw [h]; simp⟩
  · exact ⟨by rw [h]; simp, by rw [h]; simp⟩

theorem endsType_restTokens (ts : List TypeSyntax) (rest : List TypeToken) : EndsType (restTokens ts ++ rest) := by
  cases ts with
  | nil => exact .inr (.inr rfl)
  | cons t ts => exact .inr (.inl rfl)

theorem length_restTokens_pos (ts : List TypeSyntax) : 0 < (restTokens ts).length := by
  cases ts <;> simp [restTokens]

theorem head?_markTokens_ne_less (marks : List TypeMark) {rest : List TypeToken} (h : EndsType rest) :
    (marks.flatMap TypeMark.tokens ++ rest).head? ≠ some less := by
  cases marks with
  | nil =>
    rcases h with rfl | h | h
    · exact nofun
    · rw [List.flatMap_nil, List.nil_append, h]; simp
    · rw [List.flatMap_nil, List.nil_append, h]; simp
  | cons mark marks => cases mark <;> simp [TypeMark.tokens]

/-- A name without arguments is read with the marks behind it. -/
theorem readType_plain (fuel : Nat) (name : String) {ts : List TypeToken} (h : ts.head? ≠ some less) :
    readType (fuel + 1) (word name :: ts) =
      if isTypeName name then (readMarks ts).bind fun read => some (⟨name, [], read.1⟩, read.2) else none := by
  cases ts with
  | nil => simp [readType]
  | cons token ts =>
    cases token with
    | less => exact absurd rfl h
    | _ => simp [readType]

/-- A name with arguments is read with them and with the marks behind. -/
theorem readType_generic (fuel : Nat) (name : String) (ts : List TypeToken) :
    readType (fuel + 1) (word name :: less :: ts) =
      if isTypeName name then
        (readArguments fuel ts).bind fun inner =>
          (readMarks inner.2).bind fun read => some (⟨name, inner.1, read.1⟩, read.2)
      else none := by
  simp [readType]

/-- With fuel for two calls a token, a tree is read from its tokens, and several trees from theirs. -/
theorem read_tokens_all (fuel : Nat) :
    (∀ (t : TypeSyntax) (rest : List TypeToken), t.WellNamed → EndsType rest → 2 * t.tokens.length ≤ fuel + 1 →
      readType fuel (t.tokens ++ rest) = some (t, rest)) ∧
    (∀ (t : TypeSyntax) (ts : List TypeSyntax) (rest : List TypeToken), AllWellNamed (t :: ts) →
      2 * (t.tokens ++ restTokens ts).length ≤ fuel →
      readArguments fuel (t.tokens ++ (restTokens ts ++ rest)) = some (t :: ts, rest)) := by
  induction fuel with
  | zero =>
    constructor
    · rintro ⟨name, arguments, marks⟩ rest - - enough
      simp only [tokens, List.length_cons] at enough
      omega
    · rintro ⟨name, arguments, marks⟩ ts rest - enough
      simp only [tokens, List.cons_append, List.length_cons] at enough
      omega
  | succ fuel ih =>
    obtain ⟨ihType, ihArguments⟩ := ih
    constructor
    · rintro ⟨name, arguments, marks⟩ rest ⟨isName, allNamed⟩ ends enough
      have readRest := readMarks_tokens marks ends.noMark
      cases arguments with
      | nil =>
        rw [tokens, argumentTokens, List.nil_append, List.cons_append,
          readType_plain fuel name (head?_markTokens_ne_less marks ends), if_pos isName, readRest, Option.bind_some]
      | cons t ts =>
        simp only [tokens, argumentTokens, List.length_cons, List.length_append, List.cons_append] at enough
        have readInner := ihArguments t ts (marks.flatMap TypeMark.tokens ++ rest) allNamed
          (by rw [List.length_append]; omega)
        rw [tokens, argumentTokens, List.cons_append, List.cons_append, List.cons_append, List.append_assoc,
          List.append_assoc, readType_generic, if_pos isName, readInner, Option.bind_some, readRest, Option.bind_some]
    · rintro t ts rest ⟨named, allNamed⟩ enough
      rw [List.length_append] at enough
      have readFirst := ihType t (restTokens ts ++ rest) named (endsType_restTokens ts rest)
        (by have := length_restTokens_pos ts; omega)
      cases ts with
      | nil =>
        rw [readArguments, readFirst]
        rfl
      | cons t' ts =>
        simp only [restTokens, List.length_cons, List.length_append] at enough
        have readRest := ihArguments t' ts rest allNamed (by rw [List.length_append]; omega)
        rw [readArguments, readFirst, restTokens, List.cons_append, List.append_assoc]
        simp only [Option.bind_eq_bind, Option.bind_some, readRest]

/-- What is read as a tree are its tokens, and what is read as several trees are theirs. -/
theorem tokens_read_all (fuel : Nat) :
    (∀ {ts rest : List TypeToken} {t : TypeSyntax}, readType fuel ts = some (t, rest) →
      ts = t.tokens ++ rest ∧ t.WellNamed) ∧
    (∀ {ts rest : List TypeToken} {arguments : List TypeSyntax}, readArguments fuel ts = some (arguments, rest) →
      less :: ts = argumentTokens arguments ++ rest ∧ AllWellNamed arguments ∧ arguments ≠ []) := by
  induction fuel with
  | zero => exact ⟨fun h => by simp [readType] at h, fun h => by simp [readArguments] at h⟩
  | succ fuel ih =>
    obtain ⟨ihType, ihArguments⟩ := ih
    constructor
    · intro ts rest t h
      rcases ts with _ | ⟨first, ts⟩
      · simp [readType] at h
      cases first with
      | word name =>
        by_cases generic : ts.head? = some less
        · obtain ⟨inner, rfl⟩ := List.head?_eq_some_iff.1 generic
          rw [readType_generic] at h
          split at h
          · next isName =>
            obtain ⟨⟨arguments, ts'⟩, readInner, h⟩ := Option.bind_eq_some_iff.1 h
            obtain ⟨⟨marks, rest'⟩, readRest, h⟩ := Option.bind_eq_some_iff.1 h
            cases h
            obtain ⟨e, allNamed, -⟩ := ihArguments readInner
            obtain ⟨rfl, -⟩ := readMarks_eq_some_iff.1 readRest
            exact ⟨by rw [e, tokens, List.cons_append, List.append_assoc], isName, allNamed⟩
          · cases h
        · rw [readType_plain _ _ generic] at h
          split at h
          · next isName =>
            obtain ⟨⟨marks, rest'⟩, readRest, h⟩ := Option.bind_eq_some_iff.1 h
            cases h
            obtain ⟨rfl, -⟩ := readMarks_eq_some_iff.1 readRest
            exact ⟨by simp [tokens, argumentTokens], isName, trivial⟩
          · cases h
      | _ => simp [readType] at h
    · intro ts rest arguments h
      rw [readArguments, Option.bind_eq_bind, Option.bind_eq_some_iff] at h
      obtain ⟨⟨argument, ts'⟩, readFirst, h⟩ := h
      obtain ⟨rfl, named⟩ := ihType readFirst
      dsimp only at h
      split at h
      · next ts' =>
        rw [Option.bind_eq_bind, Option.bind_eq_some_iff] at h
        obtain ⟨⟨arguments', ts''⟩, readRest, h⟩ := h
        cases h
        obtain ⟨e, allNamed, nonempty⟩ := ihArguments readRest
        obtain ⟨next, others, rfl⟩ := List.exists_cons_of_ne_nil nonempty
        rw [argumentTokens, List.cons_append, List.cons.injEq] at e
        exact ⟨by simp [argumentTokens, restTokens, e.2], ⟨named, allNamed⟩, nofun⟩
      · cases h
        exact ⟨by simp [argumentTokens, restTokens], ⟨named, trivial⟩, nofun⟩
      · cases h

/-- A list of tokens is read as a tree when it is the tokens of the tree and the names in the tree are names of
types. -/
theorem ofTokens?_eq_some_iff {ts : List TypeToken} {t : TypeSyntax} :
    ofTokens? ts = some t ↔ t.WellNamed ∧ ts = t.tokens := by
  constructor
  · intro h
    unfold ofTokens? at h
    split at h
    · next read =>
      cases h
      obtain ⟨e, named⟩ := (tokens_read_all _).1 read
      exact ⟨named, by rw [e, List.append_nil]⟩
    · cases h
  · rintro ⟨named, rfl⟩
    have read := (read_tokens_all (fuelFor t.tokens)).1 t [] named (.inl rfl) (by unfold fuelFor; omega)
    rw [List.append_nil] at read
    rw [ofTokens?, read]

/-- **Reading is exact**: a text is read as a tree when its tokens are those of the tree. -/
theorem parse?_eq_some_iff {s : String} {t : TypeSyntax} : parse? s = some t ↔ t.WellNamed ∧ scan s = t.tokens :=
  ofTokens?_eq_some_iff

end TypedWrappers.TypeSyntax
