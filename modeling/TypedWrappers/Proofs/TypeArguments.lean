import TypedWrappers.Proofs.TypeReading
import TypedWrappers.Proofs.TypeScan

/-!
# One type argument

A text counts as one type argument by its brackets and commas alone, whether or not it can be read as a type. A name
applied to such a text is read exactly when the name and the text are, each by itself.

- `depthAfter?`: how deep inside brackets a text ends; `IsOneArgument`: what one argument is;
- `depth?_tokens`: types close their brackets;
- `parse?_applied_eq_some_iff`: how a name with one argument is read.
-/

namespace TypedWrappers

open Text TypeToken

/-! ## Brackets -/

/-- One bracket further out, if there is one. -/
def outward? : Nat → Option Nat
  | 0 => none
  | depth + 1 => some depth

/-- What a character does to the depth inside brackets; none where it closes a bracket that is not open. -/
def bracketStep? (depth : Nat) (c : Char) : Option Nat :=
  if c = '<' ∨ c = '(' ∨ c = '[' then some (depth + 1)
  else if c = '>' ∨ c = ')' ∨ c = ']' then outward? depth
  else some depth

/-- How deep inside brackets a text ends that starts at a depth. Brackets of different kinds are not told apart. -/
def depthAfter? (depth : Nat) (cs : List Char) : Option Nat :=
  cs.foldlM bracketStep? depth

/-- A text that is one type argument: not blank, with every bracket closed and no comma outside of brackets. -/
structure IsOneArgument (text : String) : Prop where
  notBlank : trim text ≠ ""
  closed : depthAfter? 0 text.toList = some 0
  noComma : ∀ i < text.toList.length, text.toList[i]? = some ',' → depthAfter? 0 (text.toList.take i) ≠ some 0

instance (text : String) : Decidable (IsOneArgument text) :=
  decidable_of_iff
    (trim text ≠ "" ∧ depthAfter? 0 text.toList = some 0 ∧
      ∀ i < text.toList.length, text.toList[i]? = some ',' → depthAfter? 0 (text.toList.take i) ≠ some 0)
    ⟨fun ⟨a, b, c⟩ => ⟨a, b, c⟩, fun ⟨a, b, c⟩ => ⟨a, b, c⟩⟩

namespace TypeToken

/-- What a token does to the depth inside brackets. Parentheses are in no type. -/
def depthStep? (depth : Nat) : TypeToken → Option Nat
  | less | openBracket => some (depth + 1)
  | greater | closeBracket => outward? depth
  | parenthesis => none
  | word _ | comma | question => some depth

/-- How deep inside brackets tokens end that start at a depth. -/
def depth? (depth : Nat) (ts : List TypeToken) : Option Nat :=
  ts.foldlM depthStep? depth

theorem depth?_cons (depth : Nat) (token : TypeToken) (ts : List TypeToken) :
    depth? depth (token :: ts) = (depthStep? depth token).bind (depth? · ts) :=
  List.foldlM_cons

theorem depth?_append (depth : Nat) (ts us : List TypeToken) :
    depth? depth (ts ++ us) = (depth? depth ts).bind (depth? · us) :=
  List.foldlM_append

theorem depthStep?_add {depth after : Nat} {token : TypeToken} (h : depthStep? depth token = some after) (more : Nat) :
    depthStep? (depth + more) token = some (after + more) := by
  cases token with
  | less | openBracket => cases h; rw [depthStep?, Nat.add_right_comm]
  | greater | closeBracket =>
    cases depth with
    | zero => cases h
    | succ depth => cases h; rw [Nat.add_right_comm]; rfl
  | parenthesis => cases h
  | _ => cases h; rfl

/-- Further in, the same happens further in. -/
theorem depth?_add {depth after : Nat} {ts : List TypeToken} (h : depth? depth ts = some after) (more : Nat) :
    depth? (depth + more) ts = some (after + more) := by
  induction ts generalizing depth with
  | nil => cases h; rfl
  | cons token ts ih =>
    rw [depth?_cons, Option.bind_eq_some_iff] at h
    obtain ⟨between, first, rest⟩ := h
    rw [depth?_cons, depthStep?_add first, Option.bind_some, ih rest]

theorem parenthesis_not_mem_of_depth? {depth after : Nat} {ts : List TypeToken} (h : depth? depth ts = some after) :
    parenthesis ∉ ts := by
  induction ts generalizing depth with
  | nil => exact nofun
  | cons token ts ih =>
    rw [depth?_cons, Option.bind_eq_some_iff] at h
    obtain ⟨between, first, rest⟩ := h
    rw [List.mem_cons, not_or]
    refine ⟨?_, ih rest⟩
    rintro rfl
    cases first

theorem depth?_endWord (depth : Nat) (pending : List Char) (rest : List TypeToken) :
    depth? depth (endWord pending rest) = depth? depth rest := by
  unfold endWord
  split
  · rfl
  · rw [depth?_cons]
    rfl

theorem mem_endWord {token : TypeToken} {pending : List Char} {rest : List TypeToken} (h : token ∈ rest) :
    token ∈ endWord pending rest := by
  unfold endWord
  split
  · exact h
  · exact List.mem_cons_of_mem _ h

/-- Punctuation that is no parenthesis leads as deep as its character. -/
theorem depthStep?_punctuation {c : Char} {token : TypeToken} (h : punctuation? c = some token)
    (ne : token ≠ parenthesis) (depth : Nat) : depthStep? depth token = bracketStep? depth c := by
  unfold punctuation? at h
  split at h <;> cases h <;> first | rfl | exact absurd rfl ne

theorem bracketStep?_of_punctuation?_eq_none {c : Char} (h : punctuation? c = none) (depth : Nat) :
    bracketStep? depth c = some depth := by
  rw [bracketStep?, if_neg, if_neg]
  · rintro (rfl | rfl | rfl) <;> cases h
  · rintro (rfl | rfl | rfl) <;> cases h

/-- Where there are no parentheses, the tokens of a text are as deep as the text. -/
theorem depth?_scanFrom {depth : Nat} {pending cs : List Char} (h : parenthesis ∉ scanFrom pending cs) :
    depth? depth (scanFrom pending cs) = depthAfter? depth cs := by
  fun_induction scanFrom pending cs generalizing depth with
  | case1 pending => rw [depth?_endWord]; rfl
  | case2 pending c cs token found ih =>
    have others : parenthesis ∉ token :: scanFrom [] cs := fun mem => h (mem_endWord mem)
    rw [List.mem_cons, not_or] at others
    rw [depth?_endWord, depth?_cons, depthStep?_punctuation found (Ne.symm others.1), depthAfter?, List.foldlM_cons]
    exact congrArg _ (funext fun depth => ih others.2)
  | case3 pending c cs found space ih =>
    rw [depth?_endWord, ih fun mem => h (mem_endWord mem), depthAfter?, depthAfter?, List.foldlM_cons,
      bracketStep?_of_punctuation?_eq_none found]
    rfl
  | case4 pending c cs found letter ih =>
    rw [ih h, depthAfter?, depthAfter?, List.foldlM_cons, bracketStep?_of_punctuation?_eq_none found]
    rfl

theorem exists_of_endWord_eq_append {token : TypeToken} (noWord : ∀ w, token ≠ word w) {pending : List Char}
    {rest before after : List TypeToken} (h : endWord pending rest = before ++ token :: after) :
    ∃ before', before = endWord pending before' ∧ rest = before' ++ token :: after := by
  unfold endWord at h ⊢
  split at h
  · next none => exact ⟨before, by rw [if_pos none], h⟩
  · next some =>
    cases before with
    | nil => exact absurd (List.cons.inj h).1.symm (noWord _)
    | cons first before =>
      obtain ⟨rfl, e⟩ := List.cons.inj h
      exact ⟨before, by rw [if_neg some], e⟩

/-- Where tokens are cut at punctuation, so is the text. -/
theorem exists_of_scanFrom_eq_append {token : TypeToken} (noWord : ∀ w, token ≠ word w) {pending cs : List Char}
    {before after : List TypeToken} (h : scanFrom pending cs = before ++ token :: after) :
    ∃ front c back, cs = front ++ c :: back ∧ punctuation? c = some token ∧ scanFrom pending front = before := by
  fun_induction scanFrom pending cs generalizing before with
  | case1 pending =>
    obtain ⟨before', -, e⟩ := exists_of_endWord_eq_append noWord h
    cases before' <;> cases e
  | case2 pending c cs token' found ih =>
    obtain ⟨before', rfl, e⟩ := exists_of_endWord_eq_append noWord h
    cases before' with
    | nil =>
      obtain ⟨rfl, -⟩ := List.cons.inj e
      exact ⟨[], c, cs, rfl, found, rfl⟩
    | cons first before' =>
      obtain ⟨rfl, rest⟩ := List.cons.inj e
      obtain ⟨front, d, back, rfl, isToken, rfl⟩ := ih rest
      exact ⟨c :: front, d, back, rfl, isToken, by rw [scanFrom, found]⟩
  | case3 pending c cs found space ih =>
    obtain ⟨before', rfl, e⟩ := exists_of_endWord_eq_append noWord h
    obtain ⟨front, d, back, rfl, isToken, rfl⟩ := ih e
    exact ⟨c :: front, d, back, rfl, isToken, by rw [scanFrom, found]; exact if_pos space⟩
  | case4 pending c cs found letter ih =>
    obtain ⟨front, d, back, rfl, isToken, rfl⟩ := ih h
    exact ⟨c :: front, d, back, rfl, isToken, by rw [scanFrom, found]; exact if_neg letter⟩

end TypeToken

/-! ## Brackets of types -/

namespace TypeSyntax

theorem depth?_markTokens (marks : List TypeMark) (depth : Nat) :
    depth? depth (marks.flatMap TypeMark.tokens) = some depth := by
  have commas (n depth : Nat) : depth? depth (List.replicate n comma) = some depth := by
    induction n with
    | zero => rfl
    | succ n ih => rw [List.replicate_succ, depth?_cons, depthStep?, Option.bind_some, ih]
  induction marks with
  | nil => rfl
  | cons mark marks ih =>
    rw [List.flatMap_cons, depth?_append]
    cases mark with
    | nullable => exact ih
    | array n =>
      rw [TypeMark.tokens, List.cons_append, depth?_cons, depthStep?, Option.bind_some, depth?_append, commas]
      exact ih

mutual

/-- Types close their brackets. -/
theorem depth?_tokens : ∀ (t : TypeSyntax) (depth : Nat), depth? depth t.tokens = some depth
  | ⟨name, arguments, marks⟩, depth => by
    rw [tokens, depth?_cons, depthStep?, Option.bind_some, depth?_append, depth?_argumentTokens arguments depth,
      Option.bind_some, depth?_markTokens]

theorem depth?_argumentTokens : ∀ (ts : List TypeSyntax) (depth : Nat), depth? depth (argumentTokens ts) = some depth
  | [], _ => rfl
  | t :: rest, depth => by
    obtain ⟨front, e, inside⟩ := exists_of_restTokens rest
    rw [argumentTokens, depth?_cons, depthStep?, Option.bind_some, depth?_append, depth?_tokens t (depth + 1),
      Option.bind_some, e, depth?_append, inside]
    rfl

/-- In front of the bracket that closes the arguments, all others are closed. -/
theorem exists_of_restTokens : ∀ (ts : List TypeSyntax), ∃ front, restTokens ts = front ++ [greater] ∧
    ∀ depth, depth? depth front = some depth
  | [] => ⟨[], rfl, fun _ => rfl⟩
  | t :: rest => by
    obtain ⟨front, e, inside⟩ := exists_of_restTokens rest
    refine ⟨comma :: (t.tokens ++ front), by simp [restTokens, e], fun depth => ?_⟩
    rw [depth?_cons, depthStep?, Option.bind_some, depth?_append, depth?_tokens t depth, Option.bind_some, inside]

end

/-! ## A name with one argument -/

theorem scan_applied (name argument : String) :
    scan (name ++ "<" ++ argument ++ ">") = scan name ++ less :: (scan argument ++ [greater]) := by
  have e : (name ++ "<" ++ argument ++ ">").toList = name.toList ++ '<' :: (argument.toList ++ '>' :: []) := by simp
  rw [scan, e, scanFrom_append rfl, scanFrom_append rfl]
  rfl

theorem marks_eq_nil {front before : List TypeToken} {marks : List TypeMark}
    (h : front ++ [greater] = before ++ marks.flatMap TypeMark.tokens) : marks = [] := by
  rcases List.eq_nil_or_concat marks with rfl | ⟨marks, mark, rfl⟩
  · rfl
  · have ends : ∃ front last, mark.tokens = front ++ [last] ∧ last ≠ greater := by
      cases mark with
      | nullable => exact ⟨[], question, rfl, by simp⟩
      | array commas => exact ⟨openBracket :: List.replicate commas comma, closeBracket, rfl, by simp⟩
    obtain ⟨front', last, e, ne⟩ := ends
    have last := congrArg List.getLast? h
    simp only [List.concat_eq_append, List.flatMap_append, List.flatMap_singleton, e, ← List.append_assoc,
      List.getLast?_concat, Option.some.injEq] at last
    exact absurd last.symm ne

/-- One argument is not the tokens of a type with a comma behind them. -/
theorem scan_ne_of_isOneArgument {argument : String} (one : IsOneArgument argument) (t : TypeSyntax)
    (after : List TypeToken) : scan argument ≠ t.tokens ++ comma :: after := by
  intro e
  have noWord (w : String) : comma ≠ word w := nofun
  obtain ⟨front, c, back, split, isComma, scanned⟩ := exists_of_scanFrom_eq_append noWord e
  have comma : c = ',' := by
    unfold punctuation? at isComma
    split at isComma <;> cases isComma
    rfl
  have inside : depthAfter? 0 front = some 0 := by
    have depth := depth?_tokens t 0
    rw [← scanned] at depth
    rw [← depth?_scanFrom (parenthesis_not_mem_of_depth? depth), depth]
  refine one.noComma front.length ?_ ?_ ?_
  · simp [split]
  · simp [split, comma]
  · rwa [split, List.take_left]

/-- Nothing stands between a name and the bracket that opens its argument. -/
theorem eq_nil_of_append_argument {argument : String} (one : IsOneArgument argument) {more ts : List TypeToken}
    (inside : depth? 0 ts = some 0) (e : more ++ less :: scan argument = less :: ts) : more = [] := by
  cases more with
  | nil => rfl
  | cons token more =>
    have e' : more ++ less :: scan argument = ts := (List.cons.inj e).2
    have noParenthesis : parenthesis ∉ scan argument := by
      intro mem
      refine parenthesis_not_mem_of_depth? inside ?_
      rw [← e']
      simp [mem]
    have closed : depth? 0 (scan argument) = some 0 := by rw [scan, depth?_scanFrom noParenthesis, one.closed]
    -- one bracket further in, the argument ends one bracket further in
    rw [← e', depth?_append, Option.bind_eq_some_iff] at inside
    obtain ⟨between, -, rest⟩ := inside
    have further := depth?_add closed (between + 1)
    rw [Nat.zero_add] at further
    rw [depth?_cons, depthStep?, Option.bind_some, further] at rest
    cases rest

/-- A name applied to one argument is read exactly when the name and the argument are, each by itself. -/
theorem parse?_applied_eq_some_iff {name argument : String} (one : IsOneArgument argument) {t : TypeSyntax} :
    parse? (name ++ "<" ++ argument ++ ">") = some t ↔
      ∃ outer inner, parse? name = some ⟨outer, [], []⟩ ∧ parse? argument = some inner ∧ t = ⟨outer, [inner], []⟩ := by
  simp only [parse?_eq_some_iff, scan_applied]
  constructor
  · rintro ⟨named, e⟩
    obtain ⟨outer, arguments, marks⟩ := t
    rw [tokens, ← List.cons_append, ← List.cons_append, ← List.append_assoc] at e
    obtain rfl := marks_eq_nil e
    rw [List.flatMap_nil, List.append_nil] at e
    cases arguments with
    | nil =>
      have lengths := congrArg List.length e
      simp [argumentTokens] at lengths
      omega
    | cons inner others =>
      obtain ⟨front, rest, closed⟩ := exists_of_restTokens others
      rw [argumentTokens, rest, ← List.append_assoc, ← List.cons_append, ← List.cons_append] at e
      have front_eq : scan name ++ less :: scan argument = word outer :: less :: (inner.tokens ++ front) :=
        List.append_cancel_right e
      have inside : depth? 0 (inner.tokens ++ front) = some 0 := by
        rw [depth?_append, depth?_tokens, Option.bind_some, closed]
      cases scanned : scan name with
      | nil => rw [scanned] at front_eq; cases front_eq
      | cons first more =>
        rw [scanned, List.cons_append] at front_eq
        obtain ⟨isWord, behind⟩ := List.cons.inj front_eq
        obtain rfl := eq_nil_of_append_argument one inside behind
        have scannedArgument : scan argument = inner.tokens ++ front := (List.cons.inj behind).2
        cases others with
        | nil =>
          obtain rfl : front = [] := by simpa [restTokens] using rest
          rw [List.append_nil] at scannedArgument
          refine ⟨outer, inner, ⟨⟨named.1, trivial⟩, ?_⟩, ⟨named.2.1, scannedArgument⟩, rfl⟩
          rw [isWord]
          rfl
        | cons other others =>
          cases front with
          | nil => simp [restTokens] at rest
          | cons token front =>
            obtain ⟨rfl, -⟩ := List.cons.inj rest
            exact absurd scannedArgument (scan_ne_of_isOneArgument one inner front)
  · rintro ⟨outer, inner, ⟨⟨isName, -⟩, scanned⟩, ⟨named, scanned'⟩, rfl⟩
    refine ⟨⟨isName, named, trivial⟩, ?_⟩
    rw [scanned, scanned']
    simp [tokens, argumentTokens, restTokens]

end TypeSyntax

end TypedWrappers
