import TypedWrappers.Proofs.TypeNames

/-!
# Scanning type text

- `scanFrom_append`: a text is scanned on either side of punctuation by itself;
- `mem_of_word_mem_scan`: words are made of the characters of the text;
- `trim_of_scan_eq_word`: a text that is one word is that word with blanks around it.
-/

namespace TypedWrappers.TypeToken

open Text

theorem punctuation?_ne_word {c : Char} {w : String} : punctuation? c ≠ some (word w) := by
  unfold punctuation?
  split <;> exact nofun

/-- Characters of one token are the same, parentheses apart. -/
theorem eq_of_punctuation? {c d : Char} {token : TypeToken} (ne : token ≠ parenthesis)
    (hc : punctuation? c = some token) (hd : punctuation? d = some token) : c = d := by
  unfold punctuation? at hc hd
  split at hc <;> cases hc <;> split at hd <;> cases hd <;> first | rfl | exact absurd rfl ne

theorem punctuation?_of_isSpace {c : Char} (h : isSpace c = true) : punctuation? c = none := by
  simp only [isSpace, Bool.or_eq_true, decide_eq_true_eq] at h
  rcases h with (((rfl | rfl) | rfl) | rfl) | rfl <;> rfl

/-- A space ends the pending word. -/
theorem scanFrom_space {c : Char} (h : isSpace c = true) (pending rest : List Char) :
    scanFrom pending (c :: rest) = endWord pending (scanFrom [] rest) := by
  rw [scanFrom, punctuation?_of_isSpace h]
  exact if_pos h

/-- Spaces between tokens do not count. -/
theorem scanFrom_spaces {spaces : List Char} (h : ∀ c ∈ spaces, isSpace c = true) (rest : List Char) :
    scanFrom [] (spaces ++ rest) = scanFrom [] rest := by
  induction spaces with
  | nil => rfl
  | cons c spaces ih =>
    obtain ⟨space, others⟩ := List.forall_mem_cons.1 h
    rw [List.cons_append, scanFrom_space space, ih others]
    rfl

theorem endWord_append (pending : List Char) (before after : List TypeToken) :
    endWord pending (before ++ after) = endWord pending before ++ after := by
  unfold endWord
  split
  · rfl
  · rw [List.cons_append]

/-- The word that ends is the pending one. -/
theorem of_word_mem_endWord {w : String} {pending : List Char} {rest : List TypeToken}
    (h : word w ∈ endWord pending rest) : w.toList = pending.reverse ∨ word w ∈ rest := by
  unfold endWord at h
  split at h
  · exact .inr h
  · rcases List.mem_cons.1 h with e | h
    · exact .inl (by rw [word.inj e, String.toList_ofList])
    · exact .inr h

/-- Punctuation ends what is in front of it and starts afresh. -/
theorem scanFrom_append {c : Char} {token : TypeToken} (h : punctuation? c = some token)
    (pending before after : List Char) :
    scanFrom pending (before ++ c :: after) = scanFrom pending before ++ token :: scanFrom [] after := by
  fun_induction scanFrom pending before with
  | case1 pending => rw [List.nil_append, scanFrom, h, ← endWord_append, List.nil_append]
  | case2 pending d before token' found ih =>
    rw [List.cons_append, scanFrom, found, ← endWord_append, List.cons_append, ih]
  | case3 pending d before found space ih =>
    rw [List.cons_append, scanFrom, found, ← endWord_append, ← ih]
    exact if_pos space
  | case4 pending d before found letter ih =>
    rw [List.cons_append, scanFrom, found, ← ih]
    exact if_neg letter

/-- Words are made of the characters of the text. -/
theorem mem_of_word_mem_scanFrom {w : String} {pending cs : List Char} (h : word w ∈ scanFrom pending cs) :
    ∀ c ∈ w.toList, c ∈ pending ∨ c ∈ cs := by
  intro c hc
  fun_induction scanFrom pending cs with
  | case1 pending =>
    rcases of_word_mem_endWord h with e | h
    · exact .inl (by rwa [e, List.mem_reverse] at hc)
    · cases h
  | case2 pending d cs token found ih =>
    rcases of_word_mem_endWord h with e | h
    · exact .inl (by rwa [e, List.mem_reverse] at hc)
    · rcases List.mem_cons.1 h with rfl | h
      · exact absurd found punctuation?_ne_word
      · exact .inr (List.mem_cons_of_mem _ ((ih h).resolve_left nofun))
  | case3 pending d cs found space ih =>
    rcases of_word_mem_endWord h with e | h
    · exact .inl (by rwa [e, List.mem_reverse] at hc)
    · exact .inr (List.mem_cons_of_mem _ ((ih h).resolve_left nofun))
  | case4 pending d cs found letter ih =>
    rcases ih h with hc | hc
    · rcases List.mem_cons.1 hc with rfl | hc
      · exact .inr List.mem_cons_self
      · exact .inl hc
    · exact .inr (List.mem_cons_of_mem _ hc)

theorem mem_of_word_mem_scan {w s : String} (h : word w ∈ scan s) : ∀ c ∈ w.toList, c ∈ s.toList :=
  fun c hc => (mem_of_word_mem_scanFrom h c hc).resolve_left nofun

/-- Only spaces have no tokens. -/
theorem isSpace_of_scanFrom_eq_nil {pending cs : List Char} (h : scanFrom pending cs = []) :
    pending = [] ∧ ∀ c ∈ cs, isSpace c = true := by
  have ended {pending : List Char} {rest : List TypeToken} (h : endWord pending rest = []) :
      pending = [] ∧ rest = [] := by
    unfold endWord at h
    split at h
    · next none => exact ⟨none, h⟩
    · cases h
  fun_induction scanFrom pending cs with
  | case1 pending => exact ⟨(ended h).1, nofun⟩
  | case2 pending c cs token found ih => cases (ended h).2
  | case3 pending c cs found space ih =>
    refine ⟨(ended h).1, fun d hd => ?_⟩
    rcases List.mem_cons.1 hd with rfl | hd
    · exact space
    · exact (ih (ended h).2).2 d hd
  | case4 pending c cs found letter ih => cases (ih h).1

/-- A text whose first token is a word is that word behind spaces, and what the further tokens are. -/
theorem exists_of_scanFrom_eq_word_cons {w : String} {pending cs : List Char} {rest : List TypeToken}
    (h : scanFrom pending cs = word w :: rest) :
    ∃ before after, pending.reverse ++ cs = before ++ w.toList ++ after ∧ (∀ c ∈ before, isSpace c = true) ∧
      scanFrom [] after = rest := by
  have ended {pending : List Char} {others : List TypeToken} (h : endWord pending others = word w :: rest) :
      pending = [] ∧ others = word w :: rest ∨ pending.reverse = w.toList ∧ others = rest := by
    unfold endWord at h
    split at h
    · next none => exact .inl ⟨none, h⟩
    · obtain ⟨e, behind⟩ := List.cons.inj h
      exact .inr ⟨by rw [← word.inj e, String.toList_ofList], behind⟩
  fun_induction scanFrom pending cs with
  | case1 pending =>
    rcases ended h with ⟨-, e⟩ | ⟨e, rfl⟩
    · cases e
    · exact ⟨[], [], by simp [e], nofun, rfl⟩
  | case2 pending c cs token found ih =>
    rcases ended h with ⟨-, e⟩ | ⟨e, rfl⟩
    · obtain ⟨rfl, -⟩ := List.cons.inj e
      exact absurd found punctuation?_ne_word
    · exact ⟨[], c :: cs, by rw [e, List.nil_append], nofun, by rw [scanFrom, found]; rfl⟩
  | case3 pending c cs found space ih =>
    rcases ended h with ⟨rfl, e⟩ | ⟨e, rfl⟩
    · obtain ⟨before, after, split, spaces, behind⟩ := ih e
      refine ⟨c :: before, after, by simpa using split, fun d hd => ?_, behind⟩
      rcases List.mem_cons.1 hd with rfl | hd
      · exact space
      · exact spaces d hd
    · exact ⟨[], c :: cs, by rw [e, List.nil_append], nofun, by rw [scanFrom, found]; exact if_pos space⟩
  | case4 pending c cs found letter ih =>
    obtain ⟨before, after, split, spaces, behind⟩ := ih h
    exact ⟨before, after, by simpa using split, spaces, behind⟩

/-- The blanks around a text that is one word are those that are cut off. -/
theorem trim_of_scan_eq_word {s w : String} (h : scan s = [word w]) : trim s = trim w := by
  obtain ⟨before, after, split, spaces, nothing⟩ := exists_of_scanFrom_eq_word_cons h
  have spaces' := (isSpace_of_scanFrom_eq_nil nothing).2
  rw [List.reverse_nil, List.nil_append] at split
  rw [trim, split, trimChars_append _ (fun c hc => isBlank_of_isSpace (spaces c hc))
    (fun c hc => isBlank_of_isSpace (spaces' c hc)), trim]

end TypedWrappers.TypeToken
