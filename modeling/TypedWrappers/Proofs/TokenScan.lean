import Mathlib.Logic.Basic
import TypedWrappers.Proofs.TokenTexts
import TypedWrappers.Yaml.Token.Scan

/-!
# What reading a token adds

The tokens at the front of a text stay as they are. Behind them each token that is read is added at the end, and starts
and ends of blocks are put in, which may come to stand in front of what is there.

- `lead?`: the first token of a node behind its anchor and its tag; `SameLead`: the same lead, or that of a block;
- `Scanner.Holds`: the tokens behind a front, which no possible key stands in;
- `Scanner.Emits`, `Scanner.fetch_cases`: reading one token adds it, and what the token is;
- `Scanner.run_succ`: reading all tokens goes from one to the next.
-/

namespace TypedWrappers.Yaml

/-! ## Leads -/

namespace Token

/-- Tokens that only say where blocks and keys start and where blocks end. -/
def isStructure : Token → Bool
  | .blockSequenceStart | .blockMappingStart | .blockEnd | .key => true
  | _ => false

/-- Tokens that may stand in front of a node. -/
def isProperty : Token → Bool
  | .anchor _ | .tag _ => true
  | _ => false

/-- Tokens that are a node without children. -/
def isScalar : Token → Bool
  | .scalar .. => true
  | _ => false

theorem not_isProperty_of_isStructure {t : Token} (h : t.isStructure = true) : t.isProperty = false := by
  cases t <;> first | rfl | cases h

end Token

/-- The first token behind properties. -/
def lead? (ts : List Token) : Option Token :=
  ts.find? fun t => !t.isProperty

/-- Tokens with the same lead, or with the structure of a block for it. -/
def SameLead (u u' : List Token) : Prop :=
  lead? u' = lead? u ∨ ∃ t, t.isStructure = true ∧ lead? u' = some t

variable {u u' u'' front : List Token} {t : Token} {i : Nat}

theorem SameLead.refl (u : List Token) : SameLead u u :=
  .inl rfl

theorem SameLead.trans (first : SameLead u u') (second : SameLead u' u'') : SameLead u u'' := by
  rcases second with second | second
  · rw [SameLead, second]
    exact first
  · exact .inr second

/-- Structure that is put in leads, or stands behind the lead. -/
theorem sameLead_insertIdx (h : t.isStructure = true) : SameLead u (u.insertIdx i t) := by
  have leads : (!t.isProperty) = true := by rw [Token.not_isProperty_of_isStructure h]; rfl
  induction u generalizing i with
  | nil =>
    cases i with
    | zero => exact .inr ⟨t, h, by simp [lead?, leads]⟩
    | succ i => exact .inl rfl
  | cons d u ih =>
    cases i with
    | zero => exact .inr ⟨t, h, by simp [lead?, leads]⟩
    | succ i =>
      rw [List.insertIdx_succ_cons, SameLead, lead?, lead?, List.find?_cons, List.find?_cons]
      cases !d.isProperty with
      | true => exact .inl rfl
      | false => exact ih

theorem lead?_append : lead? (u ++ [t]) = (lead? u).or (if t.isProperty then none else some t) := by
  rw [lead?, List.find?_append, lead?, List.find?_singleton]
  cases t.isProperty <;> rfl

/-! ## The tokens behind a front -/

theorem toList_insertIdxIfInBounds (ts : Array Token) (i : Nat) (t : Token) :
    (ts.insertIdxIfInBounds i t).toList = ts.toList.insertIdx i t := by
  rw [Array.insertIdxIfInBounds]
  split
  · rw [Array.toList_insertIdx]
  · next outside => rw [List.insertIdx_of_length_lt (by rw [Array.length_toList]; omega)]

theorem insertIdx_behind (behind : front.length ≤ i) :
    (front ++ u).insertIdx i t = front ++ u.insertIdx (i - front.length) t := by
  induction front generalizing i with
  | nil => rfl
  | cons d front ih =>
    rw [List.length_cons] at behind ⊢
    obtain ⟨i, rfl⟩ : ∃ j, i = j + 1 := ⟨i - 1, by omega⟩
    rw [List.cons_append, List.insertIdx_succ_cons, ih (by omega), Nat.add_sub_add_right, List.cons_append]

namespace Scanner

variable {s s' s'' : Scanner} {fuel position margin : Nat}

/-- The tokens are a front and further ones, and keys can only start behind the front. -/
structure Holds (front u : List Token) (s : Scanner) : Prop where
  tokens_eq : s.tokens.toList = front ++ u
  keys : ∀ key, some key ∈ s.keys → front.length ≤ key.position

theorem Holds.length_le (h : s.Holds front u) : front.length ≤ s.tokens.size := by
  rw [← Array.length_toList, h.tokens_eq, List.length_append]
  omega

theorem Holds.emit (h : s.Holds front u) (t : Token) : (s.emit t).Holds front (u ++ [t]) := by
  refine ⟨?_, h.keys⟩
  rw [Scanner.emit, Array.toList_push, h.tokens_eq, List.append_assoc]

theorem Holds.moveTo (h : s.Holds front u) (c : Cursor) : (s.moveTo c).Holds front u :=
  ⟨h.tokens_eq, h.keys⟩

theorem Holds.advance (h : s.Holds front u) (n : Nat) : (s.advance n).Holds front u :=
  ⟨h.tokens_eq, h.keys⟩

theorem Holds.allowKey (h : s.Holds front u) (allowed : Bool) : (s.allowKey allowed).Holds front u :=
  ⟨h.tokens_eq, h.keys⟩

theorem Holds.insert (h : s.Holds front u) (behind : front.length ≤ position) (isStructure : t.isStructure = true) :
    ∃ u', SameLead u u' ∧ (s.tokens.insertIdxIfInBounds position t).toList = front ++ u' := by
  refine ⟨u.insertIdx (position - front.length) t, sameLead_insertIdx isStructure, ?_⟩
  rw [toList_insertIdxIfInBounds, h.tokens_eq, insertIdx_behind behind]

theorem Holds.openBlock (h : s.Holds front u) (margin : Nat) (behind : front.length ≤ position)
    (isStructure : t.isStructure = true) :
    ∃ u', SameLead u u' ∧ (s.openBlock margin position t).Holds front u' := by
  rw [Scanner.openBlock]
  split
  · exact ⟨u, .refl u, h⟩
  · split
    · obtain ⟨u', same, tokens_eq⟩ := h.insert behind isStructure
      exact ⟨u', same, tokens_eq, h.keys⟩
    · exact ⟨u, .refl u, h⟩

theorem closeFrom_tokens (margin : Nat) (indents : List Nat) (indent : Nat) (tokens : Array Token)
    (h : tokens.toList = front ++ u) :
    ∃ u', SameLead u u' ∧ (closeFrom margin indents indent tokens).2.2.toList = front ++ u' := by
  induction indents generalizing indent tokens u with
  | nil => exact ⟨u, .refl u, h⟩
  | cons outer rest ih =>
    rw [closeFrom]
    split
    · have pushed : (tokens.push .blockEnd).toList = front ++ u.insertIdx u.length .blockEnd := by
        rw [Array.toList_push, h, List.append_assoc, List.insertIdx_length_self]
      obtain ⟨u', same, e⟩ := ih outer _ pushed
      exact ⟨u', (sameLead_insertIdx rfl).trans same, e⟩
    · exact ⟨u, .refl u, h⟩

theorem Holds.closeBlocks (h : s.Holds front u) (margin : Nat) :
    ∃ u', SameLead u u' ∧ (s.closeBlocks margin).Holds front u' := by
  rw [Scanner.closeBlocks]
  split
  · exact ⟨u, .refl u, h⟩
  · obtain ⟨u', same, e⟩ := closeFrom_tokens margin s.outerIndents s.indent s.tokens h.tokens_eq
    exact ⟨u', same, e, h.keys⟩

/-- No block ends where the innermost one goes on. -/
theorem closeBlocks_of_le (h : s.indent ≤ margin) : s.closeBlocks margin = s := by
  rw [Scanner.closeBlocks]
  split
  · rfl
  · cases outer : s.outerIndents with
    | nil => simp [closeFrom, ← outer]
    | cons i rest => simp [closeFrom, Nat.not_lt.2 h, ← outer]

theorem expireKey_mem {c : Cursor} {key : Option PossibleKey} {key' : PossibleKey}
    (expire : expireKey c key = some (some key')) : key = some key' := by
  cases key with
  | none => cases expire
  | some key =>
    rw [expireKey] at expire
    split at expire
    · split at expire <;> cases expire
    · cases expire
      rfl

/-- Keys are only forgotten, and all other parts stay. -/
theorem exists_expireKeys (expire : s.expireKeys = some s') :
    ∃ keys, s' = { s with keys } ∧ keys.length = s.keys.length ∧ ∀ key, some key ∈ keys → some key ∈ s.keys := by
  have each (keys keys' : List (Option PossibleKey)) (h : keys.mapM (expireKey s.cursor) = some keys') :
      keys'.length = keys.length ∧ ∀ key, some key ∈ keys' → some key ∈ keys := by
    induction keys generalizing keys' with
    | nil =>
      cases h
      exact ⟨rfl, fun _ mem => mem⟩
    | cons key keys ih =>
      simp only [List.mapM_cons, Option.bind_eq_bind, Option.bind_eq_some_iff, Option.pure_def, Option.some.injEq] at h
      obtain ⟨key', first, keys', rest, rfl⟩ := h
      obtain ⟨length, kept⟩ := ih keys' rest
      refine ⟨by rw [List.length_cons, List.length_cons, length], fun k mem => ?_⟩
      rcases List.mem_cons.1 mem with rfl | mem
      · rw [expireKey_mem first]
        exact List.mem_cons_self
      · exact List.mem_cons_of_mem _ (kept k mem)
  obtain ⟨keys, expired, rfl⟩ := Option.map_eq_some_iff.1 expire
  exact ⟨keys, rfl, each _ _ expired⟩

theorem Holds.expireKeys (h : s.Holds front u) (expire : s.expireKeys = some s') : s'.Holds front u := by
  obtain ⟨keys, rfl, -, kept⟩ := exists_expireKeys expire
  exact ⟨h.tokens_eq, fun key mem => h.keys key (kept key mem)⟩

theorem exists_dropKey (drop : s.dropKey = some s') : ∃ keys, s' = { s with keys } ∧ keys.length = s.keys.length := by
  unfold Scanner.dropKey at drop
  split at drop
  · next key rest keys =>
    rw [Option.ite_none_left_eq_some] at drop
    cases drop.2
    exact ⟨_, rfl, by rw [keys]; rfl⟩
  · cases drop
    exact ⟨s.keys, rfl, rfl⟩

theorem exists_saveKey (save : s.saveKey = some s') :
    ∃ keys, s' = { s with keys } ∧ (s.keys.length = 1 → keys.length = 1) := by
  unfold Scanner.saveKey at save
  split at save
  · obtain ⟨s₁, drop, rfl⟩ := Option.map_eq_some_iff.1 save
    obtain ⟨keys, rfl, length⟩ := exists_dropKey drop
    refine ⟨_, rfl, fun one => ?_⟩
    rw [List.length_cons, List.length_drop, length, one]
  · cases save
    exact ⟨s.keys, rfl, id⟩

theorem Holds.dropKey (h : s.Holds front u) (drop : s.dropKey = some s') : s'.Holds front u := by
  unfold Scanner.dropKey at drop
  split at drop
  · next key rest keys =>
    split at drop
    · cases drop
    · cases drop
      refine ⟨h.tokens_eq, fun key mem => ?_⟩
      rw [List.mem_cons] at mem
      exact h.keys key (by rw [keys]; exact List.mem_cons_of_mem _ (mem.resolve_left nofun))
  · cases drop
    exact h

theorem Holds.saveKey (h : s.Holds front u) (save : s.saveKey = some s') : s'.Holds front u := by
  unfold Scanner.saveKey at save
  split at save
  · obtain ⟨s₁, drop, rfl⟩ := Option.map_eq_some_iff.1 save
    have h₁ := h.dropKey drop
    refine ⟨h₁.tokens_eq, fun key mem => ?_⟩
    rcases List.mem_cons.1 mem with e | mem
    · cases e
      exact h₁.length_le
    · exact h₁.keys key (List.mem_of_mem_drop mem)
  · cases save
    exact h

/-! ## One token -/

/-- A token is added at the end, behind all that was there and structure put in there. -/
def Emits (s : Scanner) (t : Token) (s' : Scanner) : Prop :=
  ∀ front u, s.Holds front u → ∃ u', SameLead u u' ∧ s'.Holds front (u' ++ [t])

theorem kind_of_readDirective {cs rest : List Char} (read : readDirective cs = some (t, rest)) :
    t.isProperty = false ∧ t.isScalar = false := by
  have version {cs rest : List Char} (read : readVersion cs = some (t, rest)) :
      t.isProperty = false ∧ t.isScalar = false := by
    unfold readVersion at read
    split at read
    · obtain ⟨a, -, e⟩ := Option.map_eq_some_iff.1 read
      cases e
      exact ⟨rfl, rfl⟩
    · cases read
  have handle {cs rest : List Char} (read : readHandleDirective cs = some (t, rest)) :
      t.isProperty = false ∧ t.isScalar = false := by
    simp only [readHandleDirective, Option.bind_eq_bind, Option.bind_eq_some_iff, Option.ite_none_left_eq_some,
      Option.ite_none_right_eq_some, Option.some.injEq, Prod.mk.injEq, Prod.exists] at read
    obtain ⟨_, _, -, -, -, _, _, -, -, rfl, -⟩ := read
    exact ⟨rfl, rfl⟩
  simp only [readDirective, Option.ite_none_left_eq_some] at read
  obtain ⟨-, read⟩ := read
  split at read
  · exact version read
  · split at read
    · exact handle read
    · cases read

theorem emits_directive (fetch : s.fetchDirective = some s') :
    ∃ t, t.isProperty = false ∧ t.isScalar = false ∧ s.Emits t s' := by
  simp only [fetchDirective, Option.bind_eq_bind, Option.bind_eq_some_iff, Option.some.injEq, Prod.exists] at fetch
  obtain ⟨s₁, drop, t, rest, directive, c, -, rfl⟩ := fetch
  obtain ⟨property, scalar⟩ := kind_of_readDirective directive
  refine ⟨t, property, scalar, fun front u h => ?_⟩
  obtain ⟨u', same, h'⟩ := h.closeBlocks 0
  exact ⟨u', same, (((h'.dropKey drop).emit t).moveTo c).allowKey false⟩

theorem emits_documentMark (fetch : s.fetchDocumentMark t = some s') : s.Emits t s' := by
  simp only [fetchDocumentMark, Option.bind_eq_bind, Option.bind_eq_some_iff, Option.some.injEq] at fetch
  obtain ⟨s₁, drop, rfl⟩ := fetch
  intro front u h
  obtain ⟨u', same, h'⟩ := h.closeBlocks 0
  exact ⟨u', same, (((h'.dropKey drop).emit t).advance 3).allowKey false⟩

theorem emits_flowStart (fetch : s.fetchFlowStart t = some s') : s.Emits t s' := by
  simp only [fetchFlowStart, Option.bind_eq_bind, Option.bind_eq_some_iff, Option.some.injEq] at fetch
  obtain ⟨s₁, save, rfl⟩ := fetch
  intro front u h
  have h' := (h.saveKey save).emit t
  exact ⟨u, .refl u, h'.tokens_eq, fun key mem => h'.keys key ((List.mem_cons.1 mem).resolve_left nofun)⟩

theorem emits_flowEnd (fetch : s.fetchFlowEnd t = some s') : s.Emits t s' := by
  simp only [fetchFlowEnd, Option.bind_eq_bind, Option.bind_eq_some_iff, Option.some.injEq] at fetch
  obtain ⟨s₁, drop, rfl⟩ := fetch
  intro front u h
  have h' := (h.dropKey drop).emit t
  refine ⟨u, .refl u, h'.tokens_eq, fun key mem => h'.keys key ?_⟩
  dsimp only at mem
  split at mem
  · exact List.mem_of_mem_drop mem
  · exact mem

theorem emits_flowEntry (fetch : s.fetchFlowEntry = some s') : s.Emits .flowEntry s' := by
  simp only [fetchFlowEntry, Option.bind_eq_bind, Option.bind_eq_some_iff, Option.some.injEq] at fetch
  obtain ⟨s₁, drop, rfl⟩ := fetch
  exact fun front u h => ⟨u, .refl u, (((h.dropKey drop).emit _).advance 1).allowKey true⟩

theorem emits_blockEntry (fetch : s.fetchBlockEntry = some s') : s.Emits .blockEntry s' := by
  rw [fetchBlockEntry] at fetch
  split at fetch
  · cases fetch
  · simp only [Option.bind_eq_bind, Option.bind_eq_some_iff, Option.some.injEq] at fetch
    obtain ⟨s₁, drop, rfl⟩ := fetch
    intro front u h
    obtain ⟨u', same, h'⟩ := h.openBlock s.margin h.length_le (t := .blockSequenceStart) rfl
    exact ⟨u', same, (((h'.dropKey drop).emit _).advance 1).allowKey true⟩

theorem emits_key (fetch : s.fetchKey = some s') : s.Emits .key s' := by
  rw [fetchKey] at fetch
  split at fetch
  · cases fetch
  · simp only [Option.bind_eq_bind, Option.bind_eq_some_iff, Option.some.injEq] at fetch
    obtain ⟨s₁, drop, rfl⟩ := fetch
    intro front u h
    obtain ⟨u', same, h'⟩ := h.openBlock s.margin h.length_le (t := .blockMappingStart) rfl
    exact ⟨u', same, (((h'.dropKey drop).emit _).advance 1).allowKey _⟩

/-- A value behind a possible key puts the key in and may start a mapping there. -/
theorem emits_value (fetch : s.fetchValue = some s') : s.Emits .value s' := by
  intro front u h
  unfold fetchValue at fetch
  split at fetch
  · next key rest keys =>
    cases fetch
    have behind : front.length ≤ key.position := h.keys key (by rw [keys]; exact List.mem_cons_self)
    obtain ⟨u', same, tokens_eq⟩ := h.insert behind (t := .key) rfl
    have h' : Holds front u'
        { s with tokens := s.tokens.insertIdxIfInBounds key.position .key, keys := none :: rest } := by
      refine ⟨tokens_eq, fun k mem => h.keys k ?_⟩
      rw [keys]
      exact List.mem_cons_of_mem _ ((List.mem_cons.1 mem).resolve_left nofun)
    obtain ⟨u'', same', h''⟩ := h'.openBlock (key.column + 1) behind (t := .blockMappingStart) rfl
    exact ⟨u'', same.trans same', ((h''.emit _).advance 1).allowKey false⟩
  · split at fetch
    · cases fetch
    · cases fetch
      obtain ⟨u', same, h'⟩ := h.openBlock s.margin h.length_le (t := .blockMappingStart) rfl
      exact ⟨u', same, ((h'.emit _).advance 1).allowKey _⟩

theorem emits_name {token : String → Token} (fetch : s.fetchName token = some s') :
    ∃ name, s.Emits (token name) s' := by
  simp only [fetchName, Option.bind_eq_bind, Option.bind_eq_some_iff, Option.ite_none_left_eq_some,
    Option.some.injEq] at fetch
  obtain ⟨s₁, save, -, rfl⟩ := fetch
  exact ⟨_, fun front u h => ⟨u, .refl u, (((h.saveKey save).advance _).emit _).allowKey false⟩⟩

theorem emits_tag (fetch : s.fetchTag = some s') : ∃ tag, s.Emits (.tag tag) s' := by
  simp only [fetchTag, Option.bind_eq_bind, Option.bind_eq_some_iff, Option.some.injEq, Prod.exists] at fetch
  obtain ⟨s₁, save, tag, rest, -, rfl⟩ := fetch
  exact ⟨tag, fun front u h => ⟨u, .refl u, (((h.saveKey save).emit _).advance _).allowKey false⟩⟩

/-- A scalar that is read at the place of a scanner, outside flow collections. -/
inductive ReadsScalar (s : Scanner) (text : List Char) : Prop
  | block {folded : Bool} {c : Cursor} (first : s.cursor.rest.head? = some (if folded then '>' else '|'))
      (read : readBlock folded s.indent s.cursor = some (text, c))
  | quoted {single : Bool} {c : Cursor} (first : s.cursor.rest.head? = some (quoteMark single))
      (read : readQuoted single s.cursor = some (text, c))
  | plain {broken : Bool} {c : Cursor} (starts : startsPlain false s.cursor.rest = true)
      (noItem : ¬(s.cursor.rest.head? = some '-' ∧ atBlankOrEnd (s.cursor.rest.drop 1) = true))
      (read : readPlain false s.indent s.cursor = some (text, broken, c))

theorem emits_blockScalar {folded : Bool} (fetch : s.fetchBlockScalar folded = some s') :
    ∃ text style c, s.Emits (.scalar (String.ofList text) style) s' ∧
      readBlock folded s.indent s.cursor = some (text, c) := by
  simp only [fetchBlockScalar, Option.bind_eq_bind, Option.bind_eq_some_iff, Option.some.injEq, Prod.exists] at fetch
  obtain ⟨s₁, drop, text, c, read, rfl⟩ := fetch
  obtain ⟨keys, rfl, -⟩ := exists_dropKey drop
  exact ⟨text, _, c, fun front u h => ⟨u, .refl u, (((h.dropKey drop).emit _).moveTo c).allowKey true⟩, read⟩

theorem emits_quoted {single : Bool} (fetch : s.fetchQuoted single = some s') :
    ∃ text style c, s.Emits (.scalar (String.ofList text) style) s' ∧ readQuoted single s.cursor = some (text, c) := by
  simp only [fetchQuoted, Option.bind_eq_bind, Option.bind_eq_some_iff, Option.some.injEq, Prod.exists] at fetch
  obtain ⟨s₁, save, text, c, read, rfl⟩ := fetch
  obtain ⟨keys, rfl, -⟩ := exists_saveKey save
  exact ⟨text, _, c, fun front u h => ⟨u, .refl u, (((h.saveKey save).emit _).moveTo c).allowKey false⟩, read⟩

theorem emits_plain (fetch : s.fetchPlain = some s') :
    ∃ text broken c, s.Emits (.scalar (String.ofList text) .plain) s' ∧
      (s.keys.length = 1 → readPlain false s.indent s.cursor = some (text, broken, c)) := by
  simp only [fetchPlain, Option.bind_eq_bind, Option.bind_eq_some_iff, Option.some.injEq, Prod.exists] at fetch
  obtain ⟨s₁, save, text, broken, c, read, rfl⟩ := fetch
  obtain ⟨keys, rfl, length⟩ := exists_saveKey save
  refine ⟨text, broken, c, fun front u h => ⟨u, .refl u, (((h.saveKey save).emit _).moveTo c).allowKey _⟩,
    fun one => ?_⟩
  have outside : inFlow { s with keys } = false := by simp [inFlow, length one]
  rwa [outside] at read

/-- What reading one token does: it adds an indicator or an alias, a property of a node, or a scalar. -/
theorem fetch_cases (fetch : s.fetch = some s') :
    (∃ t, t.isProperty = false ∧ t.isScalar = false ∧ s.Emits t s') ∨
      (s.cursor.rest.head? = some '&' ∧ s.fetchName .anchor = some s') ∨
      (s.cursor.rest.head? = some '!' ∧ s.fetchTag = some s') ∨
      ∃ text style, s.Emits (.scalar (String.ofList text) style) s' ∧ (s.keys.length = 1 → s.ReadsScalar text) := by
  unfold Scanner.fetch at fetch
  rcases ite_eq_iff.1 fetch with ⟨-, fetch⟩ | ⟨-, fetch⟩
  · exact .inl (emits_directive fetch)
  rcases ite_eq_iff.1 fetch with ⟨-, fetch⟩ | ⟨-, fetch⟩
  · exact .inl ⟨_, rfl, rfl, emits_documentMark fetch⟩
  rcases ite_eq_iff.1 fetch with ⟨-, fetch⟩ | ⟨-, fetch⟩
  · exact .inl ⟨_, rfl, rfl, emits_documentMark fetch⟩
  rcases ite_eq_iff.1 fetch with ⟨-, fetch⟩ | ⟨-, fetch⟩
  · exact .inl ⟨_, rfl, rfl, emits_flowStart fetch⟩
  rcases ite_eq_iff.1 fetch with ⟨-, fetch⟩ | ⟨-, fetch⟩
  · exact .inl ⟨_, rfl, rfl, emits_flowStart fetch⟩
  rcases ite_eq_iff.1 fetch with ⟨-, fetch⟩ | ⟨-, fetch⟩
  · exact .inl ⟨_, rfl, rfl, emits_flowEnd fetch⟩
  rcases ite_eq_iff.1 fetch with ⟨-, fetch⟩ | ⟨-, fetch⟩
  · exact .inl ⟨_, rfl, rfl, emits_flowEnd fetch⟩
  rcases ite_eq_iff.1 fetch with ⟨-, fetch⟩ | ⟨-, fetch⟩
  · exact .inl ⟨_, rfl, rfl, emits_flowEntry fetch⟩
  rcases ite_eq_iff.1 fetch with ⟨-, fetch⟩ | ⟨noItem, fetch⟩
  · exact .inl ⟨_, rfl, rfl, emits_blockEntry fetch⟩
  rcases ite_eq_iff.1 fetch with ⟨-, fetch⟩ | ⟨-, fetch⟩
  · exact .inl ⟨_, rfl, rfl, emits_key fetch⟩
  rcases ite_eq_iff.1 fetch with ⟨-, fetch⟩ | ⟨-, fetch⟩
  · exact .inl ⟨_, rfl, rfl, emits_value fetch⟩
  rcases ite_eq_iff.1 fetch with ⟨-, fetch⟩ | ⟨-, fetch⟩
  · obtain ⟨name, emits⟩ := emits_name fetch
    exact .inl ⟨_, rfl, rfl, emits⟩
  rcases ite_eq_iff.1 fetch with ⟨first, fetch⟩ | ⟨-, fetch⟩
  · exact .inr (.inl ⟨by simpa using first, fetch⟩)
  rcases ite_eq_iff.1 fetch with ⟨first, fetch⟩ | ⟨-, fetch⟩
  · exact .inr (.inr (.inl ⟨by simpa using first, fetch⟩))
  refine .inr (.inr (.inr ?_))
  rcases ite_eq_iff.1 fetch with ⟨first, fetch⟩ | ⟨-, fetch⟩
  · obtain ⟨text, style, c, emits, read⟩ := emits_blockScalar fetch
    refine ⟨text, style, emits, fun _ => .block ?_ read⟩
    exact of_decide_eq_true (Bool.and_eq_true_iff.1 first).1
  rcases ite_eq_iff.1 fetch with ⟨first, fetch⟩ | ⟨-, fetch⟩
  · obtain ⟨text, style, c, emits, read⟩ := emits_blockScalar fetch
    refine ⟨text, style, emits, fun _ => .block ?_ read⟩
    exact of_decide_eq_true (Bool.and_eq_true_iff.1 first).1
  rcases ite_eq_iff.1 fetch with ⟨first, fetch⟩ | ⟨-, fetch⟩
  · obtain ⟨text, style, c, emits, read⟩ := emits_quoted fetch
    exact ⟨text, style, emits, fun _ => .quoted (by simpa [quoteMark] using first) read⟩
  rcases ite_eq_iff.1 fetch with ⟨first, fetch⟩ | ⟨-, fetch⟩
  · obtain ⟨text, style, c, emits, read⟩ := emits_quoted fetch
    exact ⟨text, style, emits, fun _ => .quoted (by simpa [quoteMark] using first) read⟩
  rcases ite_eq_iff.1 fetch with ⟨starts, fetch⟩ | ⟨-, fetch⟩
  · obtain ⟨text, broken, c, emits, read⟩ := emits_plain fetch
    refine ⟨text, .plain, emits, fun one => .plain ?_ (by simpa using noItem) (read one)⟩
    have outside : s.inFlow = false := by simp [inFlow, one]
    rwa [outside] at starts
  · cases fetch

/-! ## All tokens -/

theorem exists_skipToToken (fuel : Nat) (s : Scanner) :
    ∃ cursor keyAllowed, s.skipToToken fuel = { s with cursor, keyAllowed } := by
  induction fuel generalizing s with
  | zero => exact ⟨s.cursor, s.keyAllowed, rfl⟩
  | succ fuel ih =>
    rw [skipToToken]
    generalize (if s.cursor.column = 0 && s.cursor.rest.head? = some '\uFEFF' then s.cursor.skip else s.cursor) = c
    generalize (c.skipWhile fun ch => ch = ' ' || ((s.inFlow || !s.keyAllowed) && ch = '\t')) = c
    generalize (if c.rest.head? = some '#' then c.skipWhile fun ch => !isBreak ch else c) = c
    split
    · obtain ⟨cursor, keyAllowed, e⟩ := ih { s with cursor := c.skipBreak, keyAllowed := s.keyAllowed || !s.inFlow }
      exact ⟨cursor, keyAllowed, e⟩
    · exact ⟨c, s.keyAllowed, rfl⟩

/-- In front of a token only spaces are skipped. -/
theorem skipToToken_spaces {q cs : List Char} (rest : s.cursor.rest = q ++ cs) (spaces : ∀ ch ∈ q, ch = ' ')
    (first : ∀ ch ∈ cs.head?, ¬IsGap ch ∧ ch ≠ '#')
    (noMark : ¬(s.cursor.column = 0 ∧ s.cursor.rest.head? = some '\uFEFF')) :
    s.skipToToken (fuel + 1) = s.advance q.length := by
  have noMark : ¬(s.cursor.column = 0 && s.cursor.rest.head? = some '\uFEFF') = true := by simpa using noMark
  have blanks : (s.cursor.skipWhile fun ch => ch = ' ' || ((s.inFlow || !s.keyAllowed) && ch = '\t')) =
      s.cursor.skipMany q.length := by
    have stops : cs.takeWhile (fun ch => ch = ' ' || ((s.inFlow || !s.keyAllowed) && ch = '\t')) = [] := by
      cases cs with
      | nil => rfl
      | cons ch cs =>
        have noBlank : isSpaceOrTab ch = false := Bool.eq_false_iff.2 fun blank => (first ch rfl).1 (.inr blank)
        simp only [isSpaceOrTab, Bool.or_eq_false_iff, decide_eq_false_iff_not] at noBlank
        simp [noBlank]
    rw [Cursor.skipWhile, rest, List.takeWhile_append_of_pos fun ch mem => by simp [spaces ch mem], stops,
      List.append_nil]
  have rest' : (s.cursor.skipMany q.length).rest = cs := by rw [Cursor.skipMany, rest, List.drop_left]
  have noSign : (s.cursor.skipMany q.length).rest.head? ≠ some '#' := by
    rw [rest']
    exact fun e => (first _ e).2 rfl
  have noBreak : ((s.cursor.skipMany q.length).rest.head?.map isBreak).getD false = false := by
    rw [rest']
    cases cs with
    | nil => rfl
    | cons ch cs => exact Bool.eq_false_iff.2 fun atBreak => (first ch rfl).1 (.inl atBreak)
  rw [skipToToken, if_neg noMark]
  simp only [blanks, if_neg noSign, noBreak, Bool.false_eq_true, if_false]
  rfl

theorem skipToToken_eq_self (first : ∀ ch ∈ s.cursor.rest.head?, ¬IsGap ch ∧ ch ≠ '#')
    (noMark : ¬(s.cursor.column = 0 ∧ s.cursor.rest.head? = some '\uFEFF')) : s.skipToToken fuel = s := by
  cases fuel with
  | zero => rfl
  | succ fuel => exact skipToToken_spaces (q := []) rfl nofun first noMark

/-- Goes to the next token, with the blocks ended that it is not part of. -/
def settle (fuel : Nat) (s : Scanner) : Option Scanner :=
  (s.skipToToken fuel).expireKeys.map fun s => s.closeBlocks s.margin

theorem Holds.settle (h : s.Holds front u) (settle : s.settle fuel = some s') :
    ∃ u', SameLead u u' ∧ s'.Holds front u' := by
  obtain ⟨s₁, expire, rfl⟩ := Option.map_eq_some_iff.1 settle
  obtain ⟨cursor, keyAllowed, e⟩ := exists_skipToToken fuel s
  rw [e] at expire
  have moved : Holds front u { s with cursor, keyAllowed } := ⟨h.tokens_eq, h.keys⟩
  exact (moved.expireKeys expire).closeBlocks _

/-- Reading goes from one token to the next; at the end of the text the blocks end that are open. -/
theorem run_succ (fuel : Nat) (s : Scanner) :
    s.run (fuel + 1) =
      (s.settle (fuel + 1)).bind fun s =>
        if s.cursor.rest = [] then (s.closeBlocks 0).dropKey.map (·.tokens.toList) else s.fetch.bind (run fuel) := by
  rw [run, settle]
  cases (s.skipToToken (fuel + 1)).expireKeys with
  | none => rfl
  | some s =>
    simp only [Option.bind_eq_bind, Option.bind_some, Option.map_some]
    split
    · cases ((s.closeBlocks s.margin).closeBlocks 0).dropKey <;> rfl
    · rfl

end Scanner

end TypedWrappers.Yaml
