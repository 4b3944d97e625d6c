import Mathlib.Data.List.Nodup
import TypedWrappers.Pass.Trace
import TypedWrappers.Proofs.Samples
import TypedWrappers.Proofs.ScopeLookup

/-!
# Ambiguous names

What the imports of a scope mean is almost what the set of them means. Their order does not count and neither do the
blanks around them, but each is counted as often as it is written: a type whose namespace is imported twice is told to
be ambiguous with itself, and means nothing.

- `SymbolTable.LooksInImports`, `SymbolTable.providers`: where the imports decide, and which of them do;
- `SymbolTable.Ambiguous`, `SymbolTable.RepeatsImport`: two imports provide a name; the only namespace that provides it
  is imported more than once;
- `SymbolTable.resolveEvents_ne_nil_iff`: ambiguous names are those that are told to be ambiguous;
- `SymbolTable.resolve?_eq_iff_of_sameImports`: scopes that import the same namespaces give a name the same meaning
  exactly where both repeat the import that provides it, or neither does.
-/

namespace TypedWrappers

open Text

/-- Two scopes in one namespace that import the same namespaces, in any order and any number of times. -/
structure Scope.SameImports (scope scope' : Scope) : Prop where
  ns : scope.ns = scope'.ns
  usings : ∀ ns, ns ∈ scope.usings.map trim ↔ ns ∈ scope'.usings.map trim

theorem Scope.SameImports.symm {scope scope' : Scope} (h : scope.SameImports scope') : scope'.SameImports scope :=
  ⟨h.ns.symm, fun ns => (h.usings ns).symm⟩

namespace SymbolTable

variable {table : SymbolTable} {scope scope' : Scope} {written name full : String}

/-! ## Where imports decide -/

/-- The imports decide what a name means: it is simple, and no namespace around the scope has a type of that name. -/
def LooksInImports (table : SymbolTable) (scope : Scope) (written : String) : Prop :=
  isSimple (trim written) = true ∧ ∀ ns ∈ enclosing scope.ns, table.contains (ns ++ "." ++ trim written) = false

instance : Decidable (table.LooksInImports scope written) :=
  inferInstanceAs (Decidable (_ ∧ _))

theorem LooksInImports.of_ns (h : table.LooksInImports scope written) (ns : scope.ns = scope'.ns) :
    table.LooksInImports scope' written :=
  ⟨h.1, ns ▸ h.2⟩

/-- The imported namespaces that have a type of a simple name, one for each time that they are imported. -/
def providers (table : SymbolTable) (scope : Scope) (name : String) : List String :=
  (scope.usings.map trim).filter fun ns => table.contains (ns ++ "." ++ name)

theorem mem_providers {ns : String} : ns ∈ table.providers scope name ↔
    ns ∈ scope.usings.map trim ∧ table.contains (ns ++ "." ++ name) = true :=
  List.mem_filter

theorem count_providers {ns : String} (known : table.contains (ns ++ "." ++ name) = true) :
    (table.providers scope name).count ns = (scope.usings.map trim).count ns := by
  have keeps : (fun ns => table.contains (ns ++ "." ++ name)) ns = true := known
  exact List.count_filter keeps

theorem imported_eq_map_providers :
    table.imported scope name = (table.providers scope name).map fun ns => ns ++ "." ++ name := by
  rw [imported, providers, List.filter_map, List.filter_map, List.map_map]
  rfl

/-- What is imported decides what a name means, and behind it the global namespace. -/
theorem resolve?_of_looksInImports (h : table.LooksInImports scope written) :
    table.resolve? scope written =
      match table.providers scope (trim written) with
      | [ns] => some (ns ++ "." ++ trim written)
      | _ :: _ :: _ => none
      | [] => if table.contains (trim written) then some (trim written) else none := by
  obtain ⟨noAlias, noKeyword, undotted⟩ := isSimple_iff.1 h.1
  have noCandidate : (enclosingCandidates scope (trim written)).find? table.contains = none := by
    simpa [enclosingCandidates] using h.2
  rw [resolve?, noAlias]
  dsimp only
  rw [noKeyword, undotted, lookupSimple, noCandidate, imported_eq_map_providers]
  rcases table.providers scope (trim written) with _ | ⟨first, _ | ⟨second, others⟩⟩ <;> rfl

/-- Where the imports do not decide, only the namespace of the scope counts. -/
theorem resolve?_of_not_looksInImports (h : ¬ table.LooksInImports scope written) (ns : scope.ns = scope'.ns) :
    table.resolve? scope written = table.resolve? scope' written := by
  have candidates (name : String) : enclosingCandidates scope name = enclosingCandidates scope' name := by
    rw [enclosingCandidates, enclosingCandidates, ns]
  unfold resolve?
  dsimp only
  split
  · rfl
  next noAlias =>
  split
  · rfl
  next noKeyword =>
  split
  · rw [lookupDotted, lookupDotted, candidates]
  next undotted =>
  have simple : isSimple (trim written) = true := isSimple_iff.2 ⟨noAlias, noKeyword, Bool.eq_false_iff.2 undotted⟩
  rw [lookupSimple, lookupSimple, candidates]
  cases found : (enclosingCandidates scope' (trim written)).find? table.contains with
  | some full => rfl
  | none =>
    rw [← candidates] at found
    exact absurd ⟨simple, by simpa [enclosingCandidates] using found⟩ h

/-! ## Ambiguity -/

/-- Two imports provide a name that the imports decide. -/
def Ambiguous (table : SymbolTable) (scope : Scope) (written : String) : Prop :=
  table.LooksInImports scope written ∧ 2 ≤ (table.providers scope (trim written)).length

/-- One namespace alone provides a name that the imports decide, and it is imported more than once. -/
def RepeatsImport (table : SymbolTable) (scope : Scope) (written : String) : Prop :=
  table.LooksInImports scope written ∧ ∃ ns, 2 ≤ (scope.usings.map trim).count ns ∧
    table.contains (ns ++ "." ++ trim written) = true ∧
      ∀ other ∈ scope.usings.map trim, table.contains (other ++ "." ++ trim written) = true → other = ns

/-- Two imported namespaces provide a name that the imports decide. -/
def HasRivals (table : SymbolTable) (scope : Scope) (written : String) : Prop :=
  table.LooksInImports scope written ∧
    ∃ ns ∈ scope.usings.map trim, ∃ other ∈ scope.usings.map trim, ns ≠ other ∧
      table.contains (ns ++ "." ++ trim written) = true ∧ table.contains (other ++ "." ++ trim written) = true

instance : Decidable (table.Ambiguous scope written) :=
  inferInstanceAs (Decidable (_ ∧ _))

theorem resolve?_of_ambiguous (h : table.Ambiguous scope written) : table.resolve? scope written = none := by
  rw [resolve?_of_looksInImports h.1]
  rcases hp : table.providers scope (trim written) with _ | ⟨first, _ | ⟨second, others⟩⟩
  · have two := h.2
    rw [hp] at two
    simp at two
  · have two := h.2
    rw [hp] at two
    simp at two
  · rfl

/-- Two types that imports provide are told of. -/
theorem resolveEvents_of_looksInImports (h : table.LooksInImports scope written) :
    table.resolveEvents scope written =
      match table.providers scope (trim written) with
      | first :: second :: _ =>
        [.debug ("'" ++ trim written ++ "' is ambiguous between " ++ (first ++ "." ++ trim written) ++ " and " ++
          (second ++ "." ++ trim written))]
      | _ => [] := by
  have simple : ((afterPrefix? TypeSyntax.globalAlias (trim written)).isSome || isKeyword (trim written) ||
      isDotted (trim written)) = false := by
    simpa [isSimple, and_assoc] using h.1
  have noCandidate : ((enclosingCandidates scope (trim written)).find? table.contains).isSome = false := by
    simpa [enclosingCandidates] using h.2
  rw [resolveEvents, simple, noCandidate, imported_eq_map_providers]
  rcases table.providers scope (trim written) with _ | ⟨first, _ | ⟨second, others⟩⟩ <;> rfl

/-- Nothing is told of names that the imports do not decide. -/
theorem looksInImports_of_resolveEvents_ne_nil (h : table.resolveEvents scope written ≠ []) :
    table.LooksInImports scope written := by
  unfold resolveEvents at h
  dsimp only at h
  split at h
  · exact absurd rfl h
  next simple =>
  split at h
  · exact absurd rfl h
  next noCandidate =>
  exact ⟨by simpa [isSimple, and_assoc] using simple, by simpa [enclosingCandidates] using noCandidate⟩

/-- A name is told to be ambiguous exactly where it is. -/
theorem resolveEvents_ne_nil_iff : table.resolveEvents scope written ≠ [] ↔ table.Ambiguous scope written := by
  by_cases looks : table.LooksInImports scope written
  · rw [Ambiguous, and_iff_right looks, resolveEvents_of_looksInImports looks]
    rcases table.providers scope (trim written) with _ | ⟨first, _ | ⟨second, others⟩⟩ <;> simp
  · exact iff_of_false (fun h => looks (looksInImports_of_resolveEvents_ne_nil h)) fun h => looks h.1

/-- An import is repeated where all imports that provide the name are of one namespace. -/
theorem repeatsImport_iff : table.RepeatsImport scope written ↔
    table.Ambiguous scope written ∧
      ∀ a ∈ table.providers scope (trim written), ∀ b ∈ table.providers scope (trim written), a = b := by
  rw [RepeatsImport, Ambiguous, and_assoc]
  refine and_congr_right fun _ => ?_
  constructor
  · rintro ⟨ns, twice, known, only⟩
    have all : ∀ a ∈ table.providers scope (trim written), ns = a := fun a ha =>
      (only a (mem_providers.1 ha).1 (mem_providers.1 ha).2).symm
    refine ⟨?_, fun a ha b hb => (all a ha).symm.trans (all b hb)⟩
    rw [← List.count_eq_length.2 all, count_providers known]
    exact twice
  · rintro ⟨two, same⟩
    obtain ⟨ns, isProvider⟩ := List.exists_mem_of_length_pos (Nat.lt_of_lt_of_le Nat.two_pos two)
    obtain ⟨imported, known⟩ := mem_providers.1 isProvider
    refine ⟨ns, ?_, known, fun other imported known => same other (mem_providers.2 ⟨imported, known⟩) ns isProvider⟩
    rw [← count_providers known, List.count_eq_length.2 (same ns isProvider)]
    exact two

instance : Decidable (table.RepeatsImport scope written) :=
  decidable_of_iff _ repeatsImport_iff.symm

/-- A name is ambiguous between the types of two namespaces, or between a type and itself. -/
theorem ambiguous_iff :
    table.Ambiguous scope written ↔ table.HasRivals scope written ∨ table.RepeatsImport scope written := by
  rw [repeatsImport_iff]
  constructor
  · intro h
    refine or_iff_not_imp_left.2 fun noRivals => ⟨h, fun a ha b hb => ?_⟩
    by_contra ne
    obtain ⟨importedA, knownA⟩ := mem_providers.1 ha
    obtain ⟨importedB, knownB⟩ := mem_providers.1 hb
    exact noRivals ⟨h.1, a, importedA, b, importedB, ne, knownA, knownB⟩
  · rintro (⟨looks, a, importedA, b, importedB, ne, knownA, knownB⟩ | ⟨h, -⟩)
    · refine ⟨looks, ?_⟩
      have subset : [a, b] ⊆ table.providers scope (trim written) := by
        intro ns mem
        rcases List.mem_cons.1 mem with rfl | mem
        · exact mem_providers.2 ⟨importedA, knownA⟩
        · obtain rfl := List.mem_singleton.1 mem
          exact mem_providers.2 ⟨importedB, knownB⟩
      exact List.Nodup.length_le_of_subset (by simpa using ne) subset
    · exact h

/-- Where no import is written twice, none is repeated. -/
theorem not_repeatsImport_of_nodup (nodup : (scope.usings.map trim).Nodup) : ¬ table.RepeatsImport scope written := by
  rintro ⟨-, ns, twice, -⟩
  have once := List.nodup_iff_count_le_one.1 nodup ns
  omega

/-! ## Scopes with the same imports -/

section SameImports

variable (same : scope.SameImports scope')

include same

theorem mem_providers_congr {ns : String} : ns ∈ table.providers scope name ↔ ns ∈ table.providers scope' name := by
  rw [mem_providers, mem_providers, same.usings]

/-- Where a name is ambiguous in one scope and not in the other, the first scope repeats what is imported once in the
second. -/
theorem repeatsImport_of_ambiguous (h : table.Ambiguous scope written) (h' : ¬ table.Ambiguous scope' written) :
    table.RepeatsImport scope written ∧ ∃ ns, table.resolve? scope' written = some (ns ++ "." ++ trim written) := by
  have looks' : table.LooksInImports scope' written := h.1.of_ns same.ns
  have mem (ns : String) :
      ns ∈ table.providers scope (trim written) ↔ ns ∈ table.providers scope' (trim written) :=
    mem_providers_congr same
  obtain ⟨first, isProvider⟩ := List.exists_mem_of_length_pos (Nat.lt_of_lt_of_le Nat.two_pos h.2)
  rcases hp : table.providers scope' (trim written) with _ | ⟨ns, _ | ⟨second, others⟩⟩
  · rw [mem, hp] at isProvider
    cases isProvider
  · have only : ∀ a ∈ table.providers scope (trim written), a = ns := fun a ha => by
      rw [mem, hp] at ha
      exact List.mem_singleton.1 ha
    refine ⟨repeatsImport_iff.2 ⟨h, fun a ha b hb => (only a ha).trans (only b hb).symm⟩, ns, ?_⟩
    rw [resolve?_of_looksInImports looks', hp]
  · exact absurd ⟨looks', by rw [hp]; simp⟩ h'

/-- A name that is ambiguous in neither scope means the same. -/
theorem resolve?_eq_of_not_ambiguous (h : ¬ table.Ambiguous scope written) (h' : ¬ table.Ambiguous scope' written) :
    table.resolve? scope written = table.resolve? scope' written := by
  by_cases looks : table.LooksInImports scope written
  · have looks' := looks.of_ns same.ns
    have few : (table.providers scope (trim written)).length < 2 := Nat.lt_of_not_le fun two => h ⟨looks, two⟩
    have few' : (table.providers scope' (trim written)).length < 2 := Nat.lt_of_not_le fun two => h' ⟨looks', two⟩
    have equal : table.providers scope (trim written) = table.providers scope' (trim written) := by
      have mem (ns : String) :
          ns ∈ table.providers scope (trim written) ↔ ns ∈ table.providers scope' (trim written) :=
        mem_providers_congr same
      generalize table.providers scope (trim written) = providers at mem few
      generalize table.providers scope' (trim written) = providers' at mem few'
      match providers, providers' with
      | [], [] => rfl
      | [ns], [ns'] => simpa using mem ns
      | [], ns' :: _ => simpa using mem ns'
      | ns :: _, [] => simpa using mem ns
      | _ :: _ :: _, _ => simp only [List.length_cons] at few; omega
      | _, _ :: _ :: _ => simp only [List.length_cons] at few'; omega
    rw [resolve?_of_looksInImports looks, resolve?_of_looksInImports looks', equal]
  · exact resolve?_of_not_looksInImports looks same.ns

/-- Where a name means different types, it is ambiguous in one of the scopes. -/
theorem ambiguous_of_resolve?_ne (differ : table.resolve? scope written ≠ table.resolve? scope' written) :
    table.Ambiguous scope written ∧ ¬ table.Ambiguous scope' written ∨
      table.Ambiguous scope' written ∧ ¬ table.Ambiguous scope written := by
  by_cases h : table.Ambiguous scope written <;> by_cases h' : table.Ambiguous scope' written
  · rw [resolve?_of_ambiguous h, resolve?_of_ambiguous h'] at differ
    exact absurd rfl differ
  · exact .inl ⟨h, h'⟩
  · exact .inr ⟨h', h⟩
  · exact absurd (resolve?_eq_of_not_ambiguous same h h') differ

/-- Scopes with the same imports give a name one meaning exactly where both repeat the import that provides it, or
neither does. -/
theorem resolve?_eq_iff : table.resolve? scope written = table.resolve? scope' written ↔
    (table.RepeatsImport scope written ↔ table.RepeatsImport scope' written) := by
  have ambiguous {scope : Scope} (h : table.RepeatsImport scope written) : table.Ambiguous scope written :=
    (repeatsImport_iff.1 h).1
  constructor
  · intro equal
    have one {scope scope' : Scope} (same : scope.SameImports scope')
        (equal : table.resolve? scope written = table.resolve? scope' written)
        (h : table.RepeatsImport scope written) : table.RepeatsImport scope' written := by
      by_cases h' : table.Ambiguous scope' written
      · refine repeatsImport_iff.2 ⟨h', ?_⟩
        simpa only [mem_providers_congr same] using (repeatsImport_iff.1 h).2
      · obtain ⟨-, ns, means⟩ := repeatsImport_of_ambiguous same (ambiguous h) h'
        rw [resolve?_of_ambiguous (ambiguous h), means] at equal
        cases equal
    exact ⟨one same equal, one same.symm equal.symm⟩
  · intro both
    by_contra differ
    rcases ambiguous_of_resolve?_ne same differ with ⟨h, h'⟩ | ⟨h', h⟩
    · exact h' (ambiguous (both.1 (repeatsImport_of_ambiguous same h h').1))
    · exact h (ambiguous (both.2 (repeatsImport_of_ambiguous same.symm h' h).1))

end SameImports

/-! ## Attributes -/

/-- The two names that an attribute is looked up by, in order. -/
def attributeAttempts (written : String) : String × String :=
  let name := attributeName written
  if endsWith name attributeEnding then (name, name ++ attributeEnding) else (name ++ attributeEnding, name)

/-- What the first name means counts, or else what the second means. -/
theorem resolveAttribute?_eq_or (h : attributeName written ≠ "") :
    table.resolveAttribute? scope written =
      (table.resolve? scope (attributeAttempts written).1).or (table.resolve? scope (attributeAttempts written).2) := by
  unfold resolveAttribute? attributeAttempts
  dsimp only
  rw [if_neg h]
  by_cases ending : endsWith (attributeName written) attributeEnding = true
  · simp only [if_pos ending]
    cases table.resolve? scope (attributeName written) with
    | none => rw [Option.none_or, Option.or_none]
    | some full => rw [Option.some_or, Option.some_or]
  · simp only [if_neg ending, Option.none_or]

theorem trim_append_attributeEnding (s : String) :
    trim (trim s ++ attributeEnding) = trim s ++ attributeEnding := by
  have starts : attributeEnding.toList.head? = some 'A' := by decide
  have ends : attributeEnding.toList.getLast? = some 'e' := by decide
  refine trim_eq_self (fun c first => ?_) fun c last => ?_
  · rw [trim, String.toList_append, String.toList_ofList, List.head?_append] at first
    cases start : (trimChars s.toList).head? with
    | none =>
      rw [start, Option.none_or, starts] at first
      obtain rfl := Option.some.inj first
      decide
    | some c' =>
      rw [start, Option.some_or] at first
      obtain rfl := Option.some.inj first
      exact isBlank_of_head?_trimChars start
  · rw [String.toList_append, List.getLast?_append, ends, Option.some_or] at last
    obtain rfl := Option.some.inj last
    decide

/-- Two names of which one is the other with the ending of attributes. -/
def Apart (first second : String) : Prop :=
  first = second ++ attributeEnding ∨ second = first ++ attributeEnding

/-- The two names of an attribute differ by the ending, and neither has blanks around it. -/
theorem attributeAttempts_apart (written : String) :
    Apart (attributeAttempts written).1 (attributeAttempts written).2 ∧
      trim (attributeAttempts written).1 = (attributeAttempts written).1 ∧
      trim (attributeAttempts written).2 = (attributeAttempts written).2 := by
  have bare : trim (attributeName written) = attributeName written := trim_trim _
  have whole : trim (attributeName written ++ attributeEnding) = attributeName written ++ attributeEnding :=
    trim_append_attributeEnding _
  unfold attributeAttempts
  dsimp only
  split
  · exact ⟨.inr rfl, bare, whole⟩
  · exact ⟨.inl rfl, whole, bare⟩

theorem isDotted_append_attributeEnding (name : String) : isDotted (name ++ attributeEnding) = isDotted name := by
  have undotted : attributeEnding.toList.contains '.' = false := by decide
  rw [isDotted, isDotted, String.toList_append, List.contains_append, undotted, Bool.or_false]

theorem simpleName_of_undotted {name : String} (undotted : isDotted name = false) : simpleName name = name := by
  have whole := namespaceOf?_of_undotted undotted
  rw [namespaceOf?, Option.map_eq_none_iff] at whole
  rw [simpleName, splitQualified, whole]

namespace Apart

variable {first second : String}

theorem isDotted_eq (apart : Apart first second) : isDotted second = isDotted first := by
  rcases apart with rfl | rfl
  · exact (isDotted_append_attributeEnding second).symm
  · exact isDotted_append_attributeEnding first

theorem ne (apart : Apart first second) : first ≠ second := by
  have nonempty : attributeEnding ≠ "" := by decide
  rintro rfl
  rcases apart with e | e <;> exact nonempty (String.append_eq_left_iff.1 e.symm)

/-- No keyword stands for a type that is named like the keyword but for the ending. -/
theorem simpleName_ne_of_keyword (apart : Apart first second) (keyword : keywordType? second = some full) :
    simpleName full ≠ first := by
  have all : ∀ entry ∈ keywordTypes, simpleName entry.2 ≠ entry.1 ++ attributeEnding ∧
      entry.1 ≠ simpleName entry.2 ++ attributeEnding := by decide +kernel
  obtain ⟨before, after, split, -⟩ := List.lookup_eq_some_iff.1 keyword
  have entry := all (second, full) (by rw [split]; simp)
  rintro rfl
  exact apart.elim entry.1 entry.2

/-- What one name of an attribute means by an import, the other name never means. -/
theorem ne_of_resolve?_eq_some {ns : String} (apart : Apart first second) (trimmed : trim second = second)
    (simple : isSimple first = true) (means : table.resolve? scope second = some full) :
    full ≠ ns ++ "." ++ first := by
  rintro rfl
  obtain ⟨-, -, undotted⟩ := isSimple_iff.1 simple
  have undotted' : isDotted second = false := apart.isDotted_eq.trans undotted
  have last : simpleName (ns ++ "." ++ first) = first := by
    rw [simpleName_qualified, simpleName_of_undotted undotted]
  rw [resolve?, trimmed] at means
  split at means
  · next base aliased =>
    -- what follows the alias has no dots
    split at means
    · cases means
      rw [← append_of_afterPrefix? aliased] at undotted'
      simp [isDotted] at undotted'
    · cases means
  · split at means
    · next keyword =>
      cases means
      exact apart.simpleName_ne_of_keyword keyword last
    · rw [undotted', if_neg Bool.false_ne_true] at means
      refine apart.ne ?_
      obtain ⟨-, e | ⟨ns', e⟩⟩ := contains_of_lookupSimple means
      · rw [← last, e, simpleName_of_undotted undotted']
      · rw [← last, e, simpleName_qualified, simpleName_of_undotted undotted']

end Apart

/-- An attribute means the same in scopes with the same imports exactly where the first of its names does and, if that
means nothing, the second. -/
theorem resolveAttribute?_eq_iff (same : scope.SameImports scope') :
    table.resolveAttribute? scope written = table.resolveAttribute? scope' written ↔
      attributeName written = "" ∨
        (table.RepeatsImport scope (attributeAttempts written).1 ↔
            table.RepeatsImport scope' (attributeAttempts written).1) ∧
          (table.resolve? scope (attributeAttempts written).1 = none →
            (table.RepeatsImport scope (attributeAttempts written).2 ↔
              table.RepeatsImport scope' (attributeAttempts written).2)) := by
  by_cases blank : attributeName written = ""
  · refine iff_of_true ?_ (.inl blank)
    rw [resolveAttribute?, resolveAttribute?, if_pos blank, if_pos blank]
  · obtain ⟨apart, trimmed, trimmed'⟩ := attributeAttempts_apart written
    rw [or_iff_right blank, resolveAttribute?_eq_or blank, resolveAttribute?_eq_or blank, ← resolve?_eq_iff same,
      ← resolve?_eq_iff same]
    generalize (attributeAttempts written).1 = first at *
    generalize (attributeAttempts written).2 = second at *
    constructor
    · intro equal
      have agree : table.resolve? scope first = table.resolve? scope' first := by
        by_contra differ
        -- the scope where the first name means nothing would find the same type under the second
        have clash {scope scope' : Scope} (same : scope.SameImports scope') (h : table.Ambiguous scope first)
            (h' : ¬ table.Ambiguous scope' first)
            (equal : (table.resolve? scope first).or (table.resolve? scope second) =
              (table.resolve? scope' first).or (table.resolve? scope' second)) : False := by
          obtain ⟨-, ns, means⟩ := repeatsImport_of_ambiguous same h h'
          rw [resolve?_of_ambiguous h, means, Option.none_or, Option.some_or, trimmed] at equal
          exact apart.ne_of_resolve?_eq_some trimmed' (trimmed ▸ h.1.1) equal rfl
        rcases ambiguous_of_resolve?_ne same differ with ⟨h, h'⟩ | ⟨h', h⟩
        · exact clash same h h' equal
        · exact clash same.symm h' h equal.symm
      refine ⟨agree, fun unknown => ?_⟩
      rw [← agree, unknown] at equal
      simpa only [Option.none_or] using equal
    · rintro ⟨agree, other⟩
      rw [← agree]
      cases means : table.resolve? scope first with
      | some full => simp only [Option.some_or]
      | none => simpa only [Option.none_or] using other means

/-- **Imports act as a set but for repetition**: scopes with the same imports give a name the same meaning exactly where
both repeat the import that provides it, or neither does, and an attribute where that holds of the names it is looked up
by. A name is told to be ambiguous where two imported namespaces provide it, and where a repeated one does alone. -/
theorem resolve?_eq_iff_of_sameImports (same : scope.SameImports scope') :
    (∀ written, table.resolve? scope written = table.resolve? scope' written ↔
        (table.RepeatsImport scope written ↔ table.RepeatsImport scope' written)) ∧
      (∀ written, table.resolveAttribute? scope written = table.resolveAttribute? scope' written ↔
        attributeName written = "" ∨
          (table.RepeatsImport scope (attributeAttempts written).1 ↔
              table.RepeatsImport scope' (attributeAttempts written).1) ∧
            (table.resolve? scope (attributeAttempts written).1 = none →
              (table.RepeatsImport scope (attributeAttempts written).2 ↔
                table.RepeatsImport scope' (attributeAttempts written).2))) ∧
      ∀ written, table.resolveEvents scope written ≠ [] ↔
        table.HasRivals scope written ∨ table.RepeatsImport scope written :=
  ⟨fun _ => resolve?_eq_iff same, fun _ => resolveAttribute?_eq_iff same, fun _ =>
    resolveEvents_ne_nil_iff.trans ambiguous_iff⟩

end SymbolTable

/-! ## An example -/

namespace Sample

/-- The file of the market with the same imports, one of them written twice. -/
def repeatedScope : Scope :=
  { ns := some "Shop.App", usings := ["N", "Lib", " N "] }

/-- A task means nothing where its namespace is imported twice; a list means the same. -/
theorem task_repeated :
    marketScope.SameImports repeatedScope ∧
      market.resolve? marketScope "Task" = some "N.Task" ∧
      market.resolve? repeatedScope "Task" ≠ market.resolve? marketScope "Task" ∧
      market.resolve? repeatedScope "List" = market.resolve? marketScope "List" ∧
      market.resolveEvents repeatedScope "Task" ≠ [] := by
  have same : marketScope.SameImports repeatedScope := ⟨rfl, by
    have forth : marketScope.usings.map trim ⊆ repeatedScope.usings.map trim := by decide
    have back : repeatedScope.usings.map trim ⊆ marketScope.usings.map trim := by decide
    exact fun ns => ⟨fun h => forth h, fun h => back h⟩⟩
  have names (written : String) :
      market.resolve? marketScope written = market.resolve? repeatedScope written ↔
        (market.RepeatsImport marketScope written ↔ market.RepeatsImport repeatedScope written) :=
    (SymbolTable.resolve?_eq_iff_of_sameImports same).1 written
  have repeated : market.RepeatsImport repeatedScope "Task" := by decide +kernel
  have once {name : String} : ¬ market.RepeatsImport marketScope name :=
    SymbolTable.not_repeatsImport_of_nodup (by decide)
  refine ⟨same, by decide +kernel, fun e => once (((names "Task").1 e.symm).2 repeated), ?_, ?_⟩
  · refine ((names "List").2 ?_).symm
    exact iff_of_false once (by decide +kernel)
  · exact ((SymbolTable.resolve?_eq_iff_of_sameImports same.symm).2.2 "Task").2 (.inr repeated)

end Sample

end TypedWrappers
