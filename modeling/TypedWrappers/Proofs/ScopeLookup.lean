import TypedWrappers.Proofs.TypeNames
import TypedWrappers.SymbolTable

/-!
# Looking names up in a scope

What a simple name means depends on the scope; keywords and names with the alias of the global namespace mean the same
everywhere, and the full name of a known type means that type.

- `SymbolTable.WellNamed`: known types have names that can be written;
- `isSimple`: which names depend on the scope;
- `SymbolTable.Unrivalled`: no other type goes by a simple name in a scope;
- `SymbolTable.lookupSimple_eq_some_iff`: where a type is in reach of a scope, its simple name means it exactly when it
  is unrivalled.
-/

namespace TypedWrappers

open Text

/-! ## Names with dots -/

theorem isDottedName_append_dot {before after : List Char} :
    isDottedName (before ++ '.' :: after) = true ↔ isDottedName before = true ∧ isDottedName after = true := by
  rw [isDottedName, isDottedName, isDottedName, segments_append_sep, List.all_append, Bool.and_eq_true]

theorem isDottedName_qualified {ns name : String} :
    isDottedName (ns ++ "." ++ name).toList = true ↔
      isDottedName ns.toList = true ∧ isDottedName name.toList = true := by
  have chars : (ns ++ "." ++ name).toList = ns.toList ++ '.' :: name.toList := by simp
  rw [chars, isDottedName_append_dot]

/-- Parts of names have nothing in them that identifiers have not, but the at-sign. -/
theorem not_mem_of_isNamePart {c : Char} {cs : List Char} (h : isNamePart cs = true)
    (noPart : isIdentifierPart c = false) (ne : c ≠ '@') : c ∉ cs := by
  have ofIdentifier {cs : List Char} (h : isIdentifier cs = true) : c ∉ cs := by
    intro mem
    have part := (isIdentifierPart_of_isIdentifier h).2 c mem
    rw [noPart] at part
    cases part
  unfold isNamePart at h
  split at h
  · rw [List.mem_cons, not_or]
    exact ⟨ne, ofIdentifier h⟩
  · exact ofIdentifier h

/-- A single part is a name. -/
theorem isDottedName_of_isNamePart {cs : List Char} (h : isNamePart cs = true) : isDottedName cs = true := by
  rw [isDottedName, segments_of_not_mem (not_mem_of_isNamePart h (by decide) (by decide))]
  simp [h]

/-- The alias of the global namespace is in front of no name that is parts with dots alone. -/
theorem afterPrefix?_alias_of_isDottedName {name : String} (h : isDottedName name.toList = true) :
    afterPrefix? TypeSyntax.globalAlias name = none := by
  rw [afterPrefix?, Option.map_eq_none_iff, Option.eq_none_iff_forall_ne_some]
  intro rest stripped
  have colon : ':' ∈ name.toList := by
    rw [eq_append_of_stripPrefix? stripped]
    exact List.mem_append_left _ (by decide)
  have split : ':' = '.' ∨ ∃ piece ∈ segments '.' name.toList, ':' ∈ piece := eq_or_mem_segments colon
  obtain e | ⟨piece, hp, colon⟩ := split
  · exact absurd e (by decide)
  · exact not_mem_of_isNamePart (List.all_eq_true.1 h piece hp) (by decide) (by decide) colon

theorem isTypeName_of_isDottedName {name : String} (h : isDottedName name.toList = true) : isTypeName name = true := by
  have noAlias := afterPrefix?_alias_of_isDottedName h
  rw [afterPrefix?, Option.map_eq_none_iff] at noAlias
  rw [isTypeName, noAlias]
  exact h

theorem trim_of_isDottedName {name : String} (isName : isDottedName name.toList = true) : trim name = name :=
  trim_of_isTypeName (isTypeName_of_isDottedName isName)

theorem ne_empty_of_isDottedName {name : String} (isName : isDottedName name.toList = true) : name ≠ "" :=
  fun e => (isNameCharacter_of_isDottedName isName).1 (String.toList_eq_nil_iff.2 e)

/-- The namespace of a name with dots can be written. -/
theorem isDottedName_of_namespaceOf? {full ns : String} (isName : isDottedName full.toList = true)
    (h : namespaceOf? full = some ns) : isDottedName ns.toList = true := by
  rw [namespaceOf?, Option.map_eq_some_iff] at h
  obtain ⟨⟨before, after⟩, cut, rfl⟩ := h
  rw [(cutLast_eq_some cut).1, isDottedName_append_dot] at isName
  rw [String.toList_ofList]
  exact isName.1

theorem isDotted_append_dot (ns name : String) : isDotted (ns ++ "." ++ name) = true := by
  simp [isDotted]

/-- Keywords have no dots. -/
theorem keywordType?_of_isDotted {name : String} (h : isDotted name = true) : keywordType? name = none := by
  rw [keywordType?, Option.eq_none_iff_forall_ne_some]
  intro full keyword
  have all : ∀ entry ∈ keywordTypes, isDotted entry.1 = false := by decide
  obtain ⟨before, after, split, -⟩ := List.lookup_eq_some_iff.1 keyword
  have undotted := all (name, full) (by rw [split]; simp)
  rw [h] at undotted
  cases undotted

theorem namespaceOf?_qualified {ns name : String} (undotted : isDotted name = false) :
    namespaceOf? (ns ++ "." ++ name) = some ns := by
  have chars : (ns ++ "." ++ name).toList = ns.toList ++ '.' :: name.toList := by simp
  have notMem : '.' ∉ name.toList := by simpa [isDotted] using undotted
  rw [namespaceOf?, chars, cutLast_append_dot notMem, Option.map_some, String.ofList_toList]

theorem namespaceOf?_of_undotted {name : String} (undotted : isDotted name = false) : namespaceOf? name = none := by
  have notMem : '.' ∉ name.toList := by simpa [isDotted] using undotted
  rw [namespaceOf?, Option.map_eq_none_iff, Option.eq_none_iff_forall_ne_some]
  rintro ⟨before, after⟩ cut
  rw [(cutLast_eq_some cut).1] at notMem
  exact notMem (List.mem_append_right _ List.mem_cons_self)

/-- A name whose meaning depends on the scope: no keyword, no dots, and no alias in front. -/
def isSimple (name : String) : Bool :=
  (afterPrefix? TypeSyntax.globalAlias name).isNone && !isKeyword name && !isDotted name

theorem isSimple_iff {name : String} :
    isSimple name = true ↔
      afterPrefix? TypeSyntax.globalAlias name = none ∧ keywordType? name = none ∧ isDotted name = false := by
  simp [isSimple, isKeyword, and_assoc]

namespace SymbolTable

variable {table : SymbolTable} {scope : Scope} {name full : String}

/-- The full names of all known types are parts with dots between them. -/
def WellNamed (table : SymbolTable) : Prop :=
  ∀ full, table.contains full = true → isDottedName full.toList = true

theorem wellNamed_ofList {names : List String} {parts : List TypePart}
    (h : ∀ full ∈ names, isDottedName full.toList = true) : WellNamed ⟨.ofList names, parts⟩ := by
  intro full known
  exact h full (NameSet.mem_ofList.1 (of_decide_eq_true known))

/-! ## What is found is known -/

theorem contains_of_lookupDotted (h : table.lookupDotted scope name = some full) :
    table.contains full = true ∧ (full = name ∨ ∃ ns, full = ns ++ "." ++ name) := by
  unfold lookupDotted at h
  split at h
  · next known =>
    cases h
    exact ⟨known, .inl rfl⟩
  · obtain ⟨ns, -, rfl⟩ := List.mem_map.1 (List.mem_of_find?_eq_some h)
    exact ⟨List.find?_some h, .inr ⟨ns, rfl⟩⟩

theorem mem_imported : full ∈ table.imported scope name ↔
    table.contains full = true ∧ ∃ ns ∈ scope.usings, full = trim ns ++ "." ++ name := by
  rw [imported, List.mem_filter, List.mem_map, and_comm]
  simp only [eq_comm]

theorem contains_of_lookupSimple (h : table.lookupSimple scope name = some full) :
    table.contains full = true ∧ (full = name ∨ ∃ ns, full = ns ++ "." ++ name) := by
  unfold lookupSimple at h
  split at h
  · next found =>
    cases h
    obtain ⟨ns, -, rfl⟩ := List.mem_map.1 (List.mem_of_find?_eq_some found)
    exact ⟨List.find?_some found, .inr ⟨ns, rfl⟩⟩
  · split at h
    · next single =>
      cases h
      have mem : full ∈ table.imported scope name := by rw [single]; exact List.mem_singleton_self _
      obtain ⟨known, ns, -, e⟩ := mem_imported.1 mem
      exact ⟨known, .inr ⟨trim ns, e⟩⟩
    · cases h
    · split at h
      · next known =>
        cases h
        exact ⟨known, .inl rfl⟩
      · cases h

/-! ## What a name means -/

theorem resolve?_of_isSimple (isName : isTypeName name = true) (simple : isSimple name = true) :
    table.resolve? scope name = table.lookupSimple scope name := by
  obtain ⟨noAlias, noKeyword, undotted⟩ := isSimple_iff.1 simple
  rw [resolve?, trim_of_isTypeName isName, noAlias]
  dsimp only
  rw [noKeyword, undotted]
  rfl

/-- The full name of a known type means that type, unless it could stand for another one. -/
theorem resolve?_of_contains (wellNamed : table.WellNamed) (known : table.contains full = true)
    (dotted : isDotted full = true) : table.resolve? scope full = some full := by
  have isName := wellNamed full known
  rw [resolve?, trim_of_isTypeName (isTypeName_of_isDottedName isName), afterPrefix?_alias_of_isDottedName isName]
  dsimp only
  rw [keywordType?_of_isDotted dotted, dotted]
  exact if_pos known

/-- A name with the alias of the global namespace means the same in every scope. -/
theorem resolve?_of_alias (isName : isTypeName name = true) {base : String}
    (aliased : afterPrefix? TypeSyntax.globalAlias name = some base) (scope scope' : Scope) :
    table.resolve? scope name = table.resolve? scope' name := by
  rw [resolve?, resolve?, trim_of_isTypeName isName, aliased]

/-- What a name means, other than a keyword, is a known type, whose name has dots if the name has. -/
theorem contains_of_resolve? {t : TypeSyntax} (isName : isTypeName t.name = true)
    (noKeyword : isKeyword t.baseName = false) (h : table.resolve? scope t.name = some full) :
    table.contains full = true ∧ (isDotted t.baseName = true → isDotted full = true) := by
  have dotted_of {name : String} (form : full = name ∨ ∃ ns, full = ns ++ "." ++ name) :
      isDotted name = true → isDotted full = true := by
    intro dotted
    rcases form with rfl | ⟨ns, rfl⟩
    · exact dotted
    · exact isDotted_append_dot ns name
  rw [resolve?, trim_of_isTypeName isName] at h
  cases aliased : afterPrefix? TypeSyntax.globalAlias t.name with
  | some base =>
    have baseName : t.baseName = base := by rw [TypeSyntax.baseName, aliased, Option.getD_some]
    rw [aliased] at h
    dsimp only at h
    split at h
    · next known =>
      cases h
      exact ⟨known, fun dotted => baseName ▸ dotted⟩
    · cases h
  | none =>
    have baseName : t.baseName = t.name := by rw [TypeSyntax.baseName, aliased, Option.getD_none]
    rw [baseName] at noKeyword ⊢
    rw [aliased, Option.not_isSome_iff_eq_none.1 (Bool.eq_false_iff.1 noKeyword)] at h
    dsimp only at h
    split at h
    · obtain ⟨known, form⟩ := contains_of_lookupDotted h
      exact ⟨known, dotted_of form⟩
    · obtain ⟨known, form⟩ := contains_of_lookupSimple h
      exact ⟨known, dotted_of form⟩

/-- What a name means is a known type or the type of a keyword. -/
theorem contains_or_mem_of_resolve? {written : String} (h : table.resolve? scope written = some full) :
    table.contains full = true ∨ full ∈ keywordTypes.map Prod.snd := by
  rw [resolve?] at h
  split at h
  · split at h
    · next known =>
      cases h
      exact .inl known
    · cases h
  · split at h
    · next keyword =>
      cases h
      obtain ⟨before, after, split, -⟩ := List.lookup_eq_some_iff.1 keyword
      exact .inr (List.mem_map.2 ⟨(trim written, full), by rw [split]; simp, rfl⟩)
    · split at h
      · exact .inl (contains_of_lookupDotted h).1
      · exact .inl (contains_of_lookupSimple h).1

/-- An attribute that some attribute text means is known, unless it is the type of a keyword. -/
theorem contains_of_hasMarker {marker : String} {attributes : List String}
    (noKeyword : marker ∉ keywordTypes.map Prod.snd) (h : table.hasMarker scope attributes marker = true) :
    table.contains marker = true := by
  have of_resolve {written : String} (h : table.resolve? scope written = some marker) :
      table.contains marker = true :=
    (contains_or_mem_of_resolve? h).resolve_right noKeyword
  obtain ⟨written, -, means⟩ := List.any_eq_true.1 h
  have means := of_decide_eq_true means
  rw [resolveAttribute?] at means
  split at means
  · cases means
  · simp only [Option.or_eq_some_iff] at means
    rcases means with (asWritten | ⟨-, means⟩) | ⟨-, means⟩
    · split at asWritten
      · exact of_resolve asWritten
      · cases asWritten
    · exact of_resolve means
    · exact of_resolve means

/-! ## Rivals -/

/-- No other known type goes by a simple name: the innermost namespace around the scope that has one of that name has
this one, or none has and neither have the imports, this one apart. -/
def Unrivalled (table : SymbolTable) (scope : Scope) (name full : String) : Prop :=
  (enclosingCandidates scope name).find? table.contains = some full ∨
    (∀ candidate ∈ enclosingCandidates scope name, table.contains candidate = false) ∧
      ∀ ns ∈ scope.usings, table.contains (trim ns ++ "." ++ name) = true → trim ns ++ "." ++ name = full

/-- A scope reaches a type by a simple name: the type is in the global namespace, or in the namespace of the scope or in
an imported one. -/
def Reaches (scope : Scope) (name full : String) : Prop :=
  full = name ∨ ∃ ns, ns ≠ "" ∧ full = ns ++ "." ++ name ∧ (scope.ns = some ns ∨ ns ∈ scope.usings.map trim)

/-- A scope reaches a known type whose namespace is its own or one of its imports. -/
theorem reaches_of_contains (wellNamed : table.WellNamed) (known : table.contains full = true)
    (form : full = name ∨ ∃ ns, full = ns ++ "." ++ name ∧ (scope.ns = some ns ∨ ns ∈ scope.usings)) :
    Reaches scope name full := by
  refine form.imp_right ?_
  rintro ⟨ns, rfl, own⟩
  have isName : isDottedName ns.toList = true := (isDottedName_qualified.1 (wellNamed _ known)).1
  refine ⟨ns, ne_empty_of_isDottedName isName, rfl, own.imp_right fun imported => ?_⟩
  exact List.mem_map.2 ⟨ns, imported, trim_of_isDottedName isName⟩

theorem nodup_imported (usings : (scope.usings.map trim).Nodup) : (table.imported scope name).Nodup := by
  have candidates : (scope.usings.map fun ns => trim ns ++ "." ++ name).Nodup := by
    have ne : scope.usings.Pairwise fun a b => trim a ≠ trim b := List.pairwise_map.1 usings
    refine List.pairwise_map.2 (List.Pairwise.imp ?_ ne)
    intro a b ne e
    have chars := congrArg String.toList e
    simp only [String.toList_append, List.append_assoc, List.append_cancel_right_eq, String.toList_inj] at chars
    exact ne chars
  exact candidates.filter _

/-- **The meaning of simple names**: a known type that a scope reaches is what its simple name means exactly when it is
unrivalled. -/
theorem lookupSimple_eq_some_iff (nodup : (table.imported scope name).Nodup) (known : table.contains full = true)
    (reaches : Reaches scope name full) :
    table.lookupSimple scope name = some full ↔ table.Unrivalled scope name full := by
  unfold lookupSimple Unrivalled
  cases found : (enclosingCandidates scope name).find? table.contains with
  | some other =>
    refine ⟨.inl, ?_⟩
    rintro (e | ⟨none, -⟩)
    · exact e
    · have knownOther := List.find?_some found
      rw [none other (List.mem_of_find?_eq_some found)] at knownOther
      cases knownOther
  | none =>
    have noCandidate : ∀ candidate ∈ enclosingCandidates scope name, table.contains candidate = false := by
      simpa using List.find?_eq_none.1 found
    have imports :
        (∀ ns ∈ scope.usings, table.contains (trim ns ++ "." ++ name) = true → trim ns ++ "." ++ name = full) ↔
          ∀ other ∈ table.imported scope name, other = full := by
      constructor
      · intro h other ho
        obtain ⟨known, ns, hns, rfl⟩ := mem_imported.1 ho
        exact h ns hns known
      · intro h ns hns known
        exact h _ (mem_imported.2 ⟨known, ns, hns, rfl⟩)
    rw [imports]
    simp only [reduceCtorEq, false_or]
    rw [and_iff_right noCandidate]
    cases imported : table.imported scope name with
    | nil =>
      -- nothing is imported, so the type is in the global namespace
      have isGlobal : full = name := by
        obtain rfl | ⟨ns, ns_ne, rfl, own | hns⟩ := reaches
        · rfl
        · have candidate : ns ++ "." ++ name ∈ enclosingCandidates scope name := by
            rw [enclosingCandidates, own, enclosing, if_neg ns_ne]
            exact List.mem_map_of_mem List.mem_cons_self
          rw [noCandidate _ candidate] at known
          cases known
        · obtain ⟨using', hu, rfl⟩ := List.mem_map.1 hns
          have provided : trim using' ++ "." ++ name ∈ table.imported scope name :=
            mem_imported.2 ⟨known, using', hu, rfl⟩
          rw [imported] at provided
          cases provided
      subst isGlobal
      simp [known]
    | cons first others =>
      rw [imported] at nodup
      cases others with
      | nil => simp
      | cons second others =>
        obtain ⟨ne, -⟩ := List.nodup_cons.1 nodup
        refine ⟨nofun, fun all => ?_⟩
        have e : first = second := by rw [all first (by simp), all second (by simp)]
        exact absurd (e ▸ List.mem_cons_self) ne

end SymbolTable

end TypedWrappers
