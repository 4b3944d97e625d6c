import TypedWrappers.Proofs.AmbiguousNames

/-!
# Further imports

A file may import one more namespace without a name in it turning to another type in silence: names that the imports do
not decide keep their meaning, imported types keep their names or lose them, and ambiguous names stay so. Only a type of
the global namespace can be hidden by an import.

- `SymbolTable.resolve?_eq_of_not_contains`: an import counts for the names that it provides alone;
- `SymbolTable.resolve?_eq_some_or_eq_none`: among more imports, a type that is in a namespace goes by its name still,
  or the name means nothing;
- `SymbolTable.resolve?_of_importsAlso`: one more import at any place.
-/

namespace TypedWrappers

open Text

/-- Two scopes in one namespace, the second with one more import somewhere among those of the first. -/
structure Scope.ImportsAlso (u : String) (scope scope' : Scope) : Prop where
  ns : scope.ns = scope'.ns
  usings : ∃ before after, scope.usings = before ++ after ∧ scope'.usings = before ++ u :: after

theorem Scope.ImportsAlso.sublist {u : String} {scope scope' : Scope} (h : ImportsAlso u scope scope') :
    scope.usings.Sublist scope'.usings := by
  obtain ⟨before, after, e, e'⟩ := h.usings
  rw [e, e']
  exact (List.sublist_cons_self u after).append_left before

namespace SymbolTable

variable {table : SymbolTable} {scope scope' : Scope} {written full u : String}

/-- More imports provide a name at least as often. -/
theorem providers_sublist (sub : scope.usings.Sublist scope'.usings) (name : String) :
    (table.providers scope name).Sublist (table.providers scope' name) :=
  (sub.map trim).filter _

/-- A name that is ambiguous is so among more imports. -/
theorem Ambiguous.of_sublist (h : table.Ambiguous scope written) (ns : scope.ns = scope'.ns)
    (sub : scope.usings.Sublist scope'.usings) : table.Ambiguous scope' written :=
  ⟨h.1.of_ns ns, Nat.le_trans h.2 (providers_sublist sub _).length_le⟩

/-- Among more imports, a type in a namespace goes by its name still, or the name means nothing. -/
theorem resolve?_eq_some_or_eq_none (ns : scope.ns = scope'.ns) (sub : scope.usings.Sublist scope'.usings)
    (means : table.resolve? scope written = some full) (dotted : isDotted full = true) :
    table.resolve? scope' written = some full ∨ table.resolve? scope' written = none := by
  by_cases looks : table.LooksInImports scope written
  · rw [resolve?_of_looksInImports looks] at means
    rw [resolve?_of_looksInImports (looks.of_ns ns)]
    have more : (table.providers scope (trim written)).Sublist (table.providers scope' (trim written)) :=
      providers_sublist sub _
    rcases hp : table.providers scope (trim written) with _ | ⟨provider, _ | ⟨second, others⟩⟩
    · -- nothing is imported, and a type of the global namespace has no dots in its name
      rw [hp] at means
      dsimp only at means
      split at means
      · cases means
        obtain ⟨-, -, undotted⟩ := isSimple_iff.1 looks.1
        rw [undotted] at dotted
        cases dotted
      · cases means
    · rw [hp] at means more
      cases means
      rcases hp' : table.providers scope' (trim written) with _ | ⟨provider', _ | ⟨second', others'⟩⟩
      · rw [hp'] at more
        cases more
      · rw [hp'] at more
        obtain rfl := List.mem_singleton.1 (more.subset List.mem_cons_self)
        exact .inl rfl
      · exact .inr rfl
    · rw [hp] at means
      cases means
  · exact .inl (resolve?_of_not_looksInImports looks ns ▸ means)

/-- An import that does not provide a name does not count for it. -/
theorem resolve?_eq_of_not_contains (h : Scope.ImportsAlso u scope scope')
    (unknown : table.contains (trim u ++ "." ++ trim written) = false) :
    table.resolve? scope' written = table.resolve? scope written := by
  by_cases looks : table.LooksInImports scope written
  · have same : table.providers scope' (trim written) = table.providers scope (trim written) := by
      obtain ⟨before, after, e, e'⟩ := h.usings
      simp [providers, e, e', unknown]
    rw [resolve?_of_looksInImports looks, resolve?_of_looksInImports (looks.of_ns h.ns), same]
  · exact (resolve?_of_not_looksInImports looks h.ns).symm

/-- A name that the imports do not decide has the alias of the global namespace, is a keyword, has a dot, or is that of a
type around the scope. -/
theorem not_looksInImports_iff : ¬ table.LooksInImports scope written ↔
    (afterPrefix? TypeSyntax.globalAlias (trim written)).isSome = true ∨ isKeyword (trim written) = true ∨
      isDotted (trim written) = true ∨
        ∃ ns ∈ enclosing scope.ns, table.contains (ns ++ "." ++ trim written) = true := by
  rw [LooksInImports, isSimple]
  simp only [Bool.and_eq_true, Option.isNone_iff_eq_none, Bool.not_eq_true', not_and_or, Option.isSome_iff_ne_none,
    Bool.not_eq_false, or_assoc, not_forall, exists_prop, ne_eq]

/-- **A further import never rebinds a name**: wherever it is put, a type in a namespace goes by its name still, or its
name means nothing, as the import provides it as well. Names with the alias of the global namespace, keywords, names
with dots and names of types around the scope are not affected, and what was ambiguous means nothing still. -/
theorem resolve?_of_importsAlso (h : Scope.ImportsAlso u scope scope') (written : String) :
    (∀ full, table.resolve? scope written = some full → isDotted full = true →
        table.resolve? scope' written = some full ∨
          table.resolve? scope' written = none ∧ table.contains (trim u ++ "." ++ trim written) = true) ∧
      ((afterPrefix? TypeSyntax.globalAlias (trim written)).isSome = true ∨ isKeyword (trim written) = true ∨
          isDotted (trim written) = true ∨
          (∃ ns ∈ enclosing scope.ns, table.contains (ns ++ "." ++ trim written) = true) →
        table.resolve? scope' written = table.resolve? scope written) ∧
      (table.Ambiguous scope written →
        table.resolve? scope written = none ∧ table.resolve? scope' written = none) := by
  refine ⟨fun full means dotted => ?_, fun apart => ?_, fun ambiguous => ?_⟩
  · cases provided : table.contains (trim u ++ "." ++ trim written) with
    | false => exact .inl ((resolve?_eq_of_not_contains h provided).trans means)
    | true =>
      refine (resolve?_eq_some_or_eq_none h.ns h.sublist means dotted).imp_right ?_
      exact fun lost => ⟨lost, rfl⟩
  · exact (resolve?_of_not_looksInImports (not_looksInImports_iff.2 apart) h.ns).symm
  · exact ⟨resolve?_of_ambiguous ambiguous, resolve?_of_ambiguous (ambiguous.of_sublist h.ns h.sublist)⟩

end SymbolTable

/-! ## An example -/

namespace Sample

/-- The market with another list, and a line in the global namespace. -/
def rivalMarket : SymbolTable :=
  ⟨.ofList ("Other.List" :: "Line" :: marketTypes), []⟩

/-- A file of that market. -/
def rivalScope (usings : List String) : Scope :=
  ⟨some "Shop.App", usings⟩

/-- One more import makes a list ambiguous, and a repeated one leaves it so; a line is found around the scope still. -/
theorem list_among_further :
    Scope.ImportsAlso "Other" (rivalScope ["Lib", "N"]) (rivalScope ["Lib", "Other", "N"]) ∧
      rivalMarket.resolve? (rivalScope ["Lib", "N"]) "List" = some "Lib.List" ∧
      rivalMarket.resolve? (rivalScope ["Lib", "Other", "N"]) "List" = none ∧
      rivalMarket.resolve? (rivalScope ["Lib", "Other", "N"]) "Line" =
        rivalMarket.resolve? (rivalScope ["Lib", "N"]) "Line" ∧
      rivalMarket.resolve? (rivalScope ["Lib", "Other", "N", "Lib"]) "List" = none := by
  have further : Scope.ImportsAlso "Other" (rivalScope ["Lib", "N"]) (rivalScope ["Lib", "Other", "N"]) :=
    ⟨rfl, ["Lib"], ["N"], rfl, rfl⟩
  have repeated :
      Scope.ImportsAlso "Lib" (rivalScope ["Lib", "Other", "N"]) (rivalScope ["Lib", "Other", "N", "Lib"]) :=
    ⟨rfl, ["Lib", "Other", "N"], [], rfl, rfl⟩
  have imported : rivalMarket.resolve? (rivalScope ["Lib", "N"]) "List" = some "Lib.List" := by decide +kernel
  have lost : rivalMarket.resolve? (rivalScope ["Lib", "Other", "N"]) "List" ≠ some "Lib.List" := by decide +kernel
  have ambiguous : rivalMarket.Ambiguous (rivalScope ["Lib", "Other", "N"]) "List" := by decide +kernel
  have around : ∃ ns ∈ enclosing (rivalScope ["Lib", "N"]).ns,
      rivalMarket.contains (ns ++ "." ++ trim "Line") = true := by decide +kernel
  refine ⟨further, imported, ?_, ?_, ?_⟩
  · exact (((SymbolTable.resolve?_of_importsAlso further "List").1 "Lib.List" imported (by decide)).resolve_left lost).1
  · exact (SymbolTable.resolve?_of_importsAlso further "Line").2.1 (.inr (.inr (.inr around)))
  · exact ((SymbolTable.resolve?_of_importsAlso repeated "List").2.2 ambiguous).2

end Sample

end TypedWrappers
