import TypedWrappers.Proofs.DisplayedTypes
import TypedWrappers.Proofs.Samples

/-!
# Known types

Whether a type is known, and what its display needs imported, is decided name by name: a single name without a meaning,
at any depth, leaves the whole type unknown, but takes no import away from the others.

- `SymbolTable.IsKnown`: a single name is known; `SymbolTable.Imports` says what it imports;
- `SymbolTable.describeText_known_iff`: a type is known when all its names are, and it imports what they import.
-/

namespace TypedWrappers

open TypeSyntax

namespace SymbolTable

variable {table : SymbolTable} {scope : Scope} {ns : String}

/-- A name is a keyword, possibly behind the alias, or it means a type. -/
def IsKnown (table : SymbolTable) (scope : Scope) (name : String) : Prop :=
  isKeyword (withoutAlias name) = true ∨ ∃ full, table.resolve? scope name = some full

theorem isSome_qualified_describeName_iff {t : TypeSyntax} :
    (table.describeName scope t).qualified.isSome = true ↔ table.IsKnown scope t.name := by
  rw [IsKnown, ← baseName_eq_withoutAlias]
  cases keyword : isKeyword t.baseName with
  | true => simp [describeName_of_isKeyword keyword]
  | false => simp [qualified_describeName keyword, Option.isSome_iff_exists]

/-- A type is known when every name in it is. -/
theorem isSome_qualified_describe_iff {t : TypeSyntax} :
    (table.describe scope t).qualified.isSome = true ↔ ∀ name ∈ t.names, table.IsKnown scope name := by
  rw [← TypeReference.isResolved, isResolved_describe_iff]
  exact forall₂_congr fun name _ => isSome_qualified_describeName_iff (t := ⟨name, [], []⟩)

/-- **All names or none, but every import**: a type is known exactly when each name in it, at any depth, is a keyword
or means a type; and the namespaces it needs are those of the types that its names mean, of the names that are no
keywords and have no dots, whether the type is known or not. -/
theorem describeText_known_iff {text : String} {t : TypeSyntax} (read : parse? text = some t) :
    ((table.describeText scope text).qualified.isSome = true ↔ ∀ name ∈ t.names, table.IsKnown scope name) ∧
      ∀ ns, ns ∈ (table.describeText scope text).namespaces ↔ ∃ name ∈ t.names, table.Imports scope name ns := by
  rw [describeText_of_parse? read]
  exact ⟨isSome_qualified_describe_iff, fun _ => mem_namespaces_describe_iff t⟩

end SymbolTable

/-! ## An example -/

namespace Sample

/-- A stranger among the arguments leaves a list unknown, but its neighbour is imported all the same. -/
theorem describeText_stranger_known :
    TypeSyntax.parse? "List<Stranger, Line>" = some ⟨"List", [⟨"Stranger", [], []⟩, ⟨"Line", [], []⟩], []⟩ ∧
      (market.describeText marketScope "List<Stranger, Line>").qualified = none ∧
      "Shop.App" ∈ (market.describeText marketScope "List<Stranger, Line>").namespaces := by
  have read : TypeSyntax.parse? "List<Stranger, Line>" =
      some ⟨"List", [⟨"Stranger", [], []⟩, ⟨"Line", [], []⟩], []⟩ := by decide +kernel
  have exactly : ((market.describeText marketScope "List<Stranger, Line>").qualified.isSome = true ↔ _) ∧ _ :=
    SymbolTable.describeText_known_iff read
  obtain ⟨known, needed⟩ := exactly
  refine ⟨read, ?_, ?_⟩
  · rw [← Option.isNone_iff_eq_none, ← Option.isSome_eq_false_iff, Bool.eq_false_iff, Ne, known]
    intro all
    rcases all "Stranger" (by decide +kernel) with keyword | ⟨full, means⟩
    · exact absurd keyword (by decide +kernel)
    · have unknown : market.resolve? marketScope "Stranger" = none := by decide +kernel
      rw [unknown] at means
      cases means
  · exact (needed "Shop.App").2
      ⟨"Line", by decide +kernel, by decide +kernel, by decide +kernel, "Shop.App.Line", by decide +kernel,
        by decide +kernel⟩

end Sample

end TypedWrappers
