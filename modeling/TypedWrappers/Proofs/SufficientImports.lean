import Mathlib.Data.List.Nodup
import TypedWrappers.Proofs.DisplayedTypes
import TypedWrappers.Proofs.Samples

/-!
# What a display needs imported

A display is written into a file with another namespace and other imports. The namespaces that come with it are enough
for it to be read there as it was meant, as long as nothing else in that file goes by a simple name in it.

- `SymbolTable.Provides`: a scope has the namespaces that a display needs, and no other types by its simple names;
- `Provides.unrivalled`, `Provides.resolve?_eq`: the simple names mean the same in such a scope;
- `SymbolTable.describeText_display_of_provides`: the display is described there like the type.
-/

namespace TypedWrappers

open Text

namespace SymbolTable

variable {table : SymbolTable} {scope out : Scope} {t : TypeSyntax} {name full : String}

/-- A scope provides a type as another one means it: the namespaces that the display needs are its own or imported, none
is imported twice, and the namespaces around it and its imports have no other type by a simple name of the type. Imports
are told apart as they are written. -/
structure Provides (table : SymbolTable) (scope out : Scope) (t : TypeSyntax) : Prop where
  reached : ∀ ns ∈ (table.describe scope t).namespaces, out.ns = some ns ∨ ns ∈ out.usings
  once : out.usings.Nodup
  alone : ∀ name ∈ t.names, isSimple name = true → ∀ full ∈ table.resolve? scope name,
    (∀ ns ∈ enclosing out.ns, namespaceOf? full ≠ some ns → table.contains (ns ++ "." ++ name) = false) ∧
      ∀ ns ∈ out.usings, namespaceOf? full ≠ some ns → table.contains (trim ns ++ "." ++ name) = false

/-- A name without dots in a namespace is the full name, if that is the namespace of the full name. -/
theorem eq_of_namespaceOf? (undotted : isDotted name = false) (form : full = name ∨ ∃ ns, full = ns ++ "." ++ name)
    {ns : String} (own : namespaceOf? full = some ns) : full = ns ++ "." ++ name := by
  obtain rfl | ⟨ns', rfl⟩ := form
  · rw [namespaceOf?_of_undotted undotted] at own
    cases own
  · rw [namespaceOf?_qualified undotted] at own
    rw [Option.some.inj own]

namespace Provides

section

variable (provides : table.Provides scope out t) (mem : name ∈ t.names) (simple : isSimple name = true)
  (means : table.resolve? scope name = some full)

include provides mem simple means

/-- What provides a simple name from around the scope is the namespace of the type that it means. -/
theorem namespaceOf?_of_enclosing {ns : String} (around : ns ∈ enclosing out.ns)
    (known : table.contains (ns ++ "." ++ name) = true) : namespaceOf? full = some ns := by
  by_contra other
  have unknown := (provides.alone name mem simple full means).1 ns around other
  rw [known] at unknown
  cases unknown

/-- An import that provides a simple name is the namespace of the type that it means. -/
theorem namespaceOf?_of_using {ns : String} (imported : ns ∈ out.usings)
    (known : table.contains (trim ns ++ "." ++ name) = true) : namespaceOf? full = some ns := by
  by_contra other
  have unknown := (provides.alone name mem simple full means).2 ns imported other
  rw [known] at unknown
  cases unknown

/-- No simple name is imported twice. -/
theorem nodup_imported : (table.imported out name).Nodup := by
  rw [imported, List.filter_map]
  refine List.Nodup.map_on ?_ (provides.once.filter _)
  intro a ha b hb _
  obtain ⟨importedA, knownA⟩ := List.mem_filter.1 ha
  obtain ⟨importedB, knownB⟩ := List.mem_filter.1 hb
  have ownA : namespaceOf? full = some a := provides.namespaceOf?_of_using mem simple means importedA knownA
  have ownB : namespaceOf? full = some b := provides.namespaceOf?_of_using mem simple means importedB knownB
  exact Option.some.inj (ownA.symm.trans ownB)

/-- The type that a simple name means is unrivalled. -/
theorem unrivalled (wellNamed : table.WellNamed) (known : table.contains full = true)
    (form : full = name ∨ ∃ ns, full = ns ++ "." ++ name) : table.Unrivalled out name full := by
  obtain ⟨-, -, undotted⟩ := isSimple_iff.1 simple
  cases found : (enclosingCandidates out name).find? table.contains with
  | some other =>
    obtain ⟨ns, around, rfl⟩ := List.mem_map.1 (List.mem_of_find?_eq_some found)
    have own := provides.namespaceOf?_of_enclosing mem simple means around (List.find?_some found)
    rw [← eq_of_namespaceOf? undotted form own] at found
    exact .inl found
  | none =>
    refine .inr ⟨by simpa using List.find?_eq_none.1 found, ?_⟩
    intro ns imported isKnown
    have own := provides.namespaceOf?_of_using mem simple means imported isKnown
    rw [trim_of_isDottedName (isDottedName_of_namespaceOf? (wellNamed full known) own),
      ← eq_of_namespaceOf? undotted form own]

end

/-- The simple names of a known type mean the same. -/
theorem resolve?_eq (provides : table.Provides scope out t) (wellNamed : table.WellNamed) (named : t.WellNamed)
    (resolved : (table.describe scope t).isResolved = true) (mem : name ∈ t.names) (simple : isSimple name = true) :
    table.resolve? out name = table.resolve? scope name := by
  have isName := (TypeSyntax.wellNamed_iff t).1 named name mem
  obtain ⟨full, means, known⟩ := exists_resolve?_of_isResolved named resolved mem simple
  have form := eq_or_exists_namespace named mem simple means
  have reaches : Reaches out name full := by
    refine reaches_of_contains wellNamed known (form.imp_right ?_)
    rintro ⟨ns, needed, e⟩
    exact ⟨ns, e, provides.reached ns needed⟩
  have unrivalled : table.Unrivalled out name full := by
    refine provides.unrivalled mem simple means wellNamed known (form.imp_right ?_)
    rintro ⟨ns, -, e⟩
    exact ⟨ns, e⟩
  rw [resolve?_of_isSimple isName simple, means]
  exact (lookupSimple_eq_some_iff (provides.nodup_imported mem simple means) known reaches).2 unrivalled

end Provides

/-- **The imports of a display suffice**: where a scope has the namespaces that the display of a known type needs and
no other types by the simple names in it, the display is described there like the type. -/
theorem describeText_display_of_provides (wellNamed : table.WellNamed) {text q : String}
    (read : TypeSyntax.parse? text = some t) (known : (table.describeText scope text).qualified = some q)
    (provides : table.Provides scope out t) :
    table.describeText out (table.describeText scope text).display = table.describeText scope text := by
  have named : t.WellNamed := (TypeSyntax.parse?_eq_some_iff.1 read).1
  rw [describeText_of_parse? read] at known ⊢
  have resolved : (table.describe scope t).isResolved = true := by rw [TypeReference.isResolved, known]; rfl
  rw [describeText_of_parse? (parse?_display_describe wellNamed named)]
  refine describe_shown out wellNamed t named fun name mem ofScope => ?_
  refine provides.resolve?_eq wellNamed named resolved mem (ofScope.resolve_right fun unknown => ?_)
  have isKnown := isResolved_describe_iff.1 resolved name mem
  rw [unknown] at isKnown
  cases isKnown

end SymbolTable

/-! ## An example -/

namespace Sample

/-- A file elsewhere in the market, which imports what the display of the list needs. -/
def otherScope : Scope :=
  { ns := some "Shop.Models", usings := ["Shop.App", "Lib"] }

/-- The display of the list says in the other file what the list says in its own. -/
theorem describeText_basket_elsewhere :
    market.WellNamed ∧ TypeSyntax.parse? basket = some basketTree ∧
      market.Provides marketScope otherScope basketTree ∧
      (market.describeText marketScope basket).qualified =
        some "Lib.List<Shop.Models.Order?, Shop.App.Line[], int>" ∧
      market.describeText otherScope "List<Shop.Models.Order?, Line[], int>" =
        market.describeText marketScope basket := by
  have wellNamed : market.WellNamed := SymbolTable.wellNamed_ofList (by decide +kernel)
  have read : TypeSyntax.parse? basket = some basketTree := by decide +kernel
  have known : (market.describeText marketScope basket).qualified =
      some "Lib.List<Shop.Models.Order?, Shop.App.Line[], int>" := by decide +kernel
  have display : (market.describeText marketScope basket).display = "List<Shop.Models.Order?, Line[], int>" := by
    decide +kernel
  have reached : ∀ ns ∈ (market.describe marketScope basketTree).namespaces.toList,
      otherScope.ns = some ns ∨ ns ∈ otherScope.usings := by decide +kernel
  have provides : market.Provides marketScope otherScope basketTree :=
    ⟨reached, by decide +kernel, by decide +kernel⟩
  have described := SymbolTable.describeText_display_of_provides wellNamed read known provides
  rw [display] at described
  exact ⟨wellNamed, read, provides, known, described⟩

end Sample

end TypedWrappers
