import TypedWrappers.Proofs.Extracted
import TypedWrappers.Proofs.PartialWorkflows

/-!
# Doubles over partial classes

The attribute and the base class of a double may stand on different parts of one class. A pass comes to a double by a
part that has the base class, and it looks at such a part only if this part has some attribute too, be it another one.
The attribute for doubles is then looked for on all parts.

- `MockTarget.NamesTarget`: a part has the base class, applied to a declared type;
- `Pass.ShowsDouble`: a pass comes to a double by this part;
- `Pass.extract_doubles_exact`: a pass lists a double for each class with the attribute that some part of it shows.
-/

namespace TypedWrappers

open WorkflowTarget (HasAttribute any_isMarked_iff)

theorem qualify_of_namedNamespace? {ns : Option String} {named : String} (h : namedNamespace? ns = some named)
    (name : String) : qualify ns name = named ++ "." ++ name := by
  have named_ne : named ≠ "" := ne_empty_of_namedNamespace? h
  rw [← qualify_namedNamespace?, h, qualify, if_neg named_ne]

theorem SymbolTable.exists_find?_eq_some_iff {table : SymbolTable} {fullName : String} :
    (∃ first, table.find? fullName = some first) ↔ ∃ part ∈ table.parts, part.fullName = fullName := by
  constructor
  · rintro ⟨first, found⟩
    have listed : first ∈ table.partsOf fullName := List.mem_of_mem_head? found
    exact ⟨first, SymbolTable.mem_partsOf.1 listed⟩
  · rintro ⟨part, listed⟩
    have nonempty : table.partsOf fullName ≠ [] := List.ne_nil_of_mem (SymbolTable.mem_partsOf.2 listed)
    exact ⟨_, List.head?_eq_some_head nonempty⟩

/-! ## What shows a double -/

namespace MockTarget

variable {target : MockTarget} {table : SymbolTable} {part : TypePart}

/-- The first base type of a part means, where it stands, the base class of doubles, and its only argument a type that
is declared. -/
def NamesTarget (target : MockTarget) (table : SymbolTable) (part : TypePart) : Prop :=
  ∃ written base argument fullName, part.decl.baseTypes.head? = some written ∧ TypeSyntax.parse? written = some base ∧
    table.resolve? part.scope base.name = some target.baseType ∧ base.arguments = [argument] ∧
      table.resolve? part.scope argument.name = some fullName ∧ ∃ declared ∈ table.parts, declared.fullName = fullName

theorem namesTarget_iff :
    target.NamesTarget table part ↔
      ∃ fullName first, target.targetName? table part = some fullName ∧ table.find? fullName = some first := by
  constructor
  · rintro ⟨written, base, argument, fullName, first, read, means, arguments, argumentMeans, declared⟩
    obtain ⟨found, isFirst⟩ := SymbolTable.exists_find?_eq_some_iff.2 declared
    have named := targetName?_eq_some_iff.2 ⟨written, base, argument, first, read, means, arguments, argumentMeans⟩
    exact ⟨fullName, found, named, isFirst⟩
  · rintro ⟨fullName, found, named, isFirst⟩
    obtain ⟨written, base, argument, first, read, means, arguments, argumentMeans⟩ := targetName?_eq_some_iff.1 named
    have declared := SymbolTable.exists_find?_eq_some_iff.1 ⟨found, isFirst⟩
    exact ⟨written, base, argument, fullName, first, read, means, arguments, argumentMeans, declared⟩

/-- The attribute may stand on any part of the class. -/
theorem isDouble_iff (listed : part ∈ table.parts) :
    target.isDouble table part = true ↔ HasAttribute table (table.partsOf part.fullName) target.marker := by
  have own : part ∈ table.partsOf part.fullName := SymbolTable.mem_partsOf.2 ⟨listed, rfl⟩
  rw [isDouble, any_isMarked_iff]
  constructor
  · rintro ⟨other, mem, marked⟩
    rcases List.mem_append.1 mem with mem | mem
    · exact ⟨other, mem, marked⟩
    · obtain rfl := List.mem_singleton.1 mem
      exact ⟨other, own, marked⟩
  · rintro ⟨other, mem, marked⟩
    exact ⟨other, List.mem_append_left _ mem, marked⟩

/-- A part has a description as a double, under the full name of the class, exactly when the class has the attribute
and a namespace and the part names a target. -/
theorem exists_describe?_iff {marker : String} {task : TaskType} {fullName : String} (listed : part ∈ table.parts) :
    (∃ double, target.describe? marker task table (.type part) = some double ∧ double.qualifiedName = fullName) ↔
      part.fullName = fullName ∧ HasAttribute table (table.partsOf fullName) target.marker ∧
        namedNamespace? part.file.ns ≠ none ∧ target.NamesTarget table part := by
  rw [namesTarget_iff]
  constructor
  · rintro ⟨double, described, rfl⟩
    rw [describe?_type] at described
    split at described
    · next isDouble =>
      obtain ⟨ns, named, described⟩ := Option.bind_eq_some_iff.1 described
      obtain ⟨target, isTarget, described⟩ := Option.bind_eq_some_iff.1 described
      obtain ⟨first, found, described⟩ := Option.bind_eq_some_iff.1 described
      cases described
      have same : part.fullName = ns ++ "." ++ part.decl.name := qualify_of_namedNamespace? named _
      have hasAttribute := (isDouble_iff listed).1 isDouble
      rw [same] at hasAttribute
      exact ⟨same, hasAttribute, by rw [named]; simp, target, first, isTarget, found⟩
    · cases described
  · rintro ⟨rfl, hasAttribute, inNamespace, target, first, isTarget, found⟩
    obtain ⟨ns, named⟩ := Option.ne_none_iff_exists'.1 inNamespace
    have same : part.fullName = ns ++ "." ++ part.decl.name := qualify_of_namedNamespace? named _
    rw [describe?_type, if_pos ((isDouble_iff listed).2 hasAttribute), named, isTarget]
    simp only [Option.bind_some, found]
    exact ⟨_, rfl, same.symm⟩

end MockTarget

/-! ## Doubles of a pass -/

namespace Pass

/-- A pass comes to a double by this part: a class in a namespace, in a file that is scanned, which names the target and
has some attribute of its own. -/
structure ShowsDouble (config : Config) (c : Compilation) (part : TypePart) : Prop where
  isClass : part.decl.kind = .classType
  isScanned : part.file.isGenerated config.generatedFileSuffix = false
  inNamespace : namedNamespace? part.file.ns ≠ none
  attributes_ne : part.decl.attributes ≠ []
  namesTarget : config.mocks.NamesTarget (symbols config c) part

/-- **Doubles are listed once, and for the classes that show one**: the full names of the doubles of a pass are
distinct, and they are those of the classes with the attribute for doubles on some part and a part by which a pass comes
to a double. -/
theorem extract_doubles_exact (config : Config) (c : Compilation) :
    ((extract config c).doubles.map DoubleDescriptor.qualifiedName).Nodup ∧
      ∀ fullName, (∃ double ∈ (extract config c).doubles, double.qualifiedName = fullName) ↔
        HasAttribute (symbols config c) ((symbols config c).partsOf fullName) config.mocks.marker ∧
          ∃ part ∈ (symbols config c).partsOf fullName, ShowsDouble config c part := by
  refine ⟨by rw [extract_doubles]; exact nodup_firstDoubles _, fun fullName => ?_⟩
  rw [extract_doubles, ← List.mem_map, qualifiedName_mem_firstDoubles, List.mem_map]
  constructor
  · rintro ⟨double, found, named⟩
    obtain ⟨decl, isScanned, candidate, described⟩ := Extractor.mem_all.1 found
    cases decl with
    | member m => cases described
    | type part =>
      obtain ⟨listed, notGenerated⟩ := type_mem_scanned.1 isScanned
      obtain ⟨isClass, attributes_ne, -⟩ := MockTarget.isCandidate_type.1 candidate
      obtain ⟨rfl, hasAttribute, inNamespace, namesTarget⟩ :=
        (MockTarget.exists_describe?_iff listed).1 ⟨double, described, named⟩
      exact ⟨hasAttribute, part, SymbolTable.mem_partsOf.2 ⟨listed, rfl⟩, isClass, notGenerated, inNamespace,
        attributes_ne, namesTarget⟩
  · rintro ⟨hasAttribute, part, inParts, shows⟩
    obtain ⟨listed, named⟩ := SymbolTable.mem_partsOf.1 inParts
    have baseTypes_ne : part.decl.baseTypes ≠ [] := by
      obtain ⟨written, -, -, -, first, -⟩ := shows.namesTarget
      intro none
      rw [none] at first
      cases first
    have candidate := MockTarget.isCandidate_type.2 ⟨shows.isClass, shows.attributes_ne, baseTypes_ne⟩
    obtain ⟨double, described, named⟩ := (MockTarget.exists_describe?_iff listed).2
      ⟨named, hasAttribute, shows.inNamespace, shows.namesTarget⟩
    exact ⟨double, Extractor.mem_all.2 ⟨_, type_mem_scanned.2 ⟨listed, shows.isScanned⟩, candidate, described⟩, named⟩

end Pass

/-! ## An example -/

namespace Sample

/-- A class with the attribute for doubles on one part and the base class on another, which has the given attributes. -/
def splitDouble (attributes : List String) : Compilation where
  name := "Split"
  references := []
  files :=
    [⟨"a", some "N", [], [classPart "Acts" [] [], classPart "D" ["M"] []]⟩,
      ⟨"b", some "N", [], [{ classPart "D" attributes [] with baseTypes := ["B<Acts>"] }]⟩]

-- Any attribute beside the base class makes the double known; without one, the attribute on the other part is missed.
example : ((Pass.extract shortNames (splitDouble ["Other"])).doubles.map (·.qualifiedName)) = ["N.D"] := by
  decide +kernel

example : ((Pass.extract shortNames (splitDouble [])).doubles.map (·.qualifiedName)) = [] := by
  decide +kernel

end Sample

end TypedWrappers
