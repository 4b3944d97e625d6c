import TypedWrappers.Proofs.DisplayedTypes
import TypedWrappers.Proofs.Samples
import TypedWrappers.Proofs.TaskResults

/-!
# Displays as normal forms

The display of a type is described like the type itself, so that displaying again changes nothing, and a generated
return type stands for itself. The full text of a type means that type in every scope and needs nothing imported, as
long as no type in it is in the global namespace, where another type could hide it.

- `SymbolTable.IsAbsolute`: a name that says the same in every scope;
- `SymbolTable.describe_of_isAbsolute`: a type of such names is its own display and its own full text;
- `TaskType.WrittenIn`: the name that generated code writes for a task means the task;
- `SymbolTable.describeText_normal`: displays, generated return types and full texts stand for themselves.
-/

namespace TypedWrappers

open Text

namespace TypeReference

/-- A type that is displayed by its full text. -/
def absolute (text : String) (ns : Option String) : TypeReference :=
  ⟨text, some text, ns, ∅⟩

/-- A name that is displayed in full, over arguments that are. -/
theorem ofParts_absolute (name : String) (ns : Option String) (arguments : List TypeSyntax) (marks : List TypeMark)
    (nsOf : TypeSyntax → Option String) :
    ofParts ⟨name, some name, ns, none⟩ (arguments.map fun t => absolute t.text (nsOf t)) marks =
      absolute (TypeSyntax.text ⟨name, arguments, marks⟩) ns := by
  have displays : (arguments.map fun t => absolute t.text (nsOf t)).map display = arguments.map TypeSyntax.text :=
    List.map_map
  have texts : (arguments.map fun t => absolute t.text (nsOf t)).mapM qualified =
      some (arguments.map TypeSyntax.text) := by
    rw [List.mapM_map]
    exact List.mapM_pure
  have nothing : NameSet.unions ((arguments.map fun t => absolute t.text (nsOf t)).map namespaces) = ∅ := by
    apply NameSet.eq_of_mem_iff
    intro x
    rw [NameSet.mem_unions]
    refine iff_of_false ?_ (NameSet.not_mem_empty x)
    rintro ⟨s, hs, mem⟩
    obtain ⟨r, hr, rfl⟩ := List.mem_map.1 hs
    obtain ⟨t, -, rfl⟩ := List.mem_map.1 hr
    exact NameSet.not_mem_empty x mem
  rw [ofParts, displays, texts, nothing, ← applied_text]
  rfl

end TypeReference

namespace SymbolTable

variable {table : SymbolTable} {scope : Scope}

/-! ## Names that mean the same everywhere -/

/-- A name that is its own display and its own full name in every scope. -/
def IsAbsolute (table : SymbolTable) (name : String) : Prop :=
  ∃ ns, ∀ out, table.describeName out ⟨name, [], []⟩ = ⟨name, some name, ns, none⟩

/-- A name that means a type of the global namespace in a scope. -/
def MeansGlobal (table : SymbolTable) (scope : Scope) (name : String) : Prop :=
  isKeyword (TypeSyntax.baseName ⟨name, [], []⟩) = false ∧
    ∃ full ∈ table.resolve? scope name, namespaceOf? full = none

instance (table : SymbolTable) (scope : Scope) (name : String) : Decidable (table.MeansGlobal scope name) :=
  inferInstanceAs (Decidable (_ ∧ ∃ full ∈ table.resolve? scope name, namespaceOf? full = none))

/-- The full name that a name is known as says the same in every scope, unless it is in the global namespace. -/
theorem describeName_qualified (wellNamed : table.WellNamed) {name full : String} (isName : isTypeName name = true)
    (known : (table.describeName scope ⟨name, [], []⟩).qualified = some full)
    (notGlobal : ¬ table.MeansGlobal scope name) (out : Scope) :
    table.describeName out ⟨full, [], []⟩ =
      ⟨full, some full, (table.describeName scope ⟨name, [], []⟩).ns, none⟩ := by
  cases keyword : isKeyword (TypeSyntax.baseName ⟨name, [], []⟩) with
  | true =>
    rw [describeName_of_isKeyword keyword] at known ⊢
    obtain rfl : name = full := Option.some.inj known
    exact describeName_of_isKeyword keyword
  | false =>
    have found : table.resolve? scope name = some full := (qualified_describeName keyword).symm.trans known
    have isKnown : table.contains full = true := (contains_of_resolve? (t := ⟨name, [], []⟩) isName keyword found).1
    have dotted : isDotted full = true := by
      rw [← Bool.not_eq_false]
      intro undotted
      exact notGlobal ⟨keyword, full, found, namespaceOf?_of_undotted undotted⟩
    have ns : (table.describeName scope ⟨name, [], []⟩).ns = namespaceOf? full := by
      rw [describeName_of_resolve? keyword found]
      split <;> rfl
    rw [ns]
    exact describeName_of_contains (t := ⟨full, [], []⟩) wellNamed isKnown dotted

/-! ## Full texts -/

mutual

/-- The names of a full text say the same in every scope, unless one of them is in the global namespace. -/
theorem isAbsolute_of_meant? (wellNamed : table.WellNamed) : ∀ (t : TypeSyntax) {u : TypeSyntax}, t.WellNamed →
    (∀ name ∈ t.names, ¬ table.MeansGlobal scope name) → table.meant? scope t = some u →
    ∀ name ∈ u.names, table.IsAbsolute name
  | ⟨name, arguments, marks⟩, _, ⟨isName, named⟩, notGlobal, h => by
    obtain ⟨outer, inner, known, all, rfl⟩ := meant?_eq_some_iff.1 h
    rw [describeName_mk name arguments marks] at known
    rw [TypeSyntax.names, List.forall_mem_cons] at notGlobal ⊢
    have absolute : table.IsAbsolute outer :=
      ⟨(table.describeName scope ⟨name, [], []⟩).ns, describeName_qualified wellNamed isName known notGlobal.1⟩
    exact ⟨absolute, isAbsolute_of_meantAll? wellNamed arguments named notGlobal.2 all⟩

theorem isAbsolute_of_meantAll? (wellNamed : table.WellNamed) : ∀ (ts : List TypeSyntax) {us : List TypeSyntax},
    TypeSyntax.AllWellNamed ts → (∀ name ∈ TypeSyntax.allNames ts, ¬ table.MeansGlobal scope name) →
    table.meantAll? scope ts = some us → ∀ name ∈ TypeSyntax.allNames us, table.IsAbsolute name
  | [], _, _, _, h => by
    cases h
    exact nofun
  | t :: rest, _, ⟨named, allNamed⟩, notGlobal, h => by
    obtain ⟨first, others, meant, all, rfl⟩ := meantAll?_cons_eq_some_iff.1 h
    rw [TypeSyntax.allNames, List.forall_mem_append] at notGlobal ⊢
    exact ⟨isAbsolute_of_meant? wellNamed t named notGlobal.1 meant,
      isAbsolute_of_meantAll? wellNamed rest allNamed notGlobal.2 all⟩

end

mutual

/-- A type of names that say the same in every scope is its own display and its own full text there. -/
theorem describe_of_isAbsolute (out : Scope) : ∀ t : TypeSyntax, (∀ name ∈ t.names, table.IsAbsolute name) →
    table.describe out t = .absolute t.text (table.describeName out t).ns
  | ⟨name, arguments, marks⟩, absolute => by
    rw [TypeSyntax.names, List.forall_mem_cons] at absolute
    obtain ⟨⟨ns, ofName⟩, ofArguments⟩ := absolute
    rw [describe, describeAll_of_isAbsolute out arguments ofArguments, describeName_mk name arguments marks, ofName out]
    exact TypeReference.ofParts_absolute name ns arguments marks fun t => (table.describeName out t).ns

theorem describeAll_of_isAbsolute (out : Scope) : ∀ ts : List TypeSyntax,
    (∀ name ∈ TypeSyntax.allNames ts, table.IsAbsolute name) →
    table.describeAll out ts = ts.map fun t => .absolute t.text (table.describeName out t).ns
  | [], _ => rfl
  | t :: rest, absolute => by
    rw [TypeSyntax.allNames, List.forall_mem_append] at absolute
    rw [describeAll, describe_of_isAbsolute out t absolute.1, describeAll_of_isAbsolute out rest absolute.2,
      List.map_cons]

end

/-- The full text of a known type means that type in every scope, unless a type in it is in the global namespace. -/
theorem describeText_qualified (wellNamed : table.WellNamed) {t : TypeSyntax} (named : t.WellNamed)
    (notGlobal : ∀ name ∈ t.names, ¬ table.MeansGlobal scope name) {q : String}
    (known : (table.describe scope t).qualified = some q) (out : Scope) :
    table.describeText out q = .absolute q (table.describe scope t).ns := by
  rw [qualified_describe, Option.map_eq_some_iff] at known
  obtain ⟨u, meant, rfl⟩ := known
  have namedU : u.WellNamed := wellNamed_of_meant? wellNamed t named meant
  have ns : (table.describeName out u).ns = (table.describeName scope t).ns := by
    obtain ⟨name, arguments, marks⟩ := t
    obtain ⟨outer, inner, outerKnown, -, rfl⟩ := meant?_eq_some_iff.1 meant
    rw [TypeSyntax.names, List.forall_mem_cons] at notGlobal
    rw [describeName_mk name arguments marks] at outerKnown ⊢
    rw [describeName_mk outer inner marks, describeName_qualified wellNamed named.1 outerKnown notGlobal.1]
  rw [describeText_of_parse? (TypeSyntax.parse?_text namedU), ns_describe, ← ns]
  exact describe_of_isAbsolute out u (isAbsolute_of_meant? wellNamed t named notGlobal meant)

/-! ## Displays -/

/-- The display of a type is described like the type. -/
theorem describeText_display (wellNamed : table.WellNamed) {t : TypeSyntax} (named : t.WellNamed) :
    table.describeText scope (table.describe scope t).display = table.describe scope t := by
  rw [describeText_of_parse? (parse?_display_describe wellNamed named)]
  exact describe_shown scope wellNamed t named fun _ _ _ => rfl

end SymbolTable

/-! ## Generated return types -/

theorem TaskType.of_eq_applied (task : TaskType) (result : Option TypeReference) :
    task.of result = TypeReference.applied task.name (result.toList.map TypeReference.display) [] := by
  cases result with
  | none => simp [TaskType.of, TypeReference.applied, TypeMark.textAll]
  | some type => simp [TaskType.of, TypeReference.applied, TypeMark.textAll]

/-- The name that generated code writes for a task is a single name that means the task in a scope. -/
structure TaskType.WrittenIn (task : TaskType) (table : SymbolTable) (scope : Scope) : Prop where
  isPart : isNamePart task.name.toList = true
  noKeyword : isKeyword task.name = false
  means : table.resolve? scope task.name = some task.fullName

namespace TaskType.WrittenIn

variable {task : TaskType} {table : SymbolTable} {scope : Scope}

theorem isDottedName_name (written : task.WrittenIn table scope) : isDottedName task.name.toList = true :=
  isDottedName_of_isNamePart written.isPart

theorem baseName_ne (written : task.WrittenIn table scope) : TypeSyntax.baseName ⟨task.name, [], []⟩ ≠ "void" := by
  have base : TypeSyntax.baseName ⟨task.name, [], []⟩ = task.name :=
    SymbolTable.baseName_of_isDottedName (t := ⟨task.name, [], []⟩) written.isDottedName_name
  rw [base]
  intro isVoid
  have noKeyword := written.noKeyword
  rw [isVoid] at noKeyword
  exact absurd noKeyword (by decide)

/-- A task of types is read as its name with the types as arguments. -/
theorem parse?_applied (written : task.WrittenIn table scope) (arguments : List TypeSyntax)
    (named : TypeSyntax.AllWellNamed arguments) :
    TypeSyntax.parse? (TypeReference.applied task.name (arguments.map TypeSyntax.text) []) =
      some ⟨task.name, arguments, []⟩ := by
  rw [TypeReference.applied_text]
  exact TypeSyntax.parse?_text ⟨isTypeName_of_isDottedName written.isDottedName_name, named⟩

/-- A task of the result of a method, as generated code writes it, is a task of that result. -/
theorem returnShape_returning (written : task.WrittenIn table scope) (wellNamed : table.WellNamed) {text : String}
    {t : TypeSyntax} (read : TypeSyntax.parse? text = some t) :
    table.returnShape scope task (task.returning (table.returnShape scope task text)) =
      .wrapped (table.returnShape scope task text).result? := by
  rw [TaskType.returning]
  cases result : (table.returnShape scope task text).result? with
  | none =>
    have plain : TypeSyntax.parse? (task.of none) = some ⟨task.name, [], []⟩ := by
      rw [TaskType.of_eq_applied]
      exact written.parse?_applied [] trivial
    exact SymbolTable.returnShape_of_parse?_name plain written.baseName_ne written.means
  | some type =>
    obtain ⟨u, named, rfl⟩ := SymbolTable.exists_describe_of_result? read result
    have namedShown : (table.shown scope u).WellNamed := SymbolTable.wellNamed_shown wellNamed u named
    have applied : TypeSyntax.parse? (task.of (some (table.describe scope u))) =
        some ⟨task.name, [table.shown scope u], []⟩ := by
      rw [TaskType.of_eq_applied, Option.toList_some, List.map_singleton, SymbolTable.display_describe]
      exact written.parse?_applied [table.shown scope u] ⟨namedShown, trivial⟩
    rw [SymbolTable.returnShape_of_parse?_applied applied written.means, if_neg written.baseName_ne,
      SymbolTable.describe_shown scope wellNamed u named fun _ _ _ => rfl]

end TaskType.WrittenIn

/-- **Descriptions are normal forms**: the display of a type is described like the type, and from the return type that
is generated for a method the same one is generated again. The full text of a type stands for itself in every scope,
with nothing to import, unless a type in it is in the global namespace. -/
theorem SymbolTable.describeText_normal {table : SymbolTable} {scope : Scope} (wellNamed : table.WellNamed)
    {text : String} {t : TypeSyntax} (read : TypeSyntax.parse? text = some t) :
    table.describeText scope (table.describeText scope text).display = table.describeText scope text ∧
      (∀ task : TaskType, task.WrittenIn table scope →
        task.returning (table.returnShape scope task (task.returning (table.returnShape scope task text))) =
          task.returning (table.returnShape scope task text)) ∧
      ∀ q, (table.describeText scope text).qualified = some q → (∀ name ∈ t.names, ¬ table.MeansGlobal scope name) →
        ∀ out, table.describeText out q = ⟨q, some q, (table.describeText scope text).ns, ∅⟩ := by
  have named : t.WellNamed := (TypeSyntax.parse?_eq_some_iff.1 read).1
  rw [describeText_of_parse? read]
  refine ⟨describeText_display wellNamed named, ?_, ?_⟩
  · intro task written
    rw [written.returnShape_returning wellNamed read]
    rfl
  · intro q known notGlobal out
    exact describeText_qualified wellNamed named notGlobal known out

/-! ## An example -/

namespace Sample

/-- A display makes a relative name full, and what is written after that stays as it is. -/
theorem describeText_basket_normal :
    market.WellNamed ∧ TypeSyntax.parse? basket = some basketTree ∧ taskType.WrittenIn market marketScope ∧
      (∀ name ∈ basketTree.names, ¬ market.MeansGlobal marketScope name) ∧
      market.describeText marketScope "List<Shop.Models.Order?, Line[], int>" =
        market.describeText marketScope basket ∧
      taskType.returning (market.returnShape marketScope taskType "Task<List<Shop.Models.Order?, Line[], int>>") =
        "Task<List<Shop.Models.Order?, Line[], int>>" ∧
      ∀ out, market.describeText out "Lib.List<Shop.Models.Order?, Shop.App.Line[], int>" =
        ⟨"Lib.List<Shop.Models.Order?, Shop.App.Line[], int>",
          some "Lib.List<Shop.Models.Order?, Shop.App.Line[], int>", some "Lib", ∅⟩ := by
  have wellNamed : market.WellNamed := SymbolTable.wellNamed_ofList (by decide +kernel)
  have read : TypeSyntax.parse? basket = some basketTree := by decide +kernel
  have written : taskType.WrittenIn market marketScope := ⟨by decide +kernel, by decide +kernel, by decide +kernel⟩
  have notGlobal : ∀ name ∈ basketTree.names, ¬ market.MeansGlobal marketScope name := by decide +kernel
  have described : market.describeText marketScope basket =
      ⟨"List<Shop.Models.Order?, Line[], int>", some "Lib.List<Shop.Models.Order?, Shop.App.Line[], int>",
        some "Lib", .ofList ["Lib", "Shop.App"]⟩ := by decide +kernel
  have returning : taskType.returning (market.returnShape marketScope taskType basket) =
      "Task<List<Shop.Models.Order?, Line[], int>>" := by decide +kernel
  obtain ⟨again, generated, everywhere⟩ := SymbolTable.describeText_normal wellNamed read
  have generated := generated taskType written
  rw [returning] at generated
  rw [described] at again everywhere ⊢
  exact ⟨wellNamed, read, written, notGlobal, again, generated, everywhere _ rfl notGlobal⟩

end Sample

end TypedWrappers
