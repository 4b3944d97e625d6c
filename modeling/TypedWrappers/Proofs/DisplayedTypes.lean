import TypedWrappers.Proofs.ScopeLookup
import TypedWrappers.Proofs.TypeSpelling
import TypedWrappers.TypeReference

/-!
# Types as they are displayed

The display of a type is itself type text: names with dots made full, all others as written. What it means where it is
written depends on the simple names in it alone.

- `SymbolTable.shown`, `SymbolTable.meant?`: the trees of the display and of the full text;
- `SymbolTable.Imports`, `SymbolTable.mem_namespaces_describe`: which namespaces a display needs;
- `SymbolTable.describe_shown`: where a display says all that the type says;
- `SymbolTable.qualified_describeText_display_iff`: the display of a known type means that type in another scope exactly
  when the simple names in it mean the same there.
-/

namespace TypedWrappers

open Text

namespace TypeSyntax

/-- A name without the alias of the global namespace. -/
def withoutAlias (name : String) : String :=
  (afterPrefix? globalAlias name).getD name

theorem baseName_eq_withoutAlias (t : TypeSyntax) : t.baseName = withoutAlias t.name := rfl

/-- The alias has no dot. -/
theorem isDotted_withoutAlias (name : String) : isDotted (withoutAlias name) = isDotted name := by
  rw [withoutAlias]
  cases aliased : afterPrefix? globalAlias name with
  | none => rfl
  | some base =>
    rw [Option.getD_some, ← append_of_afterPrefix? aliased]
    simp [isDotted, globalAlias]

/-- Arguments between angle brackets are their spellings with commas between them. -/
theorem intercalate_text (t : TypeSyntax) (rest : List TypeSyntax) :
    ", ".intercalate ((t :: rest).map text) ++ ">" = t.text ++ restText rest := by
  induction rest generalizing t with
  | nil =>
    rw [List.map_cons, List.map_nil, String.intercalate_singleton]
    rfl
  | cons u rest ih =>
    rw [List.map_cons, List.map_cons, String.intercalate_cons_cons, String.append_assoc, ← List.map_cons, ih, restText]
    simp only [String.append_assoc]

end TypeSyntax

/-- A name applied to spellings is the spelling of the tree. -/
theorem TypeReference.applied_text (name : String) (arguments : List TypeSyntax) (marks : List TypeMark) :
    applied name (arguments.map TypeSyntax.text) marks = TypeSyntax.text ⟨name, arguments, marks⟩ := by
  cases arguments with
  | nil => simp [applied, TypeSyntax.text, TypeSyntax.argumentsText]
  | cons t rest =>
    have inside := TypeSyntax.intercalate_text t rest
    have outside (inner : String) : name ++ "<" ++ inner ++ ">" = name ++ "<" ++ (inner ++ ">") := String.append_assoc
    rw [applied, if_neg (by simp), outside, inside, TypeSyntax.text, TypeSyntax.argumentsText]
    simp only [String.append_assoc]

namespace SymbolTable

variable {table : SymbolTable} {scope out : Scope}

/-! ## The trees of a display and of a full text -/

mutual

/-- The tree of the display. -/
def shown (table : SymbolTable) (scope : Scope) : TypeSyntax → TypeSyntax
  | ⟨name, arguments, marks⟩ =>
    ⟨(table.describeName scope ⟨name, arguments, marks⟩).display, shownAll table scope arguments, marks⟩

def shownAll (table : SymbolTable) (scope : Scope) : List TypeSyntax → List TypeSyntax
  | [] => []
  | t :: rest => shown table scope t :: shownAll table scope rest

end

mutual

/-- The tree of the full text, where all names in it are known. -/
def meant? (table : SymbolTable) (scope : Scope) : TypeSyntax → Option TypeSyntax
  | ⟨name, arguments, marks⟩ => do
    let outer ← (table.describeName scope ⟨name, arguments, marks⟩).qualified
    let inner ← meantAll? table scope arguments
    some ⟨outer, inner, marks⟩

def meantAll? (table : SymbolTable) (scope : Scope) : List TypeSyntax → Option (List TypeSyntax)
  | [] => some []
  | t :: rest => do
    let first ← meant? table scope t
    let others ← meantAll? table scope rest
    some (first :: others)

end

mutual

theorem display_describe : ∀ t : TypeSyntax, (table.describe scope t).display = (table.shown scope t).text
  | ⟨name, arguments, marks⟩ => by
    rw [describe, TypeReference.ofParts, shown, ← TypeReference.applied_text, map_display_describeAll arguments]

theorem map_display_describeAll : ∀ ts : List TypeSyntax,
    (table.describeAll scope ts).map TypeReference.display = (table.shownAll scope ts).map TypeSyntax.text
  | [] => rfl
  | t :: rest => by
    rw [describeAll, shownAll, List.map_cons, List.map_cons, display_describe t, map_display_describeAll rest]

end

theorem ns_describe : ∀ t : TypeSyntax, (table.describe scope t).ns = (table.describeName scope t).ns
  | ⟨name, arguments, marks⟩ => by
    rw [describe]
    rfl

mutual

theorem qualified_describe : ∀ t : TypeSyntax,
    (table.describe scope t).qualified = (table.meant? scope t).map TypeSyntax.text
  | ⟨name, arguments, marks⟩ => by
    rw [describe, TypeReference.ofParts, meant?, mapM_qualified_describeAll arguments]
    cases (table.describeName scope ⟨name, arguments, marks⟩).qualified with
    | none => rfl
    | some outer =>
      cases table.meantAll? scope arguments with
      | none => rfl
      | some inner => exact congrArg some (TypeReference.applied_text outer inner marks)

theorem mapM_qualified_describeAll : ∀ ts : List TypeSyntax,
    (table.describeAll scope ts).mapM TypeReference.qualified =
      (table.meantAll? scope ts).map (List.map TypeSyntax.text)
  | [] => rfl
  | t :: rest => by
    rw [describeAll, List.mapM_cons, qualified_describe t, mapM_qualified_describeAll rest, meantAll?]
    cases table.meant? scope t with
    | none => rfl
    | some first =>
      cases table.meantAll? scope rest with
      | none => rfl
      | some others => rfl

end

/-! ## One name -/

theorem describeName_congr {t u : TypeSyntax} (h : t.name = u.name) :
    table.describeName scope t = table.describeName scope u := by
  have base : t.baseName = u.baseName := by rw [TypeSyntax.baseName, TypeSyntax.baseName, h]
  rw [describeName, describeName, base, h]

/-- Arguments and marks do not matter to what a name says. -/
theorem describeName_mk (name : String) (arguments : List TypeSyntax) (marks : List TypeMark) :
    table.describeName scope ⟨name, arguments, marks⟩ = table.describeName scope ⟨name, [], []⟩ :=
  describeName_congr rfl

theorem describeName_of_isKeyword {t : TypeSyntax} (keyword : isKeyword t.baseName = true) :
    table.describeName scope t = ⟨t.name, some t.name, none, none⟩ := by
  rw [describeName, if_pos keyword]

theorem describeName_of_resolve? {t : TypeSyntax} {full : String} (noKeyword : isKeyword t.baseName = false)
    (found : table.resolve? scope t.name = some full) :
    table.describeName scope t =
      if isDotted t.baseName then ⟨full, some full, namespaceOf? full, none⟩
      else ⟨t.name, some full, namespaceOf? full, namespaceOf? full⟩ := by
  rw [describeName, if_neg (by rw [noKeyword]; exact Bool.false_ne_true), found]

theorem describeName_of_resolve?_eq_none {t : TypeSyntax} (noKeyword : isKeyword t.baseName = false)
    (none : table.resolve? scope t.name = none) : table.describeName scope t = ⟨t.name, .none, .none, .none⟩ := by
  rw [describeName, if_neg (by rw [noKeyword]; exact Bool.false_ne_true), none]

/-- A name that is no keyword is known as what it means. -/
theorem qualified_describeName {t : TypeSyntax} (noKeyword : isKeyword t.baseName = false) :
    (table.describeName scope t).qualified = table.resolve? scope t.name := by
  cases found : table.resolve? scope t.name with
  | none => rw [describeName_of_resolve?_eq_none noKeyword found]
  | some full =>
    rw [describeName_of_resolve? noKeyword found]
    split <;> rfl

/-- The base of a full name is that name. -/
theorem baseName_of_isDottedName {t : TypeSyntax} (h : isDottedName t.name.toList = true) : t.baseName = t.name := by
  rw [TypeSyntax.baseName, afterPrefix?_alias_of_isDottedName h, Option.getD_none]

/-- The full name of a known type says the same in every scope, unless the type is in the global namespace. -/
theorem describeName_of_contains (wellNamed : table.WellNamed) {t : TypeSyntax} (known : table.contains t.name = true)
    (dotted : isDotted t.name = true) :
    table.describeName scope t = ⟨t.name, some t.name, namespaceOf? t.name, none⟩ := by
  have base : t.baseName = t.name := baseName_of_isDottedName (wellNamed t.name known)
  have noKeyword : isKeyword t.baseName = false := by
    rw [base, isKeyword, keywordType?_of_isDotted dotted]
    rfl
  rw [describeName_of_resolve? noKeyword (resolve?_of_contains wellNamed known dotted), base, if_pos dotted]

theorem isSimple_name_iff {t : TypeSyntax} :
    isSimple t.name = true ↔
      afterPrefix? TypeSyntax.globalAlias t.name = none ∧ isKeyword t.baseName = false ∧
        isDotted t.baseName = false := by
  rw [isSimple_iff]
  refine and_congr_right fun noAlias => ?_
  rw [TypeSyntax.baseName, noAlias, Option.getD_none, isKeyword, Option.isSome_eq_false_iff, Option.isNone_iff_eq_none]

/-- The name that is displayed for a name says in another scope what that name says, as long as a name that is simple or
not known means the same there. -/
theorem describeName_display (out : Scope) (wellNamed : table.WellNamed) {t u : TypeSyntax}
    (isName : isTypeName t.name = true) (display : u.name = (table.describeName scope t).display)
    (same : isSimple t.name = true ∨ (table.describeName scope t).qualified = none →
      table.resolve? out t.name = table.resolve? scope t.name) :
    table.describeName out u = table.describeName scope t := by
  cases keyword : isKeyword t.baseName with
  | true =>
    rw [describeName_of_isKeyword keyword] at display
    rw [describeName_congr display, describeName_of_isKeyword keyword, describeName_of_isKeyword keyword]
  | false =>
    cases found : table.resolve? scope t.name with
    | none =>
      have unknown : (table.describeName scope t).qualified = none := (qualified_describeName keyword).trans found
      rw [describeName_of_resolve?_eq_none keyword found] at display
      rw [describeName_congr display, describeName_of_resolve?_eq_none keyword found,
        describeName_of_resolve?_eq_none keyword ((same (.inr unknown)).trans found)]
    | some full =>
      obtain ⟨isKnown, dotted_of⟩ := contains_of_resolve? isName keyword found
      rw [describeName_of_resolve? keyword found] at display ⊢
      cases dotted : isDotted t.baseName with
      | true =>
        -- a full name is displayed, and it means that type everywhere
        rw [if_pos dotted] at display
        obtain rfl : u.name = full := display
        rw [describeName_of_contains wellNamed isKnown (dotted_of dotted), if_pos rfl]
      | false =>
        rw [if_neg (by rw [dotted]; exact Bool.false_ne_true)] at display
        have name : u.name = t.name := display
        have means : table.resolve? out t.name = some full := by
          cases aliased : afterPrefix? TypeSyntax.globalAlias t.name with
          | some base => rw [resolve?_of_alias isName aliased out scope, found]
          | none => rw [same (.inl (isSimple_name_iff.2 ⟨aliased, keyword, dotted⟩)), found]
        rw [describeName_congr name, describeName_of_resolve? keyword means, dotted]

/-- Where a name is known, the name that is displayed for it means the same in another scope exactly when it is not
simple or it means the same there. -/
theorem qualified_describeName_display_iff (out : Scope) (wellNamed : table.WellNamed) {t u : TypeSyntax}
    {full : String} (isName : isTypeName t.name = true) (known : (table.describeName scope t).qualified = some full)
    (display : u.name = (table.describeName scope t).display) :
    (table.describeName out u).qualified = some full ↔
      (isSimple t.name = true → table.resolve? out t.name = table.resolve? scope t.name) := by
  constructor
  · intro knownOut simple
    obtain ⟨-, noKeyword, undotted⟩ := isSimple_name_iff.1 simple
    have found : table.resolve? scope t.name = some full := (qualified_describeName noKeyword).symm.trans known
    rw [describeName_of_resolve? noKeyword found, undotted] at display
    rw [describeName_congr (show u.name = t.name from display), qualified_describeName noKeyword] at knownOut
    rw [knownOut, found]
  · intro same
    have same : isSimple t.name = true ∨ (table.describeName scope t).qualified = none →
        table.resolve? out t.name = table.resolve? scope t.name :=
      fun h => same (h.resolve_right (by rw [known]; exact nofun))
    rw [describeName_display out wellNamed isName display same, known]

/-- A name is no keyword, is written without a dot, and means a type in a namespace. -/
def Imports (table : SymbolTable) (scope : Scope) (name ns : String) : Prop :=
  isKeyword (TypeSyntax.withoutAlias name) = false ∧ isDotted name = false ∧
    ∃ full, table.resolve? scope name = some full ∧ namespaceOf? full = some ns

/-- The namespace that a name needs is the one that it imports. -/
theorem importing_describeName_iff {t : TypeSyntax} {ns : String} :
    (table.describeName scope t).importing = some ns ↔ table.Imports scope t.name ns := by
  rw [Imports, ← TypeSyntax.isDotted_withoutAlias, ← TypeSyntax.baseName_eq_withoutAlias]
  cases keyword : isKeyword t.baseName with
  | true => simp [describeName_of_isKeyword keyword]
  | false =>
    cases found : table.resolve? scope t.name with
    | none => simp [describeName_of_resolve?_eq_none keyword found]
    | some full =>
      rw [describeName_of_resolve? keyword found]
      cases isDotted t.baseName <;> simp

/-- Only simple names import: behind the alias is a type of the global namespace. -/
theorem imports_iff {name ns : String} (isName : isTypeName name = true) :
    table.Imports scope name ns ↔
      isSimple name = true ∧ ∃ full, table.resolve? scope name = some full ∧ namespaceOf? full = some ns := by
  have simple := isSimple_name_iff (t := ⟨name, [], []⟩)
  rw [TypeSyntax.baseName_eq_withoutAlias, TypeSyntax.isDotted_withoutAlias] at simple
  constructor
  · rintro ⟨noKeyword, undotted, full, means, own⟩
    refine ⟨simple.2 ⟨Option.eq_none_iff_forall_ne_some.2 fun base aliased => ?_, noKeyword, undotted⟩, full, means,
      own⟩
    have isGlobal : full = base := by
      rw [resolve?, trim_of_isTypeName isName, aliased] at means
      dsimp only at means
      split at means
      · exact (Option.some.inj means).symm
      · cases means
    have undottedBase : isDotted base = false := by
      rwa [← TypeSyntax.isDotted_withoutAlias, TypeSyntax.withoutAlias, aliased] at undotted
    rw [isGlobal, namespaceOf?_of_undotted undottedBase] at own
    cases own
  · rintro ⟨isSimple, means⟩
    exact ⟨(simple.1 isSimple).2.1, (simple.1 isSimple).2.2, means⟩

/-! ## Whole trees -/

theorem isTypeName_describeName (wellNamed : table.WellNamed) {t : TypeSyntax} (isName : isTypeName t.name = true) :
    isTypeName (table.describeName scope t).display = true ∧
      ∀ full, (table.describeName scope t).qualified = some full → isTypeName full = true := by
  cases keyword : isKeyword t.baseName with
  | true =>
    rw [describeName_of_isKeyword keyword]
    refine ⟨isName, ?_⟩
    rintro full ⟨⟩
    exact isName
  | false =>
    cases found : table.resolve? scope t.name with
    | none =>
      rw [describeName_of_resolve?_eq_none keyword found]
      exact ⟨isName, nofun⟩
    | some full =>
      have isKnown := wellNamed full (contains_of_resolve? isName keyword found).1
      have isName' : isTypeName full = true := isTypeName_of_isDottedName isKnown
      rw [describeName_of_resolve? keyword found]
      split
      · exact ⟨isName', fun _ e => Option.some.inj e ▸ isName'⟩
      · exact ⟨isName, fun _ e => Option.some.inj e ▸ isName'⟩

mutual

/-- The names of a display are names of types. -/
theorem wellNamed_shown (wellNamed : table.WellNamed) : ∀ t : TypeSyntax, t.WellNamed → (table.shown scope t).WellNamed
  | ⟨name, arguments, marks⟩, ⟨isName, named⟩ => by
    have isName' : isTypeName (table.describeName scope ⟨name, arguments, marks⟩).display = true :=
      (isTypeName_describeName (t := ⟨name, arguments, marks⟩) wellNamed isName).1
    rw [shown]
    exact ⟨isName', wellNamed_shownAll wellNamed arguments named⟩

theorem wellNamed_shownAll (wellNamed : table.WellNamed) : ∀ ts : List TypeSyntax, TypeSyntax.AllWellNamed ts →
    TypeSyntax.AllWellNamed (table.shownAll scope ts)
  | [], _ => trivial
  | t :: rest, ⟨named, allNamed⟩ => ⟨wellNamed_shown wellNamed t named, wellNamed_shownAll wellNamed rest allNamed⟩

end

mutual

/-- A display says in another scope what the type says, as long as the names in it that are simple or not known mean the
same there. -/
theorem describe_shown (out : Scope) (wellNamed : table.WellNamed) : ∀ t : TypeSyntax, t.WellNamed →
    (∀ name ∈ t.names, isSimple name = true ∨ (table.describeName scope ⟨name, [], []⟩).qualified = none →
      table.resolve? out name = table.resolve? scope name) →
    table.describe out (table.shown scope t) = table.describe scope t
  | ⟨name, arguments, marks⟩, ⟨isName, named⟩, same => by
    rw [TypeSyntax.names, List.forall_mem_cons, ← describeName_mk name arguments marks] at same
    have ofName := describeName_display out (t := ⟨name, arguments, marks⟩)
      (u := table.shown scope ⟨name, arguments, marks⟩) wellNamed isName rfl same.1
    have ofArguments := describeAll_shownAll out wellNamed arguments named same.2
    rw [shown] at ofName ⊢
    rw [describe, describe, ofName, ofArguments]

theorem describeAll_shownAll (out : Scope) (wellNamed : table.WellNamed) : ∀ ts : List TypeSyntax,
    TypeSyntax.AllWellNamed ts →
    (∀ name ∈ TypeSyntax.allNames ts, isSimple name = true ∨
        (table.describeName scope ⟨name, [], []⟩).qualified = none →
      table.resolve? out name = table.resolve? scope name) →
    table.describeAll out (table.shownAll scope ts) = table.describeAll scope ts
  | [], _, _ => rfl
  | t :: rest, ⟨named, allNamed⟩, same => by
    rw [TypeSyntax.allNames, List.forall_mem_append] at same
    rw [shownAll, describeAll, describeAll, describe_shown out wellNamed t named same.1,
      describeAll_shownAll out wellNamed rest allNamed same.2]

end

theorem meant?_eq_some_iff {name : String} {arguments : List TypeSyntax} {marks : List TypeMark} {u : TypeSyntax} :
    table.meant? scope ⟨name, arguments, marks⟩ = some u ↔
      ∃ outer inner, (table.describeName scope ⟨name, arguments, marks⟩).qualified = some outer ∧
        table.meantAll? scope arguments = some inner ∧ u = ⟨outer, inner, marks⟩ := by
  simp only [meant?, Option.bind_eq_bind, Option.bind_eq_some_iff, Option.some.injEq]
  constructor
  · rintro ⟨outer, known, inner, all, rfl⟩
    exact ⟨outer, inner, known, all, rfl⟩
  · rintro ⟨outer, inner, known, all, rfl⟩
    exact ⟨outer, known, inner, all, rfl⟩

theorem meantAll?_cons_eq_some_iff {t : TypeSyntax} {rest us : List TypeSyntax} :
    table.meantAll? scope (t :: rest) = some us ↔
      ∃ first others, table.meant? scope t = some first ∧ table.meantAll? scope rest = some others ∧
        us = first :: others := by
  simp only [meantAll?, Option.bind_eq_bind, Option.bind_eq_some_iff, Option.some.injEq]
  constructor
  · rintro ⟨first, meant, others, all, rfl⟩
    exact ⟨first, others, meant, all, rfl⟩
  · rintro ⟨first, others, meant, all, rfl⟩
    exact ⟨first, meant, others, all, rfl⟩

mutual

/-- The names of a full text are names of types. -/
theorem wellNamed_of_meant? (wellNamed : table.WellNamed) : ∀ (t : TypeSyntax) {u : TypeSyntax}, t.WellNamed →
    table.meant? scope t = some u → u.WellNamed
  | ⟨name, arguments, marks⟩, _, ⟨isName, named⟩, h => by
    obtain ⟨outer, inner, known, all, rfl⟩ := meant?_eq_some_iff.1 h
    have isName' := (isTypeName_describeName (t := ⟨name, arguments, marks⟩) wellNamed isName).2 outer known
    exact ⟨isName', wellNamed_of_meantAll? wellNamed arguments named all⟩

theorem wellNamed_of_meantAll? (wellNamed : table.WellNamed) : ∀ (ts : List TypeSyntax) {us : List TypeSyntax},
    TypeSyntax.AllWellNamed ts → table.meantAll? scope ts = some us → TypeSyntax.AllWellNamed us
  | [], _, _, h => by
    cases h
    trivial
  | t :: rest, _, ⟨named, allNamed⟩, h => by
    obtain ⟨first, others, meant, all, rfl⟩ := meantAll?_cons_eq_some_iff.1 h
    exact ⟨wellNamed_of_meant? wellNamed t named meant, wellNamed_of_meantAll? wellNamed rest allNamed all⟩

end

mutual

/-- The display of a known type means that type in another scope exactly when its simple names mean the same there. -/
theorem meant?_shown_iff (wellNamed : table.WellNamed) : ∀ (t : TypeSyntax) {u : TypeSyntax}, t.WellNamed →
    table.meant? scope t = some u → (table.meant? out (table.shown scope t) = some u ↔
      ∀ name ∈ t.names, isSimple name = true → table.resolve? out name = table.resolve? scope name)
  | ⟨name, arguments, marks⟩, _, ⟨isName, named⟩, h => by
    obtain ⟨outer, inner, known, all, rfl⟩ := meant?_eq_some_iff.1 h
    have ofName := qualified_describeName_display_iff out (t := ⟨name, arguments, marks⟩)
      (u := table.shown scope ⟨name, arguments, marks⟩) wellNamed isName known rfl
    have ofArguments := meantAll?_shownAll_iff wellNamed arguments named all
    rw [TypeSyntax.names, List.forall_mem_cons, ← ofArguments, ← ofName, shown, meant?_eq_some_iff]
    simp

theorem meantAll?_shownAll_iff (wellNamed : table.WellNamed) : ∀ (ts : List TypeSyntax) {us : List TypeSyntax},
    TypeSyntax.AllWellNamed ts → table.meantAll? scope ts = some us →
      (table.meantAll? out (table.shownAll scope ts) = some us ↔
        ∀ name ∈ TypeSyntax.allNames ts, isSimple name = true → table.resolve? out name = table.resolve? scope name)
  | [], _, _, h => by
    cases h
    exact iff_of_true rfl nofun
  | t :: rest, _, ⟨named, allNamed⟩, h => by
    obtain ⟨first, others, meant, all, rfl⟩ := meantAll?_cons_eq_some_iff.1 h
    rw [TypeSyntax.allNames, List.forall_mem_append, ← meant?_shown_iff wellNamed t named meant,
      ← meantAll?_shownAll_iff wellNamed rest allNamed all, shownAll, meantAll?_cons_eq_some_iff]
    simp

end

mutual

/-- A type imports what the names in it import, whether it is known or not. -/
theorem mem_namespaces_describe_iff {ns : String} : ∀ t : TypeSyntax,
    ns ∈ (table.describe scope t).namespaces ↔ ∃ name ∈ t.names, table.Imports scope name ns
  | ⟨name, arguments, marks⟩ => by
    have ofName : (table.describeName scope ⟨name, arguments, marks⟩).importing = some ns ↔ _ :=
      importing_describeName_iff
    rw [describe, TypeReference.ofParts, NameSet.mem_insertAll, mem_namespaces_describeAll_iff arguments,
      TypeSyntax.names, Option.mem_toList, ofName]
    simp only [List.mem_cons, exists_eq_or_imp]

theorem mem_namespaces_describeAll_iff {ns : String} : ∀ ts : List TypeSyntax,
    ns ∈ NameSet.unions ((table.describeAll scope ts).map TypeReference.namespaces) ↔
      ∃ name ∈ TypeSyntax.allNames ts, table.Imports scope name ns
  | [] => by
    refine iff_of_false (NameSet.not_mem_empty ns) ?_
    rintro ⟨_, mem, -⟩
    cases mem
  | t :: rest => by
    have ofRest : ns ∈ NameSet.unions ((table.describeAll scope rest).map TypeReference.namespaces) ↔ _ :=
      mem_namespaces_describeAll_iff rest
    rw [NameSet.unions] at ofRest
    rw [describeAll, List.map_cons, NameSet.unions, List.foldr_cons, NameSet.mem_union, mem_namespaces_describe_iff t,
      ofRest, TypeSyntax.allNames]
    simp only [List.mem_append, or_and_right, exists_or]

end

/-- The namespaces that a display needs are those of the types that its simple names mean. -/
theorem mem_namespaces_describe {ns : String} (t : TypeSyntax) (named : t.WellNamed) :
    ns ∈ (table.describe scope t).namespaces ↔ ∃ name ∈ t.names, isSimple name = true ∧
      ∃ full, table.resolve? scope name = some full ∧ namespaceOf? full = some ns := by
  rw [mem_namespaces_describe_iff]
  exact exists_congr fun name => and_congr_right fun mem => imports_iff ((TypeSyntax.wellNamed_iff t).1 named name mem)

mutual

/-- A type is known when every name in it is. -/
theorem isSome_meant?_iff : ∀ t : TypeSyntax, (table.meant? scope t).isSome = true ↔
    ∀ name ∈ t.names, (table.describeName scope ⟨name, [], []⟩).qualified.isSome = true
  | ⟨name, arguments, marks⟩ => by
    rw [TypeSyntax.names, List.forall_mem_cons, ← isSome_meantAll?_iff arguments, meant?,
      describeName_mk name arguments marks]
    cases (table.describeName scope ⟨name, [], []⟩).qualified with
    | none => simp
    | some outer => cases table.meantAll? scope arguments <;> simp

theorem isSome_meantAll?_iff : ∀ ts : List TypeSyntax, (table.meantAll? scope ts).isSome = true ↔
    ∀ name ∈ TypeSyntax.allNames ts, (table.describeName scope ⟨name, [], []⟩).qualified.isSome = true
  | [] => iff_of_true rfl nofun
  | t :: rest => by
    rw [TypeSyntax.allNames, List.forall_mem_append, ← isSome_meant?_iff t, ← isSome_meantAll?_iff rest, meantAll?]
    cases table.meant? scope t with
    | none => simp
    | some first => cases table.meantAll? scope rest <;> simp

end

theorem isResolved_describe_iff {t : TypeSyntax} : (table.describe scope t).isResolved = true ↔
    ∀ name ∈ t.names, (table.describeName scope ⟨name, [], []⟩).qualified.isSome = true := by
  rw [TypeReference.isResolved, qualified_describe, Option.isSome_map, isSome_meant?_iff]

/-- The simple names in a known type mean known types. -/
theorem exists_resolve?_of_isResolved {t : TypeSyntax} (named : t.WellNamed)
    (resolved : (table.describe scope t).isResolved = true) {name : String} (mem : name ∈ t.names)
    (simple : isSimple name = true) : ∃ full, table.resolve? scope name = some full ∧ table.contains full = true := by
  have isKnown := isResolved_describe_iff.1 resolved name mem
  have noKeyword : isKeyword (TypeSyntax.baseName ⟨name, [], []⟩) = false :=
    (isSimple_name_iff (t := ⟨name, [], []⟩) |>.1 simple).2.1
  rw [qualified_describeName noKeyword] at isKnown
  obtain ⟨full, found⟩ := Option.isSome_iff_exists.1 isKnown
  have isName : isTypeName (TypeSyntax.name ⟨name, [], []⟩) = true :=
    (TypeSyntax.wellNamed_iff t).1 named name mem
  exact ⟨full, found, (contains_of_resolve? isName noKeyword found).1⟩

/-- A simple name means a type of the global namespace or of one of the namespaces that the display needs. -/
theorem eq_or_exists_namespace {t : TypeSyntax} (named : t.WellNamed) {name full : String} (mem : name ∈ t.names)
    (simple : isSimple name = true) (means : table.resolve? scope name = some full) :
    full = name ∨ ∃ ns ∈ (table.describe scope t).namespaces, full = ns ++ "." ++ name := by
  have isName := (TypeSyntax.wellNamed_iff t).1 named name mem
  have found := means
  rw [resolve?_of_isSimple isName simple] at found
  refine (contains_of_lookupSimple found).2.imp_right ?_
  rintro ⟨ns, rfl⟩
  obtain ⟨-, -, undotted⟩ := isSimple_iff.1 simple
  exact ⟨ns, (mem_namespaces_describe t named).2 ⟨name, mem, simple, _, means, namespaceOf?_qualified undotted⟩, rfl⟩

/-- A display is read as its tree. -/
theorem parse?_display_describe (wellNamed : table.WellNamed) {t : TypeSyntax} (named : t.WellNamed) :
    TypeSyntax.parse? (table.describe scope t).display = some (table.shown scope t) := by
  rw [display_describe]
  exact TypeSyntax.parse?_text (wellNamed_shown wellNamed t named)

/-- **What a display means**: where all names of a type are known, its display is read as that type in another scope
exactly when the simple names in it mean the same there. -/
theorem qualified_describeText_display_iff (wellNamed : table.WellNamed) {t : TypeSyntax} (named : t.WellNamed)
    (resolved : (table.describe scope t).isResolved = true) :
    (table.describeText out (table.describe scope t).display).qualified = (table.describe scope t).qualified ↔
      ∀ name ∈ t.names, isSimple name = true → table.resolve? out name = table.resolve? scope name := by
  rw [TypeReference.isResolved, qualified_describe, Option.isSome_map] at resolved
  obtain ⟨u, meant⟩ := Option.isSome_iff_exists.1 resolved
  have namedShown : (table.shown scope t).WellNamed := wellNamed_shown wellNamed t named
  rw [describeText_of_parse? (parse?_display_describe wellNamed named), qualified_describe t, meant]
  rw [qualified_describe, ← meant?_shown_iff wellNamed t named meant]
  cases again : table.meant? out (table.shown scope t) with
  | none => exact ⟨nofun, nofun⟩
  | some u' =>
    have namedU : u.WellNamed := wellNamed_of_meant? wellNamed t named meant
    have namedU' : u'.WellNamed := wellNamed_of_meant? wellNamed _ namedShown again
    rw [Option.map_some, Option.map_some, Option.some.injEq, Option.some.injEq, TypeSyntax.text_inj namedU' namedU]

end SymbolTable

end TypedWrappers
